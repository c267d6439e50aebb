/-
A bubble sort and a binary search, as nested loops over a list.

The sort puts the greatest element first.  The search keeps one more than its
upper end, so that the end may move below the first index; it returns the index of
the key, or the place where it would be.  The search does not need the whole list
to be ordered: what it never looks at may be anything.

* `bubbleSort_spec` — the sort is correct.
-/
import KlipperGo.GoRuntime
import Mathlib.Order.Lattice

open GoRuntime List

namespace SortSearch

section Sorting

variable {α β : Type*} [LinearOrder β] (v : α → β)

/-- The inner loop: the first `k` pairs of neighbours. -/
def bubblePass : ℕ → List α → List α
  | k + 1, a :: b :: l =>
    if v a < v b then b :: bubblePass k (a :: l) else a :: bubblePass k (b :: l)
  | _, l => l

/-- The outer loop, with `k` pairs in its next pass. -/
def bubblePasses : ℕ → List α → List α
  | 0, l => l
  | k + 1, l => bubblePasses k (bubblePass v (k + 1) l)

def bubbleSort (l : List α) : List α := bubblePasses v (l.length - 1) l

variable {v}

/-- The greater one of two neighbours stays, and the other one goes on. -/
theorem bubblePass_cons (k : ℕ) (x y : α) (l : List α) :
    ∃ s t, bubblePass v (k + 1) (x :: y :: l) = s :: bubblePass v k (t :: l) ∧
      [s, t].Perm [x, y] ∧ v t ≤ v s := by
  by_cases hxy : v x < v y
  · exact ⟨y, x, by rw [bubblePass, if_pos hxy], Perm.swap x y [], hxy.le⟩
  · exact ⟨x, y, by rw [bubblePass, if_neg hxy], Perm.refl _, not_lt.mp hxy⟩

/-- A pass moves a least element of its range to the end of the range. -/
theorem bubblePass_spec {k : ℕ} {a : List α} (ha : a.length = k + 1) (b : List α) :
    ∃ a' m, bubblePass v k (a ++ b) = a' ++ m :: b ∧ (a' ++ [m]).Perm a ∧
      ∀ x ∈ a', v m ≤ v x := by
  induction k generalizing a with
  | zero =>
    obtain ⟨x, rfl⟩ := length_eq_one_iff.mp ha
    exact ⟨[], x, by simp [bubblePass], by simp, by simp⟩
  | succ k ih =>
    obtain ⟨x, a, rfl⟩ := exists_cons_of_length_eq_add_one ha
    obtain ⟨y, a, rfl⟩ := exists_cons_of_length_eq_add_one (Nat.succ.inj ha)
    have hlen : a.length = k := by simpa using ha
    obtain ⟨s, t, hstep, hpair, hst⟩ := bubblePass_cons (v := v) k x y (a ++ b)
    obtain ⟨a', m, hpass, hperm, hle⟩ := ih (a := t :: a) (by simp [hlen])
    -- what goes on is not below the least element of the rest
    have hm : v m ≤ v t := by
      rcases mem_append.mp (hperm.mem_iff.mpr mem_cons_self) with ht | ht
      · exact hle t ht
      · rw [mem_singleton.mp ht]
    refine ⟨s :: a', m, ?_, ?_, ?_⟩
    · rw [cons_append, cons_append, hstep, ← cons_append, hpass]
      rfl
    · exact (hperm.cons s).trans (hpair.append_right a)
    · intro z hz
      rcases mem_cons.mp hz with rfl | hz
      · exact hm.trans hst
      · exact hle z hz

theorem bubblePasses_spec {k : ℕ} {a : List α} (ha : a.length = k + 1) (b : List α) :
    ∃ a', bubblePasses v k (a ++ b) = a' ++ b ∧ a'.Perm a ∧
      a'.Pairwise fun x y => v y ≤ v x := by
  induction k generalizing a b with
  | zero =>
    obtain ⟨x, rfl⟩ := length_eq_one_iff.mp ha
    exact ⟨[x], rfl, Perm.refl _, pairwise_singleton _ _⟩
  | succ k ih =>
    obtain ⟨a₁, m, hpass, hperm, hle⟩ := bubblePass_spec (v := v) ha b
    have hlen : a₁.length = k + 1 := by
      have := hperm.length_eq
      simp only [length_append, length_singleton] at this
      omega
    obtain ⟨a', hpasses, hperm', hsorted⟩ := ih hlen (m :: b)
    refine ⟨a' ++ [m], ?_, (hperm'.append_right [m]).trans hperm, ?_⟩
    · rw [bubblePasses, hpass, hpasses, append_assoc]
      rfl
    · rw [pairwise_append]
      refine ⟨hsorted, pairwise_singleton _ _, ?_⟩
      intro x hx y hy
      rw [mem_singleton.mp hy]
      exact hle x (hperm'.mem_iff.mp hx)

theorem bubbleSort_spec (l : List α) :
    (bubbleSort v l).Perm l ∧ (bubbleSort v l).Pairwise fun x y => v y ≤ v x := by
  rcases l with _ | ⟨x, l⟩
  · exact ⟨Perm.refl _, List.Pairwise.nil⟩
  · obtain ⟨a', h, hperm, hsorted⟩ :=
      bubblePasses_spec (v := v) (k := l.length) (a := x :: l) rfl []
    have hsort : bubbleSort v (x :: l) = a' := by
      simpa [bubbleSort] using h
    rw [hsort]
    exact ⟨hperm, hsorted⟩

end Sorting

section Searching

variable {K : Type} [LinearOrder K]

/-- The search from `low` up to and without `high`. -/
def searchLoop (keys : List K) (key : K) (low high : ℕ) : Except Panic ℕ :=
  if low < high then
    let mid := low + (high - 1 - low) / 2
    index keys mid >>= fun k =>
      if k = key then .ok mid
      else if k < key then searchLoop keys key (mid + 1) high
      else searchLoop keys key low mid
  else .ok low
termination_by high - low
decreasing_by all_goals omega

variable {keys : List K} {key : K} {low high f n : ℕ}

/-- The search ends at `f` if the keys before it are smaller than the key and those from it up to
`n` are not, and it cannot look beyond them. -/
theorem searchLoop_eq (hlt : ∀ i < f, ∃ k ∈ keys[i]?, k < key)
    (hge : ∀ i, f ≤ i → i < n → ∃ k ∈ keys[i]?, key ≤ k ∧ (k = key → i = f))
    (hlow : low ≤ f) (hhigh : f ≤ high) (hn : high ≤ n ∨ f < n ∧ high ≤ n + 1) :
    searchLoop keys key low high = .ok f := by
  induction hd : high - low using Nat.strongRecOn generalizing low high with
  | _ d ih =>
    rw [searchLoop]
    split
    · next hlh =>
      have hmid : low + (high - 1 - low) / 2 < n := by omega
      set mid := low + (high - 1 - low) / 2 with hmid_eq
      by_cases hmf : mid < f
      · obtain ⟨k, hk, hkey⟩ := hlt mid hmf
        dsimp only
        rw [index_of_getElem? hk]
        change (if k = key then _ else _) = _
        rw [if_neg hkey.ne, if_pos hkey]
        exact ih _ (by omega) (by omega) hhigh hn rfl
      · obtain ⟨k, hk, hkey, huniq⟩ := hge mid (by omega) hmid
        dsimp only
        rw [index_of_getElem? hk]
        change (if k = key then _ else _) = _
        by_cases heq : k = key
        · rw [if_pos heq, huniq heq]
        · rw [if_neg heq, if_neg (not_lt.mpr hkey)]
          exact ih _ (by omega) hlow (by omega) (.inl (Nat.le_of_lt hmid)) rfl
    · have hf : low = f := by omega
      rw [hf]

/-- In a rising list with one more key of any size behind it, the search ends at the first key
that is not smaller, if there is one. -/
theorem searchLoop_concat {ks : List K} (hks : ks.Pairwise (· < ·)) (last key : K) :
    searchLoop (ks ++ [last]) key 0 (ks ++ [last]).length =
      .ok ((ks ++ [last]).findIdx fun k => key ≤ k) := by
  have hlength : (ks ++ [last]).length = ks.length + 1 := by simp
  set l := ks ++ [last] with hl
  have hf : l.findIdx (fun k => decide (key ≤ k)) ≤ l.length := findIdx_le_length
  set f := l.findIdx (fun k => decide (key ≤ k))
  have hlt : ∀ i < f, ∃ k ∈ l[i]?, k < key := by
    intro i hi
    have hil : i < l.length := Nat.lt_of_lt_of_le hi hf
    refine ⟨l[i], getElem?_eq_getElem hil, ?_⟩
    simpa using not_of_lt_findIdx hi
  have hkey : ∀ hfl : f < l.length, key ≤ l[f] := by
    intro hfl
    exact of_decide_eq_true (findIdx_getElem (w := hfl))
  by_cases hfk : f < ks.length
  · -- the last key is not looked at
    have hfl : f < l.length := by omega
    refine searchLoop_eq (n := ks.length) hlt ?_ (Nat.zero_le f) hf (.inr ⟨hfk, by omega⟩)
    intro i hfi hi
    have hil : i < l.length := by omega
    have hget : ∀ j (hj : j < ks.length) (hjl : j < l.length), l[j] = ks[j] := by
      intro j hj hjl
      simp [hl, getElem_append_left hj]
    refine ⟨l[i], getElem?_eq_getElem hil, ?_⟩
    rcases Nat.eq_or_lt_of_le hfi with rfl | hfi
    · exact ⟨hkey hfl, fun _ => rfl⟩
    · have hrise := pairwise_iff_getElem.mp hks f i hfk hi hfi
      rw [← hget f hfk hfl, ← hget i hi hil] at hrise
      refine ⟨(hkey hfl).trans hrise.le, fun heq => ?_⟩
      rw [heq] at hrise
      exact absurd (hkey hfl) (not_le.mpr hrise)
  · refine searchLoop_eq (n := l.length) hlt ?_ (Nat.zero_le f) hf (.inl (Nat.le_refl _))
    intro i hfi hi
    obtain rfl : f = i := by omega
    exact ⟨l[f], getElem?_eq_getElem hi, hkey hi, fun _ => rfl⟩

end Searching

/-! ### First indices -/

section Indices

variable {α β : Type*} (c : β → Bool) (l : List β)

def indicesOf : List ℕ :=
  (l.zipIdx.filter fun a => c a.1).map Prod.snd

theorem head?_indices (n : ℕ) : ((l.zipIdx n).filter fun a => c a.1).head?.map Prod.snd =
      if l.findIdx c < l.length then some (n + l.findIdx c) else none := by
  induction l generalizing n with
  | nil => rfl
  | cons a l ih =>
    rw [zipIdx_cons, findIdx_cons]
    by_cases ha : c a
    · simp [ha]
    · simp only [ha, length_cons]
      rw [filter_cons_of_neg (by simpa using ha), ih]
      simp only [cond_false, Nat.add_lt_add_iff_right]
      split
      · rw [Nat.add_right_comm, Nat.add_assoc]
      · rfl

/-- The first of the indices. -/
theorem getElem?_indicesOf_zero :
    (indicesOf c l)[0]? = if l.findIdx c < l.length then some (l.findIdx c) else none := by
  rw [indicesOf, ← head?_eq_getElem?, head?_map, head?_indices]
  simp

/-- The first index in a list with one more element behind it. -/
theorem findIdx_map_concat (g : α → β) (l : List α) (last : β) : (l.map g ++ [last]).findIdx c =
      if (∃ a ∈ l, c (g a) = true) ∨ c last = true then l.findIdx (fun a => c (g a))
      else l.length + 1 := by
  have hlen : l.findIdx (fun a => c (g a)) < l.length ↔ ∃ a ∈ l, c (g a) = true :=
    findIdx_lt_length
  have hle : l.findIdx (fun a => c (g a)) ≤ l.length := findIdx_le_length
  have hcomp : (c ∘ g) = fun a => c (g a) := rfl
  rw [findIdx_append, findIdx_map, length_map, hcomp]
  by_cases hex : ∃ a ∈ l, c (g a) = true
  · rw [if_pos (hlen.mpr hex), if_pos (.inl hex)]
  · rw [if_neg (fun h => hex (hlen.mp h))]
    have hall : l.findIdx (fun a => c (g a)) = l.length := by
      have := mt hlen.mp hex
      omega
    by_cases hlast : c last = true
    · rw [if_pos (.inr hlast), hall]
      simp [findIdx_cons, hlast]
    · rw [if_neg (fun h => h.elim hex hlast)]
      simp [findIdx_cons, hlast, Nat.add_comm]

end Indices

end SortSearch
