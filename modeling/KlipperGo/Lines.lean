/-
Texts as lines that end with a separator.

A text over any alphabet is a list of lines, each with the separator behind it, and a rest without
one, in one way only.

* `exists_unlines` — every text is made of lines and a rest;
* `splitOn_unlines_append` — splitting gives them back;
* `unlines_append_inj`, `unlines_prefix` — they are determined by the text, and so are the lines at
  its beginning;
* `splitOn_modifyHead` — a text that comes in two parts is split part by part.
-/
import Mathlib.Data.List.Basic

open List

namespace Lines

variable {α : Type*} {nl : α} {ls ls' : List (List α)} {r r' : List α}

section

variable (nl : α) (ls : List (List α))

/-- The lines, each with the separator behind it. -/
def unlines : List α := (ls.map (· ++ [nl])).flatten

/-- No line has the separator in it. -/
def Proper : Prop := ∀ l ∈ ls, nl ∉ l

@[simp] theorem unlines_nil : unlines nl [] = [] := rfl

theorem unlines_cons (l : List α) (ls : List (List α)) :
    unlines nl (l :: ls) = l ++ nl :: unlines nl ls := by
  simp [unlines]

theorem unlines_append (ls' : List (List α)) :
    unlines nl (ls ++ ls') = unlines nl ls ++ unlines nl ls' := by
  simp [unlines]

end

theorem Proper.cons {l : List α} (hl : nl ∉ l) (h : Proper nl ls) : Proper nl (l :: ls) :=
  forall_mem_cons.mpr ⟨hl, h⟩

theorem Proper.append (h : Proper nl ls) (h' : Proper nl ls') : Proper nl (ls ++ ls') :=
  fun l hl => (mem_append.mp hl).elim (h l) (h' l)

theorem prefix_of_append_cons {p l t : List α} (h : p <+: l ++ nl :: t) (hp : nl ∉ p) :
    p <+: l := by
  rcases prefix_or_prefix_of_prefix h (prefix_append l (nl :: t)) with h' | ⟨q, rfl⟩
  · exact h'
  · have hq := (prefix_append_right_inj l).mp h
    rcases q with _ | ⟨c, q⟩
    · exact ⟨[], by rw [append_nil, append_nil]⟩
    · obtain ⟨rfl, -⟩ := cons_prefix_cons.mp hq
      exact absurd (mem_append_right l mem_cons_self) hp

theorem splitOnP_congr {p q : α → Bool} {s : List α} (h : ∀ x ∈ s, p x = q x) :
    s.splitOnP p = s.splitOnP q := by
  induction s with
  | nil => rfl
  | cons c s ih =>
    obtain ⟨hc, hs⟩ := forall_mem_cons.mp h
    rw [splitOnP_cons_eq_if_modifyHead, splitOnP_cons_eq_if_modifyHead, hc, ih hs]

variable [DecidableEq α]

instance (nl : α) (ls : List (List α)) : Decidable (Proper nl ls) :=
  inferInstanceAs (Decidable (∀ l ∈ ls, nl ∉ l))

theorem beq_eq_false_of_notMem (h : nl ∉ r) : ∀ x ∈ r, (x == nl) = false := by
  intro x hx
  rw [beq_eq_false_iff_ne]
  rintro rfl
  exact h hx

theorem exists_unlines (nl : α) (s : List α) :
    ∃ ls r, s = unlines nl ls ++ r ∧ Proper nl ls ∧ nl ∉ r := by
  induction s with
  | nil => exact ⟨[], [], rfl, fun _ h => absurd h not_mem_nil, not_mem_nil⟩
  | cons c s ih =>
    obtain ⟨ls, r, rfl, hls, hr⟩ := ih
    by_cases hc : nl = c
    · subst hc
      exact ⟨[] :: ls, r, by rw [unlines_cons]; rfl, hls.cons not_mem_nil, hr⟩
    rcases ls with _ | ⟨l, ls⟩
    · exact ⟨[], c :: r, rfl, hls, by simp [hc, hr]⟩
    · refine ⟨(c :: l) :: ls, r, by rw [unlines_cons, unlines_cons]; rfl, ?_, hr⟩
      have hl := forall_mem_cons.mp hls
      exact Proper.cons (by simp [hc, hl.1]) hl.2

section

variable (hls : Proper nl ls)
include hls

theorem splitOn_unlines_append (hr : nl ∉ r) : splitOn nl (unlines nl ls ++ r) = ls ++ [r] := by
  induction ls with
  | nil => exact splitOnP_eq_singleton (beq_eq_false_of_notMem hr)
  | cons l ls ih =>
    obtain ⟨hl, hls⟩ := forall_mem_cons.mp hls
    rw [unlines_cons, append_assoc, cons_append, splitOn,
      splitOnP_append_cons_of_forall_mem (beq_eq_false_of_notMem hl) nl (by simp)]
    exact congrArg (l :: ·) (ih hls)

theorem unlines_append_inj (hr : nl ∉ r) (hls' : Proper nl ls') (hr' : nl ∉ r')
    (h : unlines nl ls ++ r = unlines nl ls' ++ r') : ls = ls' ∧ r = r' := by
  have hsplit : ls ++ [r] = ls' ++ [r'] := by
    rw [← splitOn_unlines_append hls hr, ← splitOn_unlines_append hls' hr', h]
  have hlen := append_inj' hsplit rfl
  exact ⟨hlen.1, singleton_inj.mp hlen.2⟩

theorem count_unlines : (unlines nl ls).count nl = ls.length := by
  induction ls with
  | nil => rfl
  | cons l ls ih =>
    obtain ⟨hl, hls⟩ := forall_mem_cons.mp hls
    rw [unlines_cons, count_append, count_cons_self, ih hls, count_eq_zero.mpr hl,
      Nat.zero_add, length_cons]

/-- Lines at the beginning of a text of lines are its first lines. -/
theorem unlines_prefix (hls' : Proper nl ls')
    (h : unlines nl ls ++ r = unlines nl ls') : ∃ rest, ls' = ls ++ rest ∧ r = unlines nl rest := by
  obtain ⟨rest, q, rfl, hrest, hq⟩ := exists_unlines nl r
  have hall : unlines nl (ls ++ rest) ++ q = unlines nl ls' ++ [] := by
    rw [unlines_append, append_assoc, h, append_nil]
  obtain ⟨rfl, rfl⟩ := unlines_append_inj (hls.append hrest) hq hls' not_mem_nil hall
  exact ⟨rest, rfl, append_nil _⟩

end

theorem notMem_of_mem_splitOn {s l : List α} (h : l ∈ splitOn nl s) : nl ∉ l := by
  obtain ⟨ls, r, rfl, hls, hr⟩ := exists_unlines nl s
  rw [splitOn_unlines_append hls hr] at h
  rcases mem_append.mp h with h | h
  · exact hls l h
  · rw [mem_singleton.mp h]
    exact hr

/-- The first line of a text: it is all there is, or the separator follows it. -/
theorem exists_first (nl : α) (s : List α) :
    ∃ l ls, splitOn nl s = l :: ls ∧ nl ∉ l ∧ (s = l ∨ ∃ t, s = l ++ nl :: t) := by
  obtain ⟨ls, r, hs, hls, hr⟩ := exists_unlines nl s
  rcases ls with _ | ⟨l, ls⟩
  · refine ⟨r, [], ?_, hr, .inl hs⟩
    rw [hs, splitOn_unlines_append hls hr]
    rfl
  · refine ⟨l, ls ++ [r], ?_, (forall_mem_cons.mp hls).1, .inr ⟨unlines nl ls ++ r, ?_⟩⟩
    · rw [hs, splitOn_unlines_append hls hr]
      rfl
    · rw [hs, unlines_cons, append_assoc, cons_append]

/-- A separator inside of a text is followed by one of its later lines. -/
theorem prefix_of_drop {p s t : List α} {m : ℕ} (ht : ∀ c ∈ t.head?, c = nl) (hm : m < s.length)
    (h : nl :: p <+: (s ++ t).drop m) (hp : nl ∉ p) : ∃ l ∈ (splitOn nl s).tail, p <+: l := by
  rw [drop_append_of_le_length (Nat.le_of_lt hm), drop_eq_getElem_cons hm,
    cons_append, cons_prefix_cons] at h
  obtain ⟨hc, h⟩ := h
  have hs : s = s.take m ++ nl :: s.drop (m + 1) := by
    rw [hc, ← drop_eq_getElem_cons hm, take_append_drop]
  obtain ⟨l, ls, hsplit, hl, hfirst⟩ := exists_first nl (s.drop (m + 1))
  refine ⟨l, ?_, ?_⟩
  · obtain ⟨l₀, ls₀, hsplit₀, -⟩ := exists_first nl (s.take m)
    rw [hs, splitOn_append_cons_self, hsplit, hsplit₀]
    simp
  · rcases hfirst with heq | ⟨r, heq⟩
    · rw [heq] at h
      rcases t with _ | ⟨c, t⟩
      · rwa [append_nil] at h
      · rw [ht c rfl] at h
        exact prefix_of_append_cons h hp
    · rw [heq, append_assoc] at h
      exact prefix_of_append_cons h hp

/-- Splitting what follows a part without a separator. -/
theorem splitOn_modifyHead (hr : nl ∉ r) (s : List α) :
    (splitOn nl s).modifyHead (r ++ ·) = splitOn nl (r ++ s) := by
  induction r with
  | nil =>
    rw [nil_append]
    rcases splitOn nl s with _ | ⟨l, ls⟩ <;> rfl
  | cons c r ih =>
    have hc : (c == nl) = false := beq_eq_false_of_notMem hr c mem_cons_self
    have hrest := ih fun h => hr (mem_cons_of_mem c h)
    rw [splitOn, splitOn] at hrest ⊢
    rw [cons_append, splitOnP_cons_eq_if_modifyHead, hc, if_neg (by simp), ← hrest]
    rcases List.splitOnP (fun x => x == nl) s with _ | ⟨l, ls⟩ <;> rfl

theorem mem_of_mem_splitOn {s l : List α} {c : α} (h : l ∈ splitOn nl s) (hc : c ∈ l) : c ∈ s := by
  obtain ⟨ls, r, rfl, hls, hr⟩ := exists_unlines nl s
  rw [splitOn_unlines_append hls hr] at h
  rcases mem_append.mp h with h | h
  · refine mem_append_left r (mem_flatten.mpr ⟨l ++ [nl], ?_, mem_append_left _ hc⟩)
    exact mem_map_of_mem h
  · rw [mem_singleton.mp h] at hc
    exact mem_append_right _ hc

/-- Where two texts meet, the last line of the first one and the first line of the second one
become one. -/
theorem exists_splitOn_append (nl : α) (s t : List α) :
    ∃ ls l r rs, s = unlines nl ls ++ l ∧ nl ∉ l ∧ splitOn nl s = ls ++ [l] ∧
      splitOn nl t = r :: rs ∧ splitOn nl (s ++ t) = ls ++ (l ++ r) :: rs := by
  obtain ⟨ls, l, rfl, hls, hl⟩ := exists_unlines nl s
  obtain ⟨r, rs, ht, -⟩ := exists_first nl t
  refine ⟨ls, l, r, rs, rfl, hl, splitOn_unlines_append hls hl, ht, ?_⟩
  have hrest : splitOn nl (l ++ t) = (l ++ r) :: rs := by
    rw [← splitOn_modifyHead hl, ht]
    rfl
  obtain ⟨ls', l', hsplit, hls', hl'⟩ := exists_unlines nl (l ++ t)
  rw [append_assoc, hsplit, ← append_assoc, ← unlines_append,
    splitOn_unlines_append (hls.append hls') hl', append_assoc,
    ← splitOn_unlines_append hls' hl', ← hsplit, hrest]

end Lines
