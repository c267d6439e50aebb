/-
Falling piecewise linear functions.

The function is given by its knots, at least two of them; before the first and
after the last it goes on as in the neighbouring segment.  If the knots fall, the
function is a strictly decreasing bijection, and its inverse is found in the same
way from the other coordinate.

* `polyline_strictAnti` — the function is strictly decreasing;
* `inverse_eq_iff` — the inverse;
* `getElem?_slopes_findIdx` — both use the first segment that reaches far enough.
-/
import Mathlib.Algebra.Order.Field.Basic
import Mathlib.Tactic.FieldSimp
import Mathlib.Tactic.Linarith
import Mathlib.Tactic.Ring

open List

namespace PiecewiseLinear

variable {K : Type*}

def lastKnot (q : K × K) : List (K × K) → K × K
  | [] => q
  | r :: rest => lastKnot r rest

theorem lastKnot_mem (q : K × K) (rest : List (K × K)) : lastKnot q rest ∈ q :: rest := by
  induction rest generalizing q with
  | nil => exact mem_cons_self
  | cons r rest ih => exact mem_cons_of_mem q (ih r)

theorem getElem?_length_knots (q : K × K) (rest : List (K × K)) :
    (q :: rest)[rest.length]? = some (lastKnot q rest) := by
  induction rest generalizing q with
  | nil => rfl
  | cons r rest ih => exact ih r

section

variable [LinearOrder K] {p q : K × K} {rest : List (K × K)}

def Falling (l : List (K × K)) : Prop := l.Pairwise fun p q => p.1 < q.1 ∧ q.2 < p.2

theorem Falling.tail (h : Falling (p :: rest)) : Falling rest := h.of_cons

theorem Falling.head (h : Falling (p :: q :: rest)) : p.1 < q.1 ∧ q.2 < p.2 :=
  rel_of_pairwise_cons h mem_cons_self

/-- The last knot is the rightmost and the lowest one. -/
theorem Falling.le_lastKnot (h : Falling (p :: q :: rest)) :
    ∀ k ∈ q :: rest, k.1 ≤ (lastKnot q rest).1 ∧ (lastKnot q rest).2 ≤ k.2 := by
  induction rest generalizing p q with
  | nil =>
    intro k hk
    rw [mem_singleton.mp hk]
    exact ⟨le_rfl, le_rfl⟩
  | cons r rest ih =>
    intro k hk
    rcases mem_cons.mp hk with rfl | hk
    · obtain ⟨h₁, h₂⟩ := ih h.tail r mem_cons_self
      exact ⟨h.tail.head.1.le.trans h₁, h₂.trans h.tail.head.2.le⟩
    · exact ih h.tail k hk

end

/-! ### Lines and segments -/

variable [Field K]

section

variable (p q : K × K)

def gain : K := (q.2 - p.2) / (q.1 - p.1)

def offset : K := p.2 - p.1 * gain p q

def line (x : K) : K := x * gain p q + offset p q

theorem line_left : line p q p.1 = p.2 := by
  rw [line, offset, add_sub_cancel]

end

theorem line_right {p q : K × K} (h : p.1 ≠ q.1) : line p q q.1 = q.2 := by
  rw [line, offset, gain]
  field_simp
  ring

/-- A point lies on a line exactly if the line through it and the second point is the same. -/
theorem line_eq_iff {p q s : K × K} (hpq : p.1 ≠ q.1) (hqs : q.1 ≠ s.1) :
    (gain q s = gain p q ∧ offset q s = offset p q) ↔ line p q s.1 = s.2 := by
  have hright := line_right hpq
  constructor
  · rintro ⟨hgain, hoffset⟩
    rw [line, ← hgain, ← hoffset]
    exact line_right hqs
  · intro hs
    have hne : s.1 - q.1 ≠ 0 := sub_ne_zero.mpr hqs.symm
    have hgain : gain q s = gain p q := by
      rw [gain, div_eq_iff hne, ← hs, ← hright, line, line]
      ring
    refine ⟨hgain, ?_⟩
    rw [offset, hgain, ← hright, line]
    ring

/-- Slope and offset of the first segment whose right knot is as wanted, or of the last one. -/
def segment (c : K × K → Bool) (p q : K × K) : List (K × K) → K × K
  | [] => (gain p q, offset p q)
  | r :: rest => if c q then (gain p q, offset p q) else segment c q r rest

/-- The slopes and offsets of the segments. -/
def slopes (p q : K × K) : List (K × K) → List (K × K)
  | [] => [(gain p q, offset p q)]
  | r :: rest => (gain p q, offset p q) :: slopes q r rest

def lastSlope (p q : K × K) : List (K × K) → K × K
  | [] => (gain p q, offset p q)
  | r :: rest => lastSlope q r rest

variable (p q : K × K) (rest : List (K × K))

theorem length_slopes : (slopes p q rest).length = rest.length + 1 := by
  induction rest generalizing p q with
  | nil => rfl
  | cons r rest ih => rw [slopes, length_cons, ih, length_cons]

theorem getLast?_slopes : (slopes p q rest).getLast? = some (lastSlope p q rest) := by
  induction rest generalizing p q with
  | nil => rfl
  | cons r rest ih =>
    have hne : slopes q r rest ≠ [] := by
      intro h
      have := length_slopes q r rest
      rw [h] at this
      cases this
    rw [slopes, lastSlope, getLast?_cons_of_ne_nil hne, ih]

/-- The wanted segment in the list of the segments, with the last one written twice. -/
theorem getElem?_slopes_findIdx (c : K × K → Bool) (p q : K × K) (rest : List (K × K)) :
    (slopes p q rest ++ [lastSlope p q rest])[(q :: rest).findIdx c]? =
      some (segment c p q rest) := by
  induction rest generalizing p q with
  | nil =>
    by_cases hq : c q
    · simp [slopes, segment, findIdx_cons, hq]
    · simp [slopes, lastSlope, segment, findIdx_cons, hq]
  | cons r rest ih =>
    rw [findIdx_cons]
    by_cases hq : c q
    · simp [slopes, segment, hq]
    · simpa [slopes, lastSlope, segment, hq] using ih q r

/-! ### The function and its inverse -/

variable [LinearOrder K]

/-- The value of the function through the knots `p`, `q` and the further ones. -/
def polyline (x : K) : K :=
  x * (segment (fun k => x ≤ k.1) p q rest).1 + (segment (fun k => x ≤ k.1) p q rest).2

def inverse (y : K) : K :=
  (y - (segment (fun k => k.2 ≤ y) p q rest).2) / (segment (fun k => k.2 ≤ y) p q rest).1

theorem polyline_cons (p q r : K × K) (rest : List (K × K)) (x : K) :
    polyline p q (r :: rest) x = if x ≤ q.1 then line p q x else polyline q r rest x := by
  by_cases hx : x ≤ q.1
  · simp [polyline, segment, line, hx]
  · simp [polyline, segment, hx]

theorem inverse_cons (p q r : K × K) (rest : List (K × K)) (y : K) : inverse p q (r :: rest) y =
      if q.2 ≤ y then (y - offset p q) / gain p q else inverse q r rest y := by
  by_cases hy : q.2 ≤ y <;> simp [inverse, segment, hy]

variable {x y : K}

theorem polyline_of_le (p q : K × K) (rest : List (K × K)) (hx : x ≤ q.1) :
    polyline p q rest x = line p q x := by
  rcases rest with _ | ⟨r, rest⟩
  · rfl
  · rw [polyline_cons, if_pos hx]

/-! ### Left-out knots -/

/-- The further knots if each point on the line of the two knots before it is left out. -/
def thin (p q : K × K) : List (K × K) → List (K × K)
  | [] => []
  | s :: rest => if line p q s.1 = s.2 then thin p q rest else s :: thin q s rest

theorem thin_sublist : (thin p q rest).Sublist rest := by
  induction rest generalizing p q with
  | nil => exact List.Sublist.refl _
  | cons s rest ih =>
    rw [thin]
    split
    · exact (ih p q).cons s
    · exact (ih q s).cons_cons s

/-- Once three knots in a row are on a line, all the further ones are on it. -/
def StraightEnd (p q : K × K) : List (K × K) → Prop
  | [] => True
  | s :: rest => if line p q s.1 = s.2 then ∀ t ∈ rest, line p q t.1 = t.2 else StraightEnd q s rest

/-- Nothing is kept if all the points are on the line; otherwise the first one kept is not. -/
theorem thin_cases (p q : K × K) (rest : List (K × K)) :
    (thin p q rest = [] ∧ ∀ t ∈ rest, line p q t.1 = t.2) ∨
      ∃ t l, thin p q rest = t :: l ∧ t ∈ rest ∧ line p q t.1 ≠ t.2 := by
  induction rest with
  | nil => exact .inl ⟨rfl, fun t ht => absurd ht not_mem_nil⟩
  | cons s rest ih =>
    rw [thin]
    by_cases hs : line p q s.1 = s.2
    · rw [if_pos hs]
      rcases ih with ⟨hnil, hall⟩ | ⟨t, l, hcons, ht, hoff⟩
      · refine .inl ⟨hnil, fun t ht => ?_⟩
        rcases mem_cons.mp ht with rfl | ht
        · exact hs
        · exact hall t ht
      · exact .inr ⟨t, l, hcons, mem_cons_of_mem s ht, hoff⟩
    · rw [if_neg hs]
      exact .inr ⟨s, thin q s rest, rfl, mem_cons_self, hs⟩

/-- Of four points from left to right, if the second is left out for being on the line of the
two before it and the next is off that line, the function misses the point left out. -/
theorem line_ne_of_off {p q s t : K × K} (hpq : p.1 < q.1) (hqs : q.1 < s.1) (hqt : q.1 < t.1)
    (hs : line p q s.1 = s.2) (ht : line p q t.1 ≠ t.2) : line q t s.1 ≠ s.2 := by
  intro heq
  apply ht
  obtain ⟨hgain, hoffset⟩ := (line_eq_iff hpq.ne hqs.ne).mpr hs
  have hgain' : gain q s = gain q t := by
    rw [gain, div_eq_iff (sub_ne_zero.mpr hqs.ne'), ← heq, ← line_left q t, line, line]
    ring
  have hoffset' : offset q s = offset q t := by rw [offset, hgain', ← offset]
  rw [line, ← hgain, ← hoffset, hgain', hoffset']
  exact line_right hqt.ne

variable {p q rest}

/-! ### Falling knots -/

section

variable [IsStrictOrderedRing K] (h : p.1 < q.1 ∧ q.2 < p.2)
include h

theorem gain_neg : gain p q < 0 :=
  div_neg_of_neg_of_pos (sub_neg.mpr h.2) (sub_pos.mpr h.1)

theorem line_lt_line_iff : line p q x < line p q y ↔ y < x := by
  rw [line, line, add_lt_add_iff_right, mul_lt_mul_right_of_neg (gain_neg h)]

theorem div_gain_eq_iff : (y - offset p q) / gain p q = x ↔ line p q x = y := by
  rw [div_eq_iff (gain_neg h).ne, line, sub_eq_iff_eq_add, eq_comm]

end

variable (h : Falling (p :: q :: rest))
include h

theorem Falling.thin : Falling (p :: q :: thin p q rest) :=
  List.Pairwise.sublist (((thin_sublist p q rest).cons_cons q).cons_cons p) h

theorem polyline_left : polyline p q rest p.1 = p.2 := by
  rcases rest with _ | ⟨r, rest⟩
  · exact line_left p q
  · rw [polyline_cons, if_pos h.head.1.le, line_left]

theorem zipWith_slopes :
    List.zipWith (fun k s => k * s.1 + s.2) ((q :: rest).map Prod.fst) (slopes p q rest) =
      (q :: rest).map Prod.snd := by
  induction rest generalizing p q with
  | nil => exact congrArg (fun y => [y]) (line_right h.head.1.ne)
  | cons r rest ih =>
    rw [map_cons, slopes, zipWith_cons_cons, ih h.tail, map_cons]
    exact congrArg (fun y => y :: _) (line_right h.head.1.ne)

theorem polyline_lastKnot : polyline p q rest (lastKnot q rest).1 = (lastKnot q rest).2 := by
  induction rest generalizing p q with
  | nil => exact line_right h.head.1.ne
  | cons r rest ih =>
    have hlt := h.tail.head.1.trans_le (h.tail.le_lastKnot r mem_cons_self).1
    rw [polyline_cons, lastKnot, if_neg (not_le.mpr hlt), ih h.tail]

/-- From the last knot on, the function is its last line. -/
theorem polyline_of_lastKnot_le (hx : (lastKnot q rest).1 ≤ x) :
    polyline p q rest x = x * (lastSlope p q rest).1 + (lastSlope p q rest).2 := by
  induction rest generalizing p q with
  | nil => rfl
  | cons r rest ih =>
    have hlt := h.tail.head.1.trans_le (h.tail.le_lastKnot r mem_cons_self).1
    rw [polyline_cons, if_neg (not_le.mpr (hlt.trans_le hx))]
    exact ih h.tail hx

/-- The function through the knots that are kept goes through all the knots exactly if only a
straight end is left out. -/
theorem polyline_thin_iff :
    (∀ s ∈ p :: q :: rest, polyline p q (thin p q rest) s.1 = s.2) ↔ StraightEnd p q rest := by
  rw [forall_mem_cons, and_iff_right (polyline_left h.thin)]
  induction rest generalizing p q with
  | nil =>
    refine iff_of_true ?_ trivial
    intro s hs
    rw [mem_singleton.mp hs]
    exact line_right h.head.1.ne
  | cons s rest ih =>
    have hq : ∀ l, polyline p q l q.1 = q.2 := fun l =>
      (polyline_of_le p q l le_rfl).trans (line_right h.head.1.ne)
    have hright : ∀ t ∈ s :: rest, q.1 < t.1 := fun t ht =>
      (rel_of_pairwise_cons h.tail ht).1
    rw [forall_mem_cons, and_iff_right (hq _), thin, StraightEnd]
    by_cases hs : line p q s.1 = s.2
    · rw [if_pos hs, if_pos hs]
      rcases thin_cases p q rest with ⟨hnil, hall⟩ | ⟨t, l, hcons, ht, hoff⟩
      · rw [hnil]
        exact iff_of_true (forall_mem_cons.mpr ⟨hs, hall⟩) hall
      · -- the first knot kept misses the line, and the function then misses `s`
        refine iff_of_false ?_ (fun hall => hoff (hall t ht))
        intro hall
        have hval := hall s mem_cons_self
        have hst := (rel_of_pairwise_cons h.tail.tail ht).1
        have hqs := hright s mem_cons_self
        rw [hcons, polyline_cons, if_neg (not_le.mpr hqs), polyline_of_le q t l hst.le] at hval
        exact line_ne_of_off h.head.1 hqs (hqs.trans hst) hs hoff hval
    · rw [if_neg hs, if_neg hs, ← ih h.tail]
      refine forall₂_congr fun t ht => ?_
      rw [polyline_cons, if_neg (not_le.mpr (hright t ht))]

variable [IsStrictOrderedRing K]

/-- Right of the first knot the function is below it. -/
theorem polyline_lt_of_lt (hx : p.1 < x) : polyline p q rest x < p.2 := by
  induction rest generalizing p q with
  | nil =>
    rw [← line_left p q]
    exact (line_lt_line_iff h.head).mpr hx
  | cons r rest ih =>
    rw [polyline_cons]
    split
    · rw [← line_left p q]
      exact (line_lt_line_iff h.head).mpr hx
    · next hq => exact (ih h.tail (not_le.mp hq)).trans h.head.2

theorem polyline_strictAnti : StrictAnti (polyline p q rest) := by
  intro x y hxy
  induction rest generalizing p q with
  | nil => exact (line_lt_line_iff h.head).mpr hxy
  | cons r rest ih =>
    rw [polyline_cons, polyline_cons]
    by_cases hx : x ≤ q.1
    · by_cases hy : y ≤ q.1
      · rw [if_pos hx, if_pos hy]
        exact (line_lt_line_iff h.head).mpr hxy
      · -- the knot lies between them
        rw [if_pos hx, if_neg hy]
        refine (polyline_lt_of_lt h.tail (not_le.mp hy)).trans_le ?_
        rw [← line_right h.head.1.ne]
        exact not_lt.mp fun hlt => absurd ((line_lt_line_iff h.head).mp hlt) (not_lt.mpr hx)
    · rw [if_neg hx, if_neg fun hy => hx (hxy.le.trans hy)]
      exact ih h.tail

theorem polyline_inverse (y : K) : polyline p q rest (inverse p q rest y) = y := by
  induction rest generalizing p q with
  | nil => exact (div_gain_eq_iff h.head).mp rfl
  | cons r rest ih =>
    rw [inverse_cons]
    split
    · next hy =>
      have hline := (div_gain_eq_iff h.head (x := (y - offset p q) / gain p q) (y := y)).mp rfl
      rw [polyline_cons, if_pos, hline]
      -- left of the knot, since the value is above it
      rw [← line_right h.head.1.ne, ← hline] at hy
      exact not_lt.mp fun hlt => absurd ((line_lt_line_iff h.head).mpr hlt) (not_lt.mpr hy)
    · next hy =>
      rw [polyline_cons, if_neg, ih h.tail]
      intro hle
      have hvalue := (polyline_strictAnti h.tail).antitone hle
      rw [ih h.tail, polyline_left h.tail] at hvalue
      exact hy hvalue

theorem inverse_eq_iff : inverse p q rest y = x ↔ polyline p q rest x = y := by
  constructor
  · rintro rfl
    exact polyline_inverse h y
  · intro hx
    exact (polyline_strictAnti h).injective ((polyline_inverse h y).trans hx.symm)

theorem lastSlope_neg : (lastSlope p q rest).1 < 0 := by
  induction rest generalizing p q with
  | nil => exact gain_neg h.head
  | cons r rest ih => exact ih h.tail

/-- The value at the last knot or at a place `e`, whichever is further right, is reached exactly
if the last knot or the last line at `e` is that low. -/
theorem polyline_max_le_iff (e y : K) : polyline p q rest (max (lastKnot q rest).1 e) ≤ y ↔
      (∃ k ∈ q :: rest, k.2 ≤ y) ∨ e * (lastSlope p q rest).1 + (lastSlope p q rest).2 ≤ y := by
  have hknot : (∃ k ∈ q :: rest, k.2 ≤ y) ↔ (lastKnot q rest).2 ≤ y := by
    constructor
    · rintro ⟨k, hk, hky⟩
      exact (h.le_lastKnot k hk).2.trans hky
    · intro hy
      exact ⟨lastKnot q rest, lastKnot_mem q rest, hy⟩
  have hlast := polyline_lastKnot h
  rw [hknot]
  rcases le_total e (lastKnot q rest).1 with he | he
  · rw [max_eq_left he, hlast, iff_self_or]
    intro hy
    rw [polyline_of_lastKnot_le h le_rfl] at hlast
    rw [← hlast]
    exact (add_le_add_left (mul_le_mul_of_nonpos_right he (lastSlope_neg h).le) _).trans hy
  · have hle := (polyline_strictAnti h).antitone he
    rw [max_eq_right he, ← polyline_of_lastKnot_le h he, iff_or_self]
    intro hy
    exact (hle.trans hlast.le).trans hy

end PiecewiseLinear
