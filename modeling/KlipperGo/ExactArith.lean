/-
Exact arithmetic with a square root.

The `float64` computations of the program are read over a linearly ordered
field `K` with a square root *operation* (`HasSqrt`), so that every definition
stays executable: over `ℚ` the operation is `Rat.sqrt` (exact on squares of
rationals), over `ℝ` it is `Real.sqrt`.  What the proofs need of the operation
is the separate class `LawfulSqrt`, which only `ℝ` satisfies.

* `sqrt_le_sqrt` — a lawful square root is monotone;
* `sqrt_pos` — and positive on positive arguments;
* `sqrt_le_abs` — a square bounds its argument by the amount of what is squared;
* `trunc_nonpos_iff` — only numbers from one on are truncated to a positive integer;
* `trunc_round` — rounding half away from zero, by truncation, gives an integer back.
-/
import Mathlib.Analysis.Real.Sqrt
import Mathlib.Data.Rat.Sqrt

namespace ExactArith

/-! A numeral of a field, or of `Fin`, carries a proof that the number is large
enough.  With a name here, it is the same proof in every definition. -/

instance atLeastTwo_two : Nat.AtLeastTwo 2 := ⟨by decide⟩
instance atLeastTwo_three : Nat.AtLeastTwo 3 := ⟨by decide⟩
instance atLeastTwo_four : Nat.AtLeastTwo 4 := ⟨by decide⟩
instance atLeastTwo_five : Nat.AtLeastTwo 5 := ⟨by decide⟩
instance atLeastTwo_ten : Nat.AtLeastTwo 10 := ⟨by decide⟩
instance atLeastTwo_twenty : Nat.AtLeastTwo 20 := ⟨by decide⟩
instance atLeastTwo_twentyFive : Nat.AtLeastTwo 25 := ⟨by decide⟩
instance atLeastTwo_thirty : Nat.AtLeastTwo 30 := ⟨by decide⟩
instance atLeastTwo_thirtyTwo : Nat.AtLeastTwo 32 := ⟨by decide⟩
instance atLeastTwo_twoHundredFiftySix : Nat.AtLeastTwo 256 := ⟨by decide⟩
instance atLeastTwo_fiveHundredTwelve : Nat.AtLeastTwo 512 := ⟨by decide⟩
instance atLeastTwo_thousand : Nat.AtLeastTwo 1000 := ⟨by decide⟩
instance atLeastTwo_tenNines : Nat.AtLeastTwo 9999999999 := ⟨by decide⟩
instance atLeastTwo_sixteenNines : Nat.AtLeastTwo 9999999999999999 := ⟨by decide⟩
instance neZero_two : NeZero 2 := ⟨by decide⟩
instance neZero_three : NeZero 3 := ⟨by decide⟩
instance neZero_four : NeZero 4 := ⟨by decide⟩

/-- A square root operation, with no laws. -/
class HasSqrt (K : Type*) where
  sqrt : K → K

export HasSqrt (sqrt)

/-- The laws of a real square root. -/
class LawfulSqrt (K : Type*) [Field K] [LinearOrder K] [HasSqrt K] : Prop where
  sqrt_nonneg : ∀ x : K, 0 ≤ sqrt x
  mul_self_sqrt : ∀ x : K, 0 ≤ x → sqrt x * sqrt x = x

instance : HasSqrt ℚ := ⟨Rat.sqrt⟩

noncomputable instance : HasSqrt ℝ := ⟨Real.sqrt⟩

instance : LawfulSqrt ℝ where
  sqrt_nonneg := Real.sqrt_nonneg
  mul_self_sqrt _ h := Real.mul_self_sqrt h

variable {K : Type*} [Field K] [LinearOrder K] [HasSqrt K] [LawfulSqrt K]

theorem sqrt_nonneg (x : K) : 0 ≤ sqrt x := LawfulSqrt.sqrt_nonneg x

theorem sq_sqrt {x : K} (h : 0 ≤ x) : sqrt x ^ 2 = x := by
  rw [sq]
  exact LawfulSqrt.mul_self_sqrt x h

@[simp] theorem sqrt_zero : sqrt (0 : K) = 0 := by
  have h := LawfulSqrt.mul_self_sqrt (0 : K) le_rfl
  exact mul_self_eq_zero.mp h

theorem sqrt_pos {x : K} (h : 0 < x) : 0 < sqrt x := by
  rcases (sqrt_nonneg x).lt_or_eq with hpos | hzero
  · exact hpos
  · have hsq := sq_sqrt h.le
    rw [← hzero] at hsq
    exact absurd hsq (by simpa using h.ne)

variable [IsStrictOrderedRing K]

theorem sqrt_le_sqrt {x y : K} (hx : 0 ≤ x) (hxy : x ≤ y) : sqrt x ≤ sqrt y := by
  refine le_of_sq_le_sq ?_ (sqrt_nonneg y)
  rw [sq_sqrt hx, sq_sqrt (hx.trans hxy)]
  exact hxy

theorem sqrt_le_abs {x y : K} (hx : 0 ≤ x) (hxy : x ≤ y * y) : sqrt x ≤ |y| := by
  refine le_of_sq_le_sq ?_ (abs_nonneg y)
  rw [sq_sqrt hx, sq_abs, sq]
  exact hxy

/-! ### Conversion to an integer -/

/-- `int(x)`: toward zero. -/
def trunc {K : Type*} [Ring K] [LinearOrder K] [FloorRing K] (x : K) : ℤ :=
  if 0 ≤ x then ⌊x⌋ else ⌈x⌉

variable {K : Type*}

theorem trunc_intCast [Ring K] [LinearOrder K] [IsStrictOrderedRing K] [FloorRing K]
    (n : ℤ) : trunc (n : K) = n := by
  rw [trunc, Int.floor_intCast, Int.ceil_intCast, ite_self]

theorem trunc_nonpos_iff [Ring K] [LinearOrder K] [IsStrictOrderedRing K] [FloorRing K]
    (x : K) : trunc x ≤ 0 ↔ x < 1 := by
  unfold trunc
  split_ifs with h
  · rw [← Int.lt_add_one_iff, Int.floor_lt]
    simp
  · have hx : x < 0 := not_le.mp h
    exact iff_of_true (Int.ceil_le.mpr (by simpa using hx.le)) (hx.trans zero_lt_one)

theorem trunc_mono [Ring K] [LinearOrder K] [IsStrictOrderedRing K] [FloorRing K]
    {x y : K} (h : x ≤ y) : trunc x ≤ trunc y := by
  unfold trunc
  split_ifs with hx hy hy
  · exact Int.floor_le_floor h
  · exact absurd (hx.trans h) hy
  · have hceil : ⌈x⌉ ≤ 0 := Int.ceil_le.mpr (by simpa using (not_le.mp hx).le)
    exact hceil.trans (Int.floor_nonneg.mpr hy)
  · exact Int.ceil_le_ceil h

theorem trunc_le_of_pos [Ring K] [LinearOrder K] [IsStrictOrderedRing K] [FloorRing K]
    {x : K} (h : 0 < trunc x) : (trunc x : K) ≤ x := by
  have hx : 0 ≤ x := by
    by_contra hneg
    have := (trunc_nonpos_iff x).mpr ((not_le.mp hneg).trans zero_lt_one)
    omega
  rw [trunc, if_pos hx]
  exact Int.floor_le x

theorem trunc_round [Field K] [LinearOrder K] [IsStrictOrderedRing K] [FloorRing K]
    (n : ℤ) : (if 0 ≤ (n : K) then trunc ((n : K) + 1 / 2) else trunc ((n : K) - 1 / 2)) = n := by
  unfold trunc
  by_cases h : 0 ≤ (n : K)
  · rw [if_pos h, if_pos (by linarith), Int.floor_eq_iff]
    constructor <;> linarith
  · rw [if_neg h, if_neg (by linarith), Int.ceil_eq_iff]
    constructor <;> linarith

end ExactArith
