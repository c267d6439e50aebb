/-
Floating point values with their special cases.

`Fp K` is an exact number, an infinity or not-a-number.  The operations follow
IEEE 754 on the special values, and a result larger than the largest float64 is
infinite; rounding, underflow and the sign of zero are not kept.  An order
comparison with not-a-number is false, as in the language, so `Fp K` has `<`
and `≤` but is no order.

* `zero_lt_iff` — the positive values;
* `zero_lt_min_iff` — a minimum is positive when both of its arguments are;
* `zero_lt_mul_iff` — for a product with a positive value the sign of the other counts.
-/
import KlipperGo.ExactArith

namespace FloatArith

inductive Fp (K : Type*) where
  | nan
  | inf (negative : Bool)
  | num (x : K)
  deriving DecidableEq

namespace Fp

variable {K : Type*}

instance [Zero K] : Zero (Fp K) := ⟨num 0⟩

instance [One K] : One (Fp K) := ⟨num 1⟩

theorem zero_def [Zero K] : (0 : Fp K) = num 0 := rfl

theorem one_def [One K] : (1 : Fp K) = num 1 := rfl

variable [LinearOrder K]

def lt : Fp K → Fp K → Bool
  | num x, num y => decide (x < y)
  | num _, inf t => !t
  | inf s, num _ => s
  | inf s, inf t => s && !t
  | _, _ => false

def le : Fp K → Fp K → Bool
  | num x, num y => decide (x ≤ y)
  | num _, inf t => !t
  | inf s, num _ => s
  | inf s, inf t => s || !t
  | _, _ => false

instance : LT (Fp K) := ⟨fun a b => a.lt b = true⟩

instance : LE (Fp K) := ⟨fun a b => a.le b = true⟩

instance (a b : Fp K) : Decidable (a < b) := inferInstanceAs (Decidable (a.lt b = true))

instance (a b : Fp K) : Decidable (a ≤ b) := inferInstanceAs (Decidable (a.le b = true))

variable (a : Fp K) {x : K} {s : Bool}

/-! ### Comparing -/

@[simp] theorem num_lt_num {x y : K} : num x < num y ↔ x < y := decide_eq_true_iff

@[simp] theorem num_le_num {x y : K} : num x ≤ num y ↔ x ≤ y := decide_eq_true_iff

@[simp] theorem num_lt_inf {t : Bool} : num x < inf t ↔ t = false := by
  cases t <;> simp [LT.lt, lt]

@[simp] theorem inf_lt_num : inf s < num x ↔ s = true := Iff.rfl

@[simp] theorem num_le_inf {t : Bool} : num x ≤ inf t ↔ t = false := by
  cases t <;> simp [LE.le, le]

@[simp] theorem inf_le_num : inf s ≤ num x ↔ s = true := Iff.rfl

theorem inf_lt_inf {s t : Bool} : (inf s : Fp K) < inf t ↔ s = true ∧ t = false := by
  cases s <;> cases t <;> simp [LT.lt, lt]

@[simp] theorem inf_le_inf_false : (inf s : Fp K) ≤ inf false := by
  cases s <;> rfl

theorem not_lt_nan : ¬ a < nan := by
  cases a <;> exact Bool.false_ne_true

theorem not_nan_le : ¬ nan ≤ a := by
  cases a <;> exact Bool.false_ne_true

theorem not_le_nan : ¬ a ≤ nan := by
  cases a <;> exact Bool.false_ne_true

theorem not_nan_lt : ¬ nan < a := by
  cases a <;> exact Bool.false_ne_true

/-! ### Computing -/

def isNaN : Bool := a = nan

def IsFinite : Prop := ∃ x, a = num x

/-- The minimum of the language's library: an infinity below everything wins, then
not-a-number. -/
def min (a b : Fp K) : Fp K :=
  if a = inf true ∨ b = inf true then inf true
  else if a = nan ∨ b = nan then nan
  else if a < b then a else b

variable [Field K]

def maxFloat : K := (2 ^ 53 - 1) * 2 ^ 971

/-- The float for an exact result. -/
def ofExact (x : K) : Fp K :=
  if |x| ≤ maxFloat then num x else inf (decide (x < 0))

def sub : Fp K → Fp K → Fp K
  | num x, num y => ofExact (x - y)
  | num _, inf t => inf (!t)
  | inf s, num _ => inf s
  | inf s, inf t => if s = t then nan else inf s
  | _, _ => nan

def mul : Fp K → Fp K → Fp K
  | num x, num y => ofExact (x * y)
  | num x, inf t => if x = 0 then nan else inf (xor (decide (x < 0)) t)
  | inf s, num y => if y = 0 then nan else inf (xor s (decide (y < 0)))
  | inf s, inf t => inf (xor s t)
  | _, _ => nan

def div : Fp K → Fp K → Fp K
  | num x, num y =>
    if y = 0 then (if x = 0 then nan else inf (decide (x < 0))) else ofExact (x / y)
  | num _, inf _ => num 0
  | inf s, num y => inf (xor s (decide (y < 0)))
  | _, _ => nan

instance : Sub (Fp K) := ⟨sub⟩

instance : Mul (Fp K) := ⟨mul⟩

instance : Div (Fp K) := ⟨div⟩

theorem ofExact_of_le (h : |x| ≤ maxFloat) : ofExact x = num x := if_pos h

theorem isFinite_ofExact : (ofExact x).IsFinite ↔ |x| ≤ maxFloat := by
  unfold ofExact IsFinite
  split <;> simp_all

theorem not_isFinite_mul {a : Fp K} (h : ¬ a.IsFinite) (b : Fp K) : ¬ (a * b).IsFinite := by
  rintro ⟨z, hz⟩
  change mul a b = num z at hz
  cases a with
  | nan => simp [mul] at hz
  | inf s =>
    cases b with
    | num y =>
      simp only [mul] at hz
      split at hz <;> cases hz
    | _ => simp [mul] at hz
  | num x => exact h ⟨x, rfl⟩

theorem not_isFinite_div {a : Fp K} (h : ¬ a.IsFinite) (b : Fp K) : ¬ (a / b).IsFinite := by
  rintro ⟨z, hz⟩
  change div a b = num z at hz
  cases a with
  | nan => simp [div] at hz
  | inf s => cases b <;> simp [div] at hz
  | num x => exact h ⟨x, rfl⟩

theorem zero_lt_iff {a : Fp K} : 0 < a ↔ a = inf false ∨ ∃ x, 0 < x ∧ a = num x := by
  rw [zero_def]
  cases a with
  | nan => simp [not_lt_nan]
  | inf s => simp
  | num x => simp

/-! ### Products, quotients and minima of positive values -/

theorem zero_lt_min_iff {a b : Fp K} : 0 < a.min b ↔ 0 < a ∧ 0 < b := by
  unfold min
  rw [zero_def]
  cases a with
  | nan =>
    cases b with
    | inf t => cases t <;> simp [not_lt_nan]
    | _ => simp [not_lt_nan]
  | inf s =>
    cases b with
    | inf t => cases s <;> cases t <;> simp [inf_lt_inf]
    | _ => cases s <;> simp [not_lt_nan]
  | num x =>
    cases b with
    | nan => simp [not_lt_nan]
    | inf t => cases t <;> simp
    | num y =>
      simp only [reduceCtorEq, or_self, if_false, num_lt_num]
      split
      · next h => simpa using fun hx : 0 < x => hx.trans h
      · next h => simpa using fun hy : 0 < y => hy.trans_le (not_lt.mp h)

theorem min_le_right {a b : Fp K} (h : 0 < a.min b) : a.min b ≤ b := by
  obtain ⟨ha, hb⟩ := zero_lt_min_iff.mp h
  unfold min
  rcases zero_lt_iff.mp ha with rfl | ⟨x, -, rfl⟩ <;>
    rcases zero_lt_iff.mp hb with rfl | ⟨y, -, rfl⟩
  · simp
  · simp
  · simp
  · simp only [reduceCtorEq, or_self, if_false, num_lt_num]
    split
    · next h => exact num_le_num.mpr h.le
    · exact num_le_num.mpr le_rfl

section Ordered

variable [IsStrictOrderedRing K]

theorem one_le_maxFloat : (1 : K) ≤ maxFloat := by
  refine one_le_mul_of_one_le_of_one_le ?_ (one_le_pow₀ one_le_two)
  norm_num

theorem zero_lt_ofExact {x : K} : 0 < ofExact x ↔ 0 < x := by
  rw [zero_def]
  unfold ofExact
  split
  · exact num_lt_num
  · next h =>
    rw [num_lt_inf, decide_eq_false_iff_not, not_lt]
    -- zero itself is within the range
    have hx : x ≠ 0 := by
      rintro rfl
      exact h (by rw [abs_zero]; exact zero_le_one.trans one_le_maxFloat)
    exact ⟨fun h0 => lt_of_le_of_ne h0 hx.symm, le_of_lt⟩

theorem zero_lt_mul_iff {a b : Fp K} (ha : 0 < a) : 0 < a * b ↔ 0 < b := by
  rcases zero_lt_iff.mp ha with rfl | ⟨x, hx, rfl⟩
  · cases b with
    | nan => exact iff_of_false (not_lt_nan 0) (not_lt_nan 0)
    | inf t => show 0 < inf (xor false t) ↔ _; simp
    | num y =>
      show 0 < (if y = 0 then nan else inf (xor false (decide (y < 0)))) ↔ _
      rw [zero_def]
      split
      · next hy => simp [hy, not_lt_nan]
      · next hy =>
        simpa using ⟨fun h => lt_of_le_of_ne h (Ne.symm hy), le_of_lt⟩
  · cases b with
    | nan => exact iff_of_false (not_lt_nan 0) (not_lt_nan 0)
    | inf t =>
      show 0 < (if x = 0 then nan else inf (xor (decide (x < 0)) t)) ↔ _
      rw [if_neg hx.ne', zero_def]
      simp [hx.not_gt]
    | num y =>
      show 0 < ofExact (x * y) ↔ 0 < num y
      rw [zero_lt_ofExact, zero_def, num_lt_num]
      exact mul_pos_iff_of_pos_left hx

end Ordered

end Fp

end FloatArith
