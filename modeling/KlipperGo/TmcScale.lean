/-
The motor currents that scale bits stand for (`internal/pkg/tmc/current_helpers.go`).

In units of the step of a range, a current is rounded to one of the numbers 1 to 32.  The
helper of the TMC2130, TMC2208 and TMC2209 takes the range with the smaller steps, unless the
current is above it and the other range is closer.
-/
import KlipperGo.TmcCurrent

namespace Tmc

open ExactArith

/-! ### Rounding to a number of steps -/

section Rounding

variable {K : Type*} [Field K] [LinearOrder K] [IsStrictOrderedRing K] [FloorRing K] {x : K}

theorem clampBits_mono {m n : ℤ} (h : m ≤ n) : clampBits m ≤ clampBits n := by
  unfold clampBits
  omega

/-- A number of steps in the range is rounded to the nearest integer. -/
theorem clampBits_round (hlow : 1 ≤ x) (hhigh : x ≤ 32) :
    |x - ((clampBits (trunc (x + 1 / 2) - 1) : K) + 1)| ≤ 1 / 2 := by
  rw [trunc, if_pos (by linarith)]
  have hle := Int.floor_le (x + 1 / 2)
  have hlt := Int.lt_floor_add_one (x + 1 / 2)
  have hone : 1 ≤ ⌊x + 1 / 2⌋ := Int.le_floor.mpr (by push_cast; linarith)
  have hmax : ⌊x + 1 / 2⌋ < 33 := Int.floor_lt.mpr (by push_cast; linarith)
  have hclamp : clampBits (⌊x + 1 / 2⌋ - 1) = ⌊x + 1 / 2⌋ - 1 := by
    unfold clampBits
    omega
  rw [hclamp, abs_le]
  push_cast
  constructor <;> linarith

theorem clampBits_max (h : 32 ≤ x) : clampBits (trunc (x + 1 / 2) - 1) = 31 := by
  rw [trunc, if_pos (by linarith)]
  have hfloor : 32 ≤ ⌊x + 1 / 2⌋ := Int.le_floor.mpr (by push_cast; linarith)
  unfold clampBits
  omega

end Rounding

namespace TMCCurrentHelper

variable {K : Type*} [Field K] [LinearOrder K] [FloorRing K] [HasSqrt K] (h : TMCCurrentHelper K)

/-- The current of one step of a range. -/
def stepCurrent (vsense : Bool) : K :=
  vref vsense / (32 * (h.senseResistor + ((0.020 : ℚ) : K)) * sqrt 2)

omit [LinearOrder K] [FloorRing K] in
theorem calcCurrentFromBits_eq (cs : K) (vsense : Bool) :
    h.calcCurrentFromBits cs vsense = (cs + 1) * h.stepCurrent vsense := mul_div_assoc _ _ _

theorem calcCurrentBits_eq (current : K) (vsense : Bool) :
    h.calcCurrentBits current vsense =
      clampBits (trunc (current / h.stepCurrent vsense + 1 / 2) - 1) := by
  rw [calcCurrentBits, bitsOfCurrent, stepCurrent, div_div_eq_mul_div]
  ring_nf

variable [IsStrictOrderedRing K] [LawfulSqrt K] {h} (hsense : 0 ≤ h.senseResistor)
  {run : K}

include hsense

omit [FloorRing K] in
theorem stepCurrent_pos (vsense : Bool) : 0 < h.stepCurrent vsense := by
  have hvref : (0 : K) < vref vsense := by
    cases vsense <;> simp only [vref] <;> norm_num
  have hsqrt : (0 : K) < sqrt 2 := sqrt_pos two_pos
  exact div_pos hvref (by positivity)

omit hsense [LinearOrder K] [FloorRing K] [IsStrictOrderedRing K] [LawfulSqrt K] in
theorem stepCurrent_ratio [CharZero K] : h.stepCurrent false * 9 = h.stepCurrent true * 16 := by
  simp only [stepCurrent, vref]
  norm_num
  ring

/-- The choice of the range, in terms of the largest current of the fine one. -/
theorem chooseVsense_eq (run : K) :
    chooseVsense h.calcCurrentBits h.calcCurrentFromBits run =
      if 32 * h.stepCurrent true < run ∧
          |run - h.calcCurrentFromBits (h.calcCurrentBits run false) false| <
            |run - 32 * h.stepCurrent true|
      then (false, h.calcCurrentBits run false) else (true, h.calcCurrentBits run true) := by
  have hmax : h.calcCurrentFromBits (31 : ℤ) true = 32 * h.stepCurrent true := by
    rw [calcCurrentFromBits_eq]
    norm_num
  unfold chooseVsense
  dsimp only
  by_cases hrun : 32 * h.stepCurrent true < run
  · have hbits : h.calcCurrentBits run true = 31 := by
      rw [calcCurrentBits_eq]
      exact clampBits_max ((le_div_iff₀ (stepCurrent_pos hsense true)).mpr hrun.le)
    rw [hbits, hmax, if_pos rfl, if_pos hrun]
    simp only [hrun, true_and]
  · rw [if_neg fun hc : _ ∧ _ => hrun hc.1]
    split_ifs with hbits hlt
    · rw [hbits, hmax] at hlt
      exact absurd hlt hrun
    · rfl
    · rfl
    · rfl

/-- Inside a range the current is off by at most half a step. -/
theorem abs_sub_le (vsense : Bool) (hlow : h.stepCurrent vsense ≤ run)
    (hhigh : run ≤ 32 * h.stepCurrent vsense) :
    |run - h.calcCurrentFromBits (h.calcCurrentBits run vsense) vsense| ≤
      h.stepCurrent vsense / 2 := by
  have hpos := stepCurrent_pos hsense vsense
  have hround := clampBits_round ((one_le_div hpos).mpr hlow) ((div_le_iff₀ hpos).mpr hhigh)
  rw [calcCurrentFromBits_eq, calcCurrentBits_eq]
  calc _ = |run / h.stepCurrent vsense -
          ((clampBits (trunc (run / h.stepCurrent vsense + 1 / 2) - 1) : K) + 1)| *
            h.stepCurrent vsense := by
        rw [← abs_of_pos hpos, ← abs_mul, abs_of_pos hpos, sub_mul, div_mul_cancel₀ _ hpos.ne']
    _ ≤ 1 / 2 * h.stepCurrent vsense := mul_le_mul_of_nonneg_right hround hpos.le
    _ = h.stepCurrent vsense / 2 := by ring

theorem calcCurrentBits_mono (vsense : Bool) {a b : K} (hab : a ≤ b) :
    h.calcCurrentBits a vsense ≤ h.calcCurrentBits b vsense := by
  have hdiv := div_le_div_of_nonneg_right hab (stepCurrent_pos hsense vsense).le
  rw [calcCurrentBits_eq, calcCurrentBits_eq]
  exact clampBits_mono (Int.sub_le_sub_right (trunc_mono (by linarith)) 1)

/-- How far the current that is set can be from the requested one. -/
theorem run_current_accurate (hold : K) (hlow : h.stepCurrent true ≤ run)
    (hhigh : run ≤ h.calcCurrentFromBits 31 false) :
    let (vsense, irun, ihold) := h.calcCurrent run hold
    let achieved := h.calcCurrentFromBits irun vsense
    let largest := h.calcCurrentFromBits 31 true
    (run ≤ largest → |run - achieved| ≤ h.stepCurrent true / 2) ∧
      (largest < run → |run - achieved| ≤ h.stepCurrent false / 2) ∧
      (vsense = false → |run - achieved| < |run - largest|) ∧ ihold ≤ irun := by
  have hmax (vsense : Bool) : h.calcCurrentFromBits 31 vsense = 32 * h.stepCurrent vsense := by
    rw [calcCurrentFromBits_eq]
    norm_num
  have hcalc : h.calcCurrent run hold =
      let c := chooseVsense h.calcCurrentBits h.calcCurrentFromBits run
      (c.1, c.2, h.calcCurrentBits (min hold run) c.1) := rfl
  have hmono (vsense : Bool) := calcCurrentBits_mono hsense vsense (min_le_right hold run)
  have hratio := h.stepCurrent_ratio
  have hpos := stepCurrent_pos hsense true
  rw [hcalc, chooseVsense_eq hsense]
  simp only [hmax] at hhigh ⊢
  split_ifs with hcoarse
  · refine ⟨fun hle => absurd hcoarse.1 (not_lt.mpr hle), fun hlt => ?_, fun _ => hcoarse.2,
      hmono false⟩
    exact abs_sub_le hsense false (by linarith) hhigh
  · refine ⟨fun hle => abs_sub_le hsense true hlow hle, fun hlt => ?_, nofun, hmono true⟩
    -- the largest fine current is not farther than the coarse one
    have hbits : h.calcCurrentBits run true = 31 := by
      rw [calcCurrentBits_eq]
      exact clampBits_max ((le_div_iff₀ hpos).mpr hlt.le)
    have hfine := not_lt.mp fun hcloser => hcoarse ⟨hlt, hcloser⟩
    rw [hbits, Int.cast_ofNat, hmax]
    exact hfine.trans (abs_sub_le hsense false (by linarith) hhigh)

end TMCCurrentHelper

theorem TMCCurrentHelper.run_current_accurate_oneStep :
    let h : TMCCurrentHelper ℝ := ⟨.tmc2209, ((0.11 : ℚ) : ℝ)⟩
    (h.calcCurrent (h.stepCurrent true) 1).2.2 ≤ (h.calcCurrent (h.stepCurrent true) 1).2.1 := by
  intro h
  have hpos := stepCurrent_pos (h := h) (by norm_num) true
  have hratio := h.stepCurrent_ratio
  refine (run_current_accurate (h := h) (by norm_num) 1 le_rfl ?_).2.2.2
  rw [calcCurrentFromBits_eq]
  linarith

end Tmc
