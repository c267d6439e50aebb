/-
The position of a stepper in micro-controller steps
(`internal/pkg/mcu/stepper_position.go`, `legacy_stepper.go`).

A stepper does not store its step position.  It stores an offset, and finds the
position by rounding the commanded position of its kinematics plus the offset
to whole steps.  Everything that changes the step distance, the kinematics or
the commanded position therefore reads the position first and chooses a new
offset at the end; changing the rotation distance does so twice, one inside the
other.  The kinematics are the solver's, and may return anything.

* `getMcuPosition_of_aligned` — rounding gives an aligned position back;
* `call_returns` — every call leaves the stepper aligned to the position it had.
-/
import KlipperGo.ExactArith
import KlipperGo.GoRuntime
import KlipperGo.Returns

open ExactArith GoRuntime Outcome

namespace Mcu

/-- The calls of the step solver; nothing is assumed about what they do. -/
structure Itersolve (Sk Tq K : Type*) where
  getCommandedPos : Sk → K
  setPosition : Sk → K → K → K → Sk
  setStepcompress : Sk → K → Sk
  setTrapq : Sk → Option Tq → Sk

structure LegacyStepper (Sk Tq K : Type*) [Field K] where
  rotationDist : K
  stepsPerRotation : ℤ
  stepDist : K
  stepDist_eq : stepDist = rotationDist / stepsPerRotation
  mcuPositionOffset : K
  stepperKinematics : Option Sk
  trapq : Option Tq

namespace LegacyStepper

variable {Sk Tq K : Type} [Field K] (kin : Itersolve Sk Tq K) (self : LegacyStepper Sk Tq K)

/-- `Get_commanded_position`; without kinematics the type assertion fails. -/
def getCommandedPosition : Except Panic K :=
  match self.stepperKinematics with
  | some sk => .ok (kin.getCommandedPos sk)
  | none => .error .typeAssertion

def mcuToCommandedPosition (mcuPos : ℤ) : K :=
  (mcuPos : K) * self.stepDist - self.mcuPositionOffset

def setMcuPosition (mcuPos : ℤ) : Except Panic (LegacyStepper Sk Tq K) := do
  let commandedPosition ← self.getCommandedPosition kin
  return { self with mcuPositionOffset := (mcuPos : K) * self.stepDist - commandedPosition }

variable [LinearOrder K] [FloorRing K] (self : LegacyStepper Sk Tq K)

def getMcuPosition : Except Panic ℤ := do
  let commandedPosition ← self.getCommandedPosition kin
  let mcuPos := (commandedPosition + self.mcuPositionOffset) / self.stepDist
  return if 0 ≤ mcuPos then trunc (mcuPos + 1 / 2) else trunc (mcuPos - 1 / 2)

def setPosition (x y z : K) : Except Panic (LegacyStepper Sk Tq K) := do
  let mcuPos ← self.getMcuPosition kin
  let sk ← self.stepperKinematics.elim (.error .typeAssertion) .ok
  { self with stepperKinematics := some (kin.setPosition sk x y z) }.setMcuPosition kin mcuPos

/-- The position that `Set_stepper_kinematics` keeps: that of the kinematics before, if any. -/
def keptPosition : Except Panic ℤ :=
  if self.stepperKinematics.isSome then self.getMcuPosition kin else .ok 0

def setStepperKinematics (sk : Option Sk) : Except Panic (LegacyStepper Sk Tq K) := do
  let mcuPos ← self.keptPosition kin
  let sk ← sk.elim (.error .typeAssertion) .ok
  let sk := kin.setTrapq (kin.setStepcompress sk self.stepDist) self.trapq
  { self with stepperKinematics := some sk }.setMcuPosition kin mcuPos

def setRotationDistance (rotationDist : K) : Except Panic (LegacyStepper Sk Tq K) := do
  let mcuPos ← self.getMcuPosition kin
  let self := { self with
    rotationDist, stepDist := rotationDist / self.stepsPerRotation, stepDist_eq := rfl }
  let self ← self.setStepperKinematics kin self.stepperKinematics
  self.setMcuPosition kin mcuPos

end LegacyStepper

/-- A call that configures the stepper anew. -/
inductive Call (Sk K : Type*) where
  | setPosition (x y z : K)
  | setRotationDistance (rotationDist : K)
  | setStepperKinematics (sk : Option Sk)

/-- The rotation distance is positive, and the kinematics are not nil. -/
def Call.Valid {Sk K : Type*} [Zero K] [LT K] : Call Sk K → Prop
  | setPosition _ _ _ => True
  | setRotationDistance rotationDist => 0 < rotationDist
  | setStepperKinematics sk => sk.isSome

namespace LegacyStepper

variable {Sk Tq K : Type} [Field K] [LinearOrder K] [FloorRing K] (kin : Itersolve Sk Tq K)

def call (self : LegacyStepper Sk Tq K) : Call Sk K → Except Panic (LegacyStepper Sk Tq K)
  | .setPosition x y z => self.setPosition kin x y z
  | .setRotationDistance rotationDist => self.setRotationDistance kin rotationDist
  | .setStepperKinematics sk => self.setStepperKinematics kin sk

/-! ### Aligned steppers -/

/-- The stepper can move, and has kinematics. -/
structure Ready (s : LegacyStepper Sk Tq K) : Prop where
  stepsPerRotation_ne : s.stepsPerRotation ≠ 0
  rotationDist_ne : s.rotationDist ≠ 0
  kinematics : s.stepperKinematics.isSome

/-- The commanded position is the one of a whole step. -/
structure Aligned (s : LegacyStepper Sk Tq K) (mcuPos : ℤ) : Prop extends Ready s where
  commanded : s.getCommandedPosition kin = .ok (s.mcuToCommandedPosition mcuPos)

variable {self : LegacyStepper Sk Tq K} {mcuPos : ℤ}

omit [LinearOrder K] [FloorRing K] in
theorem getCommandedPosition_returns (h : self.stepperKinematics.isSome) :
    ∃ commanded, self.getCommandedPosition kin = .ok commanded := by
  obtain ⟨sk, hsk⟩ := Option.isSome_iff_exists.mp h
  exact ⟨kin.getCommandedPos sk, by simp [getCommandedPosition, hsk]⟩

theorem getMcuPosition_returns (h : self.stepperKinematics.isSome) :
    ∃ mcuPos, self.getMcuPosition kin = .ok mcuPos := by
  obtain ⟨commanded, hc⟩ := getCommandedPosition_returns kin h
  exact ⟨_, by rw [getMcuPosition, hc]; rfl⟩

variable {kin}

theorem Ready.stepDist_ne (h : self.Ready) : self.stepDist ≠ 0 := by
  rw [self.stepDist_eq]
  exact div_ne_zero h.rotationDist_ne (Int.cast_ne_zero.mpr h.stepsPerRotation_ne)

omit [LinearOrder K] [FloorRing K] in
/-- Whatever the commanded position is, the chosen offset aligns it. -/
theorem setMcuPosition_returns (h : self.Ready) :
    Returns (self.setMcuPosition kin mcuPos) fun self' => self'.Aligned kin mcuPos := by
  obtain ⟨commanded, hc⟩ := getCommandedPosition_returns kin h.kinematics
  rw [setMcuPosition, hc]
  refine returns_ok ⟨⟨h.stepsPerRotation_ne, h.rotationDist_ne, h.kinematics⟩, ?_⟩
  rw [mcuToCommandedPosition, sub_sub_cancel]
  exact hc

theorem setStepperKinematics_returns {sk : Option Sk} (h : self.Ready) (hsk : sk.isSome)
    (hpos : self.getMcuPosition kin = .ok mcuPos) :
    Returns (self.setStepperKinematics kin sk) fun self' => self'.Aligned kin mcuPos := by
  obtain ⟨sk, rfl⟩ := Option.isSome_iff_exists.mp hsk
  rw [setStepperKinematics, keptPosition, if_pos h.kinematics, hpos]
  change Returns (setMcuPosition kin { self with stepperKinematics := some _ } mcuPos) _
  exact setMcuPosition_returns ⟨h.stepsPerRotation_ne, h.rotationDist_ne, rfl⟩

theorem call_returns {c : Call Sk K} (h : self.Ready) (hc : c.Valid)
    (hpos : self.getMcuPosition kin = .ok mcuPos) :
    Returns (self.call kin c) fun self' => self'.Aligned kin mcuPos := by
  obtain ⟨sk, hsk⟩ := Option.isSome_iff_exists.mp h.kinematics
  cases c with
  | setPosition x y z =>
    rw [call, setPosition, hpos, hsk]
    change Returns (setMcuPosition kin { self with stepperKinematics := some _ } mcuPos) _
    exact setMcuPosition_returns ⟨h.stepsPerRotation_ne, h.rotationDist_ne, rfl⟩
  | setRotationDistance rotationDist =>
    rw [call, setRotationDistance, hpos]
    set self₁ : LegacyStepper Sk Tq K :=
      { self with rotationDist, stepDist := rotationDist / self.stepsPerRotation
                  stepDist_eq := rfl }
    have hready : self₁.Ready := ⟨h.stepsPerRotation_ne, ne_of_gt hc, h.kinematics⟩
    -- the inner call keeps the position that the old offset gives with the new step distance
    obtain ⟨_, hinner⟩ := getMcuPosition_returns kin hready.kinematics
    exact (setStepperKinematics_returns hready hready.kinematics hinner).bind
      fun _ h₂ => setMcuPosition_returns h₂.toReady
  | setStepperKinematics sk => exact setStepperKinematics_returns h hc hpos

variable [IsStrictOrderedRing K]

theorem getMcuPosition_of_aligned (h : self.Aligned kin mcuPos) :
    self.getMcuPosition kin = .ok mcuPos := by
  have hpos : (self.mcuToCommandedPosition mcuPos + self.mcuPositionOffset) / self.stepDist =
      mcuPos := by
    rw [mcuToCommandedPosition, sub_add_cancel, mul_div_cancel_right₀ _ h.toReady.stepDist_ne]
  rw [getMcuPosition, h.commanded]
  change Except.ok _ = Except.ok _
  rw [hpos, trunc_round]

/-! ### Sequences of calls -/

variable (kin) in
def run (self : LegacyStepper Sk Tq K) (calls : List (Call Sk K)) :
    Except Panic (LegacyStepper Sk Tq K) :=
  calls.foldlM (fun self c => self.call kin c) self

theorem run_returns {calls : List (Call Sk K)} (h : self.Aligned kin mcuPos)
    (hcalls : ∀ c ∈ calls, c.Valid) :
    Returns (self.run kin calls) fun self' => self'.Aligned kin mcuPos := by
  induction calls generalizing self with
  | nil => exact returns_ok h
  | cons c calls ih =>
    refine (call_returns h.toReady (hcalls c (by simp)) (getMcuPosition_of_aligned h)).bind ?_
    intro self' h'
    exact ih h' fun c hc => hcalls c (by simp [hc])

/-- The step position is the same after every non-empty sequence of calls, and the commanded
position is then the one of that step, whatever the kinematics return. -/
theorem mcu_position_survives (kin : Itersolve Sk Tq K) (self : LegacyStepper Sk Tq K)
    (hdist : 0 < self.stepDist) (hkin : self.stepperKinematics.isSome)
    (calls : List (Call Sk K)) (hne : calls ≠ []) (hcalls : ∀ c ∈ calls, c.Valid) :
    ∃ mcuPos, self.getMcuPosition kin = .ok mcuPos ∧
      Returns (self.run kin calls) fun self' =>
        self'.getMcuPosition kin = .ok mcuPos ∧
          self'.getCommandedPosition kin = .ok (self'.mcuToCommandedPosition mcuPos) := by
  obtain ⟨mcuPos, hpos⟩ := getMcuPosition_returns kin hkin
  refine ⟨mcuPos, hpos, ?_⟩
  have hready : self.Ready := by
    have hquot := self.stepDist_eq ▸ hdist.ne'
    obtain ⟨hrot, hsteps⟩ := div_ne_zero_iff.mp hquot
    exact ⟨Int.cast_ne_zero.mp hsteps, hrot, hkin⟩
  -- the first call aligns the stepper, the others keep it aligned
  obtain ⟨c, calls, rfl⟩ := List.exists_cons_of_ne_nil hne
  have haligned : Returns (self.run kin (c :: calls)) fun self' => self'.Aligned kin mcuPos := by
    refine (call_returns hready (hcalls c (by simp)) hpos).bind ?_
    intro self' h'
    exact run_returns h' fun c hc => hcalls c (by simp [hc])
  exact haligned.mono fun self' h' => ⟨getMcuPosition_of_aligned h', h'.commanded⟩

def driftingSolver : Itersolve ℚ Unit ℚ where
  getCommandedPos sk := sk
  setPosition _ x _ _ := x
  setStepcompress sk stepDist := sk + stepDist / 3
  setTrapq sk _ := sk

def sampleStepper : LegacyStepper ℚ Unit ℚ where
  rotationDist := 40
  stepsPerRotation := 3200
  stepDist := 40 / (3200 : ℤ)
  stepDist_eq := rfl
  mcuPositionOffset := 0
  stepperKinematics := some 7
  trapq := none

theorem mcu_position_survives_drift :
    ∃ mcuPos, sampleStepper.getMcuPosition driftingSolver = .ok mcuPos ∧
      Returns (sampleStepper.run driftingSolver [.setRotationDistance 32, .setPosition 1 2 3])
        fun self' => self'.getMcuPosition driftingSolver = .ok mcuPos ∧
          self'.getCommandedPosition driftingSolver = .ok (self'.mcuToCommandedPosition mcuPos) :=
  mcu_position_survives driftingSolver sampleStepper (by norm_num [sampleStepper]) rfl
    [.setRotationDistance 32, .setPosition 1 2 3] (by simp) (by simp [Call.Valid])

end LegacyStepper

end Mcu
