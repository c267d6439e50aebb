/-
Forced moves of a single stepper (`internal/pkg/motion/force_move.go`,
`manual_stepper_core.go`), and the queue of trapezoidal moves they go through
(`chelper/trapq.c`).

A forced move bypasses the planner.  `calcMoveTime` finds its trapezoid: if the distance is
too short to reach the speed, the speed is limited so that the acceleration and the
deceleration phase make up the whole distance.

* `trapqAppend_end` — where the queued phases end.
-/
import KlipperGo.ExactArith

open ExactArith

namespace Motion

section Defs

variable {K : Type*} [Field K] [LinearOrder K]

/-- The result of `CalcMoveTime`. -/
structure MoveTime (K : Type*) where
  axisR : K
  accelT : K
  cruiseT : K
  cruiseV : K

def cruiseOnly (axisR dist speed : K) : MoveTime K where
  axisR := axisR
  accelT := 0
  cruiseT := dist / speed
  cruiseV := speed

def calcMoveTime [HasSqrt K] (dist speed : K) (accel : Option K) : MoveTime K :=
  let axisR := if dist < 0 then -1 else 1
  let dist := if dist < 0 then -dist else dist
  match accel with
  | none => cruiseOnly axisR dist speed
  | some accelValue =>
    if dist = 0 then cruiseOnly axisR dist speed
    else if accelValue ≤ 0 then cruiseOnly axisR dist speed
    else
      let maxCruiseV2 := dist * accelValue
      let speed := if maxCruiseV2 < speed ^ 2 then sqrt maxCruiseV2 else speed
      let accelT := speed / accelValue
      let accelDecelD := accelT * speed
      { axisR := axisR, accelT := accelT, cruiseT := (dist - accelDecelD) / speed
        cruiseV := speed }

/-! ### The queue of moves -/

/-- `struct move` of `trapq.h`; a coordinate is a function of the three axes. -/
structure TrapqMove (K : Type*) where
  printTime : K
  moveT : K
  startV : K
  halfAccel : K
  startPos : Fin 3 → K
  axesR : Fin 3 → K

/-- `move_get_distance`. -/
def TrapqMove.getDistance (m : TrapqMove K) (moveTime : K) : K :=
  (m.startV + m.halfAccel * moveTime) * moveTime

/-- `move_get_coord`. -/
def TrapqMove.getCoord (m : TrapqMove K) (moveTime : K) : Fin 3 → K :=
  fun i => m.startPos i + m.axesR i * m.getDistance moveTime

/-- A phase of `trapq_append`: it is queued unless it takes no time, and the next one starts
where and when it ends.  The state is the print time, the position, and what is queued. -/
def trapqPhase (axesR : Fin 3 → K) (moveT startV halfAccel : K)
    (state : K × (Fin 3 → K) × List (TrapqMove K)) : K × (Fin 3 → K) × List (TrapqMove K) :=
  let (printTime, startPos, moves) := state
  if moveT = 0 then state
  else
    let m : TrapqMove K := { printTime, moveT, startV, halfAccel, startPos, axesR }
    (printTime + moveT, m.getCoord moveT, moves ++ [m])

/-- `trapq_append`: the time and the position at the end, and the queued moves. -/
def trapqAppend (printTime accelT cruiseT decelT : K) (startPos axesR : Fin 3 → K)
    (startV cruiseV accel : K) : K × (Fin 3 → K) × List (TrapqMove K) :=
  trapqPhase axesR decelT cruiseV (-(1 / 2) * accel)
    (trapqPhase axesR cruiseT cruiseV 0
      (trapqPhase axesR accelT startV (1 / 2 * accel) (printTime, startPos, [])))

def onX (x : K) : Fin 3 → K := fun i => if i = 0 then x else 0

/-! ### The callers -/

/-- A stepper: where it stands, and the coordinate that its kinematics give that place. -/
structure ForceMoveStepper (K : Type*) where
  position : K
  coord : Fin 3 → K

/-- `Set_position` does not move the stepper. -/
def ForceMoveStepper.setPosition (self : ForceMoveStepper K) (coord : Fin 3 → K) :
    ForceMoveStepper K := { self with coord := coord }

/-- `Generate_steps` with the cartesian kinematics of the X axis: the stepper goes to where
the queue ends. -/
def ForceMoveStepper.generateSteps (self : ForceMoveStepper K) (coord : Fin 3 → K) :
    ForceMoveStepper K :=
  { position := self.position + (coord 0 - self.coord 0), coord := coord }

/-- `ForceMover.ManualMove` from `printTime` on: the stepper, and the time at which the move
ends. -/
def manualMove [HasSqrt K] (printTime dist speed : K) (accel : Option K)
    (stepper : ForceMoveStepper K) : ForceMoveStepper K × K :=
  let stepper := stepper.setPosition (onX 0)
  let accelValue := accel.getD 0
  let t := calcMoveTime dist speed accel
  let queued := trapqAppend printTime t.accelT t.cruiseT t.accelT (onX 0) (onX t.axisR) 0
    t.cruiseV accelValue
  let printTime := printTime + t.accelT + t.cruiseT + t.accelT
  (stepper.generateSteps queued.2.1, printTime)

/-- `ManualStepperCore.QueueMove`: what is queued, with the new `nextCmdTime`. -/
def queueManualMove [HasSqrt K] (nextCmdTime currentPos movePos speed accel : K) :
    (K × (Fin 3 → K) × List (TrapqMove K)) × K :=
  let dist := movePos - currentPos
  let t := calcMoveTime dist speed (some accel)
  (trapqAppend nextCmdTime t.accelT t.cruiseT t.accelT (onX currentPos) (onX t.axisR) 0 t.cruiseV
    accel, nextCmdTime + (t.accelT + t.cruiseT + t.accelT))

end Defs

variable {K : Type*} [Field K] [LinearOrder K]

/-! ### Where the queue ends -/

theorem trapqPhase_end (axesR : Fin 3 → K) (moveT startV halfAccel : K)
    (state : K × (Fin 3 → K) × List (TrapqMove K)) :
    (trapqPhase axesR moveT startV halfAccel state).1 = state.1 + moveT ∧
      (trapqPhase axesR moveT startV halfAccel state).2.1 =
        fun i => state.2.1 i + axesR i * ((startV + halfAccel * moveT) * moveT) := by
  rw [trapqPhase]
  by_cases hzero : moveT = 0
  · simp [hzero]
  · simp only [if_neg hzero]
    exact ⟨trivial, rfl⟩

/-- The three phases in a row; a phase without time adds nothing. -/
theorem trapqAppend_end (printTime accelT cruiseT decelT : K) (startPos axesR : Fin 3 → K)
    (startV cruiseV accel : K) :
    (trapqAppend printTime accelT cruiseT decelT startPos axesR startV cruiseV accel).1 =
        printTime + accelT + cruiseT + decelT ∧
      (trapqAppend printTime accelT cruiseT decelT startPos axesR startV cruiseV accel).2.1 =
        fun i => startPos i + axesR i * ((startV + 1 / 2 * accel * accelT) * accelT +
          cruiseV * cruiseT + (cruiseV - 1 / 2 * accel * decelT) * decelT) := by
  obtain ⟨htime₁, hpos₁⟩ := trapqPhase_end axesR accelT startV (1 / 2 * accel)
    (printTime, startPos, [])
  obtain ⟨htime₂, hpos₂⟩ := trapqPhase_end axesR cruiseT cruiseV 0
    (trapqPhase axesR accelT startV (1 / 2 * accel) (printTime, startPos, []))
  obtain ⟨htime₃, hpos₃⟩ := trapqPhase_end axesR decelT cruiseV (-(1 / 2) * accel)
    (trapqPhase axesR cruiseT cruiseV 0
      (trapqPhase axesR accelT startV (1 / 2 * accel) (printTime, startPos, [])))
  refine ⟨?_, ?_⟩
  · rw [trapqAppend, htime₃, htime₂, htime₁]
  · rw [trapqAppend, hpos₃, hpos₂, hpos₁]
    funext i
    ring

/-! ### The trapezoid -/

/-- The signed way along the returned direction: acceleration from rest, cruise, deceleration
to rest. -/
def MoveTime.displacement (t : MoveTime K) (accel : K) : K :=
  t.axisR * (1 / 2 * accel * t.accelT ^ 2 + t.cruiseV * t.cruiseT +
    (t.cruiseV * t.accelT - 1 / 2 * accel * t.accelT ^ 2))

section

variable [IsStrictOrderedRing K] [HasSqrt K] [LawfulSqrt K] {dist speed : K}

/-- The phases are not negative, the cruise speed is not above the requested one, and the way
is the distance. -/
structure MoveTime.Covers (t : MoveTime K) (dist speed accel : K) : Prop where
  accelT_nonneg : 0 ≤ t.accelT
  cruiseT_nonneg : 0 ≤ t.cruiseT
  cruiseV_le : t.cruiseV ≤ speed
  displacement_eq : t.displacement accel = dist

omit [HasSqrt K] [LawfulSqrt K] in
theorem cruiseOnly_covers (axisR accel : K) (hdist : 0 ≤ dist) (hspeed : 0 < speed) :
    (cruiseOnly axisR dist speed).Covers (axisR * dist) speed accel where
  accelT_nonneg := le_rfl
  cruiseT_nonneg := div_nonneg hdist hspeed.le
  cruiseV_le := le_rfl
  displacement_eq := by
    simp [MoveTime.displacement, cruiseOnly, mul_div_cancel₀ _ hspeed.ne']

omit [HasSqrt K] [LawfulSqrt K] in
/-- A trapezoid at a speed that the distance suffices for. -/
theorem trapezoid_covers {accel v : K} (axisR : K) (haccel : 0 < accel) (hv : 0 < v)
    (hle : v ≤ speed) (hreach : v ^ 2 ≤ dist * accel) :
    MoveTime.Covers { axisR := axisR, accelT := v / accel
                      cruiseT := (dist - v / accel * v) / v, cruiseV := v }
      (axisR * dist) speed accel where
  accelT_nonneg := (div_pos hv haccel).le
  cruiseT_nonneg := by
    refine div_nonneg (sub_nonneg.mpr ?_) hv.le
    rwa [div_mul_eq_mul_div, ← sq, div_le_iff₀ haccel]
  cruiseV_le := hle
  displacement_eq := by
    have hcruise : v * ((dist - v / accel * v) / v) = dist - v / accel * v :=
      mul_div_cancel₀ _ hv.ne'
    simp only [MoveTime.displacement]
    rw [hcruise]
    ring

/-- The trapezoid of `CalcMoveTime` covers the distance. -/
theorem calcMoveTime_covers (dist : K) (hspeed : 0 < speed) (accel : Option K) :
    (calcMoveTime dist speed accel).Covers dist speed (accel.getD 0) := by
  -- the direction and the amount of the distance
  obtain ⟨hamount, hdir⟩ : 0 ≤ (if dist < 0 then -dist else dist) ∧
      (if dist < 0 then -1 else 1) * (if dist < 0 then -dist else dist) = dist := by
    split
    · next hneg => exact ⟨(neg_pos.mpr hneg).le, by ring⟩
    · next hneg => exact ⟨not_lt.mp hneg, one_mul dist⟩
  rw [calcMoveTime.eq_def]
  generalize (if dist < 0 then -1 else 1 : K) = axisR at hdir ⊢
  generalize (if dist < 0 then -dist else dist) = amount at hamount hdir ⊢
  subst hdir
  cases accel with
  | none => exact cruiseOnly_covers axisR _ hamount hspeed
  | some a =>
    dsimp only
    split_ifs with hzero haccel hshort
    · exact cruiseOnly_covers axisR _ hamount hspeed
    · exact cruiseOnly_covers axisR _ hamount hspeed
    · -- the speed cannot be reached: half of the way is acceleration, half deceleration
      have hmax : 0 < amount * a :=
        mul_pos (lt_of_le_of_ne hamount (Ne.symm hzero)) (not_le.mp haccel)
      refine trapezoid_covers axisR (not_le.mp haccel) (sqrt_pos hmax) ?_ (sq_sqrt hmax.le).le
      refine le_of_sq_le_sq ?_ hspeed.le
      rw [sq_sqrt hmax.le]
      exact hshort.le
    · exact trapezoid_covers axisR (not_le.mp haccel) hspeed le_rfl (not_lt.mp hshort)

/-! ### Forced moves -/

omit [HasSqrt K] [LawfulSqrt K] in
/-- The queue ends at the start plus the displacement, on the X axis. -/
theorem trapqAppend_displacement (printTime x accel : K) (t : MoveTime K) :
    (trapqAppend printTime t.accelT t.cruiseT t.accelT (onX x) (onX t.axisR) 0 t.cruiseV
      accel).2.1 = onX (x + t.displacement accel) := by
  rw [(trapqAppend_end _ _ _ _ _ _ _ _ _).2]
  funext i
  rw [onX, onX, onX, MoveTime.displacement]
  split <;> ring

theorem manualMove_position (printTime : K) (dist : K) (hspeed : 0 < speed) (accel : Option K)
    (stepper : ForceMoveStepper K) :
    (manualMove printTime dist speed accel stepper).1.position = stepper.position + dist := by
  have hcovers := calcMoveTime_covers dist hspeed accel
  simp only [manualMove, ForceMoveStepper.generateSteps, ForceMoveStepper.setPosition,
    trapqAppend_displacement, hcovers.displacement_eq]
  simp [onX]

theorem queueManualMove_end (nextCmdTime currentPos movePos : K) (hspeed : 0 < speed) (accel : K) :
    (queueManualMove nextCmdTime currentPos movePos speed accel).1.2.1 = onX movePos := by
  have hcovers := calcMoveTime_covers (movePos - currentPos) hspeed (some accel)
  have hdisp : (calcMoveTime (movePos - currentPos) speed (some accel)).displacement accel =
    movePos - currentPos := hcovers.displacement_eq
  rw [queueManualMove]
  rw [trapqAppend_displacement, hdisp, add_sub_cancel]

/-- For every distance, acceleration and positive speed: the trapezoid covers the distance
exactly, and a forced move followed by the opposite one returns the stepper to where it was,
as does a manual stepper's move and the move back. -/
theorem forcedMove_exact (dist speed : K) (accel : Option K) (hspeed : 0 < speed) :
    (calcMoveTime dist speed accel).Covers dist speed (accel.getD 0) ∧
      (∀ (t t' : K) (stepper : ForceMoveStepper K),
        (manualMove t dist speed accel stepper).1.position = stepper.position + dist ∧
        (manualMove t' (-dist) speed accel
          (manualMove t dist speed accel stepper).1).1.position = stepper.position) ∧
      ∀ a ∈ accel, ∀ (t t' pos : K),
        (queueManualMove t pos (pos + dist) speed a).1.2.1 = onX (pos + dist) ∧
        (queueManualMove t' (pos + dist) pos speed a).1.2.1 = onX pos := by
  refine ⟨calcMoveTime_covers dist hspeed accel, fun t t' stepper => ⟨?_, ?_⟩,
    fun a _ t t' pos => ⟨?_, ?_⟩⟩
  · exact manualMove_position t dist hspeed accel stepper
  · rw [manualMove_position t' _ hspeed, manualMove_position t _ hspeed, add_neg_cancel_right]
  · exact queueManualMove_end t _ _ hspeed a
  · exact queueManualMove_end t' _ _ hspeed a

end

/-- One millimetre backwards, too short for ten millimetres per second. -/
theorem forcedMove_exact_short :
    (0 : ℝ) < 10 ∧ (calcMoveTime (-1 : ℝ) 10 (some 4)).Covers (-1) 10 4 :=
  ⟨by norm_num, (forcedMove_exact (-1) 10 (some 4) (by norm_num)).1⟩

end Motion
