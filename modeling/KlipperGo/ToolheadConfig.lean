/-
The velocity limits of the toolhead
(`internal/pkg/motion/toolhead_control_runtime.go`).

The limits a move is built with are computed from four settings;
`applyVelocityLimitResult_valid` says that positive settings give limits
the planner can work with.
-/
import KlipperGo.ToolheadTiming

open ExactArith

namespace Motion

/-- The settings `SET_VELOCITY_LIMIT` can change. -/
structure ToolheadVelocitySettings (K : Type*) where
  maxVelocity : K
  maxAccel : K
  requestedAccelToDecel : K
  squareCornerVelocity : K

/-- The settings a command changes. -/
structure ToolheadVelocityLimitUpdate (K : Type*) where
  maxVelocity : Option K
  maxAccel : Option K
  requestedAccelToDecel : Option K
  squareCornerVelocity : Option K

/-- The settings, with the limits that follow from them. -/
structure ToolheadVelocityLimitResult (K : Type*) where
  settings : ToolheadVelocitySettings K
  junctionDeviation : K
  maxAccelToDecel : K

section Defs

variable {K : Type*} [Field K] [LinearOrder K]

/-- The junction deviation, and the acceleration the planner smooths moves with. -/
def calcToolheadJunctionDeviation [HasSqrt K]
    (squareCornerVelocity maxAccel requestedAccelToDecel : K) : K × K :=
  let scv2 := squareCornerVelocity * squareCornerVelocity
  let junctionDeviation := scv2 * (sqrt 2 - 1) / maxAccel
  let maxAccelToDecel := min requestedAccelToDecel maxAccel
  (junctionDeviation, maxAccelToDecel)

variable (settings : ToolheadVelocitySettings K) (self : ToolheadCoreState K)

/-- What an update leaves out stays as it is. -/
def applyToolheadVelocityLimitUpdate [HasSqrt K]
    (update : ToolheadVelocityLimitUpdate K) : ToolheadVelocityLimitResult K :=
  let settings : ToolheadVelocitySettings K :=
    { maxVelocity := update.maxVelocity.getD settings.maxVelocity
      maxAccel := update.maxAccel.getD settings.maxAccel
      requestedAccelToDecel := update.requestedAccelToDecel.getD settings.requestedAccelToDecel
      squareCornerVelocity := update.squareCornerVelocity.getD settings.squareCornerVelocity }
  let limits := calcToolheadJunctionDeviation settings.squareCornerVelocity settings.maxAccel
    settings.requestedAccelToDecel
  { settings := settings, junctionDeviation := limits.1, maxAccelToDecel := limits.2 }

/-- The limits of the configured settings. -/
def buildToolheadInitialVelocityResult [HasSqrt K] : ToolheadVelocityLimitResult K :=
  applyToolheadVelocityLimitUpdate settings
    { maxVelocity := none, maxAccel := none, requestedAccelToDecel := none
      squareCornerVelocity := none }

/-- The toolhead takes the limits over. -/
def ToolheadCoreState.applyVelocityLimitResult
    (result : ToolheadVelocityLimitResult K) : ToolheadCoreState K :=
  { self with
    maxVelocity := result.settings.maxVelocity
    maxAccel := result.settings.maxAccel
    requestedAccelToDecel := result.settings.requestedAccelToDecel
    squareCornerVelocity := result.settings.squareCornerVelocity
    junctionDeviation := result.junctionDeviation
    maxAccelToDecel := result.maxAccelToDecel }

/-- The limits a move is built with. -/
def ToolheadCoreState.moveConfig : MoveConfig K where
  maxAccel := self.maxAccel
  junctionDeviation := self.junctionDeviation
  maxVelocity := self.maxVelocity
  maxAccelToDecel := self.maxAccelToDecel

end Defs

variable {K : Type*} [Field K] [LinearOrder K] [IsStrictOrderedRing K] [HasSqrt K] [LawfulSqrt K]

theorem calcToolheadJunctionDeviation_nonneg {squareCornerVelocity maxAccel : K}
    (ha : 0 < maxAccel) (requestedAccelToDecel : K) :
    0 ≤ (calcToolheadJunctionDeviation squareCornerVelocity maxAccel
      requestedAccelToDecel).1 := by
  have hsqrt : (1 : K) ≤ sqrt 2 := by
    refine le_of_sq_le_sq ?_ (sqrt_nonneg 2)
    rw [sq_sqrt zero_le_two]
    norm_num
  refine div_nonneg (mul_nonneg (mul_self_nonneg _) ?_) ha.le
  linarith

/-- Positive accelerations give limits the planner can work with. -/
theorem applyVelocityLimitResult_valid (core : ToolheadCoreState K)
    (settings : ToolheadVelocitySettings K) (update : ToolheadVelocityLimitUpdate K)
    (ha : 0 < (applyToolheadVelocityLimitUpdate settings update).settings.maxAccel)
    (hd : 0 < (applyToolheadVelocityLimitUpdate settings update).settings.requestedAccelToDecel) :
    (core.applyVelocityLimitResult
      (applyToolheadVelocityLimitUpdate settings update)).moveConfig.Valid where
  maxAccel_pos := ha
  maxAccelToDecel_pos := lt_min hd ha
  maxAccelToDecel_le := min_le_right _ _
  junctionDeviation_nonneg :=
    calcToolheadJunctionDeviation_nonneg ha (settings.requestedAccelToDecel)

end Motion
