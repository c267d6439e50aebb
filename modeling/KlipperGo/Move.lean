/-
Moves of the look-ahead planner (`internal/pkg/motion/move_queue.go`).

A `Move` is one straight segment with its speed limits.  `newMove` computes the
geometry and the initial limits, `Move.limitSpeed` tightens them (the checks of
the kinematics and the extruder call it), `Move.calcJunction` bounds the speed
at the junction with the previous move, and `Move.setJunction` turns the speeds
chosen by the planner into the three phase times of the trapezoid.

What the planner relies on:

* `Built.wellFormed` — what the constructors guarantee about them;
* `calcJunction_linked` — what a junction guarantees about a move and its
  predecessor, in the form the two passes of the planner use it.
-/
import KlipperGo.ExactArith
import Mathlib.Tactic.Positivity

open ExactArith List

namespace Motion

/-- A coordinate: the three axes and the extruder. -/
abbrev Coord (K : Type*) := Fin 4 → K

/-- One call of `Note_mcu_movequeue_activity`. -/
structure Activity (K : Type*) where
  mqTime : K
  setStepGenTime : Bool
deriving DecidableEq, Repr

structure MoveConfig (K : Type*) where
  maxAccel : K
  junctionDeviation : K
  maxVelocity : K
  maxAccelToDecel : K

/-- A move.  A timing callback is represented by the move-queue activity it
notes when it is called with the end time of the move. -/
structure Move (K : Type*) where
  startPos : Coord K
  endPos : Coord K
  accel : K
  junctionDeviation : K
  timingCallbacks : List (K → List (Activity K))
  isKinematicMove : Bool
  axesD : Coord K
  moveD : K
  axesR : Coord K
  minMoveT : K
  maxStartV2 : K
  maxCruiseV2 : K
  deltaV2 : K
  nextJunctionV2 : K
  maxMcrStartV2 : K
  mcrDeltaV2 : K
  maxSmoothedV2 : K
  smoothDeltaV2 : K
  startV : K
  cruiseV : K
  endV : K
  accelT : K
  cruiseT : K
  decelT : K

structure MoveError (K : Type*) where
  msg : String
  endPos : Coord K

section Defs

variable {K : Type*} [Field K] [LinearOrder K]

/-- `customMin` of the source: the least of the values, `0` if there are none. -/
def customMin : List K → K
  | [] => 0
  | v :: values => values.foldl (fun minValue v => if v < minValue then v else minValue) v

variable (config : MoveConfig K) (startPos endPos : Coord K) (self : Move K) (speed : K)

/-- The tail of `NewMove`, common to its two branches. -/
def mkMove (axesD : Coord K)
    (moveD invMoveD accel velocity : K) (isKinematicMove : Bool) : Move K where
  startPos := startPos
  endPos := endPos
  accel := accel
  junctionDeviation := config.junctionDeviation
  timingCallbacks := []
  isKinematicMove := isKinematicMove
  axesD := axesD
  moveD := moveD
  axesR := fun i => axesD i * invMoveD
  minMoveT := moveD / velocity
  maxStartV2 := 0
  maxCruiseV2 := velocity * velocity
  deltaV2 := 2 * moveD * accel
  nextJunctionV2 := 9999999999 / 10
  maxMcrStartV2 := 0
  mcrDeltaV2 := 2 * moveD * config.maxAccelToDecel
  maxSmoothedV2 := 0
  smoothDeltaV2 := 2 * moveD * config.maxAccelToDecel
  startV := 0
  cruiseV := 0
  endV := 0
  accelT := 0
  cruiseT := 0
  decelT := 0

/-- `NewMove`.  A move of less than a nanometre is an extrude-only move. -/
def newMove [HasSqrt K] : Move K :=
  let axesD : Coord K := fun i => endPos i - startPos i
  let moveD := sqrt (axesD 0 * axesD 0 + axesD 1 * axesD 1 + axesD 2 * axesD 2)
  if moveD < 1 / 1000000000 then
    let moveD := |axesD 3|
    let invMoveD := if moveD ≠ 0 then 1 / moveD else 0
    mkMove config startPos (fun i => if i = 3 then endPos 3 else startPos i)
      (fun i => if i = 3 then axesD 3 else 0) moveD invMoveD (999999999 / 10) speed false
  else
    mkMove config startPos endPos axesD moveD (1 / moveD) config.maxAccel
      (min speed config.maxVelocity) true

def Move.limitSpeed (accel : K) : Move K :=
  let speed2 := speed * speed
  let self := if speed2 < self.maxCruiseV2 then
      { self with maxCruiseV2 := speed2, minMoveT := self.moveD / speed }
    else self
  let accel := min self.accel accel
  let deltaV2 := 2 * self.moveD * accel
  let mcrDeltaV2 := min self.mcrDeltaV2 deltaV2
  { self with
    accel := accel, deltaV2 := deltaV2, mcrDeltaV2 := mcrDeltaV2, smoothDeltaV2 := mcrDeltaV2 }

def Move.limitNextJunctionSpeed : Move K :=
  { self with nextJunctionV2 := min self.nextJunctionV2 (speed * speed) }

/-- `Move.Move_error`: the message and the end position that is written after it. -/
def Move.moveError (msg : String) : MoveError K :=
  { msg := msg, endPos := self.endPos }

/-- The extruder as the planner sees it: a junction limit, never negative for a
move whose own limit is not. -/
structure MoveJunctionCalculator (K : Type*) [Field K] [LinearOrder K] where
  calcJunction : Move K → Move K → K
  calcJunction_nonneg : ∀ prevMove move : Move K, 0 ≤ move.maxCruiseV2 →
    0 ≤ calcJunction prevMove move

/-- `DummyExtruder.Calc_junction`. -/
def dummyExtruder : MoveJunctionCalculator K where
  calcJunction _ move := move.maxCruiseV2
  calcJunction_nonneg _ _ h := h

def calcExtrusionJunction (prevMove move : Move K) (instantCornerV : K) : K :=
  let diffR := move.axesR 3 - prevMove.axesR 3
  if diffR ≠ 0 then (instantCornerV / |diffR|) ^ 2 else move.maxCruiseV2

/-- `LegacyExtruderRuntime.Calc_junction`. -/
def legacyExtruder [IsStrictOrderedRing K] (instantCornerV : K) : MoveJunctionCalculator K where
  calcJunction prevMove move := calcExtrusionJunction prevMove move instantCornerV
  calcJunction_nonneg prevMove move h := by
    rw [calcExtrusionJunction]
    split
    · exact sq_nonneg _
    · exact h

variable (self prevMove : Move K)

/-- The limit `max_start_v2` that `Move.Calc_junction` computes for two
kinematic moves: by the extruder, by the two moves' own speeds, and by the angle
between them. -/
def Move.junctionV2 [HasSqrt K] (extruderV2 : K) : K :=
  let maxStartV2 := customMin [extruderV2, self.maxCruiseV2, prevMove.maxCruiseV2,
    prevMove.nextJunctionV2, prevMove.maxStartV2 + prevMove.deltaV2]
  let axesR := self.axesR
  let prevAxesR := prevMove.axesR
  let junctionCosTheta :=
    -(axesR 0 * prevAxesR 0 + axesR 1 * prevAxesR 1 + axesR 2 * prevAxesR 2)
  let sinThetaD2 := sqrt (max (1 / 2 * (1 - junctionCosTheta)) 0)
  let cosThetaD2 := sqrt (max (1 / 2 * (1 + junctionCosTheta)) 0)
  let oneMinusSinThetaD2 := 1 - sinThetaD2
  if 0 < oneMinusSinThetaD2 ∧ 0 < cosThetaD2 then
    let rJd := sinThetaD2 / oneMinusSinThetaD2
    let moveJdV2 := rJd * self.junctionDeviation * self.accel
    let pmoveJdV2 := rJd * prevMove.junctionDeviation * prevMove.accel
    let quarterTanThetaD2 := 1 / 4 * sinThetaD2 / cosThetaD2
    let moveCentripetalV2 := self.deltaV2 * quarterTanThetaD2
    let pmoveCentripetalV2 := prevMove.deltaV2 * quarterTanThetaD2
    customMin [maxStartV2, moveJdV2, pmoveJdV2, moveCentripetalV2, pmoveCentripetalV2]
  else maxStartV2

/-- The extruder's part of `Move.Calc_junction`; no extruder, no limit. -/
def Move.extruderV2 : Option (MoveJunctionCalculator K) → K
  | none => self.maxCruiseV2
  | some extruder => extruder.calcJunction prevMove self

/-- `Move.Calc_junction`.  A move without a kinematic neighbour starts from rest. -/
def Move.calcJunction [HasSqrt K] (extruder : Option (MoveJunctionCalculator K)) : Move K :=
  if !self.isKinematicMove || !prevMove.isKinematicMove then self
  else
    let maxStartV2 := self.junctionV2 prevMove (self.extruderV2 prevMove extruder)
    let maxMcrStartV2 := min maxStartV2 (prevMove.maxMcrStartV2 + prevMove.mcrDeltaV2)
    { self with
      maxStartV2 := maxStartV2, maxMcrStartV2 := maxMcrStartV2, maxSmoothedV2 := maxMcrStartV2 }

def Move.setJunction [HasSqrt K] (startV2 cruiseV2 endV2 : K) : Move K :=
  let halfInvAccel := 1 / 2 / self.accel
  let accelD := (cruiseV2 - startV2) * halfInvAccel
  let decelD := (cruiseV2 - endV2) * halfInvAccel
  let cruiseD := self.moveD - accelD - decelD
  let startV := sqrt startV2
  let cruiseV := sqrt cruiseV2
  let endV := sqrt endV2
  { self with
    startV := startV, cruiseV := cruiseV, endV := endV
    accelT := accelD / ((startV + cruiseV) * (1 / 2))
    cruiseT := cruiseD / cruiseV
    decelT := decelD / ((endV + cruiseV) * (1 / 2)) }

end Defs

variable {K : Type*} [Field K] [LinearOrder K]

/-! ### The least of a list of values -/

omit [Field K] in
private theorem foldl_min_eq (v : K) (values : List K) :
    values.foldl (fun minValue v => if v < minValue then v else minValue) v
      = values.foldl min v := by
  induction values generalizing v with
  | nil => rfl
  | cons w values ih =>
    rw [foldl_cons, foldl_cons, ih]
    by_cases h : w < v
    · rw [if_pos h, min_eq_right h.le]
    · rw [if_neg h, min_eq_left (not_lt.mp h)]

@[simp] theorem customMin_singleton (v : K) : customMin [v] = v := rfl

@[simp] theorem customMin_cons_cons (v w : K) (values : List K) :
    customMin (v :: w :: values) = min v (customMin (w :: values)) := by
  rw [customMin, customMin, foldl_min_eq, foldl_min_eq, foldl_cons]
  exact foldl_assoc

theorem customMin_le {values : List K} {v : K} (h : v ∈ values) : customMin values ≤ v := by
  induction values with
  | nil => simp at h
  | cons w values ih =>
    cases values with
    | nil => simp_all
    | cons x values =>
      rw [customMin_cons_cons]
      rcases mem_cons.mp h with rfl | h
      · exact min_le_left _ _
      · exact (min_le_right _ _).trans (ih h)

theorem le_customMin {w : K} {values : List K} {b : K} (h : ∀ v ∈ w :: values, b ≤ v) :
    b ≤ customMin (w :: values) := by
  induction values generalizing w with
  | nil => exact h w (by simp)
  | cons x values ih =>
    rw [customMin_cons_cons]
    exact le_min (h w (by simp)) (ih fun v hv => h v (by simp [hv]))

/-! ### The moves the program builds -/

/-- The planner's preconditions on the limits a move is built with.  The
toolhead computes the junction deviation from a squared speed
(`calcToolheadJunctionDeviation_nonneg`), so it is never negative. -/
structure MoveConfig.Valid (config : MoveConfig K) : Prop where
  maxAccel_pos : 0 < config.maxAccel
  maxAccelToDecel_pos : 0 < config.maxAccelToDecel
  maxAccelToDecel_le : config.maxAccelToDecel ≤ config.maxAccel
  junctionDeviation_nonneg : 0 ≤ config.junctionDeviation

/-- The moves handed to the look-ahead queue: built by `newMove` with a positive
length, then limited any number of times.  `SpeedOk` is what is asked of the
speeds. -/
inductive Built [HasSqrt K] (SpeedOk : K → Prop) : Move K → Prop
  | newMove {config : MoveConfig K} {startPos endPos : Coord K} {speed : K} :
      config.Valid → SpeedOk config.maxVelocity → SpeedOk speed →
      0 < (newMove config startPos endPos speed).moveD →
      Built SpeedOk (newMove config startPos endPos speed)
  | limitSpeed {m : Move K} {speed accel : K} :
      Built SpeedOk m → SpeedOk speed → 0 < accel → Built SpeedOk (m.limitSpeed speed accel)
  | limitNextJunctionSpeed {m : Move K} {speed : K} :
      Built SpeedOk m → Built SpeedOk (m.limitNextJunctionSpeed speed)

/-- What the constructors establish and `calcJunction` keeps. -/
structure Move.WellFormed (m : Move K) : Prop where
  moveD_pos : 0 < m.moveD
  accel_pos : 0 < m.accel
  deltaV2_eq : m.deltaV2 = 2 * m.moveD * m.accel
  mcrDeltaV2_pos : 0 < m.mcrDeltaV2
  mcrDeltaV2_le : m.isKinematicMove = true → m.mcrDeltaV2 ≤ m.deltaV2
  junctionDeviation_nonneg : 0 ≤ m.junctionDeviation
  maxCruiseV2_nonneg : 0 ≤ m.maxCruiseV2
  nextJunctionV2_nonneg : 0 ≤ m.nextJunctionV2

/-- No junction has been computed: the move starts from rest. -/
def Move.AtRest (m : Move K) : Prop := m.maxStartV2 = 0 ∧ m.maxMcrStartV2 = 0

variable [IsStrictOrderedRing K]

theorem Move.WellFormed.deltaV2_pos {m : Move K} (h : m.WellFormed) : 0 < m.deltaV2 := by
  rw [h.deltaV2_eq]
  exact mul_pos (mul_pos two_pos h.moveD_pos) h.accel_pos

section

variable {config : MoveConfig K} {startPos endPos axesD : Coord K}
  {moveD invMoveD accel velocity : K} {isKinematicMove : Bool}

private theorem mkMove_wellFormed (hconfig : config.Valid) (hd : 0 < moveD) (ha : 0 < accel)
    (hk : isKinematicMove = true → accel = config.maxAccel) :
    (mkMove config startPos endPos axesD moveD invMoveD accel velocity
      isKinematicMove).WellFormed where
  moveD_pos := hd
  accel_pos := ha
  deltaV2_eq := rfl
  mcrDeltaV2_pos := mul_pos (mul_pos two_pos hd) hconfig.maxAccelToDecel_pos
  mcrDeltaV2_le h := by
    have hle := (hk h) ▸ hconfig.maxAccelToDecel_le
    exact mul_le_mul_of_nonneg_left hle (mul_pos two_pos hd).le
  junctionDeviation_nonneg := hconfig.junctionDeviation_nonneg
  maxCruiseV2_nonneg := mul_self_nonneg _
  nextJunctionV2_nonneg := by
    show (0 : K) ≤ 9999999999 / 10
    norm_num

end

section

variable [HasSqrt K] {config : MoveConfig K} {startPos endPos : Coord K} {speed accel : K}
  {m : Move K} {SpeedOk : K → Prop}

omit [IsStrictOrderedRing K] in
theorem newMove_atRest : (newMove config startPos endPos speed).AtRest := by
  rw [newMove]
  split <;> exact ⟨rfl, rfl⟩

theorem newMove_wellFormed (hconfig : config.Valid)
    (hd : 0 < (newMove config startPos endPos speed).moveD) :
    (newMove config startPos endPos speed).WellFormed := by
  rw [newMove] at hd ⊢
  split at hd
  · next hlt =>
    rw [if_pos hlt]
    exact mkMove_wellFormed hconfig hd (by norm_num) (by simp)
  · next hlt =>
    rw [if_neg hlt]
    exact mkMove_wellFormed hconfig hd hconfig.maxAccel_pos fun _ => rfl

omit [IsStrictOrderedRing K] in
/-- A move ends at the position it was built with, or leaves a coordinate alone. -/
theorem newMove_endPos (i : Fin 4) : (newMove config startPos endPos speed).endPos i = endPos i ∨
      (newMove config startPos endPos speed).endPos i = startPos i := by
  rw [newMove]
  split
  · by_cases hi : i = 3
    · exact .inl ((if_pos hi).trans (congrArg endPos hi.symm))
    · exact .inr (if_neg hi)
  · exact .inl rfl

/-- A move of less than a nanometre has no displacement along an axis. -/
theorem newMove_moveD_pos {i : Fin 4} (hi : i ≠ 3)
    (h : (newMove config startPos endPos speed).axesD i ≠ 0) :
    0 < (newMove config startPos endPos speed).moveD := by
  rw [newMove] at h ⊢
  split at h
  · exact absurd (if_neg hi) h
  · next hlong =>
    rw [if_neg hlong]
    have hpos : (0 : K) < 1 / 1000000000 := by norm_num
    exact hpos.trans_le (not_lt.mp hlong)

theorem newMove_maxCruiseV2_nonneg : 0 ≤ (newMove config startPos endPos speed).maxCruiseV2 := by
  rw [newMove]
  split <;> exact mul_self_nonneg _

theorem newMove_maxCruiseV2_pos (hv : 0 < config.maxVelocity) (hs : 0 < speed) :
    0 < (newMove config startPos endPos speed).maxCruiseV2 := by
  rw [newMove]
  split
  · exact mul_pos hs hs
  · exact mul_pos (lt_min hs hv) (lt_min hs hv)

omit [HasSqrt K] in
theorem limitSpeed_wellFormed (h : m.WellFormed) (ha : 0 < accel) :
    (m.limitSpeed speed accel).WellFormed := by
  have hd : 0 < 2 * m.moveD := mul_pos two_pos h.moveD_pos
  have hmin : 0 < min m.accel accel := lt_min h.accel_pos ha
  have hmcr := lt_min h.mcrDeltaV2_pos (mul_pos hd hmin)
  rw [Move.limitSpeed]
  split
  · exact ⟨h.moveD_pos, hmin, rfl, hmcr, fun _ => min_le_right _ _,
      h.junctionDeviation_nonneg, mul_self_nonneg _, h.nextJunctionV2_nonneg⟩
  · exact ⟨h.moveD_pos, hmin, rfl, hmcr, fun _ => min_le_right _ _,
      h.junctionDeviation_nonneg, h.maxCruiseV2_nonneg, h.nextJunctionV2_nonneg⟩

omit [IsStrictOrderedRing K] [HasSqrt K] in
/-- The limits are kept, and nothing but the limits changes. -/
theorem limitSpeed_limits (m : Move K) (speed accel : K) :
    (m.limitSpeed speed accel).maxCruiseV2 ≤ speed * speed ∧
    (m.limitSpeed speed accel).accel ≤ accel ∧
    (m.limitSpeed speed accel).endPos = m.endPos ∧
    (m.limitSpeed speed accel).axesD = m.axesD ∧
    (m.limitSpeed speed accel).moveD = m.moveD := by
  rw [Move.limitSpeed]
  split
  · exact ⟨le_rfl, min_le_right _ _, rfl, rfl, rfl⟩
  · next hle => exact ⟨not_lt.mp hle, min_le_right _ _, rfl, rfl, rfl⟩

omit [HasSqrt K] in
theorem limitSpeed_maxCruiseV2_nonneg (h : 0 ≤ m.maxCruiseV2) :
    0 ≤ (m.limitSpeed speed accel).maxCruiseV2 := by
  rw [Move.limitSpeed]
  split
  · exact mul_self_nonneg _
  · exact h

theorem Built.wellFormed (h : Built SpeedOk m) : m.WellFormed := by
  induction h with
  | newMove hconfig _ _ hd => exact newMove_wellFormed hconfig hd
  | limitSpeed _ _ ha ih => exact limitSpeed_wellFormed ih ha
  | limitNextJunctionSpeed _ ih =>
    exact { ih with nextJunctionV2_nonneg := le_min ih.nextJunctionV2_nonneg (mul_self_nonneg _) }

omit [IsStrictOrderedRing K] in
theorem Built.atRest (h : Built SpeedOk m) : m.AtRest := by
  induction h with
  | newMove => exact newMove_atRest
  | limitSpeed _ _ _ ih =>
    rw [Move.limitSpeed]
    split <;> exact ih
  | limitNextJunctionSpeed _ ih => exact ih

theorem Built.maxCruiseV2_pos (h : Built (fun v : K => 0 < v) m) : 0 < m.maxCruiseV2 := by
  induction h with
  | newMove _ hv hs _ => exact newMove_maxCruiseV2_pos hv hs
  | limitSpeed _ hs _ ih =>
    rw [Move.limitSpeed]
    split
    · exact mul_pos hs hs
    · exact ih
  | limitNextJunctionSpeed _ ih => exact ih

omit [IsStrictOrderedRing K] in
theorem Built.mono {P Q : K → Prop} (h : Built P m) (hPQ : ∀ v, P v → Q v) : Built Q m := by
  induction h with
  | newMove hconfig hv hs hd => exact .newMove hconfig (hPQ _ hv) (hPQ _ hs) hd
  | limitSpeed _ hs ha ih => exact .limitSpeed ih (hPQ _ hs) ha
  | limitNextJunctionSpeed _ ih => exact .limitNextJunctionSpeed ih

end

/-- A move of one millimetre along X, at unit speed and acceleration. -/
def unitMove (K : Type*) [Field K] [LinearOrder K] [HasSqrt K] : Move K :=
  newMove { maxAccel := 1, junctionDeviation := 0, maxVelocity := 1, maxAccelToDecel := 1 }
    (fun _ => 0) (fun i => if i = 0 then 1 else 0) 1

theorem unitMove_built : Built (fun v => 0 < v) (unitMove ℝ) := by
  refine Built.newMove ⟨one_pos, one_pos, le_rfl, le_rfl⟩ one_pos one_pos ?_
  have hsqrt : (sqrt (1 : ℝ)) = 1 := Real.sqrt_one
  have h2 : (2 : Fin 4) ≠ 0 := by decide
  have h3 : (3 : Fin 4) ≠ 0 := by decide
  norm_num [newMove, mkMove, hsqrt, h2, h3]

/-! ### Junctions -/

/-- The speed limits of a queued move, as the backward pass reads them.  The
minimum-cruise-ratio profile is the slower one, except that it need not be where
the move starts from rest anyway (an extrude-only move is not limited by
`max_accel`). -/
structure Move.Limited (m : Move K) : Prop where
  deltaV2_pos : 0 < m.deltaV2
  mcrDeltaV2_pos : 0 < m.mcrDeltaV2
  maxMcrStartV2_nonneg : 0 ≤ m.maxMcrStartV2
  maxMcrStartV2_le : m.maxMcrStartV2 ≤ m.maxStartV2
  maxStartV2_le : m.maxStartV2 ≤ m.maxCruiseV2
  mcr_slower : m.maxStartV2 = 0 ∨ m.mcrDeltaV2 ≤ m.deltaV2

/-- What the junction between consecutive moves `p` and `m` guarantees. -/
structure Linked (p m : Move K) : Prop where
  start_le_cruise : m.maxStartV2 ≤ p.maxCruiseV2
  start_le_add : m.maxStartV2 ≤ p.maxStartV2 + p.deltaV2
  mcr_eq : m.maxMcrStartV2 = min m.maxStartV2 (p.maxMcrStartV2 + p.mcrDeltaV2)

theorem Move.WellFormed.limited_of_atRest {m : Move K} (h : m.WellFormed) (hr : m.AtRest) :
    m.Limited where
  deltaV2_pos := h.deltaV2_pos
  mcrDeltaV2_pos := h.mcrDeltaV2_pos
  maxMcrStartV2_nonneg := hr.2.ge
  maxMcrStartV2_le := by rw [hr.1, hr.2]
  maxStartV2_le := by rw [hr.1]; exact h.maxCruiseV2_nonneg
  mcr_slower := .inl hr.1

variable [HasSqrt K] {p m : Move K} {extruder : Option (MoveJunctionCalculator K)}
  {extruderV2 : K}

omit [IsStrictOrderedRing K] in
theorem junctionV2_le : m.junctionV2 p extruderV2 ≤ m.maxCruiseV2 ∧
    m.junctionV2 p extruderV2 ≤ p.maxCruiseV2 ∧
    m.junctionV2 p extruderV2 ≤ p.maxStartV2 + p.deltaV2 := by
  have hbase : ∀ v ∈ [m.maxCruiseV2, p.maxCruiseV2, p.maxStartV2 + p.deltaV2],
      customMin [extruderV2, m.maxCruiseV2, p.maxCruiseV2, p.nextJunctionV2,
        p.maxStartV2 + p.deltaV2] ≤ v := by
    intro v hv
    exact customMin_le (by simp at hv ⊢; tauto)
  have hle : ∀ v ∈ [m.maxCruiseV2, p.maxCruiseV2, p.maxStartV2 + p.deltaV2],
      m.junctionV2 p extruderV2 ≤ v := by
    intro v hv
    rw [Move.junctionV2]
    split
    · exact (customMin_le (by simp)).trans (hbase v hv)
    · exact hbase v hv
  exact ⟨hle _ (by simp), hle _ (by simp), hle _ (by simp)⟩

theorem junctionV2_nonneg [LawfulSqrt K] (hm : m.WellFormed) (hp : p.WellFormed)
    (hstart : 0 ≤ p.maxStartV2) (he : 0 ≤ extruderV2) : 0 ≤ m.junctionV2 p extruderV2 := by
  have hdelta := add_nonneg hstart hp.deltaV2_pos.le
  have hbase : 0 ≤ customMin [extruderV2, m.maxCruiseV2, p.maxCruiseV2, p.nextJunctionV2,
      p.maxStartV2 + p.deltaV2] := by
    refine le_customMin fun v hv => ?_
    have h1 := hm.maxCruiseV2_nonneg
    have h2 := hp.maxCruiseV2_nonneg
    have h3 := hp.nextJunctionV2_nonneg
    simp only [mem_cons, not_mem_nil, or_false] at hv
    rcases hv with rfl | rfl | rfl | rfl | rfl <;> assumption
  rw [Move.junctionV2]
  split
  · next hangle =>
    -- both factors of the angle limits are quotients of non-negative numbers
    set sinThetaD2 := sqrt (max (1 / 2 * (1 - -(m.axesR 0 * p.axesR 0 + m.axesR 1 * p.axesR 1
      + m.axesR 2 * p.axesR 2))) 0) with hsin
    have hs : 0 ≤ sinThetaD2 := sqrt_nonneg _
    have hr := div_nonneg hs hangle.1.le
    have hq := div_nonneg (mul_nonneg (by norm_num : (0 : K) ≤ 1 / 4) hs) hangle.2.le
    have h1 := mul_nonneg (mul_nonneg hr hm.junctionDeviation_nonneg) hm.accel_pos.le
    have h2 := mul_nonneg (mul_nonneg hr hp.junctionDeviation_nonneg) hp.accel_pos.le
    have h3 := mul_nonneg hm.deltaV2_pos.le hq
    have h4 := mul_nonneg hp.deltaV2_pos.le hq
    refine le_customMin fun v hv => ?_
    simp only [mem_cons, not_mem_nil, or_false] at hv
    rcases hv with rfl | rfl | rfl | rfl | rfl <;> assumption
  · exact hbase

omit [IsStrictOrderedRing K] in
/-- `calcJunction` touches the junction limits only. -/
theorem calcJunction_fields : (m.calcJunction p extruder).maxCruiseV2 = m.maxCruiseV2 ∧
    (m.calcJunction p extruder).deltaV2 = m.deltaV2 ∧
    (m.calcJunction p extruder).mcrDeltaV2 = m.mcrDeltaV2 ∧
    (m.calcJunction p extruder).isKinematicMove = m.isKinematicMove := by
  rw [Move.calcJunction]
  split <;> exact ⟨rfl, rfl, rfl, rfl⟩

/-- A junction keeps the limits of the move in order and links it to its
predecessor. -/
theorem calcJunction_linked [LawfulSqrt K] (hm : m.WellFormed) (hr : m.AtRest)
    (hp : p.WellFormed) (hpl : p.Limited) (extruder : Option (MoveJunctionCalculator K)) :
    (m.calcJunction p extruder).Limited ∧ Linked p (m.calcJunction p extruder) := by
  have hpstart : 0 ≤ p.maxStartV2 := hpl.maxMcrStartV2_nonneg.trans hpl.maxMcrStartV2_le
  have hpmcr := add_nonneg hpl.maxMcrStartV2_nonneg hpl.mcrDeltaV2_pos.le
  rw [Move.calcJunction]
  split
  · -- one of the two moves is extrude-only: the move starts from rest
    refine ⟨hm.limited_of_atRest hr, ?_, ?_, ?_⟩
    · rw [hr.1]
      exact hp.maxCruiseV2_nonneg
    · rw [hr.1]
      exact add_nonneg hpstart hpl.deltaV2_pos.le
    · rw [hr.1, hr.2, min_eq_left hpmcr]
  · next hkin =>
    have hkm : m.isKinematicMove = true := by simp_all
    have hext : 0 ≤ m.extruderV2 p extruder := by
      cases extruder with
      | none => exact hm.maxCruiseV2_nonneg
      | some e => exact e.calcJunction_nonneg p m hm.maxCruiseV2_nonneg
    obtain ⟨h1, h2, h3⟩ := junctionV2_le (m := m) (p := p)
    have h0 := junctionV2_nonneg hm hp hpstart hext
    exact ⟨⟨hm.deltaV2_pos, hm.mcrDeltaV2_pos, le_min h0 hpmcr, min_le_left _ _, h1,
      .inr (hm.mcrDeltaV2_le hkm)⟩, h2, h3, rfl⟩

end Motion
