/-
The cartesian and the CoreXY kinematics
(`internal/pkg/motion/kinematics/cartesian.go`, `corexy.go`, `rail_config.go`).

Each of the three axes has limits: the range of its rail once the axis is homed,
and the impossible range from `1` to `-1` before.  `checkMove` makes a cheap test
of X and Y first, looks at each axis only if that fails or Z moves, and slows a
move down to the limits of the Z axis.

* `Kinematics.Reachable.consistent` — the limits an axis can have.
-/
import KlipperGo.Move
import KlipperGo.Runs

open ExactArith

namespace Motion

/-- The checked range of a rail. -/
structure RailConfigPlan (K : Type*) where
  positionMin : K
  positionMax : K
  homingPositiveDir : Bool

/-- How a rail is homed. -/
structure HomingInfo (K : Type*) where
  speed : K
  positionEndstop : K
  retractSpeed : K
  retractDist : K
  positiveDir : Bool
  secondHomingSpeed : K

/-- A rail: its range, how it is homed, and the position its steppers were last set
to. -/
structure Rail (K : Type*) [LE K] where
  name : String
  positionMin : K
  positionMax : K
  ordered : positionMin ≤ positionMax
  homingInfo : HomingInfo K
  commandedPos : Coord K

/-- What the two kinematics have in common. -/
structure AxisLimits (K : Type*) [LE K] where
  rails : Fin 3 → Rail K
  maxZVelocity : K
  maxZAccel : K
  limits : Fin 3 → K × K

/-- The second carriage on one of the axes: which of the two is active, and the rail
of the one that is not.  The rail of the active one stands among the three rails. -/
structure DualCarriage (K : Type*) [LE K] where
  axis : Fin 3
  active : Fin 2
  parked : Rail K

/-- A motor for each axis. -/
structure CartesianKinematics (K : Type*) [LE K] extends AxisLimits K where
  dualCarriage : Option (DualCarriage K)

/-- Two motors move X and Y together. -/
structure CoreXYKinematics (K : Type*) [LE K] extends AxisLimits K

/-- The kinematics of a toolhead. -/
inductive Kinematics (K : Type*) [LE K]
  | cartesian (self : CartesianKinematics K)
  | coreXY (self : CoreXYKinematics K)

section Defs

variable {K : Type*} [Field K] [LinearOrder K]

/-- `BuildRailConfigPlan`.  The homing direction is `none` where it is not
configured. -/
def buildRailConfigPlan (positionEndstop : K) (needPositionMinMax : Bool)
    (positionMin positionMax : K) (homingPositiveDir : Option Bool) :
    Except String (RailConfigPlan K) :=
  let positionMin := if needPositionMinMax then positionMin else 0
  let positionMax := if needPositionMinMax then positionMax else positionEndstop
  if positionEndstop < positionMin ∨ positionMax < positionEndstop then
    .error "position_endstop must be between position_min and position_max"
  else
    match homingPositiveDir with
    | none =>
      let axisLen := positionMax - positionMin
      if positionEndstop ≤ positionMin + axisLen / 4 then
        .ok { positionMin := positionMin, positionMax := positionMax, homingPositiveDir := false }
      else if positionMax - axisLen / 4 ≤ positionEndstop then
        .ok { positionMin := positionMin, positionMax := positionMax, homingPositiveDir := true }
      else .error "unable to infer homing_positive_dir"
    | some dir =>
      if (dir = true ∧ positionEndstop = positionMin) ∨
          (dir = false ∧ positionEndstop = positionMax) then
        .error "invalid homing_positive_dir / position_endstop"
      else .ok { positionMin := positionMin, positionMax := positionMax, homingPositiveDir := dir }

/-- The tolerance of the comparisons with a limit. -/
def limitTolerance : K := 1 / 10000000

/-- Above the limit, by more than the tolerance. -/
def checkAboveLimit (a b : K) : Bool := decide (b < a ∧ limitTolerance < |a - b|)

/-- Below the limit, by more than the tolerance. -/
def checkBelowLimit (a b : K) : Bool := decide (a < b ∧ limitTolerance < |b - a|)

/-- The steppers of a rail are set to a position. -/
def Rail.setPosition (self : Rail K) (newpos : Coord K) : Rail K :=
  { self with commandedPos := newpos }

/-- The range of a rail. -/
def Rail.getRange (self : Rail K) : K × K := (self.positionMin, self.positionMax)

/-- The limits of an axis that is not homed. -/
def notHomed : K × K := (1, -1)

variable (rails : Fin 3 → Rail K) (self : AxisLimits K) (maxZVelocity maxZAccel : K) (i : Fin 3)

/-- No axis is homed at first. -/
def newAxisLimits : AxisLimits K where
  rails := rails
  maxZVelocity := maxZVelocity
  maxZAccel := maxZAccel
  limits := fun _ => notHomed

namespace AxisLimits

/-- `SetPosition`: an axis that was homed gets the range of its rail. -/
def setPosition (self : AxisLimits K) (newpos : Coord K) (homingAxes : List ℤ) : AxisLimits K :=
  { self with
    rails := fun i => (self.rails i).setPosition newpos
    limits := fun i =>
      if ((i : ℕ) : ℤ) ∈ homingAxes then (self.rails i).getRange else self.limits i }

/-- `NoteZNotHomed`. -/
def noteZNotHomed : AxisLimits K :=
  { self with limits := fun i => if i = 2 then notHomed else self.limits i }

/-- `MotorOff`: no axis is homed any more. -/
def motorOff : AxisLimits K :=
  { self with limits := fun _ => notHomed }

/-- Outside the limits of an axis. -/
def outside (x : K) : Bool :=
  checkBelowLimit x (self.limits i).1 || checkAboveLimit x (self.limits i).2

/-- One turn of the loop of `CheckEndstops`. -/
def checkAxis (move : Move K) (i : Fin 3) : Option (MoveError K) :=
  if move.axesD i.castSucc ≠ 0 ∧ self.outside i (move.endPos i.castSucc) = true then
    if (self.limits i).2 < (self.limits i).1 then some (move.moveError "Must home axis first")
    else some (move.moveError "Move out of range")
  else none

/-- `CheckEndstops`: the first axis a move takes out of its limits. -/
def checkEndstops (move : Move K) : Option (MoveError K) :=
  [0, 1, 2].findSome? (self.checkAxis move)

/-- `CheckMove`; it panics with the error of `CheckEndstops`. -/
def checkMove (move : Move K) : Except (MoveError K) (Move K) :=
  let outsideXY := self.outside 0 (move.endPos 0) || self.outside 1 (move.endPos 1)
  match if outsideXY then self.checkEndstops move else none with
  | some err => .error err
  | none =>
    if move.axesD 2 = 0 then .ok move
    else
      match self.checkEndstops move with
      | some err => .error err
      | none =>
        let zRatio := move.moveD / |move.axesD 2|
        .ok (move.limitSpeed (self.maxZVelocity * zRatio) (self.maxZAccel * zRatio))

/-- The axes that `Status` lists as homed. -/
def homed : Bool :=
  decide ((self.limits i).1 ≤ (self.limits i).2)

/-- The `homed_axes` of `Status`. -/
def homedAxes : String :=
  String.join (([(0, "x"), (1, "y"), (2, "z")].filter fun axis => self.homed axis.1).map (·.2))

/-- The positions a rail is homed with (`CartesianKinematics.HomeAxis`): the one the
toolhead is forced to, one and a half times the rail away from the endstop, and
the endstop. -/
def homePositions (axis : Fin 3) : (Fin 4 → Option K) × (Fin 4 → Option K) :=
  let rail := self.rails axis
  let hi := rail.homingInfo
  let forcepos :=
    if hi.positiveDir then hi.positionEndstop - 3 / 2 * (hi.positionEndstop - rail.positionMin)
    else hi.positionEndstop + 3 / 2 * (rail.positionMax - hi.positionEndstop)
  (fun i => if i = axis.castSucc then some forcepos else none,
    fun i => if i = axis.castSucc then some hi.positionEndstop else none)

end AxisLimits

/-! Most methods of the two kinematics have the same bodies. -/

/-- `NewCartesian`, with the axis and the rail of a second carriage, if there is one. -/
def newCartesian (dualCarriage : Option (Fin 3 × Rail K)) : CartesianKinematics K :=
  { newAxisLimits rails maxZVelocity maxZAccel with
    dualCarriage := dualCarriage.map fun dc => { axis := dc.1, active := 0, parked := dc.2 } }

/-- `NewCoreXY`. -/
def newCoreXY : CoreXYKinematics K :=
  ⟨newAxisLimits rails maxZVelocity maxZAccel⟩

variable (self : CartesianKinematics K)

namespace CartesianKinematics

/-- `SetPosition`. -/
def setPosition (newpos : Coord K) (homingAxes : List ℤ) : CartesianKinematics K :=
  { self with toAxisLimits := self.toAxisLimits.setPosition newpos homingAxes }

/-- `NoteZNotHomed`. -/
def noteZNotHomed : CartesianKinematics K :=
  { self with toAxisLimits := self.toAxisLimits.noteZNotHomed }

/-- `MotorOff`. -/
def motorOff : CartesianKinematics K :=
  { self with toAxisLimits := self.toAxisLimits.motorOff }

/-- `CheckMove`. -/
def checkMove (move : Move K) : Except (MoveError K) (Move K) :=
  self.toAxisLimits.checkMove move

end CartesianKinematics

section

variable (self : CoreXYKinematics K)

/-- `SetPosition`. -/
def CoreXYKinematics.setPosition (newpos : Coord K) (homingAxes : List ℤ) : CoreXYKinematics K :=
  ⟨self.toAxisLimits.setPosition newpos homingAxes⟩

/-- `NoteZNotHomed`. -/
def CoreXYKinematics.noteZNotHomed : CoreXYKinematics K :=
  ⟨self.toAxisLimits.noteZNotHomed⟩

/-- `MotorOff`. -/
def CoreXYKinematics.motorOff : CoreXYKinematics K :=
  ⟨self.toAxisLimits.motorOff⟩

/-- `CheckMove`. -/
def CoreXYKinematics.checkMove (move : Move K) : Except (MoveError K) (Move K) :=
  self.toAxisLimits.checkMove move

end

namespace CartesianKinematics

/-- `ActivateCarriage` up to the change of the position: the rail of the carriage takes
its place among the three. -/
def selectCarriage (carriage : Fin 2) : CartesianKinematics K :=
  match self.dualCarriage with
  | none => self
  | some dc =>
    if carriage = dc.active then self
    else
      { self with
        rails := Function.update self.rails dc.axis dc.parked
        dualCarriage := some
          { axis := dc.axis, active := carriage, parked := self.rails dc.axis } }

/-- `ActivateCarriage` after the change of the position: an axis that is homed takes
the range of the rail. -/
def carriageLimits : CartesianKinematics K :=
  match self.dualCarriage with
  | none => self
  | some dc =>
    if (self.limits dc.axis).1 ≤ (self.limits dc.axis).2 then
      { self with limits := Function.update self.limits dc.axis (self.rails dc.axis).getRange }
    else self

/-- `ActivateCarriage`; the toolhead is then at `pos`. -/
def activateCarriage (carriage : Fin 2) (pos : Coord K) : CartesianKinematics K :=
  match self.dualCarriage with
  | none => self
  | some _ => ((self.selectCarriage carriage).setPosition pos []).carriageLimits

/-- `CalcPosition`: each axis is where its rail is. -/
def calcPosition (stepperPositions : String → K) : Fin 3 → K :=
  fun i => stepperPositions (self.rails i).name

end CartesianKinematics

/-- `CalcPosition`: X and Y from the sum and the difference of two rails. -/
def CoreXYKinematics.calcPosition (self : CoreXYKinematics K) (stepperPositions : String → K) :
    Fin 3 → K :=
  let pos := fun i => stepperPositions (self.rails i).name
  fun i =>
    match i with
    | 0 => 1 / 2 * (pos 0 + pos 1)
    | 1 => 1 / 2 * (pos 0 - pos 1)
    | 2 => pos 2

/-- The order in which `CoreXYKinematics.Home` homes the axes: Y before X. -/
def CoreXYKinematics.homeOrder (_ : CoreXYKinematics K) (axes : List (Fin 3)) : List (Fin 3) :=
  match axes.idxOf? 0, axes.idxOf? 1 with
  | some xIndex, some yIndex =>
    if xIndex < yIndex then (axes.set xIndex 1).set yIndex 0 else axes
  | _, _ => axes

/-- What both kinematics have. -/
def Kinematics.axes : Kinematics K → AxisLimits K
  | .cartesian self => self.toAxisLimits
  | .coreXY self => self.toAxisLimits

variable (self : Kinematics K)

namespace Kinematics

/-- `CheckMove` of either kinematics. -/
def checkMove (move : Move K) : Except (MoveError K) (Move K) :=
  match self with
  | .cartesian self => self.checkMove move
  | .coreXY self => self.checkMove move

/-- `CalcPosition` of either kinematics. -/
def calcPosition (stepperPositions : String → K) : Fin 3 → K :=
  match self with
  | .cartesian self => self.calcPosition stepperPositions
  | .coreXY self => self.calcPosition stepperPositions

/-- Only a cartesian printer has a second carriage. -/
def dualCarriage : Kinematics K → Option (DualCarriage K)
  | .cartesian self => self.dualCarriage
  | .coreXY _ => none

/-- The first part of `ActivateCarriage`. -/
def selectCarriage (carriage : Fin 2) : Kinematics K :=
  match self with
  | .cartesian self => .cartesian (self.selectCarriage carriage)
  | .coreXY self => .coreXY self

/-- The last part of `ActivateCarriage`. -/
def carriageLimits : Kinematics K → Kinematics K
  | .cartesian self => .cartesian self.carriageLimits
  | .coreXY self => .coreXY self

/-- The order in which axes are homed. -/
def homeOrder (axes : List (Fin 3)) : List (Fin 3) :=
  match self with
  | .cartesian _ => axes
  | .coreXY self => self.homeOrder axes

end Kinematics

/-- What changes the state of a kinematics. -/
inductive KinematicsOp (K : Type*)
  | setPosition (newpos : Coord K) (homingAxes : List ℤ)
  | motorOff
  | noteZNotHomed
  | activateCarriage (carriage : Fin 2) (pos : Coord K)

/-- One operation. -/
def Kinematics.step (op : KinematicsOp K) : Kinematics K :=
  match self, op with
  | .cartesian self, .setPosition newpos homingAxes =>
    .cartesian (self.setPosition newpos homingAxes)
  | .cartesian self, .motorOff => .cartesian self.motorOff
  | .cartesian self, .noteZNotHomed => .cartesian self.noteZNotHomed
  | .cartesian self, .activateCarriage carriage pos =>
    .cartesian (self.activateCarriage carriage pos)
  | .coreXY self, .setPosition newpos homingAxes => .coreXY (self.setPosition newpos homingAxes)
  | .coreXY self, .motorOff => .coreXY self.motorOff
  | .coreXY self, .noteZNotHomed => .coreXY self.noteZNotHomed
  -- There is no second carriage, and no command for it.
  | .coreXY self, .activateCarriage _ _ => .coreXY self

end Defs

variable {K : Type*} [Field K] [LinearOrder K]

/-- A rail that the configuration accepts has a range. -/
theorem buildRailConfigPlan_ordered {positionEndstop positionMin positionMax : K}
    {needPositionMinMax : Bool} {homingPositiveDir : Option Bool} {plan : RailConfigPlan K}
    (h : buildRailConfigPlan positionEndstop needPositionMinMax positionMin positionMax
      homingPositiveDir = .ok plan) : plan.positionMin ≤ plan.positionMax := by
  unfold buildRailConfigPlan at h
  dsimp only at h
  generalize (if needPositionMinMax = true then positionMin else 0) = lo at h
  generalize (if needPositionMinMax = true then positionMax else positionEndstop) = hi at h
  split at h
  · exact absurd h (by simp)
  · next hbetween =>
    obtain ⟨hmin, hmax⟩ := not_or.mp hbetween
    have hle := (not_lt.mp hmin).trans (not_lt.mp hmax)
    split at h <;> split_ifs at h <;>
    · injection h with h
      rw [← h]
      exact hle

/-- The rail of a configuration that was accepted. -/
def RailConfigPlan.rail {positionEndstop positionMin positionMax : K} {needPositionMinMax : Bool}
    {homingPositiveDir : Option Bool} {plan : RailConfigPlan K}
    (h : buildRailConfigPlan positionEndstop needPositionMinMax positionMin positionMax
      homingPositiveDir = .ok plan) (name : String)
    (speed secondHomingSpeed retractSpeed retractDist : K) : Rail K where
  name := name
  positionMin := plan.positionMin
  positionMax := plan.positionMax
  ordered := buildRailConfigPlan_ordered h
  homingInfo := { speed := speed, positionEndstop := positionEndstop, retractSpeed := retractSpeed
                  retractDist := retractDist, positiveDir := plan.homingPositiveDir
                  secondHomingSpeed := secondHomingSpeed }
  commandedPos := fun _ => 0

/-! ### The limits of an axis -/

/-- The limits of an axis are those of its rail, if it is homed. -/
def AxisLimits.Consistent (self : AxisLimits K) : Prop :=
  ∀ i, self.limits i = notHomed ∨ self.limits i = (self.rails i).getRange

theorem AxisLimits.Consistent.setPosition {self : AxisLimits K} (h : self.Consistent)
    (newpos : Coord K) (homingAxes : List ℤ) : (self.setPosition newpos homingAxes).Consistent := by
  intro i
  show (if _ then _ else _) = _ ∨ (if _ then _ else _) = _
  split
  · exact .inr rfl
  · exact h i

omit [Field K] in
theorem setPosition_nil_limits {self : AxisLimits K} (newpos : Coord K) :
    (self.setPosition newpos []).limits = self.limits := by
  simp [AxisLimits.setPosition]

theorem AxisLimits.Consistent.noteZNotHomed {self : AxisLimits K} (h : self.Consistent) :
    self.noteZNotHomed.Consistent := by
  intro i
  show (if _ then _ else _) = _ ∨ (if _ then _ else _) = _
  split
  · exact .inl rfl
  · exact h i

variable {self : CartesianKinematics K}

/-- The limits of a homed axis follow its new rail. -/
theorem carriageLimits_consistent {dc : DualCarriage K} (hdc : self.dualCarriage = some dc)
    (haxis : self.limits dc.axis = notHomed ∨ (self.limits dc.axis).1 ≤ (self.limits dc.axis).2)
    (hothers : ∀ i, i ≠ dc.axis →
      self.limits i = notHomed ∨ self.limits i = (self.rails i).getRange) :
    self.carriageLimits.Consistent := by
  intro i
  rw [CartesianKinematics.carriageLimits, hdc]
  dsimp only
  by_cases hi : i = dc.axis
  · subst hi
    split
    · exact .inr (Function.update_self _ _ _)
    · next hnot => exact .inl (haxis.resolve_right hnot)
  · split
    · show Function.update self.limits dc.axis _ i = _ ∨ Function.update self.limits dc.axis _ i = _
      rw [Function.update_of_ne hi]
      exact hothers i hi
    · exact hothers i hi

theorem activateCarriage_consistent (h : self.Consistent) (carriage : Fin 2) (pos : Coord K) :
    (self.activateCarriage carriage pos).Consistent := by
  rw [CartesianKinematics.activateCarriage]
  rcases hdc : self.dualCarriage with _ | dc
  · exact h
  · obtain ⟨hlimits, hrails, dc', hdc', haxis⟩ :
        (self.selectCarriage carriage).limits = self.limits ∧
        (∀ i, i ≠ dc.axis → (self.selectCarriage carriage).rails i = self.rails i) ∧
        ∃ dc', (self.selectCarriage carriage).dualCarriage = some dc' ∧ dc'.axis = dc.axis := by
      rw [CartesianKinematics.selectCarriage, hdc]
      dsimp only
      split
      · exact ⟨rfl, fun _ _ => rfl, dc, hdc, rfl⟩
      · exact ⟨rfl, fun i hi => Function.update_of_ne hi _ _, _, rfl, rfl⟩
    have hkept : ((self.selectCarriage carriage).setPosition pos []).limits = self.limits := by
      rw [← hlimits]
      exact setPosition_nil_limits pos
    refine carriageLimits_consistent (hdc' : _ = some dc') ?_ ?_
    · -- a homed axis still has the limits of the rail it had
      rw [hkept, haxis]
      refine (h dc.axis).imp_right fun hrange => ?_
      rw [hrange]
      exact (self.rails dc.axis).ordered
    · intro i hi
      have hrange : (((self.selectCarriage carriage).setPosition pos []).rails i).getRange
          = (self.rails i).getRange := by
        rw [← hrails i (haxis ▸ hi)]
        rfl
      rw [hkept, hrange]
      exact h i

theorem Kinematics.step_consistent {kin : Kinematics K} (h : kin.axes.Consistent)
    (op : KinematicsOp K) : (kin.step op).axes.Consistent := by
  cases op with
  | setPosition newpos homingAxes => cases kin <;> exact h.setPosition newpos homingAxes
  | motorOff => cases kin <;> exact fun i => .inl rfl
  | noteZNotHomed => cases kin <;> exact h.noteZNotHomed
  | activateCarriage carriage pos =>
    cases kin with
    | cartesian self => exact activateCarriage_consistent h carriage pos
    | coreXY self => exact h

section

variable [IsStrictOrderedRing K] {self : AxisLimits K} {i : Fin 3} {x : K}

theorem limitTolerance_pos : 0 < (limitTolerance : K) := by
  rw [limitTolerance]
  norm_num

theorem checkAboveLimit_iff {a b : K} : checkAboveLimit a b = true ↔ b + limitTolerance < a := by
  rw [checkAboveLimit, decide_eq_true_iff]
  constructor
  · rintro ⟨hlt, hfar⟩
    rw [abs_of_pos (sub_pos.mpr hlt)] at hfar
    exact lt_sub_iff_add_lt'.mp hfar
  · intro h
    have hlt : b < a := (lt_add_of_pos_right b limitTolerance_pos).trans h
    rw [abs_of_pos (sub_pos.mpr hlt)]
    exact ⟨hlt, lt_sub_iff_add_lt'.mpr h⟩

theorem checkBelowLimit_iff {a b : K} : checkBelowLimit a b = true ↔ a + limitTolerance < b :=
  checkAboveLimit_iff

theorem outside_iff : self.outside i x = true ↔
    x + limitTolerance < (self.limits i).1 ∨ (self.limits i).2 + limitTolerance < x := by
  rw [AxisLimits.outside, Bool.or_eq_true, checkBelowLimit_iff, checkAboveLimit_iff]

/-- Before an axis is homed, every coordinate is outside. -/
theorem outside_of_notHomed (h : self.limits i = notHomed) : self.outside i x = true := by
  rw [outside_iff, h, notHomed, limitTolerance]
  rcases le_total x 0 with hx | hx
  · exact .inl (by linarith)
  · exact .inr (by linarith)

/-- A coordinate that is not outside belongs to a homed axis and lies in the range
of its rail, up to the tolerance. -/
theorem inside_of_not_outside (hlimits : self.Consistent) (h : ¬ self.outside i x = true) :
    self.homed i = true ∧ (self.rails i).positionMin - limitTolerance ≤ x ∧
      x ≤ (self.rails i).positionMax + limitTolerance := by
  have hrange := (hlimits i).resolve_left fun hno => h (outside_of_notHomed hno)
  rw [outside_iff, hrange, not_or, not_lt, not_lt] at h
  refine ⟨?_, sub_le_iff_le_add.mpr h.1, h.2⟩
  rw [AxisLimits.homed, hrange]
  exact decide_eq_true (self.rails i).ordered

/-! ### Accepted moves -/

omit [IsStrictOrderedRing K] in
/-- There is no error when no axis that moves is outside. -/
theorem checkEndstops_eq_none_iff {move : Move K} : self.checkEndstops move = none ↔
    ∀ i : Fin 3, move.axesD i.castSucc ≠ 0 → ¬ self.outside i (move.endPos i.castSucc) = true := by
  have hall : ∀ i : Fin 3, i ∈ [0, 1, 2] := by decide
  rw [AxisLimits.checkEndstops, List.findSome?_eq_none_iff]
  refine forall_congr' fun i => ?_
  rw [imp_iff_right (hall i), AxisLimits.checkAxis, ← not_and]
  by_cases hout : move.axesD i.castSucc ≠ 0 ∧ self.outside i (move.endPos i.castSucc) = true
  · rw [if_pos hout]
    split <;> simp [hout]
  · rw [if_neg hout]
    exact iff_of_true rfl hout

omit [IsStrictOrderedRing K] in
/-- `checkMove` accepts a move exactly when no axis that moves is outside, although
it does not look at every axis. -/
theorem checkMove_eq_ok_iff {move move' : Move K} : self.checkMove move = .ok move' ↔
    (∀ i : Fin 3, move.axesD i.castSucc ≠ 0 →
      ¬ self.outside i (move.endPos i.castSucc) = true) ∧
    move' = if move.axesD 2 = 0 then move else
      move.limitSpeed (self.maxZVelocity * (move.moveD / |move.axesD 2|))
        (self.maxZAccel * (move.moveD / |move.axesD 2|)) := by
  rw [← checkEndstops_eq_none_iff, AxisLimits.checkMove]
  rcases hnone : self.checkEndstops move with _ | err
  · rw [ite_self]
    by_cases hz : move.axesD 2 = 0 <;> simp [hz, eq_comm]
  · -- some axis that moves is outside: if it is X or Y, the cheap test has seen it
    have hout : ¬ ∀ i : Fin 3, move.axesD i.castSucc ≠ 0 →
        ¬ self.outside i (move.endPos i.castSucc) = true := by
      rw [← checkEndstops_eq_none_iff, hnone]
      simp
    by_cases hXY : (self.outside 0 (move.endPos 0) || self.outside 1 (move.endPos 1)) = true
    · rw [if_pos hXY]
      simp
    · rw [if_neg hXY]
      by_cases hz : move.axesD 2 = 0
      · rw [Bool.or_eq_true, not_or] at hXY
        refine absurd (fun i hi => ?_) hout
        match i, hi with
        | 0, _ => exact hXY.1
        | 1, _ => exact hXY.2
        | 2, hi => exact absurd hz hi
      · simp [hz]

end

/-- Along Z a move limited in this way respects the limits of the axis.  A negative
limit counts with its amount, since only its square is used. -/
theorem limitSpeed_z [IsStrictOrderedRing K] [HasSqrt K] [LawfulSqrt K] {move : Move K}
    (hz : move.axesD 2 ≠ 0) (hd : 0 < move.moveD) (hv : 0 ≤ move.maxCruiseV2)
    (maxZVelocity maxZAccel : K) :
    sqrt (move.limitSpeed (maxZVelocity * (move.moveD / |move.axesD 2|))
        (maxZAccel * (move.moveD / |move.axesD 2|))).maxCruiseV2 *
        (|move.axesD 2| / move.moveD) ≤ |maxZVelocity| ∧
    (move.limitSpeed (maxZVelocity * (move.moveD / |move.axesD 2|))
        (maxZAccel * (move.moveD / |move.axesD 2|))).accel *
        (|move.axesD 2| / move.moveD) ≤ maxZAccel := by
  set zRatio := move.moveD / |move.axesD 2| with hzRatio
  have hratio : 0 < zRatio := div_pos hd (abs_pos.mpr hz)
  have hinv : |move.axesD 2| / move.moveD = zRatio⁻¹ := by rw [hzRatio, inv_div]
  obtain ⟨hspeed, haccel, -⟩ :=
    limitSpeed_limits move (maxZVelocity * zRatio) (maxZAccel * zRatio)
  rw [hinv, ← div_eq_mul_inv, ← div_eq_mul_inv, div_le_iff₀ hratio, div_le_iff₀ hratio]
  refine ⟨?_, haccel⟩
  have hsqrt := sqrt_le_abs (limitSpeed_maxCruiseV2_nonneg hv) hspeed
  rwa [abs_mul, abs_of_pos hratio] at hsqrt

/-- An accepted move goes where it was asked to go. -/
theorem checkMove_geometry [IsStrictOrderedRing K] {self : AxisLimits K} {move move' : Move K}
    (h : self.checkMove move = .ok move') :
    move'.axesD = move.axesD ∧ move'.endPos = move.endPos := by
  rw [(checkMove_eq_ok_iff.mp h).2]
  split
  · exact ⟨rfl, rfl⟩
  · obtain ⟨-, -, hend, haxesD, -⟩ := limitSpeed_limits move _ _
    exact ⟨haxesD, hend⟩

/-- A kinematics as it is built. -/
inductive Kinematics.New : Kinematics K → Prop
  | cartesian (rails : Fin 3 → Rail K) (maxZVelocity maxZAccel : K)
      (dualCarriage : Option (Fin 3 × Rail K)) :
      New (.cartesian (newCartesian rails maxZVelocity maxZAccel dualCarriage))
  | coreXY (rails : Fin 3 → Rail K) (maxZVelocity maxZAccel : K) :
      New (.coreXY (newCoreXY rails maxZVelocity maxZAccel))

/-- A kinematics after any sequence of operations. -/
def Kinematics.Reachable (kin : Kinematics K) : Prop :=
  ∃ new ops, Kinematics.New new ∧ kin = Runs.final Kinematics.step new ops

theorem Kinematics.Reachable.consistent {kin : Kinematics K} (h : kin.Reachable) :
    kin.axes.Consistent := by
  obtain ⟨new, ops, hnew, rfl⟩ := h
  refine Runs.final_of_invariant (G := fun _ _ => True)
    (I := fun kin : Kinematics K => kin.axes.Consistent)
    (fun _ op h _ => Kinematics.step_consistent h op) ?_ (Runs.along_of_forall fun _ _ => trivial)
  cases hnew <;> exact fun i => .inl rfl

/-- **An accepted move stays inside the machine.**  After any sequence of operations,
each axis that an accepted move moves is homed, the end of the move lies in the
range of the axis, and if Z moves, the speed and the acceleration it permits
respect the limits of the Z axis. -/
theorem accepted_inside {kin : Kinematics ℝ} (hkin : kin.Reachable) (config : MoveConfig ℝ)
    (startPos endPos : Coord ℝ) (speed : ℝ) {move : Move ℝ}
    (h : kin.checkMove (newMove config startPos endPos speed) = .ok move) :
    (∀ i : Fin 3, move.axesD i.castSucc ≠ 0 → kin.axes.homed i = true ∧
      (kin.axes.rails i).positionMin - limitTolerance ≤ move.endPos i.castSucc ∧
      move.endPos i.castSucc ≤ (kin.axes.rails i).positionMax + limitTolerance) ∧
    (move.axesD 2 ≠ 0 →
      sqrt move.maxCruiseV2 * (|move.axesD 2| / move.moveD) ≤ |kin.axes.maxZVelocity| ∧
      move.accel * (|move.axesD 2| / move.moveD) ≤ kin.axes.maxZAccel) := by
  have haxes : kin.axes.checkMove (newMove config startPos endPos speed) = .ok move := by
    cases kin <;> exact h
  have hgeometry := checkMove_geometry haxes
  obtain ⟨hinside, hmove⟩ := checkMove_eq_ok_iff.mp haxes
  constructor
  · intro i hi
    rw [hgeometry.1] at hi
    rw [hgeometry.2]
    exact inside_of_not_outside hkin.consistent (hinside i hi)
  · intro hz
    rw [hgeometry.1] at hz
    rw [if_neg hz] at hmove
    obtain ⟨-, -, -, haxesD, hmoveD⟩ := limitSpeed_limits (newMove config startPos endPos speed)
      (kin.axes.maxZVelocity * _) (kin.axes.maxZAccel * _)
    have hlimits := limitSpeed_z hz (newMove_moveD_pos (by decide) hz) newMove_maxCruiseV2_nonneg
      kin.axes.maxZVelocity kin.axes.maxZAccel
    rw [hmove, haxesD, hmoveD]
    exact hlimits

theorem unitRail_plan : buildRailConfigPlan (0 : ℝ) true 0 10 none
    = .ok { positionMin := 0, positionMax := 10, homingPositiveDir := false } := by
  norm_num [buildRailConfigPlan]

/-- A millimetre up, with all axes homed. -/
theorem accepted_inside_z : ∃ move, Kinematics.checkMove (Runs.final Kinematics.step
      (.coreXY (newCoreXY (fun _ => RailConfigPlan.rail unitRail_plan "stepper" 5 2 5 5) 1 1))
      [.setPosition (fun _ => 0) [0, 1, 2]])
      (newMove { maxAccel := 1, junctionDeviation := 0, maxVelocity := 1, maxAccelToDecel := 1 }
        (fun _ => 0) (fun i => if i = 2 then 1 else 0) 1) = .ok move ∧
    (move.axesD 2 ≠ 0 → move.accel * (|move.axesD 2| / move.moveD) ≤ 1) := by
  set kin : Kinematics ℝ := Runs.final Kinematics.step
    (.coreXY (newCoreXY (fun _ => RailConfigPlan.rail unitRail_plan "stepper" 5 2 5 5) 1 1))
    [.setPosition (fun _ => 0) [0, 1, 2]] with hkin
  set move : Move ℝ := newMove
    { maxAccel := 1, junctionDeviation := 0, maxVelocity := 1, maxAccelToDecel := 1 }
    (fun _ => 0) (fun i => if i = 2 then 1 else 0) 1 with hmove
  have hlimits : ∀ i, kin.axes.limits i = (0, 10) := by
    intro i
    have hi : ((i : ℕ) : ℤ) ∈ [0, 1, 2] := by
      revert i
      decide
    exact if_pos hi
  have hend : ∀ i, 0 ≤ move.endPos i ∧ move.endPos i ≤ 1 := by
    intro i
    have hone : (0 : ℝ) ≤ 1 := zero_le_one
    have hcases : move.endPos i = (if i = 2 then 1 else 0) ∨ move.endPos i = 0 :=
      newMove_endPos i
    rcases hcases with h | h
    · rw [h]
      split_ifs
      · exact ⟨hone, le_rfl⟩
      · exact ⟨le_rfl, hone⟩
    · rw [h]
      exact ⟨le_rfl, hone⟩
  have haccept : ∃ move', kin.axes.checkMove move = .ok move' := by
    refine ⟨_, checkMove_eq_ok_iff.mpr ⟨fun i _ => ?_, rfl⟩⟩
    rw [outside_iff, hlimits, limitTolerance]
    rintro (hlt | hlt)
    · linarith [(hend i.castSucc).1]
    · linarith [(hend i.castSucc).2]
  obtain ⟨move', hmove'⟩ := haccept
  have hreach : kin.Reachable := ⟨_, _, Kinematics.New.coreXY _ _ _, hkin⟩
  exact ⟨move', hmove', fun hz => ((accepted_inside hreach _ _ _ _ hmove').2 hz).2⟩

end Motion
