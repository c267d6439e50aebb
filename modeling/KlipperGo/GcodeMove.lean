/-
G-code moves and coordinates (`internal/pkg/gcode/gcode_move_module.go`).

The module keeps the last position it asked for, in the coordinates of the move
transform, and a base position: what is reported is their difference, with the
extruder scaled by the extrude factor.  The numbers are of any type with the
operations of the code.

* `step_g1`, `step_setGcodeOffset`, `step_restoreGcodeState` — what the commands with a move do;
* `factors_step` — what any operation does to the factors and the saved states;
* `move_refused_iff` — when a move changes nothing.
-/
import KlipperGo.CallLog
import KlipperGo.GcodeDispatch
import Mathlib.Algebra.Order.Ring.Rat

open CallLog GoRuntime GoStrings Runs

namespace Gcode

open DispatchRuntime Dispatcher

/-! ### Parameters -/

inductive Axis where
  | x | y | z | e
  deriving DecidableEq

/-- The axes in the order of the positions. -/
def axes : List Axis := [.x, .y, .z, .e]

def Axis.letter : Axis → String
  | .x => "X"
  | .y => "Y"
  | .z => "Z"
  | .e => "E"

abbrev Coord (V : Type) := Axis → V

/-- What the number parsers return.  A value is returned with an error too. -/
structure Strconv (V : Type) where
  parseFloat : String → V
  parses : String → Bool
  parseInt : String → ℤ
  isNaN : V → Bool

section Defs

variable {V : Type}

/-- The parsers in exact arithmetic: a text that is no number is read as zero, with an error. -/
def exactStrconv [NatCast V] (parse : String → Option V) (parseInt : String → ℤ) : Strconv V :=
  { parseFloat := fun raw => (parse raw).getD ((0 : ℕ) : V)
    parses := fun raw => (parse raw).isSome
    parseInt := parseInt
    isNaN := fun _ => false }

variable (strconv : Strconv V) (self : DispatchCommand)

/-- A parameter that is missing has the empty text. -/
def DispatchCommand.text (name : String) : String :=
  (self.params name).getD ""

/-- `CommandParams.Get_float`, with the one bound that the commands below give. -/
def DispatchCommand.getFloat [LE V] [DecidableLE V] (strconv : Strconv V) (self : DispatchCommand)
    (name : String) (default : V) (above : Option V) : V :=
  if self.text name = "" then default
  else
    let val := strconv.parseFloat (self.text name)
    if let some bound := above.filter (fun bound => val ≤ bound) then bound else val

/-- `CommandParams.Get_float` without a number as its default: `none` if it returns no number. -/
def DispatchCommand.getFloatNaN (name : String) : Option V :=
  if self.text name = "" then none
  else
    let val := strconv.parseFloat (self.text name)
    if strconv.isNaN val then none else some val

def DispatchCommand.getInt (name : String) (default : ℤ) : ℤ :=
  if self.text name = "" then default else strconv.parseInt (self.text name)

def DispatchCommand.stateName : String :=
  if self.text "NAME" = "" then "default" else self.text "NAME"

end Defs

/-! ### The module -/

/-- The coordinate state, which is also what `savedState` keeps. -/
structure SavedState (V : Type) where
  absoluteCoord : Bool
  absoluteExtrude : Bool
  basePosition : Coord V
  lastPosition : Coord V
  homingPosition : Coord V
  speed : V
  speedFactor : V
  extrudeFactor : V

/-- `LegacyMoveTransform`, over the state of the machine it moves. -/
structure MoveTransform (V σ : Type) where
  move : Coord V → V → EStateM Panic σ Unit
  getPosition : σ → Coord V × σ

/-- `GCodeMoveModule`.  The functions `moveWithTransform` and `positionWithTransform` are those of
`active`; before there is one, the position is zero and a move is a nil function. -/
structure GCodeMoveModule (V σ : Type) extends SavedState V where
  isPrinterReady : Bool
  savedStates : String → Option (SavedState V)
  moveTransform : Option (MoveTransform V σ)
  active : Option (MoveTransform V σ)
  machine : σ

namespace SavedState

variable {V : Type} [Add V] [Sub V] [Mul V] [Div V] [NatCast V] [LE V] [DecidableLE V]
  (strconv : Strconv V) (self : SavedState V) (axis : Axis) (gcmd : DispatchCommand)

/-- `_get_gcode_position`. -/
def gcodePosition : Coord V
  | .e => (self.lastPosition .e - self.basePosition .e) / self.extrudeFactor
  | axis => self.lastPosition axis - self.basePosition axis

/-- `_get_gcode_speed`. -/
def gcodeSpeed : V := self.speed / self.speedFactor

/-- A value of a parameter in the units of the last position. -/
def scaled (value : V) : V :=
  match axis with
  | .e => value * self.extrudeFactor
  | _ => value

def relative : Bool :=
  match axis with
  | .e => !self.absoluteCoord || !self.absoluteExtrude
  | _ => !self.absoluteCoord

/-- The position that the parameters of a move ask for.  A coordinate that cannot be read is
logged and left where it is. -/
def target (params : Params) : Coord V := fun axis =>
  match params axis.letter with
  | none => self.lastPosition axis
  | some raw =>
    if !strconv.parses raw then self.lastPosition axis
    else if self.relative axis then
      self.lastPosition axis + self.scaled axis (strconv.parseFloat raw)
    else self.scaled axis (strconv.parseFloat raw) + self.basePosition axis

def moved (value : V) : V :=
  if self.relative axis then self.lastPosition axis + self.scaled axis value
  else self.scaled axis value + self.basePosition axis

omit [Sub V] [Div V] [NatCast V] [LE V] [DecidableLE V] in
/-- The target is a given place if the coordinates that can be read ask for it, and the axes without
one are there. -/
theorem target_eq_iff (params : Params) (axis : Axis) (place : V) :
    self.target strconv params axis = place ↔
      (∀ raw, params axis.letter = some raw → strconv.parses raw = true →
        self.moved axis (strconv.parseFloat raw) = place) ∧
      ((∀ raw, params axis.letter = some raw → strconv.parses raw = false) →
        self.lastPosition axis = place) := by
  rw [target]
  rcases params axis.letter with _ | raw
  · simp
  · by_cases hraw : strconv.parses raw = true
    · simp [hraw, moved]
    · simp [hraw]

def feedRate (params : Params) (commandline : String) : Except Panic V :=
  match params "F" with
  | none => .ok self.speed
  | some raw =>
    if !strconv.parses raw then .error (.value ["Unable to parse move '", commandline, "'"])
    else if strconv.parseFloat raw ≤ ((0 : ℕ) : V) then
      .error (.value ["Invalid speed in '", commandline, "'"])
    else .ok (strconv.parseFloat raw * self.speedFactor)

/-- The base position after `Cmd_G92`. -/
def g92Base : Coord V :=
  if axes.all (fun axis => (gcmd.getFloatNaN strconv axis.letter).isNone) then self.lastPosition
  else fun axis =>
    match gcmd.getFloatNaN strconv axis.letter with
    | none => self.basePosition axis
    | some value => self.lastPosition axis - self.scaled axis value

/-- The offset that `Cmd_SET_GCODE_OFFSET` sets on an axis. -/
def newOffset (axis : Axis) : Option V :=
  match gcmd.getFloatNaN strconv axis.letter with
  | some offset => some offset
  | none => (gcmd.getFloatNaN strconv (axis.letter ++ "_ADJUST")).map
      (fun offset => offset + self.homingPosition axis)

/-- By how much `Cmd_SET_GCODE_OFFSET` changes the offset of an axis. -/
def moveDelta : Coord V :=
  fun axis =>
    match self.newOffset strconv gcmd axis with
    | none => ((0 : ℕ) : V)
    | some offset => offset - self.homingPosition axis

/-- `Cmd_SET_GCODE_OFFSET` up to its move. -/
def withOffset : SavedState V :=
  { self with
    basePosition := fun axis =>
      match self.newOffset strconv gcmd axis with
      | none => self.basePosition axis
      | some offset => self.basePosition axis + (offset - self.homingPosition axis)
    homingPosition := fun axis =>
      (self.newOffset strconv gcmd axis).getD (self.homingPosition axis) }

/-- `Cmd_RESTORE_GCODE_STATE` up to its move. -/
def restored (self state : SavedState V) : SavedState V :=
  { state with
    basePosition := Function.update state.basePosition .e
      (state.basePosition .e + (self.lastPosition .e - state.lastPosition .e))
    lastPosition := self.lastPosition }

end SavedState

namespace GCodeMoveModule

variable {V σ : Type} [Add V] [Sub V] [Mul V] [Div V] [NatCast V] [LE V] [DecidableLE V]

def loadConfigGCodeMove (machine : σ) : GCodeMoveModule V σ :=
  { absoluteCoord := true
    absoluteExtrude := true
    basePosition := fun _ => ((0 : ℕ) : V)
    lastPosition := fun _ => ((0 : ℕ) : V)
    homingPosition := fun _ => ((0 : ℕ) : V)
    speed := ((25 : ℕ) : V)
    speedFactor := ((1 : ℕ) : V) / ((60 : ℕ) : V)
    extrudeFactor := ((1 : ℕ) : V)
    isPrinterReady := false
    savedStates := fun _ => none
    moveTransform := none
    active := none
    machine := machine }

/-- What `positionWithTransform` returns, and the machine after it. -/
def positionWithTransform (self : GCodeMoveModule V σ) : Coord V × σ :=
  match self.active with
  | none => (fun _ => ((0 : ℕ) : V), self.machine)
  | some transform => transform.getPosition self.machine

def resetLastPosition (self : GCodeMoveModule V σ) : GCodeMoveModule V σ :=
  if self.isPrinterReady then
    { self with
      lastPosition := self.positionWithTransform.1
      machine := self.positionWithTransform.2 }
  else self

/-- `moveWithTransform` to the last position; `nilPanic` is the panic if there is none. -/
def moveWithTransform (speed : V) (nilPanic : Panic) :
    EStateM Panic (GCodeMoveModule V σ) Unit := fun self =>
  match self.active with
  | none => .error nilPanic self
  | some transform =>
    match transform.move self.lastPosition speed self.machine with
    | .ok _ machine => .ok () { self with machine := machine }
    | .error panic machine => .error panic { self with machine := machine }

/-- The panic of a call of a nil function. -/
def nilFunction : Panic :=
  .value ["runtime error: invalid memory address or nil pointer dereference"]

variable (strconv : Strconv V)

def applyMoveParameters (params : Params) (commandline : String) :
    EStateM Panic (GCodeMoveModule V σ) Unit := fun self =>
  let self := { self with lastPosition := self.target strconv params }
  match self.feedRate strconv params commandline with
  | .error panic => .error panic self
  | .ok speed =>
    moveWithTransform speed (.value ["gcode_move not ready"]) { self with speed := speed }

/-- `Cmd_G1`, as it is registered for `G1` and `G0`. -/
def cmdG1 : Handler (GCodeMoveModule V σ) := fun gcmd => do
  applyMoveParameters strconv gcmd.params gcmd.commandline
  return none

variable (gcmd : DispatchCommand) (self : GCodeMoveModule V σ)

def cmdG92 : GCodeMoveModule V σ :=
  { self with basePosition := self.g92Base strconv gcmd }

/-- The factor that `Cmd_M220` sets. -/
def newSpeedFactor : V :=
  gcmd.getFloat strconv "S" ((100 : ℕ) : V) (some ((0 : ℕ) : V)) /
    (((60 : ℕ) : V) * ((100 : ℕ) : V))

def cmdM220 : GCodeMoveModule V σ :=
  let value := newSpeedFactor strconv gcmd
  { self with speed := self.gcodeSpeed * value, speedFactor := value }

/-- The factor that `cmd_M221` sets. -/
def newExtrudeFactor : V :=
  gcmd.getFloat strconv "S" ((100 : ℕ) : V) (some ((0 : ℕ) : V)) / ((100 : ℕ) : V)

def cmdM221 : GCodeMoveModule V σ :=
  let newExtrudeFactor := newExtrudeFactor strconv gcmd
  let lastEPos := self.lastPosition .e
  let eValue := (lastEPos - self.basePosition .e) / self.extrudeFactor
  { self with
    basePosition := Function.update self.basePosition .e (lastEPos - eValue * newExtrudeFactor)
    extrudeFactor := newExtrudeFactor }

def cmdSetGcodeOffset : EStateM Panic (GCodeMoveModule V σ) Unit := fun self =>
  let moveDelta := self.moveDelta strconv gcmd
  let self := { self with toSavedState := self.withOffset strconv gcmd }
  if gcmd.getInt strconv "MOVE" 0 ≠ 0 then
    let speed := gcmd.getFloat strconv "MOVE_SPEED" self.speed none
    moveWithTransform speed nilFunction
      { self with lastPosition := fun axis => self.lastPosition axis + moveDelta axis }
  else .ok () self

def cmdSaveGcodeState : GCodeMoveModule V σ :=
  { self with
    savedStates := Function.update self.savedStates gcmd.stateName (some self.toSavedState) }

def cmdRestoreGcodeState : EStateM Panic (GCodeMoveModule V σ) Unit := fun self =>
  match self.savedStates gcmd.stateName with
  | none => .error (.value ["Unknown g-code state: ", gcmd.stateName]) self
  | some state =>
    let self := { self with toSavedState := self.restored state }
    if gcmd.getInt strconv "MOVE" 0 ≠ 0 then
      let speed := gcmd.getFloat strconv "MOVE_SPEED" self.speed (some ((0 : ℕ) : V))
      moveWithTransform speed nilFunction
        { self with lastPosition := Function.update state.lastPosition .e (self.lastPosition .e) }
    else .ok () self

/-- The commands of the module and the events it is registered for; `machine` is what the rest of
the printer does in between. -/
inductive Op (V σ : Type) where
  | g1 (gcmd : DispatchCommand)
  | g20
  | g21
  | g90
  | g91
  | m82
  | m83
  | g92 (gcmd : DispatchCommand)
  | m220 (gcmd : DispatchCommand)
  | m221 (gcmd : DispatchCommand)
  | setGcodeOffset (gcmd : DispatchCommand)
  | saveGcodeState (gcmd : DispatchCommand)
  | restoreGcodeState (gcmd : DispatchCommand)
  | handleReady (toolhead : MoveTransform V σ)
  | handleShutdown
  | resetLastPosition
  | handleActivateExtruder
  | handleHomeRailsEnd (axes : List Axis)
  | setMoveTransform (transform : MoveTransform V σ) (force : Bool)
  | machine (act : σ → σ)

/-- The state after an operation, whether it returns or panics. -/
def step : Op V σ → GCodeMoveModule V σ
  | .g1 gcmd => stateOf (cmdG1 strconv gcmd self)
  | .g20 => self
  | .g21 => self
  | .g90 => { self with absoluteCoord := true }
  | .g91 => { self with absoluteCoord := false }
  | .m82 => { self with absoluteExtrude := true }
  | .m83 => { self with absoluteExtrude := false }
  | .g92 gcmd => self.cmdG92 strconv gcmd
  | .m220 gcmd => self.cmdM220 strconv gcmd
  | .m221 gcmd => self.cmdM221 strconv gcmd
  | .setGcodeOffset gcmd => stateOf (cmdSetGcodeOffset strconv gcmd self)
  | .saveGcodeState gcmd => self.cmdSaveGcodeState gcmd
  | .restoreGcodeState gcmd => stateOf (cmdRestoreGcodeState strconv gcmd self)
  | .handleReady toolhead =>
    resetLastPosition
      { self with
        isPrinterReady := true
        active := if self.moveTransform.isNone then some toolhead else self.active }
  | .handleShutdown => { self with isPrinterReady := false }
  | .resetLastPosition => self.resetLastPosition
  | .handleActivateExtruder =>
    let self := self.resetLastPosition
    { self with
      extrudeFactor := ((1 : ℕ) : V)
      basePosition := Function.update self.basePosition .e (self.lastPosition .e) }
  | .handleHomeRailsEnd axes =>
    let self := self.resetLastPosition
    { self with
      basePosition := fun axis =>
        if axis ∈ axes then self.homingPosition axis else self.basePosition axis }
  | .setMoveTransform transform force =>
    if self.moveTransform.isSome && !force then self
    else { self with moveTransform := some transform, active := some transform }
  | .machine act => { self with machine := act self.machine }

/-! ### What an operation changes -/

omit [Add V] [Sub V] [Mul V] [Div V] [NatCast V] [LE V] [DecidableLE V] in
theorem stateOf_moveWithTransform (speed : V) (nilPanic : Panic) :
    ∃ machine, stateOf (moveWithTransform speed nilPanic self) =
      { self with machine := machine } := by
  unfold moveWithTransform
  split
  · exact ⟨self.machine, rfl⟩
  · split <;> next machine _ => exact ⟨machine, rfl⟩

omit [Sub V] [Div V] in
theorem stateOf_cmdG1 : stateOf (cmdG1 strconv gcmd self) =
      stateOf (applyMoveParameters strconv gcmd.params gcmd.commandline self) := by
  rcases h : applyMoveParameters strconv gcmd.params gcmd.commandline self with
    ⟨_, s⟩ | ⟨panic, s⟩
  · rw [cmdG1, Outcome.bind_ok h]
    rfl
  · rw [cmdG1, Outcome.bind_error h]
    rfl

/-- A move goes to its target, whether it returns or panics. -/
theorem step_g1 (gcmd : DispatchCommand) : ∃ speed machine, self.step strconv (.g1 gcmd) =
      { self with
        lastPosition := self.target strconv gcmd.params, speed := speed, machine := machine } := by
  rw [step, stateOf_cmdG1, applyMoveParameters]
  split
  · exact ⟨self.speed, self.machine, rfl⟩
  · next speed _ =>
    obtain ⟨machine, h⟩ := stateOf_moveWithTransform
      { self with lastPosition := self.target strconv gcmd.params, speed := speed } speed
      (.value ["gcode_move not ready"])
    exact ⟨speed, machine, h⟩

theorem step_setGcodeOffset (gcmd : DispatchCommand) :
    (gcmd.getInt strconv "MOVE" 0 = 0 ∧ self.step strconv (.setGcodeOffset gcmd) =
        { self with toSavedState := self.withOffset strconv gcmd }) ∨
      gcmd.getInt strconv "MOVE" 0 ≠ 0 ∧ ∃ machine,
        self.step strconv (.setGcodeOffset gcmd) =
          { self with
            toSavedState :=
              { self.withOffset strconv gcmd with
                lastPosition := fun axis =>
                  self.lastPosition axis + self.moveDelta strconv gcmd axis }
            machine := machine } := by
  rw [step, cmdSetGcodeOffset]
  by_cases hmove : gcmd.getInt strconv "MOVE" 0 = 0
  · rw [if_neg (not_not_intro hmove)]
    exact .inl ⟨hmove, rfl⟩
  · rw [if_pos hmove]
    exact .inr ⟨hmove, stateOf_moveWithTransform _ _ _⟩

theorem step_restoreGcodeState {self : GCodeMoveModule V σ} {gcmd : DispatchCommand}
    {state : SavedState V} (h : self.savedStates gcmd.stateName = some state) :
    (gcmd.getInt strconv "MOVE" 0 = 0 ∧ self.step strconv (.restoreGcodeState gcmd) =
        { self with toSavedState := self.restored state }) ∨
      gcmd.getInt strconv "MOVE" 0 ≠ 0 ∧ ∃ machine,
        self.step strconv (.restoreGcodeState gcmd) =
          { self with
            toSavedState :=
              { self.restored state with
                lastPosition := Function.update state.lastPosition .e (self.lastPosition .e) }
            machine := machine } := by
  rw [step, cmdRestoreGcodeState, h]
  dsimp only
  by_cases hmove : gcmd.getInt strconv "MOVE" 0 = 0
  · rw [if_neg (not_not_intro hmove)]
    exact .inl ⟨hmove, rfl⟩
  · rw [if_pos hmove]
    exact .inr ⟨hmove, stateOf_moveWithTransform _ _ _⟩

omit [Add V] [Sub V] [Mul V] [Div V] [LE V] [DecidableLE V] in
theorem resetLastPosition_eq : ∃ lastPosition machine, self.resetLastPosition =
      { self with lastPosition := lastPosition, machine := machine } := by
  unfold resetLastPosition
  split
  · exact ⟨_, _, rfl⟩
  · exact ⟨self.lastPosition, self.machine, rfl⟩

/-- The part of the state that moves and offsets leave alone. -/
structure Factors (V : Type) where
  speedFactor : V
  extrudeFactor : V
  savedStates : String → Option (SavedState V)

def factors : Factors V :=
  { speedFactor := self.speedFactor, extrudeFactor := self.extrudeFactor
    savedStates := self.savedStates }

/-- The factors and saved states after an operation. -/
def factorsAfter : Op V σ → Factors V
  | .m220 gcmd => { self.factors with speedFactor := newSpeedFactor strconv gcmd }
  | .m221 gcmd => { self.factors with extrudeFactor := newExtrudeFactor strconv gcmd }
  | .handleActivateExtruder => { self.factors with extrudeFactor := ((1 : ℕ) : V) }
  | .saveGcodeState gcmd =>
    { self.factors with
      savedStates := Function.update self.savedStates gcmd.stateName (some self.toSavedState) }
  | .restoreGcodeState gcmd =>
    match self.savedStates gcmd.stateName with
    | none => self.factors
    | some state =>
      { self.factors with
        speedFactor := state.speedFactor, extrudeFactor := state.extrudeFactor }
  | _ => self.factors

theorem factors_step (op : Op V σ) :
    (self.step strconv op).factors = self.factorsAfter strconv op := by
  cases op with
  | g1 gcmd =>
    obtain ⟨speed, machine, h⟩ := step_g1 strconv self gcmd
    rw [h]
    rfl
  | setGcodeOffset gcmd =>
    obtain ⟨-, h⟩ | ⟨-, machine, h⟩ := step_setGcodeOffset strconv self gcmd
    · rw [h]
      rfl
    · rw [h]
      rfl
  | restoreGcodeState gcmd =>
    rcases hstate : self.savedStates gcmd.stateName with _ | state
    · rw [step, cmdRestoreGcodeState, factorsAfter, hstate]
      rfl
    · rw [factorsAfter, hstate]
      obtain ⟨-, h⟩ | ⟨-, machine, h⟩ := step_restoreGcodeState strconv hstate
      · rw [h]
        rfl
      · rw [h]
        rfl
  | handleReady toolhead =>
    obtain ⟨_, _, h⟩ := resetLastPosition_eq
      { self with
        isPrinterReady := true
        active := if self.moveTransform.isNone then some toolhead else self.active }
    rfl
  | resetLastPosition =>
    obtain ⟨_, _, h⟩ := resetLastPosition_eq self
    rw [step, h]
    rfl
  | handleActivateExtruder =>
    obtain ⟨_, _, h⟩ := resetLastPosition_eq self
    rw [step, h]
    rfl
  | handleHomeRailsEnd axes =>
    obtain ⟨_, _, h⟩ := resetLastPosition_eq self
    rw [step, h]
    rfl
  | setMoveTransform transform force =>
    rw [step]
    split <;> rfl
  | _ => rfl

def Op.SavesUnder (name : String) : Op V σ → Prop
  | .saveGcodeState gcmd => gcmd.stateName = name
  | _ => False

theorem savedStates_step {self : GCodeMoveModule V σ} {op : Op V σ} {name : String}
    (h : ¬ op.SavesUnder name) :
    (self.step strconv op).savedStates name = self.savedStates name := by
  have hfactors := congrArg Factors.savedStates (factors_step strconv self op)
  refine (congrFun hfactors name).trans ?_
  cases op with
  | saveGcodeState gcmd => exact Function.update_of_ne (fun heq => h heq.symm) _ _
  | restoreGcodeState gcmd =>
    rw [factorsAfter]
    split
    · rfl
    · rfl
  | _ => rfl

end GCodeMoveModule

/-! ### Moves that fail -/

namespace GCodeMoveModule

section

variable {V σ : Type} [Add V] [Mul V] [NatCast V] [LE V] [DecidableLE V] (strconv : Strconv V)
  (self : GCodeMoveModule V σ) (gcmd : DispatchCommand)

/-- The machine after what a move does with it: nothing if its speed is refused. -/
def machineAfter : σ :=
  match self.feedRate strconv gcmd.params gcmd.commandline, self.active with
  | .ok speed, some transform =>
    stateOf (transform.move (self.target strconv gcmd.params) speed self.machine)
  | _, _ => self.machine

/-- The speed after a move: the old one if its own is refused. -/
def speedAfter : V :=
  match self.feedRate strconv gcmd.params gcmd.commandline with
  | .ok speed => speed
  | .error _ => self.speed

/-- The last position and the machine after a move, whether it returns or panics. -/
theorem stateOf_cmdG1_positions :
    (stateOf (cmdG1 strconv gcmd self)).lastPosition = self.target strconv gcmd.params ∧
      (stateOf (cmdG1 strconv gcmd self)).active = self.active ∧
      (stateOf (cmdG1 strconv gcmd self)).machine = self.machineAfter strconv gcmd ∧
      (stateOf (cmdG1 strconv gcmd self)).speed = self.speedAfter strconv gcmd := by
  rw [stateOf_cmdG1, applyMoveParameters]
  split
  · next panic hfeed =>
    have hfeed' : self.feedRate strconv gcmd.params gcmd.commandline = .error panic := hfeed
    refine ⟨rfl, rfl, ?_, ?_⟩
    · rw [machineAfter, hfeed']
      rfl
    · rw [speedAfter, hfeed']
      rfl
  · next speed hfeed =>
    have hfeed' : self.feedRate strconv gcmd.params gcmd.commandline = .ok speed := hfeed
    rw [machineAfter, speedAfter, hfeed', moveWithTransform]
    rcases self.active with _ | transform
    · exact ⟨rfl, rfl, rfl, rfl⟩
    · dsimp only
      rcases transform.move (self.target strconv gcmd.params) speed self.machine with
        ⟨_, machine⟩ | ⟨panic, machine⟩
      · exact ⟨rfl, rfl, rfl, rfl⟩
      · exact ⟨rfl, rfl, rfl, rfl⟩

/-- The transform, with the moves that are sent to it. -/
def logged (transform : MoveTransform V σ) : MoveTransform V (Logged σ (Coord V × V)) :=
  { move := fun newpos speed s =>
      let log := s.log ++ [(newpos, speed)]
      match transform.move newpos speed s.world with
      | .ok _ world => .ok () ⟨world, log⟩
      | .error panic world => .error panic ⟨world, log⟩
    getPosition := fun s =>
      ((transform.getPosition s.world).1, { s with world := (transform.getPosition s.world).2 }) }

/-- The module, with a log of the moves that it sends. -/
def withLog : GCodeMoveModule V (Logged σ (Coord V × V)) :=
  { toSavedState := self.toSavedState
    isPrinterReady := self.isPrinterReady
    savedStates := self.savedStates
    moveTransform := self.moveTransform.map logged
    active := self.active.map logged
    machine := ⟨self.machine, []⟩ }

/-- The move is refused: nothing is sent to the transform, and position and speed stay. -/
def Refuses : Prop :=
  let s' := stateOf (cmdG1 strconv gcmd self.withLog)
  s'.machine.log = [] ∧ s'.lastPosition = self.lastPosition ∧ s'.speed = self.speed

/-- Nothing is sent if the feed rate is refused or there is no transform. -/
theorem log_machineAfter : (self.withLog.machineAfter strconv gcmd).log = [] ↔
      (∃ panic, self.feedRate strconv gcmd.params gcmd.commandline = .error panic) ∨
        self.active = none := by
  have hfeed : self.withLog.feedRate strconv gcmd.params gcmd.commandline =
      self.feedRate strconv gcmd.params gcmd.commandline := rfl
  rw [machineAfter, hfeed, withLog]
  rcases self.feedRate strconv gcmd.params gcmd.commandline with panic | speed
  · simp
  · rcases self.active with _ | transform
    · simp
    · simp only [Option.map_some, logged]
      split <;> simp [stateOf]

/-- A move, whatever of it can be read, is refused exactly if its feed rate is refused, or there is
no transform and it asks for the speed there is, and all its readable coordinates ask for the
position there is. -/
theorem move_refused_iff : Refuses strconv self gcmd ↔
      ((∃ panic, self.feedRate strconv gcmd.params gcmd.commandline = .error panic) ∨
        self.active = none ∧
          self.feedRate strconv gcmd.params gcmd.commandline = .ok self.speed) ∧
      ∀ axis raw, gcmd.params axis.letter = some raw → strconv.parses raw = true →
        self.moved axis (strconv.parseFloat raw) = self.lastPosition axis := by
  obtain ⟨hlast, -, hmachine, hspeed⟩ := stateOf_cmdG1_positions strconv self.withLog gcmd
  have htarget : self.target strconv gcmd.params = self.lastPosition ↔ _ :=
    funext_iff.trans (forall_congr' fun axis => self.target_eq_iff strconv gcmd.params axis _)
  have hspeed' : self.withLog.speedAfter strconv gcmd = self.speedAfter strconv gcmd := rfl
  rw [Refuses, hlast, hmachine, hspeed, log_machineAfter, hspeed', speedAfter,
    show self.withLog.target strconv gcmd.params = self.target strconv gcmd.params from rfl,
    htarget]
  rcases self.feedRate strconv gcmd.params gcmd.commandline with panic | speed
  · simp
  · simp [and_comm, and_assoc, and_left_comm]

end

/-! A toolhead that goes where it is told, and one move with a feed rate of zero. -/

def idealToolhead : MoveTransform ℚ (Coord ℚ) :=
  { move := fun newpos _ _ => .ok () newpos, getPosition := fun position => (position, position) }

/-- The texts of the moves below. -/
def parseDecimal (raw : String) : Option ℚ :=
  if raw = "10" then some 10 else if raw = "0" then some 0 else none

def readyModule : GCodeMoveModule ℚ (Coord ℚ) :=
  step (exactStrconv parseDecimal fun _ => 0) (loadConfigGCodeMove fun _ => 0)
    (.handleReady idealToolhead)

/-- A move to a second coordinate that is no number goes to the first one. -/
theorem unreadable_move_not_refused :
    let params : Params := fun name =>
      if name = "X" then some "10" else if name = "Y" then some "1.2.3" else none
    let strconv := exactStrconv parseDecimal fun _ => 0
    strconv.parses "1.2.3" = false ∧
      ¬ Refuses strconv readyModule ⟨"G1", "G1 X10 Y1.2.3", params⟩ := by
  refine ⟨by decide, fun h => ?_⟩
  exact absurd (congrFun h.2.1 .x) (by decide +kernel)

end GCodeMoveModule

end Gcode
