/-
Homing (`internal/pkg/motion/homing/controller.go`, `state.go`, with `Homing` and
`PrinterHoming` of `project/goklipper.go`).

A rail is homed by setting the position of the toolhead to a place it is not at,
which marks the axis as homed, and driving towards the endstop.  What a failure
then leaves behind is up to `RunHome`, which turns the motors off when it
recovers from an error value (`runHome_motorOff_iff`).  A failure that reaches it as
a plain string, as every error returned while homing does, passes it by.
-/
import KlipperGo.Kinematics
import KlipperGo.Returns

open ExactArith Outcome

namespace Motion

/-- A value recovered from a panic: one that implements `error`, or a string. -/
inductive PanicValue
  | error (msg : String)
  | string (msg : String)
deriving DecidableEq, Repr

/-- What homing works on: the position of the toolhead, the kinematics, the enable
lines of the motors, whether the printer is shut down, and the results that
`State` collects. -/
structure Machine (K : Type) [LE K] where
  position : Coord K
  kinematics : Kinematics K
  enableLines : List (String × Bool)
  isShutdown : Bool
  triggerMCUPos : List (String × K)
  adjustPos : List (String × K)

abbrev HomingM (K : Type) [LE K] := EStateM PanicValue (Machine K)

structure HomeRecoveryOptions (σ : Type) where
  isShutdown : Option (σ → Bool)
  motorOff : Option (σ → σ)

/-- What homing calls: the homing move, which returns the trigger time or an error,
the test whether a stepper has not moved, moves and flushes of the toolhead, the
two events of a homed rail, and the positions of the steppers and of the rail of an
axis.  Any of them may panic. -/
structure HomingRuntime (K : Type) [LE K] where
  execute : Coord K → K → HomingM K (Except String K)
  checkNoMovement : HomingM K String
  move : Coord K → K → HomingM K Unit
  flushStepGeneration : HomingM K Unit
  homeRailsBegin : HomingM K (Option String)
  afterHome : HomingM K (Option String)
  stepperPositions : HomingM K (List (String × K))
  steppers : HomingM K (List (String × K))
  commandedPosition : Fin 3 → HomingM K K

def requestedAxes (hasAxis : String → Bool) : List (Fin 3) :=
  let requested := ([(0, "X"), (1, "Y"), (2, "Z")].filter fun axis => hasAxis axis.2).map (·.1)
  if requested.isEmpty then [0, 1, 2] else requested

def runHome {σ : Type} (home : EStateM PanicValue σ Unit) (options : HomeRecoveryOptions σ) :
    EStateM PanicValue σ Unit := fun s =>
  match home s with
  | .ok a s => .ok a s
  | .error recovered s =>
    match recovered with
    -- Only a value that implements `error` is looked at; the panic goes on in any case.
    | .error _ =>
      if options.isShutdown.any (fun isShutdown => isShutdown s) then
        .error (.string "Homing failed due to printer shutdown") s
      else .error recovered (options.motorOff.getD id s)
    | .string _ => .error recovered s

section Defs

variable {K : Type} [Field K] [LinearOrder K]

def fillCoord (coord : Fin 4 → Option K) : HomingM K (Coord K) := do
  let machine ← get
  pure fun i => (coord i).getD (machine.position i)

/-- `Toolhead.Set_position`, that is `ApplyToolheadSetPosition`. -/
def setPosition (runtime : HomingRuntime K) (newpos : Coord K) (homingAxes : List (Fin 3)) :
    HomingM K Unit := do
  runtime.flushStepGeneration
  modify fun machine => { machine with
    position := newpos
    kinematics := machine.kinematics.step
      (.setPosition newpos (homingAxes.map fun i : Fin 3 => (i.val : ℤ))) }

variable [HasSqrt K]

/-- The position a rail is retracted to before it is homed again. -/
def retractPosition (startpos homepos : Coord K) (retractDist : K) : Coord K :=
  let axesD : Coord K := fun j => homepos j - startpos j
  let moveD := sqrt (axesD 0 * axesD 0 + axesD 1 * axesD 1 + axesD 2 * axesD 2)
  let retractR := min 1 (retractDist / moveD)
  fun j => homepos j - axesD j * retractR

/-- The second homing moves of `State.HomeRailsWithPositions`: turn number `i` of the
loop, with `count` turns to go and the last three trigger times.  The result is an
error that is returned. -/
def homeAgain (runtime : HomingRuntime K) (hi : HomingInfo K)
    (forcepos movepos : Fin 4 → Option K) : ℕ → ℕ → (Fin 3 → K) → HomingM K (Option String)
  | 0, _, _ => pure none
  | count + 1, i, triggerTimes => do
    let startpos ← fillCoord forcepos
    let homepos ← fillCoord movepos
    runtime.move (retractPosition startpos homepos hi.retractDist) hi.retractSpeed
    setPosition runtime startpos []
    let outcome ← runtime.execute homepos hi.secondHomingSpeed
    match outcome with
    | .error err => pure (some err)
    | .ok triggerTime =>
      let endstopName ← runtime.checkNoMovement
      -- Z is homed again until three trigger times are evenly spaced.
      if endstopName ≠ "" then
        pure (some ("endstop " ++ endstopName ++ " still triggered after retract"))
      else if (forcepos 2).isSome then
        let triggerTimes := Function.update triggerTimes (Fin.ofNat 3 i) triggerTime
        if 0 < i ∧ (i + 1) % 3 = 0 then
          if |(triggerTimes 1 - triggerTimes 0) - (triggerTimes 2 - triggerTimes 1)| ≤ 1 / 5 then
            pure none
          else homeAgain runtime hi forcepos movepos count (i + 1) fun _ => 0
        else homeAgain runtime hi forcepos movepos count (i + 1) triggerTimes
      else homeAgain runtime hi forcepos movepos count (i + 1) triggerTimes

variable (runtime : HomingRuntime K) (hi : HomingInfo K) (forcepos : Fin 4 → Option K)
  (homingAxes : List (Fin 3)) (movepos : Fin 4 → Option K) (axis : Fin 3)

/-- The end of `State.HomeRailsWithPositions`: the adjustments that were asked for. -/
def adjustPosition : HomingM K Unit := do
  let machine ← get
  if machine.adjustPos.any (fun adjustment => adjustment.2 ≠ 0) then
    let steppers ← runtime.steppers
    let kinSPos := fun name =>
      ((steppers.reverse.lookup name).map (· + (machine.adjustPos.lookup name).getD 0)).getD 0
    let newpos := machine.kinematics.calcPosition kinSPos
    setPosition runtime
      (fun j => (homingAxes.find? (fun axis => axis.castSucc = j)).elim (machine.position j) newpos)
      []
  else pure ()

/-- `State.HomeRailsWithPositions` after its homing moves. -/
def finishHome : HomingM K (Option String) := do
  runtime.flushStepGeneration
  let positions ← runtime.stepperPositions
  modify fun machine => { machine with
    triggerMCUPos := positions.reverse ++ machine.triggerMCUPos, adjustPos := [] }
  let err ← runtime.afterHome
  match err with
  | some err => pure (some err)
  | none => do
    adjustPosition runtime homingAxes
    pure none

/-- `State.HomeRailsWithPositions` for one rail.  The axis is marked as homed before
the homing move. -/
def homeRailsWithPositions : HomingM K (Option String) := do
  let homingAxes := [0, 1, 2].filter fun axis => (forcepos axis.castSucc).isSome
  let startpos ← fillCoord forcepos
  let homepos ← fillCoord movepos
  -- From here on the axis has limits, whatever becomes of the move.
  setPosition runtime startpos homingAxes
  let outcome ← runtime.execute homepos hi.speed
  match outcome with
  | .error err => pure (some err)
  | .ok _ =>
    let homingRetryCount := if (forcepos 2).isSome then 10 else 1
    let err ← homeAgain runtime hi forcepos movepos
      (if 0 < hi.retractDist then homingRetryCount else 0) 0 fun _ => 0
    match err with
    | some err => pure (some err)
    | none => finishHome runtime homingAxes

/-- `Homing.Home_rails`: an error that was returned becomes a panic with its text. -/
def homeRails : HomingM K Unit := do
  let err ← runtime.homeRailsBegin
  match err with
  | some err => throw (.string err)
  | none => do
    let err ← homeRailsWithPositions runtime hi forcepos movepos
    match err with
    | some err => throw (.string err)
    | none => pure ()

/-- `CartesianKinematics.HomeAxis`, for the rail that the axis has. -/
def homeAxis : HomingM K Unit := do
  let machine ← get
  let positions := machine.kinematics.axes.homePositions axis
  homeRails runtime (machine.kinematics.axes.rails axis).homingInfo positions.1 positions.2

/-- `CartesianKinematics.ActivateCarriage`, for a second carriage on `axis`. -/
def activateCarriage (carriage : Fin 2) : HomingM K Unit := do
  runtime.flushStepGeneration
  modify fun machine =>
    { machine with kinematics := machine.kinematics.selectCarriage carriage }
  let machine ← get
  let commandedPos ← runtime.commandedPosition axis
  setPosition runtime (Function.update machine.position axis.castSucc commandedPos) []
  modify fun machine => { machine with kinematics := machine.kinematics.carriageLimits }

/-- One turn of the loop of `Home`: an axis with two carriages is homed with both. -/
def homeCarriages : HomingM K Unit := do
  let machine ← get
  match machine.kinematics.dualCarriage with
  | none => homeAxis runtime axis
  | some dc =>
    if axis = dc.axis then do
      activateCarriage runtime axis 0
      homeAxis runtime axis
      activateCarriage runtime axis 1
      homeAxis runtime axis
      activateCarriage runtime axis dc.active
    else homeAxis runtime axis

/-- The loop of `Home`. -/
def homeAxes (runtime : HomingRuntime K) : List (Fin 3) → HomingM K Unit
  | [] => pure ()
  | axis :: axes => do
    homeCarriages runtime axis
    homeAxes runtime axes

/-- `Home` of the kinematics. -/
def home (axes : List (Fin 3)) : HomingM K Unit := do
  let machine ← get
  homeAxes runtime (machine.kinematics.homeOrder axes)

/-- `PrinterStepperEnableModule.MotorOff`: the enable lines are cleared, and the
event it sends makes the kinematics forget what is homed. -/
def Machine.motorOff (self : Machine K) : Machine K :=
  { self with
    enableLines := self.enableLines.map fun line => (line.1, false)
    kinematics := self.kinematics.step .motorOff }

/-- What `PrinterHoming.Cmd_G28` passes to `RunHome`. -/
def homeRecovery : HomeRecoveryOptions (Machine K) where
  isShutdown := some Machine.isShutdown
  motorOff := some Machine.motorOff

/-- `PrinterHoming.Cmd_G28`, that is `CommandG28`. -/
def cmdG28 (hasAxis : String → Bool) : HomingM K Unit :=
  runHome (home runtime (requestedAxes hasAxis)) homeRecovery

end Defs

variable {K : Type} [Field K] [LinearOrder K]

/-! ### What a failure leaves behind -/

section

variable {home : HomingM K Unit} {s s' : Machine K} {value : PanicValue}

theorem runHome_string {msg : String} (hfail : home s = .error (.string msg) s') :
    runHome home homeRecovery s = .error (.string msg) s' := by
  rw [runHome, hfail]

theorem runHome_error {msg : String} (hfail : home s = .error (.error msg) s')
    (hrunning : s'.isShutdown = false) :
    runHome home homeRecovery s = .error (.error msg) s'.motorOff := by
  rw [runHome, hfail]
  simp [homeRecovery, hrunning]

def Machine.MotorsOff (self : Machine K) : Prop :=
  (∀ line ∈ self.enableLines, line.2 = false) ∧ self.kinematics.axes.homedAxes = ""

theorem motorOff_motorsOff [IsStrictOrderedRing K] (self : Machine K) :
    self.motorOff.MotorsOff := by
  constructor
  · intro line hline
    obtain ⟨line', -, rfl⟩ := List.mem_map.mp hline
    rfl
  · have hnot : ∀ i, self.motorOff.kinematics.axes.homed i = false := by
      intro i
      have hlimits : self.motorOff.kinematics.axes.limits i = notHomed := by
        rw [Machine.motorOff]
        cases self.kinematics <;> rfl
      have hlt : ¬ (1 : K) ≤ -1 := by norm_num
      simp [AxisLimits.homed, hlimits, notHomed, hlt]
    simp [AxisLimits.homedAxes, hnot]

/-- **What a failed homing run leaves behind.**  While the printer is not shut down,
the motors are off after the failure exactly if it was an error value, or if they
were off when it happened. -/
theorem runHome_motorOff_iff [IsStrictOrderedRing K] (home : HomingM K Unit) (s : Machine K)
    {value : PanicValue} {s' : Machine K} (hfail : home s = .error value s')
    (hrunning : s'.isShutdown = false) :
    (∃ s'', runHome home homeRecovery s = .error value s'' ∧ s''.MotorsOff) ↔
      (∃ msg, value = .error msg) ∨ s'.MotorsOff := by
  cases value with
  | error msg =>
    rw [runHome_error hfail hrunning]
    constructor
    · intro _
      exact .inl ⟨msg, rfl⟩
    · intro _
      exact ⟨_, rfl, motorOff_motorsOff s'⟩
  | string msg =>
    rw [runHome_string hfail]
    constructor
    · rintro ⟨s'', ⟨⟩, hoff⟩
      exact .inr hoff
    · rintro (⟨msg', hmsg⟩ | hoff)
      · cases hmsg
      · exact ⟨s', rfl, hoff⟩

end

/-! ### A homing move without a trigger -/

def tenRail : Rail ℚ where
  name := "stepper_x"
  positionMin := 0
  positionMax := 10
  ordered := by norm_num
  homingInfo := { speed := 5, positionEndstop := 0, retractSpeed := 5, retractDist := 5
                  positiveDir := false, secondHomingSpeed := 5 / 2 }
  commandedPos := fun _ => 0

def startedMachine : Machine ℚ where
  position := fun _ => 0
  kinematics := .cartesian (newCartesian (fun _ => tenRail) 1 1 none)
  enableLines := [("stepper_x", true)]
  isShutdown := false
  triggerMCUPos := []
  adjustPos := []

/-- Nothing fails but the homing move, which ends with the outcome given. -/
def endingRuntime (outcome : HomingM ℚ (Except String ℚ)) : HomingRuntime ℚ where
  execute := fun _ _ => outcome
  checkNoMovement := pure ""
  move := fun _ _ => pure ()
  flushStepGeneration := pure ()
  homeRailsBegin := pure none
  afterHome := pure none
  stepperPositions := pure []
  steppers := pure []
  commandedPosition := fun _ => pure 0

/-- The endstop of X does not trigger: X counts as homed, and its motor is on. -/
theorem failed_home_homed : ∃ s',
    cmdG28 (endingRuntime (pure (.error "no trigger on stepper_x after full movement")))
      (fun _ => false) startedMachine
        = .error (.string "no trigger on stepper_x after full movement") s' ∧
    s'.isShutdown = false ∧ s'.enableLines = [("stepper_x", true)] ∧
    s'.kinematics.axes.homedAxes = "x" :=
  ⟨_, rfl, rfl, rfl, by decide +kernel⟩

/-- A homing move that panics with an error value turns the motors off. -/
theorem runHome_motorOff_iff_error : ∃ s',
    cmdG28 (endingRuntime (throw (.error "lost communication with MCU"))) (fun _ => false)
      startedMachine = .error (.error "lost communication with MCU") s' ∧ s'.MotorsOff := by
  have hfail : home (endingRuntime (throw (.error "lost communication with MCU")))
      (requestedAxes fun _ => false) startedMachine = .error (.error _) _ := rfl
  exact (runHome_motorOff_iff _ startedMachine hfail rfl).mpr (.inl ⟨_, rfl⟩)

end Motion
