/-
The toolhead (`Toolhead` of `project/goklipper.go`, with
`internal/pkg/motion/toolhead_move_runtime.go`, `toolhead_timer_runtime.go` and
`toolhead_control_runtime.go`).

The toolhead joins the look-ahead queue, the timing state and the pause check.
An operation that panics stops where it is, so operations return a
`ToolheadM`: the new state, or the panic with the state it left behind.  A pause
check that goes to sleep becomes a frame of `Toolhead.sleeping`; the reactor then
runs other operations until it resumes the frame.

A run of the toolhead is a list of `ToolheadEvent`s.  For the statements about
runs the state also logs the batches of moves handed to the motion queue and the
times the step generators were called with.
-/
import KlipperGo.LookAhead
import KlipperGo.ToolheadConfig
import KlipperGo.ToolheadFlush
import KlipperGo.ToolheadPause

open ExactArith

namespace Motion

/-- What one pass of the drip loop sees: whether the completion has been
triggered, and the estimated print time. -/
structure DripPoll (K : Type*) where
  triggered : Bool
  estPrintTime : K

structure ToolheadDripConfig (K : Type*) where
  dripTime : K
  stepcompressFlushTime : K
  dripSegmentTime : K

/-- The surroundings of an operation: the clock, the flush callbacks, what the
drip loop sees (it ends with the completion triggered), and the checks of the
kinematics and the extruder.  The kinematics panics on a move it refuses, the
extruder returns an error. -/
structure Env (K : Type*) [Field K] [LinearOrder K] where
  source : TimeSource K
  actions : FlushActions K
  dripPolls : List (DripPoll K)
  checkKinematicMove : Move K → Except (MoveError K) (Move K)
  checkExtruderMove : Move K → Move K × Option String
  extruder : Option (MoveJunctionCalculator K)

/-- A batch of moves appended to the motion queue: the print time of its first
move, and the state it was appended in. -/
structure Batch (K : Type*) where
  printTime : K
  moves : List (Move K)
  kinFlushDelay : K
  lastStepGenTime : K

/-- A pause check that sleeps: the state it copied, its result so far, and the
time it wants to be woken at. -/
structure PauseFrame (K : Type*) where
  start : ToolheadPauseState K
  result : ToolheadPauseResult K
  waketime : K

structure Toolhead (K : Type*) where
  core : ToolheadCoreState K
  lookahead : LookAheadQueue K
  flushTimer : WakeTime K
  primingTimer : Option K
  sleeping : List (PauseFrame K)
  batches : List (Batch K)
  stepGenTimes : List K

inductive ToolheadPanic (K : Type*)
  | dripModeEnd
  | moveError (err : MoveError K)

abbrev ToolheadM (K : Type*) := Except (ToolheadPanic K × Toolhead K)

/-- The state an operation leaves, whether it returns or panics. -/
def ToolheadM.state {K : Type*} : ToolheadM K (Toolhead K) → Toolhead K
  | .ok self => self
  | .error (_, self) => self

section Defs

variable {K : Type*} [Field K] [LinearOrder K]

def bufferTimeHigh : K := 1

def defaultDripConfig : ToolheadDripConfig K where
  dripTime := 1 / 10
  stepcompressFlushTime := 1 / 20
  dripSegmentTime := 1 / 20

def newToolhead [HasSqrt K] (settings : ToolheadVelocitySettings K) (canPause : Bool) :
    Toolhead K where
  core := (newToolheadCoreState canPause).applyVelocityLimitResult
    (buildToolheadInitialVelocityResult settings)
  lookahead := newMoveQueue.setFlushTime bufferTimeHigh
  flushTimer := .never
  primingTimer := none
  sleeping := []
  batches := []
  stepGenTimes := []

/-! ### Timing -/

variable (self : Toolhead K) (env : Env K) [FloorRing K] [HasSqrt K]

namespace Toolhead

/-- The flush timer is moved to `constants.NOW` if a note asks for it. -/
def kick (kicked : Bool) : Toolhead K :=
  if kicked then { self with flushTimer := .at 0 } else self

def noteMcuMovequeueActivity (activity : Activity K) : Toolhead K :=
  let out := self.core.noteMovequeueActivity activity
  ({ self with core := out.1 } : Toolhead K).kick out.2

/-- The activity noted by a callback. -/
def noteAll (activities : List (Activity K)) : Toolhead K :=
  activities.foldl noteMcuMovequeueActivity self

def advanced (out : Advanced K) : Toolhead K :=
  ({ self with
      core := out.core
      stepGenTimes := self.stepGenTimes ++ out.trace.stepGenTimes } : Toolhead K).kick out.kicked

def advanceFlushTime (flushTime : K) : Toolhead K :=
  self.advanced (self.core.advanceFlushTime flushTime defaultTimingConfig env.actions)

def advanceMoveTime (nextPrintTime : K) : Toolhead K :=
  self.advanced (self.core.advanceMoveTime nextPrintTime defaultTimingConfig env.actions)

def calcPrintTime : Toolhead K :=
  { self with core := self.core.calcPrintTime defaultTimingConfig env.source }

/-! ### Batches of moves -/

/-- `QueueMoveBatch`, with the activity its timing callbacks note; the second
component is the end of the last move. -/
def queueMoveBatch (self : Toolhead K) : K → List (Move K) → Toolhead K × K
  | nextMoveTime, [] => (self, nextMoveTime)
  | nextMoveTime, move :: moves =>
    let nextMoveTime := nextMoveTime + (move.accelT + move.cruiseT + move.decelT)
    (self.noteAll (move.timingCallbacks.flatMap fun cb => cb nextMoveTime)).queueMoveBatch
      nextMoveTime moves

/-- The loop of `UpdateToolheadDripTime`. -/
def updateToolheadDripTime (env : Env K) (nextPrintTime flushDelay : K)
    (config : ToolheadDripConfig K) : List (DripPoll K) → Toolhead K → ToolheadM K (Toolhead K)
  | [], self =>
    if self.core.printTime < nextPrintTime then .error (.dripModeEnd, self) else .ok self
  | poll :: polls, self =>
    if self.core.printTime < nextPrintTime then
      if poll.triggered then .error (.dripModeEnd, self)
      else
        let waitTime := self.core.printTime - poll.estPrintTime - flushDelay
        if 0 < waitTime ∧ self.core.canPause = true then
          updateToolheadDripTime env nextPrintTime flushDelay config polls self
        else
          let nextSegmentPrintTime :=
            min (self.core.printTime + config.dripSegmentTime) nextPrintTime
          let self := self.noteMcuMovequeueActivity
            { mqTime := nextSegmentPrintTime + self.core.kinFlushDelay, setStepGenTime := true }
          updateToolheadDripTime env nextPrintTime flushDelay config polls
            (self.advanceMoveTime env nextSegmentPrintTime)
    else .ok self

/-- The beginning of `ProcessToolheadMoveBatch`: leave a special queuing state. -/
def enterMain : Toolhead K :=
  if self.core.specialQueuingState = .main then self
  else
    let self : Toolhead K := if self.core.specialQueuingState = .drip then self
      else { self with
        core := { self.core with specialQueuingState := .main, needCheckPause := -1 } }
    self.calcPrintTime env

variable (moves : List (Move K)) (nextMoveTime : K)

def logBatch : Toolhead K :=
  { self with batches := self.batches ++
      [{ printTime := self.core.printTime, moves := moves
         kinFlushDelay := self.core.kinFlushDelay
         lastStepGenTime := self.core.lastStepGenTime }] }

/-- The end of `ProcessToolheadMoveBatch`. -/
def finishBatch : Toolhead K :=
  (self.noteMcuMovequeueActivity
    { mqTime := nextMoveTime + self.core.kinFlushDelay, setStepGenTime := true }).advanceMoveTime
      env nextMoveTime

/-- In drip mode the batch is driven in small segments. -/
def dripBatch : ToolheadM K (Toolhead K) :=
  if self.core.specialQueuingState = .main then .ok self
  else
    let config := defaultDripConfig
    updateToolheadDripTime env nextMoveTime
      (config.dripTime + config.stepcompressFlushTime + self.core.kinFlushDelay) config
      env.dripPolls self

/-- `Toolhead.Process_moves`, that is `ProcessToolheadMoveBatch`. -/
def processMoves : ToolheadM K (Toolhead K) := do
  let self := (self.enterMain env).logBatch moves
  let out := self.queueMoveBatch self.core.printTime moves
  let self ← out.1.dripBatch env out.2
  .ok (self.finishBatch env out.2)

/-- `LookAheadQueue.Flush` on the queue of the toolhead.  The queue is cut after
`Process_moves` has returned. -/
def flushQueue (lazy : Bool) : ToolheadM K (Toolhead K) :=
  let out := self.lookahead.flush lazy
  if out.2.isEmpty then .ok { self with lookahead := out.1 }
  else do
    let self ← ({ self with
      lookahead := self.lookahead.setFlushTime lookaheadFlushTime } : Toolhead K).processMoves env
        out.2
    .ok { self with lookahead := out.1 }

end Toolhead

def ToolheadCoreState.resetAfterLookaheadFlush (self : ToolheadCoreState K)
    (reset : ToolheadFlushReset K) : ToolheadCoreState K :=
  { self with
    specialQueuingState := reset.specialQueuingState
    needCheckPause := reset.needCheckPause
    checkStallTime := reset.checkStallTime }

namespace Toolhead

/-- `Toolhead._flush_lookahead`: the state is reset before the queue is flushed. -/
def flushLookahead : ToolheadM K (Toolhead K) := do
  let reset := buildToolheadFlushReset bufferTimeHigh
  let self ←
    ({ self with core := self.core.resetAfterLookaheadFlush reset } : Toolhead K).flushQueue
      env false
  .ok { self with lookahead := self.lookahead.setFlushTime reset.lookaheadFlushTime }

def flushStepGeneration : ToolheadM K (Toolhead K) := do
  let self ← self.flushLookahead env
  let self := self.advanceFlushTime env self.core.stepGenTime
  .ok { self with
    core := { self.core with minRestartTime := max self.core.minRestartTime self.core.printTime } }

/-- `Toolhead.Get_last_move_time`; the result is the print time of the new state. -/
def getLastMoveTime : ToolheadM K (Toolhead K) :=
  if self.core.specialQueuingState = .main then self.flushQueue env false
  else do
    let self ← self.flushLookahead env
    .ok (self.calcPrintTime env)

def noteStepGenerationScanTime (delay oldDelay : K) : ToolheadM K (Toolhead K) := do
  let self ← self.flushStepGeneration env
  .ok { self with
    core := self.core.updateStepGenerationScanDelay delay oldDelay defaultTimingConfig }

def registerLookaheadCallback (callback : K → List (Activity K)) : ToolheadM K (Toolhead K) :=
  match self.lookahead.getLast with
  | none => do
    let self ← self.getLastMoveTime env
    .ok (self.noteAll (callback self.core.printTime))
  | some lastMove =>
    .ok { self with lookahead := { self.lookahead with
      queue := self.lookahead.queue.dropLast ++
        [{ lastMove with timingCallbacks := lastMove.timingCallbacks ++ [callback] }] } }

/-! ### The pause check -/

/-- The end of `CheckToolheadPause`: the copy is written back. -/
def finishPauseCheck (result : ToolheadPauseResult K) : Toolhead K :=
  { self with
    core := self.core.applyPauseState result.state
    primingTimer :=
      if result.needsPrimingTimer then some result.primingWakeTime else self.primingTimer }

/-- A pause check that is awake at `eventtime` finishes or goes to sleep. -/
def runPauseCheck (start : ToolheadPauseState K) (result : ToolheadPauseResult K)
    (eventtime estPrintTime : K) : Toolhead K :=
  match pauseCheckTest result eventtime estPrintTime defaultPauseConfig with
  | .finished result => self.finishPauseCheck result
  | .sleep waketime =>
    { self with
      sleeping := self.sleeping ++ [{ start := start, result := result, waketime := waketime }] }

/-- `Toolhead._Check_pause`, until it returns or sleeps. -/
def checkPause : Toolhead K :=
  let eventtime := env.source.monotonic
  let estPrintTime := env.source.estimatedPrintTime eventtime
  let start := self.core.pauseState
  self.runPauseCheck start (beginPauseCheck start eventtime estPrintTime defaultPauseConfig)
    eventtime estPrintTime

/-- The reactor wakes the sleeping pause check number `i`. -/
def resume (i : ℕ) : Toolhead K :=
  match self.sleeping[i]? with
  | none => self
  | some frame =>
    let eventtime := env.source.monotonic
    ({ self with sleeping := self.sleeping.eraseIdx i } : Toolhead K).runPauseCheck frame.start
      frame.result eventtime (env.source.estimatedPrintTime eventtime)

/-! ### Commands and timers -/

def queueMove (move : Move K) : ToolheadM K (Toolhead K) :=
  let out := self.lookahead.addMove move env.extruder
  let self : Toolhead K := { self with lookahead := out.1 }
  if out.2 then self.flushQueue env true else .ok self

/-- The move that `RunToolheadMove` queues: the error of the extruder's check is
dropped, as `Toolhead.CheckExtruderMove` does. -/
def checkedMove (newpos : Coord K) (speed : K) : Except (MoveError K) (Move K) := do
  let move := newMove self.core.moveConfig self.core.commandedPos newpos speed
  let move ← if move.isKinematicMove then env.checkKinematicMove move else .ok move
  .ok (if move.axesD 3 ≠ 0 then (env.checkExtruderMove move).1 else move)

/-- `Toolhead.Move`, that is `RunToolheadMove`. -/
def move (newpos : Coord K) (speed : K) : ToolheadM K (Toolhead K) :=
  if (newMove self.core.moveConfig self.core.commandedPos newpos speed).moveD = 0 then .ok self
  else
    match self.checkedMove env newpos speed with
    | .error err => .error (.moveError err, self)
    | .ok move => do
      let self ← ({ self with core := { self.core with commandedPos := move.endPos } } :
        Toolhead K).queueMove env move
      .ok (if self.core.needCheckPause < self.core.printTime then self.checkPause env else self)

/-- `Toolhead.Dwell`, that is `RunToolheadDwell`. -/
def dwell (delay : K) : ToolheadM K (Toolhead K) := do
  let self ← self.getLastMoveTime env
  let nextPrintTime := self.core.printTime + max 0 delay
  .ok ((self.advanceMoveTime env nextPrintTime).checkPause env)

/-- `Toolhead.Priming_handler`, that is `HandleToolheadPrimingCallback`. -/
def primingHandler : ToolheadM K (Toolhead K) :=
  let self : Toolhead K := { self with primingTimer := none }
  let result := handleToolheadPrimingTimer self.core.specialQueuingState self.core.printTime
  if result.shouldFlushLookahead then do
    let self ← self.flushLookahead env
    .ok { self with core := { self.core with checkStallTime := result.checkStallTime } }
  else .ok self

end Toolhead

def ToolheadCoreState.flushHandlerState (self : ToolheadCoreState K) :
    ToolheadFlushHandlerState K where
  printTime := self.printTime
  lastFlushTime := self.lastFlushTime
  lastStepGenTime := self.lastStepGenTime
  needFlushTime := self.needFlushTime
  needStepGenTime := self.stepGenTime
  specialQueuingState := self.specialQueuingState
  kinFlushDelay := self.kinFlushDelay

variable (eventtime : K) (plan : ToolheadFlushHandlerPlan K)

/-- What the flush timer decides at `eventtime`, from the state as it is then. -/
def Toolhead.flushPlan : ToolheadFlushHandlerPlan K :=
  buildToolheadFlushHandlerPlan (env.source.estimatedPrintTime eventtime)
    self.core.flushHandlerState defaultFlushConfig eventtime

/-- The look-ahead flush of `HandleToolheadFlushCallback`. -/
def Toolhead.flushForTimer : ToolheadM K (Toolhead K) :=
  if plan.shouldFlushLookahead then do
    let printTime := self.core.printTime
    let self ← self.flushLookahead env
    .ok (if printTime ≠ self.core.printTime then
        { self with core := { self.core with checkStallTime := self.core.printTime } }
      else self)
  else .ok self

/-- The rest of `HandleToolheadFlushCallback`: the flushes of the plan, and the
time of the next call. -/
def Toolhead.finishFlushPlan : Toolhead K × WakeTime K :=
  let self := plan.advanceFlushTimes.foldl (fun self t => self.advanceFlushTime env t) self
  let self : Toolhead K := if plan.kickFlushTimer then
      { self with core := { self.core with doKickFlushTimer := true } }
    else self
  (self, if plan.returnNever then .never else .at plan.nextWakeTime)

/-- `Toolhead._flush_handler`, that is `HandleToolheadFlushCallback`.  The
reactor gives the timer the time returned. -/
def Toolhead.flushHandler : ToolheadM K (Toolhead K × WakeTime K) := do
  let plan := self.flushPlan env eventtime
  let self ← self.flushForTimer env plan
  .ok (self.finishFlushPlan env plan)

def Toolhead.handleShutdown : Toolhead K :=
  { self with core := { self.core with canPause := false }, lookahead := self.lookahead.reset }

end Defs

/-! ### Runs -/

inductive ToolheadOp (K : Type*)
  | move (newpos : Coord K) (speed : K)
  | dwell (delay : K)
  | getLastMoveTime
  | flushQueue (lazy : Bool)
  | flushLookahead
  | flushStepGeneration
  | noteStepGenerationScanTime (delay oldDelay : K)
  | noteMcuMovequeueActivity (activity : Activity K)
  | registerLookaheadCallback (callback : K → List (Activity K))
  | flushTimer (eventtime : K)
  | primingTimer
  | resume (i : ℕ)
  | handleShutdown

/-- An operation and its surroundings. -/
structure ToolheadEvent (K : Type*) [Field K] [LinearOrder K] where
  env : Env K
  op : ToolheadOp K

section Defs

variable {K : Type*} [Field K] [LinearOrder K] [FloorRing K] [HasSqrt K]

def Toolhead.perform (self : Toolhead K) (env : Env K) : ToolheadOp K → ToolheadM K (Toolhead K)
  | .move newpos speed => self.move env newpos speed
  | .dwell delay => self.dwell env delay
  | .getLastMoveTime => self.getLastMoveTime env
  | .flushQueue lazy => self.flushQueue env lazy
  | .flushLookahead => self.flushLookahead env
  | .flushStepGeneration => self.flushStepGeneration env
  | .noteStepGenerationScanTime delay oldDelay =>
    self.noteStepGenerationScanTime env delay oldDelay
  | .noteMcuMovequeueActivity activity => .ok (self.noteMcuMovequeueActivity activity)
  | .registerLookaheadCallback callback => self.registerLookaheadCallback env callback
  | .flushTimer eventtime => do
    let out ← self.flushHandler env eventtime
    .ok { out.1 with flushTimer := out.2 }
  | .primingTimer => self.primingHandler env
  | .resume i => .ok (self.resume env i)
  | .handleShutdown => .ok self.handleShutdown

def Toolhead.step (self : Toolhead K) (e : ToolheadEvent K) : Toolhead K :=
  ToolheadM.state (self.perform e.env e.op)

end Defs

end Motion
