/-
Pausing (`internal/pkg/motion/toolhead_pause.go`).

After a move has been queued the toolhead checks whether it is too far ahead of
the machine, and then sleeps.  `RunToolheadPauseCheck` works on a copy of the
pause state from its beginning to its end.  Since other callbacks of the reactor
run while it sleeps, it is cut into its beginning (`beginPauseCheck`) and the
test it makes whenever it is awake (`pauseCheckTest`).

`waitToolheadMoves` is the loop behind `M400`.
-/
import KlipperGo.ToolheadTiming

namespace Motion

/-- `PauseTimeSource`; `pause` is the time at which a sleep until the given time
ends. -/
structure PauseTimeSource (K : Type*) extends TimeSource K where
  pause : K → K

structure ToolheadPauseConfig (K : Type*) where
  bufferTimeLow : K
  bufferTimeHigh : K
  pauseCheckOffset : K
  maxPauseDuration : K
  minPrimingDelay : K
  waitMoveDelay : K

structure ToolheadPauseState (K : Type*) where
  printTime : K
  checkStallTime : K
  printStall : K
  specialQueuingState : SpecialQueuingState
  needCheckPause : K
  canPause : Bool

structure ToolheadPauseResult (K : Type*) where
  state : ToolheadPauseState K
  needsPrimingTimer : Bool
  primingWakeTime : K
  eventTime : K
  estimatedPrintTime : K
  bufferTime : K

/-- What a pause check that is awake does next. -/
inductive PauseStep (K : Type*)
  | finished (result : ToolheadPauseResult K)
  | sleep (waketime : K)

structure ToolheadPrimingResult (K : Type*) where
  shouldFlushLookahead : Bool
  checkStallTime : K

structure ToolheadWaitMovesState (K : Type*) where
  specialQueuingState : SpecialQueuingState
  printTime : K
  canPause : Bool

section Defs

variable {K : Type*} [Field K] [LinearOrder K]

/-- `constants.NEVER`, where it is stored as a time. -/
def neverTime : K := 9999999999999999

def defaultPauseConfig : ToolheadPauseConfig K where
  bufferTimeLow := 1
  bufferTimeHigh := 1
  pauseCheckOffset := 1 / 10
  maxPauseDuration := 1
  minPrimingDelay := 1 / 10
  waitMoveDelay := 1 / 10

variable (self : ToolheadCoreState K)

/-- `ToolheadCoreState.PauseState`: a copy. -/
def ToolheadCoreState.pauseState : ToolheadPauseState K where
  printTime := self.printTime
  checkStallTime := self.checkStallTime
  printStall := self.printStall
  specialQueuingState := self.specialQueuingState
  needCheckPause := self.needCheckPause
  canPause := self.canPause

def ToolheadCoreState.applyPauseState (state : ToolheadPauseState K) : ToolheadCoreState K :=
  { self with
    printTime := state.printTime
    checkStallTime := state.checkStallTime
    printStall := state.printStall
    specialQueuingState := state.specialQueuingState
    needCheckPause := state.needCheckPause
    canPause := state.canPause }

/-- `RunToolheadPauseCheck` up to its loop. -/
def beginPauseCheck (state : ToolheadPauseState K) (eventtime estPrintTime : K)
    (config : ToolheadPauseConfig K) : ToolheadPauseResult K :=
  let bufferTime := state.printTime - estPrintTime
  let result : ToolheadPauseResult K :=
    { state := state, needsPrimingTimer := false, primingWakeTime := 0
      eventTime := eventtime, estimatedPrintTime := estPrintTime, bufferTime := bufferTime }
  if state.specialQueuingState ≠ .main then
    let printStall :=
      if 0 < state.checkStallTime ∧ estPrintTime < state.checkStallTime then state.printStall + 1
      else state.printStall
    { result with
      state := { state with
        printStall := printStall, specialQueuingState := .priming, checkStallTime := -1 }
      needsPrimingTimer := true
      primingWakeTime :=
        eventtime + max config.minPrimingDelay (bufferTime - config.bufferTimeLow) }
  else result

/-- The test of the loop of `RunToolheadPauseCheck` and what follows the loop. -/
def pauseCheckTest (result : ToolheadPauseResult K) (eventtime estPrintTime : K)
    (config : ToolheadPauseConfig K) : PauseStep K :=
  let bufferTime := result.state.printTime - estPrintTime
  let pauseTime := bufferTime - config.bufferTimeHigh
  if pauseTime ≤ 0 then
    let needCheckPause :=
      if result.state.specialQueuingState = .main then
        estPrintTime + config.bufferTimeHigh + config.pauseCheckOffset
      else result.state.needCheckPause
    .finished { result with
      state := { result.state with needCheckPause := needCheckPause }
      eventTime := eventtime, estimatedPrintTime := estPrintTime, bufferTime := bufferTime }
  else if result.state.canPause then
    .sleep (eventtime + min config.maxPauseDuration pauseTime)
  else
    .finished { result with
      state := { result.state with needCheckPause := neverTime }
      estimatedPrintTime := estPrintTime, bufferTime := bufferTime }

def handleToolheadPrimingTimer (specialQueuingState : SpecialQueuingState) (printTime : K) :
    ToolheadPrimingResult K :=
  if specialQueuingState = .priming then
    { shouldFlushLookahead := true, checkStallTime := printTime }
  else { shouldFlushLookahead := false, checkStallTime := 0 }

/-- `ToolheadCoreState.WaitMovesState`: a copy. -/
def ToolheadCoreState.waitMovesState : ToolheadWaitMovesState K where
  specialQueuingState := self.specialQueuingState
  printTime := self.printTime
  canPause := self.canPause

/-- The loop of `WaitToolheadMoves`, for at most `fuel` tests of its condition. -/
def waitLoop (state : ToolheadWaitMovesState K) (source : PauseTimeSource K)
    (config : ToolheadPauseConfig K) : ℕ → K → Option K
  | 0, _ => none
  | fuel + 1, eventtime =>
    if state.specialQueuingState = .main ∨
        source.estimatedPrintTime eventtime ≤ state.printTime then
      if state.canPause then
        waitLoop state source config fuel (source.pause (eventtime + config.waitMoveDelay))
      else some eventtime
    else some eventtime

def waitToolheadMoves (state : ToolheadWaitMovesState K) (source : PauseTimeSource K)
    (config : ToolheadPauseConfig K) (fuel : ℕ) : Option K :=
  waitLoop state source config fuel source.monotonic

end Defs

variable {K : Type*} [Field K] [LinearOrder K]

/-! ### The pause check -/

section

variable {result result' : ToolheadPauseResult K} {state : ToolheadPauseState K}
  {eventtime estPrintTime : K} {config : ToolheadPauseConfig K}

/-- The pause check leaves the print time of its copy alone. -/
theorem beginPauseCheck_printTime :
    (beginPauseCheck state eventtime estPrintTime config).state.printTime = state.printTime := by
  rw [beginPauseCheck]
  split <;> rfl

theorem beginPauseCheck_special (h : state.specialQueuingState ≠ .main) :
    (beginPauseCheck state eventtime estPrintTime config).state.specialQueuingState = .priming := by
  rw [beginPauseCheck]
  rw [if_pos h]

theorem beginPauseCheck_main (h : state.specialQueuingState = .main) :
    (beginPauseCheck state eventtime estPrintTime config).state.specialQueuingState = .main := by
  rw [beginPauseCheck]
  rw [if_neg (not_not.mpr h)]
  exact h

theorem pauseCheckTest_finished
    (h : pauseCheckTest result eventtime estPrintTime config = .finished result') :
    result'.state.printTime = result.state.printTime ∧
    result'.state.specialQueuingState = result.state.specialQueuingState := by
  rw [pauseCheckTest] at h
  split at h
  · injection h with h
    rw [← h]
    exact ⟨rfl, rfl⟩
  · split at h
    · exact absurd h (by simp)
    · injection h with h
      rw [← h]
      exact ⟨rfl, rfl⟩

end

/-! ### Waiting for moves -/

/-- The time after `n` sleeps of the waiting loop. -/
def pauses (source : PauseTimeSource K) (config : ToolheadPauseConfig K) : ℕ → K → K
  | 0, eventtime => eventtime
  | n + 1, eventtime => pauses source config n (source.pause (eventtime + config.waitMoveDelay))

/-- A clock whose estimated print time exceeds every value, if one waits long
enough. -/
def PauseTimeSource.Unbounded (source : PauseTimeSource K) (config : ToolheadPauseConfig K) :
    Prop :=
  ∀ v, ∃ n, v < source.estimatedPrintTime (pauses source config n source.monotonic)

variable {state : ToolheadWaitMovesState K} {source : PauseTimeSource K}
  {config : ToolheadPauseConfig K}

/-- The snapshot never changes, so with an empty queuing state the loop has no end. -/
theorem waitLoop_main (hmain : state.specialQueuingState = .main) (hpause : state.canPause = true)
    (fuel : ℕ) (eventtime : K) : waitLoop state source config fuel eventtime = none := by
  induction fuel generalizing eventtime with
  | zero => rfl
  | succ fuel ih => rw [waitLoop, if_pos (.inl hmain), if_pos hpause, ih]

theorem waitLoop_awake (hspecial : state.specialQueuingState ≠ .main) {eventtime : K}
    (h : state.printTime < source.estimatedPrintTime eventtime) :
    waitLoop state source config 1 eventtime = some eventtime := by
  rw [waitLoop, if_neg]
  rintro (hmain | hle)
  · exact hspecial hmain
  · exact absurd h (not_lt.mpr hle)

theorem waitLoop_special (hspecial : state.specialQueuingState ≠ .main)
    (hpause : state.canPause = true) {n : ℕ} {eventtime : K}
    (h : state.printTime < source.estimatedPrintTime (pauses source config n eventtime)) :
    ∃ fuel t, waitLoop state source config fuel eventtime = some t ∧
      state.printTime < source.estimatedPrintTime t := by
  induction n generalizing eventtime with
  | zero => exact ⟨1, eventtime, waitLoop_awake hspecial h, h⟩
  | succ n ih =>
    by_cases hnow : state.printTime < source.estimatedPrintTime eventtime
    · exact ⟨1, eventtime, waitLoop_awake hspecial hnow, hnow⟩
    · obtain ⟨fuel, t, ht, hlt⟩ := ih h
      refine ⟨fuel + 1, t, ?_, hlt⟩
      rw [waitLoop, if_pos (.inr (not_lt.mp hnow)), if_pos hpause, ht]

/-- The waiting loop returns, and late enough, exactly when its snapshot is in a
special queuing state or pausing is not allowed. -/
theorem waitToolheadMoves_returns_iff (state : ToolheadWaitMovesState K)
    (hclock : source.Unbounded config) :
    (∃ fuel t, waitToolheadMoves state source config fuel = some t ∧
      (state.canPause = true → state.printTime < source.estimatedPrintTime t)) ↔
    (state.specialQueuingState ≠ .main ∨ state.canPause = false) := by
  constructor
  · rintro ⟨fuel, t, ht, -⟩
    by_contra hnot
    rw [not_or, not_not, Bool.not_eq_false] at hnot
    rw [waitToolheadMoves, waitLoop_main hnot.1 hnot.2] at ht
    exact absurd ht (by simp)
  · intro h
    by_cases hpause : state.canPause = true
    · obtain ⟨n, hn⟩ := hclock state.printTime
      obtain ⟨fuel, t, ht, hlt⟩ :=
        waitLoop_special (h.resolve_right (by simp [hpause])) hpause hn
      exact ⟨fuel, t, ht, fun _ => hlt⟩
    · refine ⟨1, source.monotonic, ?_, fun h => absurd h hpause⟩
      rw [waitToolheadMoves, waitLoop, if_neg hpause, ite_self]

end Motion
