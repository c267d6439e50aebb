/-
The plan of the background flush timer
(`internal/pkg/motion/toolhead_flush.go`).

`buildToolheadFlushHandlerPlan` decides from a snapshot of the toolhead what the
flush timer does: whether it flushes the look-ahead queue, up to which times it
flushes the step generators, and when it wants to be called again.

* `plan_never_iff`, `advanceFlushTimes_le` — it does so when everything is due, and
  never flushes beyond it.
-/
import KlipperGo.ToolheadTiming

namespace Motion

/-- A wake time of a reactor timer; `constants.NEVER` is `never`. -/
inductive WakeTime (K : Type*)
  | never
  | at (waketime : K)
deriving DecidableEq, Repr

structure ToolheadFlushReset (K : Type*) where
  specialQueuingState : SpecialQueuingState
  needCheckPause : K
  lookaheadFlushTime : K
  checkStallTime : K

structure ToolheadFlushConfig (K : Type*) where
  bufferTimeLow : K
  bgFlushLowTime : K
  bgFlushHighTime : K
  bgFlushSgLowTime : K
  bgFlushSgHighTime : K
  bgFlushExtraTime : K
  stepcompressFlushTime : K

structure ToolheadFlushHandlerState (K : Type*) where
  printTime : K
  lastFlushTime : K
  lastStepGenTime : K
  needFlushTime : K
  needStepGenTime : K
  specialQueuingState : SpecialQueuingState
  kinFlushDelay : K

structure ToolheadFlushHandlerPlan (K : Type*) where
  shouldFlushLookahead : Bool
  advanceFlushTimes : List K
  nextWakeTime : K
  returnNever : Bool
  kickFlushTimer : Bool

structure FlushProgress (K : Type*) where
  advanceFlushTimes : List K
  lastFlushTime : K
  lastStepGenTime : K

section Defs

variable {K : Type*} [Field K] [LinearOrder K]

def buildToolheadFlushReset (lookaheadFlushTime : K) : ToolheadFlushReset K where
  specialQueuingState := .needPrime
  needCheckPause := -1
  lookaheadFlushTime := lookaheadFlushTime
  checkStallTime := 0

def defaultFlushConfig : ToolheadFlushConfig K where
  bufferTimeLow := 1
  bgFlushLowTime := 1 / 5
  bgFlushHighTime := 2 / 5
  bgFlushSgLowTime := 9 / 20
  bgFlushSgHighTime := 7 / 10
  bgFlushExtraTime := 1 / 4
  stepcompressFlushTime := 1 / 20

variable (estimatedPrintTime : K) (state : ToolheadFlushHandlerState K)
  (config : ToolheadFlushConfig K)

def ToolheadFlushHandlerState.aggressiveStepGenTime : K :=
  state.needStepGenTime - 2 * state.kinFlushDelay

/-- `wantStepGenTime`, as it is compared with the last step-generation time. -/
def wantStepGenTime : K :=
  let wantStepGenTime := estimatedPrintTime + config.bgFlushSgHighTime
  let batchTime := config.bgFlushSgHighTime - config.bgFlushSgLowTime
  let nextBatchTime := state.lastStepGenTime + batchTime
  let wantStepGenTime :=
    if estimatedPrintTime < nextBatchTime then
      if wantStepGenTime + 5 / 1000 < nextBatchTime then state.lastStepGenTime else nextBatchTime
    else wantStepGenTime
  min wantStepGenTime state.aggressiveStepGenTime

/-- The first part of the plan: the steps of moves that are due soon. -/
def stepGenProgress : FlushProgress K :=
  let want := wantStepGenTime estimatedPrintTime state config
  if state.lastStepGenTime < state.aggressiveStepGenTime ∧ state.lastStepGenTime < want then
    let flushTime := max state.lastFlushTime (want - config.stepcompressFlushTime)
    { advanceFlushTimes := [flushTime], lastFlushTime := flushTime, lastStepGenTime := want }
  else
    { advanceFlushTimes := [], lastFlushTime := state.lastFlushTime
      lastStepGenTime := state.lastStepGenTime }

/-- The second part: everything noted, while it is close enough. -/
def endProgress (progress : FlushProgress K) : FlushProgress K :=
  let endFlush := state.needFlushTime + config.bgFlushExtraTime
  let flushTime := min (estimatedPrintTime + config.bgFlushHighTime) endFlush
  if progress.lastFlushTime < endFlush ∧ progress.lastFlushTime < flushTime then
    { progress with
      advanceFlushTimes := progress.advanceFlushTimes ++ [flushTime], lastFlushTime := flushTime }
  else progress

def buildToolheadFlushHandlerPlan (eventtime : K) : ToolheadFlushHandlerPlan K :=
  let bufferTime := state.printTime - estimatedPrintTime
  if state.specialQueuingState = .main ∧ config.bufferTimeLow < bufferTime then
    { shouldFlushLookahead := false, advanceFlushTimes := []
      nextWakeTime := eventtime + bufferTime - config.bufferTimeLow
      returnNever := false, kickFlushTimer := false }
  else
    let shouldFlushLookahead := decide (state.specialQueuingState = .main)
    let progress := stepGenProgress estimatedPrintTime state config
    if progress.lastStepGenTime < state.aggressiveStepGenTime then
      { shouldFlushLookahead := shouldFlushLookahead
        advanceFlushTimes := progress.advanceFlushTimes
        nextWakeTime :=
          eventtime + progress.lastStepGenTime - config.bgFlushSgLowTime - estimatedPrintTime
        returnNever := false, kickFlushTimer := false }
    else
      let progress := endProgress estimatedPrintTime state config progress
      if state.needFlushTime + config.bgFlushExtraTime ≤ progress.lastFlushTime then
        { shouldFlushLookahead := shouldFlushLookahead
          advanceFlushTimes := progress.advanceFlushTimes
          nextWakeTime := 0, returnNever := true, kickFlushTimer := true }
      else
        { shouldFlushLookahead := shouldFlushLookahead
          advanceFlushTimes := progress.advanceFlushTimes
          nextWakeTime :=
            eventtime + progress.lastFlushTime - config.bgFlushLowTime - estimatedPrintTime
          returnNever := false, kickFlushTimer := false }

end Defs

variable {K : Type*} [Field K] [LinearOrder K] {estimatedPrintTime eventtime : K}
  {state : ToolheadFlushHandlerState K} {config : ToolheadFlushConfig K}

/-- The flushes planned so far lead from the last flush of the snapshot to the
progress, and stay below `bound`. -/
structure FlushProgress.Within (progress : FlushProgress K) (start bound : K) : Prop where
  reached : progress.lastFlushTime = start ∨ progress.lastFlushTime ∈ progress.advanceFlushTimes
  times_le : ∀ t ∈ progress.advanceFlushTimes, t ≤ bound
  last_le : progress.lastFlushTime ≤ bound

variable {progress : FlushProgress K}

theorem endProgress_within {start bound : K} (h : progress.Within start bound) :
    (endProgress estimatedPrintTime state config progress).Within start
      (max bound (min (estimatedPrintTime + config.bgFlushHighTime)
        (state.needFlushTime + config.bgFlushExtraTime))) := by
  rw [endProgress]
  split
  · refine ⟨.inr (by simp), ?_, le_max_right _ _⟩
    intro t ht
    rcases List.mem_append.mp ht with ht | ht
    · exact (h.times_le t ht).trans (le_max_left _ _)
    · rw [List.mem_singleton.mp ht]
      exact le_max_right _ _
  · exact ⟨h.reached, fun t ht => (h.times_le t ht).trans (le_max_left _ _),
      h.last_le.trans (le_max_left _ _)⟩

theorem endProgress_reached_iff (config : ToolheadFlushConfig K) :
    state.needFlushTime + config.bgFlushExtraTime ≤
        (endProgress estimatedPrintTime state config progress).lastFlushTime ↔
      state.needFlushTime + config.bgFlushExtraTime ≤
        max progress.lastFlushTime (estimatedPrintTime + config.bgFlushHighTime) := by
  rw [endProgress, le_max_iff]
  split
  · next h =>
    rw [le_min_iff, and_iff_left le_rfl]
    exact ⟨.inr, fun h' => h'.resolve_left (not_le.mpr h.1)⟩
  · next h =>
    refine ⟨.inl, ?_⟩
    rintro (hle | hle)
    · exact hle
    · rw [min_eq_right hle, and_self, not_lt] at h
      exact h

theorem le_stepGenProgress : state.lastFlushTime ≤
    (stepGenProgress estimatedPrintTime state config).lastFlushTime := by
  rw [stepGenProgress]
  split
  · exact le_max_left _ _
  · exact le_rfl

variable {plan : ToolheadFlushHandlerPlan K}
  (hplan : buildToolheadFlushHandlerPlan estimatedPrintTime state config eventtime = plan)

include hplan in
/-- The plans that put the timer to sleep. -/
theorem plan_never (h : plan.returnNever) :
    let progress := endProgress estimatedPrintTime state config
      (stepGenProgress estimatedPrintTime state config)
    plan.advanceFlushTimes = progress.advanceFlushTimes ∧
      state.needFlushTime + config.bgFlushExtraTime ≤ progress.lastFlushTime := by
  subst hplan
  rw [buildToolheadFlushHandlerPlan] at h ⊢
  dsimp only at h ⊢
  split at h
  · exact absurd h (by simp)
  · next hbuffer =>
    rw [if_neg hbuffer]
    split at h
    · exact absurd h (by simp)
    · next hgen =>
      rw [if_neg hgen]
      split at h
      · next hend =>
        rw [if_pos hend]
        exact ⟨rfl, hend⟩
      · exact absurd h (by simp)

/-- The timer flushes the look-ahead queue in the main queuing state only. -/
theorem plan_shouldFlush (h : (buildToolheadFlushHandlerPlan estimatedPrintTime state config
    eventtime).shouldFlushLookahead = true) : state.specialQueuingState = .main := by
  rw [buildToolheadFlushHandlerPlan] at h
  dsimp only at h
  split_ifs at h <;> simpa using h

/-- In that state it waits while there is enough buffer time, and flushes the queue
when there is not. -/
theorem plan_main (estimatedPrintTime eventtime : K) (state : ToolheadFlushHandlerState K)
    (config : ToolheadFlushConfig K) (hmain : state.specialQueuingState = .main) :
    (config.bufferTimeLow < state.printTime - estimatedPrintTime ∧
      buildToolheadFlushHandlerPlan estimatedPrintTime state config eventtime =
        { shouldFlushLookahead := false, advanceFlushTimes := []
          nextWakeTime :=
            eventtime + (state.printTime - estimatedPrintTime) - config.bufferTimeLow
          returnNever := false, kickFlushTimer := false }) ∨
    (state.printTime - estimatedPrintTime ≤ config.bufferTimeLow ∧
      (buildToolheadFlushHandlerPlan estimatedPrintTime state config
        eventtime).shouldFlushLookahead = true) := by
  rw [buildToolheadFlushHandlerPlan]
  dsimp only
  by_cases hlow : config.bufferTimeLow < state.printTime - estimatedPrintTime
  · rw [if_pos ⟨hmain, hlow⟩]
    exact .inl ⟨hlow, rfl⟩
  · refine .inr ⟨not_lt.mp hlow, ?_⟩
    rw [if_neg fun h => hlow h.2]
    split_ifs <;> simpa using hmain

variable [IsStrictOrderedRing K]

theorem stepGenProgress_within : (stepGenProgress estimatedPrintTime state config).Within
    state.lastFlushTime
    (max state.lastFlushTime (state.aggressiveStepGenTime - config.stepcompressFlushTime)) := by
  rw [stepGenProgress]
  split
  · have hle : wantStepGenTime estimatedPrintTime state config - config.stepcompressFlushTime ≤
        state.aggressiveStepGenTime - config.stepcompressFlushTime :=
      sub_le_sub_right (min_le_right _ _) _
    have hmax := max_le_max_left state.lastFlushTime hle
    exact ⟨.inr (by simp), by simpa using hmax, hmax⟩
  · exact ⟨.inl rfl, by simp, le_max_left _ _⟩

/-- In the main queuing state, everything the snapshot knows of is due within the
windows of the flush timer: the queued moves, their steps, and the noted activity. -/
structure ToolheadFlushHandlerState.Due (state : ToolheadFlushHandlerState K)
    (estimatedPrintTime : K) : Prop where
  buffer : state.printTime ≤ estimatedPrintTime + 1
  steps : state.aggressiveStepGenTime ≤ state.lastStepGenTime ∨
    state.lastStepGenTime ≤ estimatedPrintTime + 91 / 200 ∧
      state.aggressiveStepGenTime ≤ state.lastStepGenTime + 1 / 4 ∨
    state.lastStepGenTime + 1 / 4 ≤ estimatedPrintTime ∧
      state.aggressiveStepGenTime ≤ estimatedPrintTime + 7 / 10
  activity : state.needFlushTime + 1 / 4 ≤ max state.lastFlushTime (estimatedPrintTime + 2 / 5)

theorem stepGenProgress_reached_iff : state.aggressiveStepGenTime ≤
        (stepGenProgress estimatedPrintTime state defaultFlushConfig).lastStepGenTime ↔
      state.aggressiveStepGenTime ≤ state.lastStepGenTime ∨
      state.lastStepGenTime ≤ estimatedPrintTime + 91 / 200 ∧
        state.aggressiveStepGenTime ≤ state.lastStepGenTime + 1 / 4 ∨
      state.lastStepGenTime + 1 / 4 ≤ estimatedPrintTime ∧
        state.aggressiveStepGenTime ≤ estimatedPrintTime + 7 / 10 := by
  set a := state.aggressiveStepGenTime with ha
  set l := state.lastStepGenTime with hl
  rw [stepGenProgress, wantStepGenTime]
  simp only [defaultFlushConfig, ← ha, ← hl]
  -- the steps are wanted up to the next batch, unless that is out of reach or past
  grind

/-- The flush timer goes to sleep when everything it knows of is due. -/
theorem returnNever_iff (hmain : state.specialQueuingState = .main) :
    (buildToolheadFlushHandlerPlan estimatedPrintTime state defaultFlushConfig
      eventtime).returnNever = true ↔ state.printTime ≤ estimatedPrintTime + 1 ∧
      state.aggressiveStepGenTime ≤
        (stepGenProgress estimatedPrintTime state defaultFlushConfig).lastStepGenTime ∧
      state.needFlushTime + 1 / 4 ≤ (endProgress estimatedPrintTime state defaultFlushConfig
        (stepGenProgress estimatedPrintTime state defaultFlushConfig)).lastFlushTime := by
  have hbuffer : (1 < state.printTime - estimatedPrintTime) ↔
      ¬ state.printTime ≤ estimatedPrintTime + 1 := by
    rw [not_le, lt_sub_iff_add_lt']
  rw [buildToolheadFlushHandlerPlan]
  dsimp only
  split_ifs with h1 h2 h3
  · simp [(hbuffer.mp h1.2)]
  · simp [not_le.mpr h2]
  · exact iff_of_true rfl ⟨not_not.mp fun h => h1 ⟨hmain, hbuffer.mpr h⟩, not_lt.mp h2, h3⟩
  · exact iff_of_false (by simp) fun h => h3 h.2.2

/-- The steps end before the activity noted with them, so they do not matter for its
flush. -/
theorem activity_reached_iff (hkin : 0 ≤ state.kinFlushDelay)
    (hneed : state.needStepGenTime ≤ state.needFlushTime) (estimatedPrintTime : K) :
    state.needFlushTime + 1 / 4 ≤ max (stepGenProgress estimatedPrintTime state
        defaultFlushConfig).lastFlushTime (estimatedPrintTime + 2 / 5) ↔
      state.needFlushTime + 1 / 4 ≤ max state.lastFlushTime (estimatedPrintTime + 2 / 5) := by
  constructor
  · intro h
    have hle : (stepGenProgress estimatedPrintTime state defaultFlushConfig).lastFlushTime ≤
        max state.lastFlushTime (state.aggressiveStepGenTime - 1 / 20) :=
      stepGenProgress_within.last_le
    have hsteps : ¬ state.needFlushTime + 1 / 4 ≤ state.aggressiveStepGenTime - 1 / 20 := by
      rw [ToolheadFlushHandlerState.aggressiveStepGenTime]
      linarith
    have hmax := h.trans (max_le_max_right _ hle)
    simpa only [le_max_iff, hsteps, or_false] using hmax
  · intro h
    exact h.trans (max_le_max_right _ le_stepGenProgress)

theorem plan_never_iff (hmain : state.specialQueuingState = .main)
    (hkin : 0 ≤ state.kinFlushDelay) (hneed : state.needStepGenTime ≤ state.needFlushTime) :
    (buildToolheadFlushHandlerPlan estimatedPrintTime state defaultFlushConfig
      eventtime).returnNever = true ↔ state.Due estimatedPrintTime := by
  have hactivity := activity_reached_iff hkin hneed estimatedPrintTime
  have hend := (endProgress_reached_iff defaultFlushConfig).trans hactivity
  rw [returnNever_iff hmain, stepGenProgress_reached_iff]
  constructor
  · rintro ⟨hbuffer, hsteps, hflush⟩
    exact ⟨hbuffer, hsteps, hend.mp hflush⟩
  · intro h
    exact ⟨h.buffer, h.steps, hend.mpr h.activity⟩

include hplan

/-- A plan that puts the timer to sleep reaches the end of the known activity. -/
theorem plan_never_reached (h : plan.returnNever) :
    ∃ t, (t = state.lastFlushTime ∨ t ∈ plan.advanceFlushTimes) ∧
      state.needFlushTime + config.bgFlushExtraTime ≤ t := by
  obtain ⟨htimes, hend⟩ := plan_never hplan h
  rw [htimes]
  exact ⟨_, (endProgress_within stepGenProgress_within).reached, hend⟩

/-- And it does not flush beyond it. -/
theorem advanceFlushTimes_le (h : plan.returnNever) : ∀ t ∈ plan.advanceFlushTimes,
    t ≤ max (max state.lastFlushTime (state.aggressiveStepGenTime - config.stepcompressFlushTime))
      (state.needFlushTime + config.bgFlushExtraTime) := by
  intro t ht
  rw [(plan_never hplan h).1] at ht
  refine ((endProgress_within stepGenProgress_within).times_le t ht).trans ?_
  exact max_le_max_left _ (min_le_right _ _)

end Motion
