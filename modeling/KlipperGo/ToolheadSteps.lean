/-
What the operations of the toolhead do.

One lemma for each operation, in terms of the timing state, so that the results
about runs need not unfold the operations.
-/
import KlipperGo.Returns
import KlipperGo.Toolhead

open ExactArith Outcome List

namespace Motion

variable {K : Type*}

/-! ### Operations on the timing state -/

/-- The operation leads from `th` to `th'` and changes only the timing state, to
`t`; on the way the step generators are called with the times `ts`. -/
structure Retimed (th : Toolhead K) (t : ToolheadTimingState K) (ts : List K)
    (th' : Toolhead K) : Prop where
  core_eq : th'.core = th.core.applyTimingState t
  lookahead_eq : th'.lookahead = th.lookahead
  sleeping_eq : th'.sleeping = th.sleeping
  batches_eq : th'.batches = th.batches
  stepGenTimes_eq : th'.stepGenTimes = th.stepGenTimes ++ ts

section

variable {th th₁ th₂ : Toolhead K} {t t₁ t₂ : ToolheadTimingState K} {ts ts₁ ts₂ : List K}

theorem Retimed.timing_eq (h : Retimed th t ts th₁) : th₁.core.timingState = t := by
  rw [h.core_eq]
  rfl

theorem Retimed.special_eq (h : Retimed th t ts th₁) :
    th₁.core.specialQueuingState = th.core.specialQueuingState := by
  rw [h.core_eq]
  rfl

theorem Retimed.refl (th : Toolhead K) : Retimed th th.core.timingState [] th :=
  ⟨rfl, rfl, rfl, rfl, (append_nil _).symm⟩

theorem Retimed.trans (h : Retimed th t₁ ts₁ th₁) (h' : Retimed th₁ t₂ ts₂ th₂) :
    Retimed th t₂ (ts₁ ++ ts₂) th₂ where
  core_eq := by rw [h'.core_eq, h.core_eq]; rfl
  lookahead_eq := h'.lookahead_eq.trans h.lookahead_eq
  sleeping_eq := h'.sleeping_eq.trans h.sleeping_eq
  batches_eq := h'.batches_eq.trans h.batches_eq
  stepGenTimes_eq := by rw [h'.stepGenTimes_eq, h.stepGenTimes_eq, append_assoc]

variable [LinearOrder K]

/-- Activity has been noted: nothing has been forgotten, and the step-generation
time is still covered by the needed flush time. -/
structure Noting (t t' : ToolheadTimingState K) : Prop where
  fields : ∃ need gen kick, t' =
    { t with needFlushTime := need, stepGenTime := gen, doKickFlushTimer := kick }
  need_le : t.needFlushTime ≤ t'.needFlushTime
  gen_le : t.stepGenTime ≤ t'.stepGenTime
  gen_le_need : t.stepGenTime ≤ t.needFlushTime → t'.stepGenTime ≤ t'.needFlushTime

theorem Noting.refl (t : ToolheadTimingState K) : Noting t t :=
  ⟨⟨_, _, _, rfl⟩, le_rfl, le_rfl, fun h => h⟩

theorem Noting.trans (h : Noting t t₁) (h' : Noting t₁ t₂) : Noting t t₂ where
  fields := by
    obtain ⟨_, _, _, rfl⟩ := h.fields
    obtain ⟨_, _, _, rfl⟩ := h'.fields
    exact ⟨_, _, _, rfl⟩
  need_le := h.need_le.trans h'.need_le
  gen_le := h.gen_le.trans h'.gen_le
  gen_le_need hle := h'.gen_le_need (h.gen_le_need hle)

/-- The times that notes leave alone. -/
theorem Noting.same (h : Noting t t₁) : t₁.printTime = t.printTime ∧
    t₁.lastFlushTime = t.lastFlushTime ∧ t₁.lastStepGenTime = t.lastStepGenTime ∧
    t₁.kinFlushDelay = t.kinFlushDelay := by
  obtain ⟨_, _, _, rfl⟩ := h.fields
  exact ⟨rfl, rfl, rfl, rfl⟩

theorem noting_noteMovequeueActivity (t : ToolheadTimingState K) (a : Activity K) :
    Noting t (t.noteMovequeueActivity a).1 where
  fields := ⟨_, _, _, rfl⟩
  need_le := le_max_left _ _
  gen_le := by
    show t.stepGenTime ≤ if a.setStepGenTime then _ else _
    split
    · exact le_max_left _ _
    · exact le_rfl
  gen_le_need h := by
    show (if a.setStepGenTime then _ else _) ≤ max t.needFlushTime a.mqTime
    split
    · exact max_le_max_right _ h
    · exact h.trans (le_max_left _ _)

variable [Field K]

theorem Noting.timed (h : Noting t t₁) (ht : t.Timed) : t₁.Timed := by
  have hneed := h.gen_le_need ht.stepGen_le_need
  obtain ⟨_, _, _, rfl⟩ := h.fields
  exact { ht with stepGen_le_need := hneed }

omit [LinearOrder K] in
theorem kick_retimed {out : Toolhead K} (h : Retimed th t ts out) (kicked : Bool) :
    Retimed th t ts (out.kick kicked) := by
  rw [Toolhead.kick]
  split
  · exact { h with }
  · exact h

section

variable (th : Toolhead K)

theorem noteMcu_retimed (a : Activity K) :
    Retimed th (th.core.timingState.noteMovequeueActivity a).1 []
      (th.noteMcuMovequeueActivity a) := by
  refine kick_retimed ?_ _
  exact ⟨rfl, rfl, rfl, rfl, (append_nil _).symm⟩

theorem noteAll_retimed (activities : List (Activity K)) :
    ∃ t, Noting th.core.timingState t ∧ Retimed th t [] (th.noteAll activities) := by
  induction activities generalizing th with
  | nil => exact ⟨_, Noting.refl _, Retimed.refl th⟩
  | cons a as ih =>
    have hnote := noteMcu_retimed th a
    obtain ⟨t, hnoting, ht⟩ := ih (th.noteMcuMovequeueActivity a)
    rw [hnote.timing_eq] at hnoting
    exact ⟨t, (noting_noteMovequeueActivity _ a).trans hnoting, hnote.trans ht⟩

theorem advanced_retimed (f : ToolheadTimingState K → ToolheadTimingState K × FlushTrace K) :
    Retimed th (f th.core.timingState).1 (f th.core.timingState).2.stepGenTimes
      (th.advanced (th.core.onCopy f)) := by
  refine kick_retimed ?_ _
  exact ⟨onCopy_core _ _, rfl, rfl, rfl, rfl⟩

theorem advanceFlushTime_retimed (env : Env K) (flushTime : K) :
    Retimed th (th.core.timingState.flushedTo flushTime defaultTimingConfig)
      (th.core.timingState.advanceFlushTime flushTime defaultTimingConfig
        env.actions).2.stepGenTimes (th.advanceFlushTime env flushTime) :=
  advanced_retimed th fun state =>
    state.advanceFlushTime flushTime defaultTimingConfig env.actions

theorem calcPrintTime_retimed (env : Env K) :
    Retimed th (th.core.timingState.calcPrintTime defaultTimingConfig env.source) []
      (th.calcPrintTime env) :=
  ⟨rfl, rfl, rfl, rfl, (append_nil _).symm⟩

end

theorem advanceMoveTime_retimed [FloorRing K] [IsStrictOrderedRing K] (th : Toolhead K)
    (env : Env K) (nextPrintTime : K) :
    ∃ ts, Ordered (th.core.timingState.movedTo nextPrintTime defaultTimingConfig)
        defaultTimingConfig ts ∧
      Retimed th (th.core.timingState.movedTo nextPrintTime defaultTimingConfig) ts
        (th.advanceMoveTime env nextPrintTime) := by
  have hretimed := advanced_retimed th fun state =>
    state.advanceMoveTime nextPrintTime defaultTimingConfig env.actions
  have hordered := advanceMoveTime_ordered th.core.timingState defaultTimingConfig nextPrintTime
    env.actions
  rw [advanceMoveTime_fst defaultTimingConfig_moveBatchTime_pos] at hretimed hordered
  exact ⟨_, hordered, hretimed⟩

end

variable [Field K] [LinearOrder K]

/-! ### Batches -/

/-- The end of the last move of a batch that starts at the given time. -/
def batchEnd : K → List (Move K) → K
  | nextMoveTime, [] => nextMoveTime
  | nextMoveTime, move :: moves =>
    batchEnd (nextMoveTime + (move.accelT + move.cruiseT + move.decelT)) moves

/-- The timing state in which a batch is appended: in a special queuing state the
print time is computed anew. -/
def Toolhead.batchTiming (th : Toolhead K) (env : Env K) : ToolheadTimingState K :=
  if th.core.specialQueuingState = .main then th.core.timingState
  else th.core.timingState.calcPrintTime defaultTimingConfig env.source

/-- The batch `moves` has been processed in `th`, which led to `th'`. -/
structure BatchDone (th : Toolhead K) (env : Env K) (moves : List (Move K))
    (th' : Toolhead K) : Prop where
  special_eq : th'.core.specialQueuingState = .main
  sleeping_eq : th'.sleeping = th.sleeping
  batches_eq : th'.batches = th.batches ++
    [{ printTime := (th.batchTiming env).printTime, moves := moves
       kinFlushDelay := (th.batchTiming env).kinFlushDelay
       lastStepGenTime := (th.batchTiming env).lastStepGenTime }]
  timing_eq : ∃ t ts, Noting (th.batchTiming env) t ∧
    batchEnd (th.batchTiming env).printTime moves + t.kinFlushDelay ≤ t.needFlushTime ∧
    th'.core.timingState =
      t.movedTo (batchEnd (th.batchTiming env).printTime moves) defaultTimingConfig ∧
    Ordered th'.core.timingState defaultTimingConfig ts ∧
    th'.stepGenTimes = th.stepGenTimes ++ ts

section

variable {th : Toolhead K} {env : Env K}

theorem queueMoveBatch_spec (th : Toolhead K) (start : K) (moves : List (Move K)) :
    (th.queueMoveBatch start moves).2 = batchEnd start moves ∧
    ∃ t, Noting th.core.timingState t ∧ Retimed th t [] (th.queueMoveBatch start moves).1 := by
  induction moves generalizing th start with
  | nil => exact ⟨rfl, _, Noting.refl _, Retimed.refl th⟩
  | cons m ms ih =>
    obtain ⟨t₁, hnoting₁, h₁⟩ := noteAll_retimed th
      (m.timingCallbacks.flatMap fun cb => cb (start + (m.accelT + m.cruiseT + m.decelT)))
    obtain ⟨hend, t₂, hnoting₂, h₂⟩ := ih (th.noteAll _) (start + (m.accelT + m.cruiseT + m.decelT))
    rw [h₁.timing_eq] at hnoting₂
    exact ⟨hend, t₂, hnoting₁.trans hnoting₂, h₁.trans h₂⟩

/-- What precedes the batch: the queuing state is left, the print time computed. -/
theorem enterMain_spec (env : Env K) (h : th.core.specialQueuingState ≠ .drip) :
    (th.enterMain env).core.specialQueuingState = .main ∧
    (th.enterMain env).core.timingState = th.batchTiming env ∧
    (th.enterMain env).sleeping = th.sleeping ∧ (th.enterMain env).batches = th.batches ∧
    (th.enterMain env).stepGenTimes = th.stepGenTimes := by
  rw [Toolhead.enterMain, Toolhead.batchTiming]
  by_cases hmain : th.core.specialQueuingState = .main
  · rw [if_pos hmain, if_pos hmain]
    exact ⟨hmain, rfl, rfl, rfl, rfl⟩
  · rw [if_neg hmain, if_neg hmain, if_neg h]
    exact ⟨rfl, rfl, rfl, rfl, rfl⟩

variable [FloorRing K] [IsStrictOrderedRing K]

/-- The end of a batch: its activity is noted and the print time moved. -/
theorem finishBatch_spec (th : Toolhead K) (env : Env K) (nextMoveTime : K) :
    ∃ t ts, Noting th.core.timingState t ∧ nextMoveTime + t.kinFlushDelay ≤ t.needFlushTime ∧
      Ordered (t.movedTo nextMoveTime defaultTimingConfig) defaultTimingConfig ts ∧
      Retimed th (t.movedTo nextMoveTime defaultTimingConfig) ts
        (th.finishBatch env nextMoveTime) := by
  have hnote := noteMcu_retimed th
    { mqTime := nextMoveTime + th.core.kinFlushDelay, setStepGenTime := true }
  obtain ⟨ts, hordered, hmove⟩ := advanceMoveTime_retimed
    (th.noteMcuMovequeueActivity
      { mqTime := nextMoveTime + th.core.kinFlushDelay, setStepGenTime := true }) env nextMoveTime
  rw [hnote.timing_eq] at hordered hmove
  exact ⟨_, ts, noting_noteMovequeueActivity _ _, le_max_right _ _, hordered, hnote.trans hmove⟩

/-- Outside drip mode a batch is always processed. -/
theorem processMoves_done (th : Toolhead K) (h : th.core.specialQueuingState ≠ .drip)
    (moves : List (Move K)) : Returns (th.processMoves env moves) (BatchDone th env moves) := by
  -- the three parts of `Process_moves`: enter the main state, queue the moves, move the time
  obtain ⟨hmain, htiming, hsleep, hbatch, hgen⟩ := enterMain_spec env h
  set th₁ := (th.enterMain env).logBatch moves with hth₁
  have htiming₁ : th₁.core.timingState = th.batchTiming env := htiming
  have hprint : th₁.core.printTime = (th.batchTiming env).printTime :=
    congrArg ToolheadTimingState.printTime htiming₁
  obtain ⟨hend, t, hnoting, hqueue⟩ := queueMoveBatch_spec th₁ th₁.core.printTime moves
  set out := th₁.queueMoveBatch th₁.core.printTime moves with hout
  obtain ⟨t', ts, hnoting', hneed, hordered, hfinish⟩ := finishBatch_spec out.1 env out.2
  rw [htiming₁] at hnoting
  rw [hqueue.timing_eq] at hnoting'
  rw [hend, hprint] at hneed hordered hfinish
  have hall := hqueue.trans hfinish
  -- the drip branch is not taken
  have hdrip : out.1.dripBatch env out.2 = .ok out.1 := if_pos (hqueue.special_eq.trans hmain)
  rw [Toolhead.processMoves, ← hth₁, ← hout, hdrip]
  refine returns_ok ?_
  rw [hend, hprint]
  refine ⟨hall.special_eq.trans hmain, hall.sleeping_eq.trans hsleep, ?_, t', ts,
    hnoting.trans hnoting', hneed, hall.timing_eq, hall.timing_eq ▸ hordered, ?_⟩
  · rw [hall.batches_eq, ← htiming, ← hbatch]
    rfl
  · rw [hall.stepGenTimes_eq, nil_append]
    exact congrArg (· ++ ts) hgen

end

/-! ### Flushing the look-ahead queue -/

/-- The state that `_flush_lookahead` starts from. -/
def Toolhead.reset (th : Toolhead K) : Toolhead K :=
  { th with core := th.core.resetAfterLookaheadFlush (buildToolheadFlushReset bufferTimeHigh) }

/-- So its batch gets a print time computed anew. -/
theorem reset_batchTiming (th : Toolhead K) (env : Env K) : th.reset.batchTiming env
    = th.core.timingState.calcPrintTime defaultTimingConfig env.source :=
  if_neg (show SpecialQueuingState.needPrime ≠ .main by decide)

/-- The queue after `_flush_lookahead`. -/
def flushedLookahead : LookAheadQueue K := newMoveQueue.setFlushTime bufferTimeHigh

section

variable [FloorRing K] [IsStrictOrderedRing K] [HasSqrt K] {th : Toolhead K} {env : Env K}

/-- A flush of the queue releases nothing, or a batch. -/
theorem flushQueue_spec (th : Toolhead K) (h : th.core.specialQueuingState ≠ .drip) (env : Env K)
    (lazy : Bool) :
    Returns (th.flushQueue env lazy) fun th' =>
      th'.lookahead = (th.lookahead.flush lazy).1 ∧
      ((th.lookahead.flush lazy).2 = [] ∧
          th' = { th with lookahead := (th.lookahead.flush lazy).1 } ∨
        (th.lookahead.flush lazy).2 ≠ [] ∧ BatchDone th env (th.lookahead.flush lazy).2 th') := by
  rw [Toolhead.flushQueue]
  cases hout : (th.lookahead.flush lazy).2 with
  | nil => exact returns_ok ⟨rfl, .inl ⟨rfl, rfl⟩⟩
  | cons m ms =>
    -- the callback runs before the queue is cut, but does not look at it
    refine (processMoves_done { th with
      lookahead := th.lookahead.setFlushTime lookaheadFlushTime } h (m :: ms)).bind ?_
    intro th' hdone
    exact returns_ok ⟨rfl, .inr ⟨by simp, { hdone with }⟩⟩

omit [FloorRing K] [IsStrictOrderedRing K] in
theorem plan_eq_nil_iff (l : List (Move K)) : plan l = [] ↔ l = [] := by
  cases l <;> simp [plan, nodes, forwardPass]

omit [IsStrictOrderedRing K] in
/-- On an empty queue `_flush_lookahead` only resets the queuing state. -/
theorem flushLookahead_empty (hq : th.lookahead.queue = []) :
    th.flushLookahead env = .ok { th.reset with lookahead := flushedLookahead } := by
  have hout : th.lookahead.flush false = (newMoveQueue, []) := by
    rw [flush_full, hq]
    rfl
  rw [Toolhead.flushLookahead, Toolhead.flushQueue]
  rw [hout]
  rfl

/-- On a queue with moves it processes them, and so leaves the state it has just
entered. -/
theorem flushLookahead_batch (hq : th.lookahead.queue ≠ []) :
    Returns (th.flushLookahead env) fun th' =>
      th'.lookahead = flushedLookahead ∧ BatchDone th.reset env (plan th.lookahead.queue) th' := by
  have hspec := flushQueue_spec th.reset (by simp [Toolhead.reset,
    ToolheadCoreState.resetAfterLookaheadFlush, buildToolheadFlushReset]) env false
  have hout : th.reset.lookahead.flush false = (newMoveQueue, plan th.lookahead.queue) :=
    flush_full _
  rw [hout] at hspec
  refine hspec.bind ?_
  rintro th' ⟨hlook, ⟨hnil, -⟩ | ⟨-, hdone⟩⟩
  · exact absurd ((plan_eq_nil_iff _).mp hnil) hq
  · refine returns_ok ⟨?_, hdone.special_eq, hdone.sleeping_eq, hdone.batches_eq,
      hdone.timing_eq⟩
    rw [hlook]
    rfl

end

/-! ### Relations that the operations keep -/

omit [Field K] [LinearOrder K] in
/-- A property of the states an operation leaves, for operations in sequence: the
second one is not reached if the first one panics. -/
theorem state_bind {P : Toolhead K → Prop} {x : ToolheadM K (Toolhead K)}
    {f : Toolhead K → ToolheadM K (Toolhead K)} (hx : P (ToolheadM.state x))
    (hf : ∀ a, P a → P (ToolheadM.state (f a))) : P (ToolheadM.state (x >>= f)) := by
  rcases x with ⟨panic, a⟩ | a
  · exact hx
  · exact hf a hx

/-- A relation between the states before and after an operation that holds of each
part of the processing of a batch. -/
structure KeptByBatches [FloorRing K] (env : Env K) (R : Toolhead K → Toolhead K → Prop) :
    Prop where
  refl : ∀ th, R th th
  trans : ∀ {th th₁ th₂}, R th th₁ → R th₁ th₂ → R th th₂
  noteMcu : ∀ th activity, R th (th.noteMcuMovequeueActivity activity)
  calcPrintTime : ∀ th, R th (th.calcPrintTime env)
  advanceMoveTime : ∀ th nextPrintTime, R th (th.advanceMoveTime env nextPrintTime)
  logBatch : ∀ th moves, R th (th.logBatch moves)
  leaveSpecial : ∀ th, R th { th with
    core := { th.core with specialQueuingState := .main, needCheckPause := -1 } }

/-- Such a relation that also holds of the other parts of a move and of the flushes. -/
structure KeptByMoves [FloorRing K] (env : Env K) (R : Toolhead K → Toolhead K → Prop) : Prop
    extends KeptByBatches env R where
  lookahead : ∀ th lookahead, R th { th with lookahead := lookahead }
  resetAfterFlush : ∀ th reset, R th { th with core := th.core.resetAfterLookaheadFlush reset }
  advanceFlushTime : ∀ th flushTime, R th (th.advanceFlushTime env flushTime)
  restartAfter : ∀ th time, R th { th with
    core := { th.core with minRestartTime := max th.core.minRestartTime time } }
  commandedPos : ∀ th pos, R th { th with core := { th.core with commandedPos := pos } }
  checkPause : ∀ th, R th (th.checkPause env)

/-- Such a relation that also holds of what the timers and a shutdown do. -/
structure KeptBySteps [FloorRing K] (env : Env K) (R : Toolhead K → Toolhead K → Prop) : Prop
    extends KeptByMoves env R where
  primingTimer : ∀ th waketime, R th { th with primingTimer := waketime }
  flushTimer : ∀ th waketime, R th { th with flushTimer := waketime }
  checkStallTime : ∀ th time, R th { th with core := { th.core with checkStallTime := time } }
  kickFlushTimer : ∀ th, R th { th with core := { th.core with doKickFlushTimer := true } }
  handleShutdown : ∀ th, R th th.handleShutdown

variable [FloorRing K] {env : Env K} {R : Toolhead K → Toolhead K → Prop} {th : Toolhead K}

namespace KeptByBatches

variable (h : KeptByBatches env R)
include h

theorem bind {x : ToolheadM K (Toolhead K)} {f : Toolhead K → ToolheadM K (Toolhead K)}
    (hx : R th (ToolheadM.state x)) (hf : ∀ a, R a (ToolheadM.state (f a))) :
    R th (ToolheadM.state (x >>= f)) :=
  state_bind hx fun a ha => h.trans ha (hf a)

variable (th : Toolhead K)

theorem noteAll (activities : List (Activity K)) : R th (th.noteAll activities) := by
  induction activities generalizing th with
  | nil => exact h.refl th
  | cons a as ih => exact h.trans (h.noteMcu th a) (ih _)

theorem queueMoveBatch (start : K) (moves : List (Move K)) :
    R th (th.queueMoveBatch start moves).1 := by
  induction moves generalizing th start with
  | nil => exact h.refl th
  | cons m ms ih => exact h.trans (h.noteAll th _) (ih _ _)

theorem enterMain : R th (th.enterMain env) := by
  rw [Toolhead.enterMain]
  split
  · exact h.refl th
  · refine h.trans ?_ (h.calcPrintTime _)
    split
    · exact h.refl th
    · exact h.leaveSpecial th

/-- Also of the segments of a drip move, however the drip ends. -/
theorem updateToolheadDripTime (nextPrintTime flushDelay : K) (config : ToolheadDripConfig K)
    (polls : List (DripPoll K)) (th : Toolhead K) :
    R th (ToolheadM.state
      (Toolhead.updateToolheadDripTime env nextPrintTime flushDelay config polls th)) := by
  induction polls generalizing th with
  | nil =>
    rw [Toolhead.updateToolheadDripTime]
    split <;> exact h.refl th
  | cons poll polls ih =>
    rw [Toolhead.updateToolheadDripTime]
    split
    · split
      · exact h.refl th
      · dsimp only
        split
        · exact ih th
        · refine h.trans ?_ (ih _)
          exact h.trans (h.noteMcu th _) (h.advanceMoveTime _ _)
    · exact h.refl th

theorem processMoves (moves : List (Move K)) :
    R th (ToolheadM.state (th.processMoves env moves)) := by
  refine h.trans (h.trans (h.enterMain th) (h.logBatch _ moves)) ?_
  refine h.trans (h.queueMoveBatch _ ((th.enterMain env).logBatch moves).core.printTime moves) ?_
  refine h.bind ?_ fun a => ?_
  · rw [Toolhead.dripBatch]
    split
    · exact h.refl _
    · exact h.updateToolheadDripTime _ _ _ _ _
  · exact h.trans (h.noteMcu a _) (h.advanceMoveTime _ _)

end KeptByBatches

namespace KeptByMoves

variable [HasSqrt K] (h : KeptByMoves env R)
include h

variable (th : Toolhead K)

theorem flushQueue (lazy : Bool) : R th (ToolheadM.state (th.flushQueue env lazy)) := by
  rw [Toolhead.flushQueue]
  split
  · exact h.lookahead th _
  · refine h.bind ?_ fun a => h.lookahead a _
    exact h.trans (h.lookahead th _) (h.processMoves _ _)

theorem flushLookahead : R th (ToolheadM.state (th.flushLookahead env)) := by
  refine h.bind ?_ fun a => h.lookahead a _
  exact h.trans (h.resetAfterFlush th _) (h.flushQueue _ false)

theorem flushStepGeneration : R th (ToolheadM.state (th.flushStepGeneration env)) := by
  refine h.bind (h.flushLookahead th) fun a => ?_
  exact h.trans (h.advanceFlushTime a _) (h.restartAfter _ _)

theorem queueMove (move : Move K) : R th (ToolheadM.state (th.queueMove env move)) := by
  rw [Toolhead.queueMove]
  split
  · exact h.trans (h.lookahead th _) (h.flushQueue _ true)
  · exact h.lookahead th _

theorem move (newpos : Coord K) (speed : K) :
    R th (ToolheadM.state (th.move env newpos speed)) := by
  rw [Toolhead.move]
  split
  · exact h.refl th
  · split
    · exact h.refl th
    · refine h.bind (h.trans (h.commandedPos th _) (h.queueMove _ _)) fun a => ?_
      split
      · exact h.checkPause a
      · exact h.refl a

end KeptByMoves

namespace KeptBySteps

variable [HasSqrt K] (h : KeptBySteps env R)
include h

variable (th : Toolhead K)

theorem getLastMoveTime : R th (ToolheadM.state (th.getLastMoveTime env)) := by
  rw [Toolhead.getLastMoveTime]
  split
  · exact h.flushQueue th false
  · exact h.bind (h.flushLookahead th) fun a => h.calcPrintTime a

theorem dwell (delay : K) : R th (ToolheadM.state (th.dwell env delay)) := by
  refine h.bind (h.getLastMoveTime th) fun a => ?_
  exact h.trans (h.advanceMoveTime a _) (h.checkPause _)

theorem registerLookaheadCallback (callback : K → List (Activity K)) :
    R th (ToolheadM.state (th.registerLookaheadCallback env callback)) := by
  rw [Toolhead.registerLookaheadCallback]
  split
  · exact h.bind (h.getLastMoveTime th) fun a => h.noteAll a _
  · exact h.lookahead th _

theorem primingHandler : R th (ToolheadM.state (th.primingHandler env)) := by
  rw [Toolhead.primingHandler]
  split
  · refine h.bind ?_ fun a => h.checkStallTime a _
    exact h.trans (h.primingTimer th none) (h.flushLookahead _)
  · exact h.primingTimer th none

theorem flushForTimer (plan' : ToolheadFlushHandlerPlan K) :
    R th (ToolheadM.state (th.flushForTimer env plan')) := by
  rw [Toolhead.flushForTimer]
  split
  · refine h.bind (h.flushLookahead th) fun a => ?_
    split
    · exact h.checkStallTime a _
    · exact h.refl a
  · exact h.refl th

omit [HasSqrt K] in
theorem finishFlushPlan (plan' : ToolheadFlushHandlerPlan K) :
    R th (th.finishFlushPlan env plan').1 := by
  have hall : ∀ (times : List K) (th : Toolhead K),
      R th (times.foldl (fun self t => self.advanceFlushTime env t) th) := by
    intro times
    induction times with
    | nil => exact h.refl
    | cons t times ih => exact fun th => h.trans (h.advanceFlushTime th t) (ih _)
  refine h.trans (hall plan'.advanceFlushTimes th) ?_
  rw [Toolhead.finishFlushPlan]
  split
  · exact h.kickFlushTimer _
  · exact h.refl _

theorem flushHandler (eventtime : K) :
    R th (ToolheadM.state (th.perform env (.flushTimer eventtime))) := by
  have hflush := h.flushForTimer th (th.flushPlan env eventtime)
  rw [Toolhead.perform, Toolhead.flushHandler]
  rcases hfirst : th.flushForTimer env (th.flushPlan env eventtime) with ⟨panic, a⟩ | a
  · rw [hfirst] at hflush
    exact hflush
  · rw [hfirst] at hflush
    have hplan := h.finishFlushPlan a (th.flushPlan env eventtime)
    exact h.trans hflush (h.trans hplan (h.flushTimer _ _))

/-- It holds of every operation, except the two that are not made of these parts: a change
of the scan delays, and the waking of a pause check. -/
theorem perform (op : ToolheadOp K)
    (hscan : ∀ delay oldDelay, op ≠ .noteStepGenerationScanTime delay oldDelay)
    (hresume : ∀ i, op ≠ .resume i) : R th (ToolheadM.state (th.perform env op)) := by
  cases op with
  | move newpos speed => exact h.move th newpos speed
  | dwell delay => exact h.dwell th delay
  | getLastMoveTime => exact h.getLastMoveTime th
  | flushQueue lazy => exact h.flushQueue th lazy
  | flushLookahead => exact h.flushLookahead th
  | flushStepGeneration => exact h.flushStepGeneration th
  | noteStepGenerationScanTime delay oldDelay => exact absurd rfl (hscan delay oldDelay)
  | noteMcuMovequeueActivity activity => exact h.noteMcu th activity
  | registerLookaheadCallback callback => exact h.registerLookaheadCallback th callback
  | flushTimer eventtime => exact h.flushHandler th eventtime
  | primingTimer => exact h.primingHandler th
  | resume i => exact absurd rfl (hresume i)
  | handleShutdown => exact h.handleShutdown th

end KeptBySteps

end Motion
