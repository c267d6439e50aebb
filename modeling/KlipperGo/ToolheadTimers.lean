/-
Waiting for moves, and the background flush timer
(`internal/pkg/motion/toolhead_move_runtime.go`, `toolhead_timer_runtime.go`).

Both flush the look-ahead queue and then rely on the queuing state or on a
snapshot of the timing state.  A queue with moves in it ends the special queuing
state that `_flush_lookahead` has just entered, and notes activity that the
snapshot does not know of.
-/
import KlipperGo.ToolheadSteps

open ExactArith Outcome List

namespace Motion

variable {K : Type*} [Field K] [LinearOrder K]

/-- A quiet machine: its clock shows `now`, time and print time agree, the
callbacks note nothing and every move is allowed. -/
def quietEnv (now : K) : Env K where
  source := { monotonic := now, estimatedPrintTime := fun eventtime => eventtime }
  actions := { stepGenerators := [], finalizeMoves := fun _ _ => []
               updateExtruderMoveTime := fun _ _ => [], flushDrivers := [] }
  dripPolls := []
  checkKinematicMove := .ok
  checkExtruderMove := fun move => (move, none)
  extruder := none

def unitSettings : ToolheadVelocitySettings K where
  maxVelocity := 1
  maxAccel := 1
  requestedAccelToDecel := 1
  squareCornerVelocity := 0

/-! ### Waiting for moves -/

section Defs

variable [FloorRing K] [HasSqrt K]

/-- `Toolhead.Wait_moves`, that is `HandleToolheadWaitMoves`.  `pause` is the
reactor's: a sleep until the given time ends at `pause` of it.  The result is
the state and the time of the return, if there is one within `fuel` tests of the
loop. -/
def Toolhead.waitMoves (self : Toolhead K) (env : Env K) (pause : K → K) (fuel : ℕ) :
    ToolheadM K (Toolhead K × Option K) := do
  let self ← self.flushLookahead env
  .ok (self, waitToolheadMoves self.core.waitMovesState { env.source with pause := pause }
    defaultPauseConfig fuel)

end Defs

theorem BatchDone.canPause_eq {th th' : Toolhead K} {env : Env K} {moves : List (Move K)}
    (h : BatchDone th env moves th') : th'.core.canPause = th.core.canPause := by
  obtain ⟨t, _, hnoting, _, htiming, _⟩ := h.timing_eq
  obtain ⟨_, _, _, rfl⟩ := hnoting.fields
  have hpause : th'.core.canPause = (th.batchTiming env).canPause :=
    (congrArg (·.canPause) htiming :)
  rw [hpause, Toolhead.batchTiming]
  split
  · rfl
  · rw [calcPrintTime_eq]
    rfl

section

variable [FloorRing K] [IsStrictOrderedRing K] [HasSqrt K]

/-- After `_flush_lookahead` the queuing state is a special one only if there was
nothing to flush. -/
theorem flushLookahead_special (th : Toolhead K) (env : Env K) :
    Returns (th.flushLookahead env) fun th' =>
      (th'.core.specialQueuingState = .main ↔ th.lookahead.queue ≠ []) ∧
        th'.core.canPause = th.core.canPause := by
  by_cases hq : th.lookahead.queue = []
  · rw [flushLookahead_empty hq]
    refine returns_ok ⟨?_, rfl⟩
    simp [hq, Toolhead.reset, ToolheadCoreState.resetAfterLookaheadFlush, buildToolheadFlushReset]
  · refine (flushLookahead_batch hq).mono ?_
    rintro th' ⟨-, hdone⟩
    exact ⟨iff_of_true hdone.special_eq hq, hdone.canPause_eq⟩

/-- The wait as a loop over the state that the flush leaves. -/
theorem waitMoves_eq (th : Toolhead K) (env : Env K) (pause : K → K) :
    ∃ th', (th'.core.specialQueuingState = .main ↔ th.lookahead.queue ≠ []) ∧
      th'.core.canPause = th.core.canPause ∧
      ∀ fuel, th.waitMoves env pause fuel = .ok (th', waitToolheadMoves th'.core.waitMovesState
        { env.source with pause := pause } defaultPauseConfig fuel) := by
  obtain ⟨th', hflush, hspecial, hpause⟩ := flushLookahead_special th env
  refine ⟨th', hspecial, hpause, fun fuel => ?_⟩
  rw [Toolhead.waitMoves, hflush]
  rfl

end

/-- **When waiting for moves ends.**  With a clock that goes on, `M400` returns,
and only once the print time has passed, exactly when the look-ahead queue is
empty or pausing is not allowed. -/
theorem waitMoves_returns_iff [FloorRing K] [IsStrictOrderedRing K] [HasSqrt K] (th : Toolhead K)
    (env : Env K) (pause : K → K)
    (hclock : PauseTimeSource.Unbounded { env.source with pause := pause } defaultPauseConfig) :
    (∃ fuel th' t, th.waitMoves env pause fuel = .ok (th', some t) ∧
      (th'.core.canPause = true → th'.core.printTime < env.source.estimatedPrintTime t)) ↔
    (th.lookahead.queue = [] ∨ th.core.canPause = false) := by
  obtain ⟨th', hspecial, hpause, hwait⟩ := waitMoves_eq th env pause
  have hloop := waitToolheadMoves_returns_iff th'.core.waitMovesState hclock
  have hqueue := (not_congr hspecial).trans not_not
  rw [← hqueue, ← hpause]
  refine Iff.trans ⟨?_, ?_⟩ hloop
  · rintro ⟨fuel, th₁, t, hret, hlate⟩
    rw [hwait] at hret
    injection hret with hret
    obtain ⟨rfl, ht⟩ := Prod.mk.inj hret
    exact ⟨fuel, t, ht, hlate⟩
  · rintro ⟨fuel, t, ht, hlate⟩
    exact ⟨fuel, th', t, by rw [hwait, ht], hlate⟩

/-- On the quiet machine a sleep takes as long as it is meant to. -/
theorem quietEnv_unbounded :
    PauseTimeSource.Unbounded { (quietEnv (0 : ℚ)).source with pause := id }
      defaultPauseConfig := by
  have hpauses : ∀ (n : ℕ) (t : ℚ), pauses { (quietEnv (0 : ℚ)).source with pause := id }
      defaultPauseConfig n t = t + n * (1 / 10) := by
    intro n
    induction n with
    | zero => intro t; simp [pauses]
    | succ n ih =>
      intro t
      rw [pauses, ih]
      show t + 1 / 10 + n * (1 / 10) = t + (n + 1 : ℕ) * (1 / 10)
      push_cast
      ring
  intro v
  obtain ⟨n, hn⟩ := exists_nat_gt (v * 10)
  refine ⟨n, ?_⟩
  rw [hpauses]
  show v < 0 + n * (1 / 10)
  linarith

theorem waitMoves_returns_iff_idle :
    ∃ fuel th' t, (newToolhead unitSettings true).waitMoves (quietEnv (0 : ℚ)) id fuel
        = .ok (th', some t) ∧
      (th'.core.canPause = true →
        th'.core.printTime < (quietEnv (0 : ℚ)).source.estimatedPrintTime t) :=
  (waitMoves_returns_iff _ _ _ quietEnv_unbounded).mpr (.inl rfl)

def firstMove : Toolhead ℚ :=
  (newToolhead unitSettings true).step
    { env := quietEnv 0, op := .move (fun i => if i = 0 then 1 else 0) 1 }

theorem waitMoves_never_returns : firstMove.core.specialQueuingState ≠ .drip ∧
      PauseTimeSource.Unbounded { (quietEnv (0 : ℚ)).source with pause := id }
        defaultPauseConfig ∧
      ∀ fuel th' t, firstMove.waitMoves (quietEnv 0) id fuel ≠ .ok (th', some t) := by
  refine ⟨by decide +kernel, quietEnv_unbounded, ?_⟩
  intro fuel th₁ t hret
  obtain ⟨th', hspecial, hpause, hwait⟩ := waitMoves_eq firstMove (quietEnv 0) id
  have hmain := hspecial.mpr (by decide +kernel)
  have hcan : th'.core.canPause = true := hpause.trans (by decide +kernel)
  rw [hwait, waitToolheadMoves, waitLoop_main hmain hcan] at hret
  injection hret with hret
  exact absurd (Prod.mk.inj hret).2 (by simp)

/-! ### The queuing state after a flush -/

/-- The queue is empty, the next move is to prime it, and the next pause check is due
at any print time. -/
def Toolhead.Idle (self : Toolhead K) : Prop :=
  self.lookahead.queue = [] ∧ self.core.specialQueuingState = .needPrime ∧
    self.core.needCheckPause = -1

section

variable [FloorRing K] [IsStrictOrderedRing K] [HasSqrt K]

/-- `_flush_lookahead` returns from every state, and leaves the toolhead idle exactly when
there was nothing to flush: the processing of a batch ends the state that was entered
before it. -/
theorem flushLookahead_idle_iff (th : Toolhead K) (env : Env K) :
    Returns (th.flushLookahead env) fun th' => th'.Idle ↔ th.lookahead.queue = [] := by
  by_cases hq : th.lookahead.queue = []
  · rw [flushLookahead_empty hq]
    exact returns_ok (iff_of_true ⟨rfl, rfl, rfl⟩ hq)
  · refine (flushLookahead_batch hq).mono ?_
    rintro th' ⟨-, hdone⟩
    refine iff_of_false ?_ hq
    rintro ⟨-, hprime, -⟩
    rw [hdone.special_eq] at hprime
    cases hprime

end

theorem newToolhead_idle :
    ∃ th', (newToolhead unitSettings true).flushLookahead (quietEnv (0 : ℚ)) = .ok th' ∧
      th'.Idle := by
  obtain ⟨th', hflush, hidle⟩ :=
    flushLookahead_idle_iff (newToolhead unitSettings true) (quietEnv (0 : ℚ))
  exact ⟨th', hflush, hidle.mpr rfl⟩

theorem firstMove_not_idle :
    ∃ th', firstMove.flushLookahead (quietEnv 0) = .ok th' ∧ th'.lookahead.queue = [] ∧
      th'.core.specialQueuingState = .main ∧ ¬ th'.Idle := by
  have hqueue : firstMove.lookahead.queue ≠ [] := by decide +kernel
  have hbatch : Returns (firstMove.flushLookahead (quietEnv 0)) _ := flushLookahead_batch hqueue
  obtain ⟨th', hflush, hlook, hdone⟩ := hbatch
  refine ⟨th', hflush, hlook ▸ rfl, hdone.special_eq, ?_⟩
  rintro ⟨-, hprime, -⟩
  rw [hdone.special_eq] at hprime
  cases hprime

/-! ### The flushes of a plan -/

/-- The timing state after flushes up to the given times. -/
def ToolheadTimingState.flushedAll (self : ToolheadTimingState K) (times : List K) :
    ToolheadTimingState K :=
  times.foldl (fun self t => self.flushedTo t defaultTimingConfig) self

section

variable {st : ToolheadTimingState K} {times : List K}

/-- The flushes change the flush and step-generation times only. -/
theorem flushedAll_fields (st : ToolheadTimingState K) (times : List K) :
    ∃ flush gen restart, st.flushedAll times =
      { st with lastFlushTime := flush, lastStepGenTime := gen, minRestartTime := restart } := by
  induction times generalizing st with
  | nil => exact ⟨_, _, _, rfl⟩
  | cons t times ih => exact ih (st.flushedTo t defaultTimingConfig)

theorem ToolheadTimingState.Timed.flushedAll (h : st.Timed) : (st.flushedAll times).Timed := by
  induction times generalizing st with
  | nil => exact h
  | cons t times ih => exact ih (h.flushedTo t)

/-- The last flush is the latest one. -/
theorem flushedAll_lastFlushTime (st : ToolheadTimingState K) (times : List K) :
    ((st.flushedAll times).lastFlushTime = st.lastFlushTime ∨
      (st.flushedAll times).lastFlushTime ∈ times) ∧
    st.lastFlushTime ≤ (st.flushedAll times).lastFlushTime ∧
    ∀ t ∈ times, t ≤ (st.flushedAll times).lastFlushTime := by
  induction times generalizing st with
  | nil => exact ⟨.inl rfl, le_rfl, by simp⟩
  | cons t times ih =>
    obtain ⟨hmem, hlast, htimes⟩ := ih (st.flushedTo t defaultTimingConfig)
    refine ⟨?_, (le_max_right _ _).trans hlast,
      forall_mem_cons.mpr ⟨(le_max_left _ _).trans hlast, htimes⟩⟩
    rcases hmem with heq | hmem
    · rcases max_choice t st.lastFlushTime with hc | hc
      · exact .inr (mem_cons.mpr (.inl (heq.trans hc)))
      · exact .inl (heq.trans hc)
    · exact .inr (mem_cons_of_mem t hmem)

theorem advanceAll_retimed [IsStrictOrderedRing K] (env : Env K) (times : List K)
    (th : Toolhead K) {ts : List K} (h : Ordered th.core.timingState defaultTimingConfig ts) :
    ∃ ts', Ordered (th.core.timingState.flushedAll times) defaultTimingConfig (ts ++ ts') ∧
      Retimed th (th.core.timingState.flushedAll times) ts'
        (times.foldl (fun self t => self.advanceFlushTime env t) th) := by
  induction times generalizing th ts with
  | nil =>
    refine ⟨[], ?_, Retimed.refl th⟩
    rw [append_nil]
    exact h
  | cons t times ih =>
    have hfirst := advanceFlushTime_retimed th env t
    have hordered := h.advanceFlushTime t env.actions
    rw [advanceFlushTime_fst, ← hfirst.timing_eq] at hordered
    obtain ⟨ts', hordered', hrest⟩ := ih (th.advanceFlushTime env t) hordered
    rw [hfirst.timing_eq] at hordered' hrest
    exact ⟨_, by rwa [← append_assoc], hfirst.trans hrest⟩

end

/-! ### The flush timer -/

/-- What the callback of the flush timer promises: the timer goes to sleep only
when everything noted has been flushed, and the extra time with it (otherwise the
wake time is a number, by its type), and the step generators have been called with
increasing times. -/
structure FlushedInTime (th : Toolhead K) (out : Toolhead K × WakeTime K) : Prop where
  flushed : out.2 = .never →
    out.1.core.needFlushTime + defaultFlushConfig.bgFlushExtraTime ≤ out.1.core.lastFlushTime
  ordered : ∃ ts, out.1.stepGenTimes = th.stepGenTimes ++ ts ∧ ts.Pairwise (· ≤ ·)

section

variable [IsStrictOrderedRing K] {th th' : Toolhead K} {ts : List K}

/-- The callback after its look-ahead flush, in terms of the plan. -/
theorem finishFlushPlan_spec (env : Env K) (plan : ToolheadFlushHandlerPlan K)
    (hgen : th'.stepGenTimes = th.stepGenTimes ++ ts)
    (h : Ordered th'.core.timingState defaultTimingConfig ts) :
    FlushedInTime th (th'.finishFlushPlan env plan) ↔ (plan.returnNever = true →
      th'.core.needFlushTime + defaultFlushConfig.bgFlushExtraTime ≤
        (th'.core.timingState.flushedAll plan.advanceFlushTimes).lastFlushTime) := by
  obtain ⟨ts', hordered, hall⟩ := advanceAll_retimed env plan.advanceFlushTimes th' h
  set th₁ := plan.advanceFlushTimes.foldl (fun self t => self.advanceFlushTime env t) th' with hth₁
  have hout : (th'.finishFlushPlan env plan).1.core.timingState.lastFlushTime
        = (th'.core.timingState.flushedAll plan.advanceFlushTimes).lastFlushTime ∧
      (th'.finishFlushPlan env plan).1.core.timingState.needFlushTime = th'.core.needFlushTime ∧
      (th'.finishFlushPlan env plan).1.stepGenTimes = th₁.stepGenTimes := by
    obtain ⟨_, _, _, hfields⟩ := flushedAll_fields th'.core.timingState plan.advanceFlushTimes
    rw [Toolhead.finishFlushPlan, ← hth₁, ← hall.timing_eq]
    have hneed := congrArg ToolheadTimingState.needFlushTime (hall.timing_eq.trans hfields)
    split <;> exact ⟨rfl, hneed, rfl⟩
  have hnever : (th'.finishFlushPlan env plan).2 = .never ↔ plan.returnNever = true := by
    rw [Toolhead.finishFlushPlan]
    split <;> simp_all
  constructor
  · intro hkept hret
    rw [← hout.1, ← hout.2.1]
    exact hkept.flushed (hnever.mpr hret)
  · intro hreach
    refine ⟨?_, ts ++ ts', ?_, hordered.sorted⟩
    · intro hret
      have hle := hreach (hnever.mp hret)
      rw [← hout.1, ← hout.2.1] at hle
      exact hle
    · rw [hout.2.2, hall.stepGenTimes_eq, hgen, append_assoc]

end

section

variable [FloorRing K] [IsStrictOrderedRing K] [HasSqrt K] {th : Toolhead K} {env : Env K}
  {eventtime : K}

/-- The look-ahead flush of the timer: none, one that only leaves the main queuing
state, or a batch. -/
theorem flushForTimer_spec (th : Toolhead K) (env : Env K) (plan' : ToolheadFlushHandlerPlan K) :
    Returns (th.flushForTimer env plan') fun th' =>
      plan'.shouldFlushLookahead = false ∧ th' = th ∨
      (plan'.shouldFlushLookahead = true ∧ th.lookahead.queue = [] ∧
        th' = { th.reset with lookahead := flushedLookahead }) ∨
      (plan'.shouldFlushLookahead = true ∧ th.lookahead.queue ≠ [] ∧
        th'.lookahead = flushedLookahead ∧
        BatchDone th.reset env (plan th.lookahead.queue) th') := by
  rw [Toolhead.flushForTimer]
  cases hflush : plan'.shouldFlushLookahead with
  | false => exact returns_ok (.inl ⟨rfl, rfl⟩)
  | true =>
    by_cases hq : th.lookahead.queue = []
    · rw [flushLookahead_empty hq]
      refine returns_ok (.inr (.inl ⟨rfl, hq, ?_⟩))
      exact if_neg (not_not.mpr rfl)
    · refine (flushLookahead_batch hq).bind ?_
      rintro th' ⟨hlook, hdone⟩
      refine returns_ok (.inr (.inr ⟨rfl, hq, ?_⟩))
      split
      · exact ⟨hlook, { hdone with }⟩
      · exact ⟨hlook, hdone⟩

/-- The callback in terms of the state that its look-ahead flush leaves. -/
theorem flushHandler_iff (th : Toolhead K) (env : Env K) (eventtime : K) :
    ∃ th', ((th'.core.timingState = th.core.timingState ∧
          ¬ ((th.flushPlan env eventtime).shouldFlushLookahead = true ∧
            th.lookahead.queue ≠ [])) ∨
        ((th.flushPlan env eventtime).shouldFlushLookahead = true ∧ th.lookahead.queue ≠ [] ∧
          BatchDone th.reset env (plan th.lookahead.queue) th')) ∧
      (Returns (th.flushHandler env eventtime) (FlushedInTime th) ↔
        ((th.flushPlan env eventtime).returnNever = true →
          th'.core.needFlushTime + defaultFlushConfig.bgFlushExtraTime ≤
            (th'.core.timingState.flushedAll
              (th.flushPlan env eventtime).advanceFlushTimes).lastFlushTime)) := by
  obtain ⟨th', hflush, hth'⟩ := flushForTimer_spec th env (th.flushPlan env eventtime)
  have hordered : ∃ ts, th'.stepGenTimes = th.stepGenTimes ++ ts ∧
      Ordered th'.core.timingState defaultTimingConfig ts := by
    rcases hth' with ⟨-, rfl⟩ | ⟨-, -, rfl⟩ | ⟨-, -, -, hdone⟩
    · exact ⟨[], (append_nil _).symm, Pairwise.nil, by simp⟩
    · exact ⟨[], (append_nil _).symm, Pairwise.nil, by simp⟩
    · obtain ⟨_, ts, _, _, _, hordered, hgen⟩ := hdone.timing_eq
      exact ⟨ts, hgen, hordered⟩
  obtain ⟨ts, hgen, hordered⟩ := hordered
  refine ⟨th', ?_, ?_⟩
  · rcases hth' with ⟨hno, rfl⟩ | ⟨-, hq, rfl⟩ | ⟨hyes, hq, -, hdone⟩
    · exact .inl ⟨rfl, by simp [hno]⟩
    · exact .inl ⟨rfl, by simp [hq]⟩
    · exact .inr ⟨hyes, hq, hdone⟩
  · rw [Toolhead.flushHandler, hflush]
    exact returns_ok_iff.trans (finishFlushPlan_spec env _ hgen hordered)

/-- If there are no moves to flush, the plan holds what it promises. -/
theorem flushHandler_idle (h : th.core.specialQueuingState ≠ .main ∨ th.lookahead.queue = []) :
    Returns (th.flushHandler env eventtime) (FlushedInTime th) := by
  obtain ⟨th', hth', hiff⟩ := flushHandler_iff th env eventtime
  have hsame : th'.core.timingState = th.core.timingState := by
    rcases hth' with ⟨hsame, -⟩ | ⟨hflush, hq, -⟩
    · exact hsame
    · exact absurd h (not_or.mpr ⟨not_not.mpr (plan_shouldFlush hflush), hq⟩)
  have hneed' : th'.core.needFlushTime = th.core.needFlushTime := congrArg (·.needFlushTime) hsame
  rw [hiff, hneed', hsame]
  intro hnever
  obtain ⟨t, ht, hneed⟩ := plan_never_reached rfl hnever
  obtain ⟨-, hlast, htimes⟩ := flushedAll_lastFlushTime th.core.timingState
    (th.flushPlan env eventtime).advanceFlushTimes
  refine hneed.trans ?_
  rcases ht with rfl | ht
  · exact hlast
  · exact htimes t ht

omit [FloorRing K] [HasSqrt K] in
/-- A batch ends no earlier than it starts. -/
theorem le_batchEnd (start : K) {moves : List (Move K)}
    (h : ∀ m ∈ moves, 0 ≤ m.accelT + m.cruiseT + m.decelT) : start ≤ batchEnd start moves := by
  induction moves generalizing start with
  | nil => exact le_rfl
  | cons m moves ih =>
    obtain ⟨hm, hmoves⟩ := forall_mem_cons.mp h
    exact (le_add_of_nonneg_right hm).trans (ih _ hmoves)

omit [FloorRing K] [HasSqrt K] in
/-- The times of a batch that `_flush_lookahead` has processed, `last` being the
end of its last move. -/
theorem resetBatch_times {th' : Toolhead K} {moves : List (Move K)}
    (hmoves : ∀ m ∈ moves, 0 ≤ m.accelT + m.cruiseT + m.decelT)
    (hdone : BatchDone th.reset env moves th') :
    ∃ last, env.source.estimatedPrintTime env.source.monotonic + 1 / 4 ≤ last ∧
      th.core.minRestartTime + th.core.kinFlushDelay ≤ last ∧
      last + th.core.kinFlushDelay ≤ th'.core.needFlushTime ∧
      th'.core.lastFlushTime
        ≤ max th.core.lastFlushTime (last - (th.core.kinFlushDelay + 1 / 20)) := by
  obtain ⟨t, ts, hnoting, hneed, htiming, -⟩ := hdone.timing_eq
  -- the batch starts where `calcPrintTime` puts it
  have hstart := (reset_batchTiming th env).trans (calcPrintTime_eq _ _ _)
  obtain ⟨hprint, hlast, -, hkin⟩ := hnoting.same
  rw [hstart] at hprint hlast hkin hneed htiming
  set start := max th.core.timingState.printTime
    (th.core.timingState.minPrintTime defaultTimingConfig env.source) with hstart'
  have hend : start ≤ batchEnd start moves := le_batchEnd _ hmoves
  refine ⟨batchEnd start moves, ?_, ?_, ?_, ?_⟩
  · exact ((le_max_left _ _).trans (le_max_right _ _)).trans hend
  · refine le_trans ?_ hend
    refine le_trans ?_ (le_max_right _ _)
    exact (add_le_add_left (le_max_right _ _) _).trans (le_max_right _ _)
  · rw [hkin] at hneed
    exact hneed.trans_eq (congrArg (·.needFlushTime) htiming).symm
  · have hflush := congrArg (·.lastFlushTime) htiming
    rw [movedTo_lastFlushTime, ToolheadTimingState.wantFlushTime, hprint, hlast, hkin,
      max_eq_right hend] at hflush
    exact hflush.le

/-- The batch flushed by a timer whose snapshot was due needs more than the
timer's plan gives. -/
theorem batch_unflushed {th' : Toolhead K} (hth : th.core.timingState.Timed)
    (hclock : env.source.estimatedPrintTime eventtime ≤
      env.source.estimatedPrintTime env.source.monotonic)
    (hmoves : ∀ m ∈ plan th.lookahead.queue, 0 ≤ m.accelT + m.cruiseT + m.decelT)
    (hmain : th.core.specialQueuingState = .main)
    (hdue : th.core.flushHandlerState.Due (env.source.estimatedPrintTime eventtime))
    (hdone : BatchDone th.reset env (plan th.lookahead.queue) th') :
    (th'.core.timingState.flushedAll (th.flushPlan env eventtime).advanceFlushTimes).lastFlushTime
      < th'.core.needFlushTime + 1 / 4 := by
  obtain ⟨last, hest, hrestart, hneed, hflush⟩ := resetBatch_times hmoves hdone
  have hkin : 0 ≤ th.core.kinFlushDelay := hth.kin_nonneg
  have hlast : th.core.lastFlushTime ≤ th.core.minRestartTime :=
    hth.flush_le_gen.trans hth.gen_le_restart
  have hsteps : th.core.stepGenTime ≤ th.core.needFlushTime := hth.stepGen_le_need
  -- everything noted before is due before the batch ends
  have hold : th.core.needFlushTime < last := by
    have hdue' : th.core.needFlushTime + 1 / 4 ≤ max th.core.lastFlushTime
        (env.source.estimatedPrintTime eventtime + 2 / 5) := hdue.activity
    rcases le_max_iff.mp hdue' with h | h <;> linarith
  rcases (flushedAll_lastFlushTime th'.core.timingState
    (th.flushPlan env eventtime).advanceFlushTimes).1 with heq | hmem
  · rw [heq]
    refine hflush.trans_lt (max_lt ?_ ?_) <;> linarith
  · have hnever : (th.flushPlan env eventtime).returnNever = true :=
      (plan_never_iff hmain hkin hsteps).mpr hdue
    refine (advanceFlushTimes_le rfl hnever _ hmem).trans_lt (max_lt (max_lt ?_ ?_) ?_)
    · show th.core.lastFlushTime < _
      linarith
    · show th.core.stepGenTime - 2 * th.core.kinFlushDelay - 1 / 20 < _
      linarith
    · show th.core.needFlushTime + 1 / 4 < _
      linarith

end

/-- **When the flush timer sleeps with no work left.**  Called with a clock that
does not run backwards, the callback keeps its promise exactly when there was
nothing to flush out of the look-ahead queue, or when the times noted before were
not yet due. -/
theorem flushHandler_sleeps_iff [FloorRing K] [IsStrictOrderedRing K] [HasSqrt K]
    (th : Toolhead K) (env : Env K) (eventtime : K) (hth : th.core.timingState.Timed)
    (hclock : env.source.estimatedPrintTime eventtime ≤
      env.source.estimatedPrintTime env.source.monotonic)
    (hmoves : ∀ m ∈ plan th.lookahead.queue, 0 ≤ m.accelT + m.cruiseT + m.decelT) :
    Returns (th.flushHandler env eventtime) (FlushedInTime th) ↔
      (th.core.specialQueuingState ≠ .main ∨ th.lookahead.queue = [] ∨
        ¬ th.core.flushHandlerState.Due (env.source.estimatedPrintTime eventtime)) := by
  by_cases hidle : th.core.specialQueuingState ≠ .main ∨ th.lookahead.queue = []
  · exact iff_of_true (flushHandler_idle hidle) (hidle.imp_right .inl)
  · obtain ⟨hmain, hq⟩ := not_or.mp hidle
    rw [not_not] at hmain
    have hnever : (th.flushPlan env eventtime).returnNever = true ↔
        th.core.flushHandlerState.Due (env.source.estimatedPrintTime eventtime) :=
      plan_never_iff hmain hth.kin_nonneg hth.stepGen_le_need
    obtain ⟨th', hth', hiff⟩ := flushHandler_iff th env eventtime
    rw [hiff]
    by_cases hdue : th.core.flushHandlerState.Due (env.source.estimatedPrintTime eventtime)
    · have hflush : (th.flushPlan env eventtime).shouldFlushLookahead = true := by
        rcases plan_main (env.source.estimatedPrintTime eventtime) eventtime
          th.core.flushHandlerState defaultFlushConfig hmain with ⟨hwait, -⟩ | ⟨-, hflush⟩
        · exact absurd hdue.buffer (not_le.mpr (lt_sub_iff_add_lt'.mp hwait))
        · exact hflush
      refine iff_of_false ?_ (by simp [hmain, hq, hdue])
      rcases hth' with ⟨-, hno⟩ | ⟨-, -, hdone⟩
      · exact absurd ⟨hflush, hq⟩ hno
      · intro hreach
        have hlt := batch_unflushed hth hclock hmoves hmain hdue hdone
        exact absurd (hreach (hnever.mpr hdue)) (not_le.mpr hlt)
    · exact iff_of_true (fun h => absurd (hnever.mp h) hdue) (.inr (.inr hdue))

/-- The first move is under way and a second one waits in the look-ahead queue. -/
def secondMove : Toolhead ℚ :=
  Runs.final Toolhead.step firstMove
    [{ env := quietEnv 0, op := .getLastMoveTime },
     { env := quietEnv 2, op := .move (fun i => if i = 0 then 2 else 0) 1 }]

theorem flushHandler_sleeps_iff_secondMove :
    Returns (secondMove.flushHandler (quietEnv 0) 0) (FlushedInTime secondMove) := by
  refine (flushHandler_sleeps_iff secondMove (quietEnv 0) 0 ?_ le_rfl (by decide +kernel)).mpr ?_
  · exact ⟨by decide +kernel, by decide +kernel, by decide +kernel, by decide +kernel⟩
  · exact .inr (.inr fun h => absurd h.buffer (by decide +kernel))

theorem flushHandler_sleeps_early :
    ¬ Returns (secondMove.flushHandler (quietEnv 3) 3) (FlushedInTime secondMove) := by
  rintro ⟨out, hout, hkept⟩
  have hrun : (secondMove.flushHandler (quietEnv 3) 3).toOption.any (fun out =>
      out.2 = .never ∧ out.1.core.lastFlushTime < out.1.core.needFlushTime + 1 / 4) = true := by
    decide +kernel
  rw [hout] at hrun
  obtain ⟨hnever, hlt⟩ := of_decide_eq_true hrun
  exact absurd (hkept.flushed hnever) (not_le.mpr hlt)

end Motion
