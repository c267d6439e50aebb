/-
Batches of moves and the steps already generated.

A batch may not start before the steps that the step generators have already
produced.  In the main queuing state the next batch starts at the print time, so
there the step generators have to stay behind it (`Behind`); in a special state
the print time is computed anew, past everything generated.

* `Scheduled` — the invariant that carries this through a run.
-/
import KlipperGo.ToolheadInterleaving

open ExactArith Outcome

namespace Motion

open Toolhead SpecialQueuingState

variable {K : Type*} [Field K] [LinearOrder K]

/-! ### Step generation stays behind the print time -/

/-- The steps generated so far end before the print time. -/
def ToolheadTimingState.Behind (st : ToolheadTimingState K) : Prop :=
  st.lastStepGenTime ≤ st.printTime - st.kinFlushDelay

section

variable {st st' : ToolheadTimingState K}

theorem Noting.behind (h : Noting st st') (hst : st.Behind) : st'.Behind := by
  obtain ⟨hprint, -, hgen, hkin⟩ := h.same
  rw [ToolheadTimingState.Behind, hprint, hgen, hkin]
  exact hst

variable [IsStrictOrderedRing K]

theorem ToolheadTimingState.Behind.withPrintTime (h : st.Behind) {printTime : K}
    (hle : st.printTime ≤ printTime) :
    ({ st with printTime := printTime } : ToolheadTimingState K).Behind :=
  h.trans (sub_le_sub_right hle _)

/-- A print time computed anew is past the steps. -/
theorem calcPrintTime_behind (h : st.Timed) (source : TimeSource K) :
    (st.calcPrintTime defaultTimingConfig source).Behind := by
  rw [calcPrintTime_eq]
  have hrestart : st.minRestartTime + st.kinFlushDelay
      ≤ max st.printTime (st.minPrintTime defaultTimingConfig source) := by
    refine le_trans ?_ (le_max_right _ _)
    exact (add_le_add_left (le_max_right _ _) _).trans (le_max_right _ _)
  exact h.gen_le_restart.trans (le_sub_iff_add_le.mpr hrestart)

/-- Moving the print time on flushes no further than the print time. -/
theorem ToolheadTimingState.Behind.movedTo (h : st.Behind) (ht : st.Timed) (nextPrintTime : K) :
    (st.movedTo nextPrintTime defaultTimingConfig).Behind := by
  have hle : st.printTime ≤ max st.printTime nextPrintTime := le_max_left _ _
  refine max_le ((min_le_right _ _).trans le_rfl) ?_
  -- neither the last flush nor the one wanted now is past the print time
  refine max_le (max_le ?_ ?_) ?_
  · exact ht.flush_le_gen.trans (h.withPrintTime hle)
  · refine sub_le_sub_left ?_ _
    have hstep : (0 : K) ≤ 1 / 20 := by norm_num
    exact le_add_of_nonneg_right hstep
  · exact ht.flush_le_gen.trans (h.withPrintTime hle)

end

/-! ### The invariant -/

/-- The batches so far were not too early, and the next one will not be. -/
structure Scheduled (th : Toolhead K) : Prop where
  timed : th.core.timingState.Timed
  not_drip : th.core.specialQueuingState ≠ .drip
  behind : th.core.specialQueuingState = .main → th.core.timingState.Behind
  batches : ∀ b ∈ th.batches, b.lastStepGenTime ≤ b.printTime - b.kinFlushDelay

section

variable {th th' : Toolhead K} {env : Env K}

theorem Scheduled.of_eq (h : Scheduled th) (htiming : th'.core.timingState = th.core.timingState)
    (hspecial : th'.core.specialQueuingState = th.core.specialQueuingState)
    (hbatches : th'.batches = th.batches) : Scheduled th' := by
  refine ⟨?_, ?_, ?_, ?_⟩
  · rw [htiming]
    exact h.timed
  · rw [hspecial]
    exact h.not_drip
  · rw [hspecial, htiming]
    exact h.behind
  · rw [hbatches]
    exact h.batches

theorem Scheduled.retimed {t : ToolheadTimingState K} {ts : List K} (h : Scheduled th)
    (hr : Retimed th t ts th') (ht : t.Timed)
    (hb : th.core.specialQueuingState = .main → t.Behind) : Scheduled th' := by
  refine ⟨?_, ?_, ?_, ?_⟩
  · rw [hr.timing_eq]
    exact ht
  · rw [hr.special_eq]
    exact h.not_drip
  · rw [hr.special_eq, hr.timing_eq]
    exact hb
  · rw [hr.batches_eq]
    exact h.batches

theorem Scheduled.noteAll (h : Scheduled th) (activities : List (Activity K)) :
    Scheduled (th.noteAll activities) := by
  obtain ⟨t, hnoting, hr⟩ := noteAll_retimed th activities
  exact h.retimed hr (hnoting.timed h.timed) fun hmain => hnoting.behind (h.behind hmain)

/-- The reset of `_flush_lookahead` enters a special queuing state. -/
theorem Scheduled.reset (h : Scheduled th) : Scheduled th.reset :=
  ⟨h.timed, (by decide : needPrime ≠ .drip),
    fun hmain => absurd hmain (by decide : needPrime ≠ .main), h.batches⟩

variable [IsStrictOrderedRing K]

theorem Scheduled.calcPrintTime (h : Scheduled th) (env : Env K) :
    Scheduled (th.calcPrintTime env) :=
  h.retimed (calcPrintTime_retimed th env) (h.timed.calcPrintTime _) fun _ =>
    calcPrintTime_behind h.timed _

/-- The timing state in which a batch is appended. -/
theorem Scheduled.batchTiming (h : Scheduled th) (env : Env K) :
    (th.batchTiming env).Timed ∧ (th.batchTiming env).Behind := by
  rw [Toolhead.batchTiming]
  split
  · next hmain => exact ⟨h.timed, h.behind hmain⟩
  · exact ⟨h.timed.calcPrintTime _, calcPrintTime_behind h.timed _⟩

theorem Scheduled.batchDone (h : Scheduled th) {moves : List (Move K)}
    (hdone : BatchDone th env moves th') : Scheduled th' := by
  obtain ⟨htimed, hbehind⟩ := h.batchTiming env
  obtain ⟨t, ts, hnoting, -, htiming, -⟩ := hdone.timing_eq
  have ht := hnoting.timed htimed
  refine ⟨?_, ?_, fun _ => ?_, ?_⟩
  · rw [htiming]
    exact ht.movedTo _
  · rw [hdone.special_eq]
    decide
  · rw [htiming]
    exact (hnoting.behind hbehind).movedTo ht _
  · rw [hdone.batches_eq]
    intro b hb
    rcases List.mem_append.mp hb with hb | hb
    · exact h.batches b hb
    · -- the new one starts where the steps end, or later
      rw [List.mem_singleton.mp hb]
      exact hbehind

variable [FloorRing K]

theorem Scheduled.advanceMoveTime (h : Scheduled th) (env : Env K) (nextPrintTime : K) :
    Scheduled (th.advanceMoveTime env nextPrintTime) := by
  obtain ⟨ts, -, hr⟩ := advanceMoveTime_retimed th env nextPrintTime
  exact h.retimed hr (h.timed.movedTo _) fun hmain => (h.behind hmain).movedTo h.timed _

end

/-! ### Operations -/

section

variable [IsStrictOrderedRing K] {th th' : Toolhead K}

variable (h : Scheduled th)
include h

variable (env : Env K)

/-- The copy of a pause check is written back: all is well if it does not set the
print time back, and does not return to the main queuing state. -/
theorem Scheduled.applyPauseState {state : ToolheadPauseState K}
    (hcore : th'.core = th.core.applyPauseState state) (hbatches : th'.batches = th.batches)
    (hprint : th.core.printTime ≤ state.printTime) (hdrip : state.specialQueuingState ≠ .drip)
    (hmain : state.specialQueuingState = .main → th.core.specialQueuingState = .main) :
    Scheduled th' := by
  refine ⟨?_, ?_, ?_, ?_⟩
  · rw [hcore]
    exact ⟨h.timed.kin_nonneg, h.timed.flush_le_gen, h.timed.gen_le_restart,
      h.timed.stepGen_le_need⟩
  · rw [hcore]
    exact hdrip
  · rw [hcore]
    exact fun hspecial => (h.behind (hmain hspecial)).withPrintTime hprint
  · rw [hbatches]
    exact h.batches

theorem Scheduled.checkPause : Scheduled (th.checkPause env) := by
  rw [Toolhead.checkPause, runPauseCheck]
  split
  · next result' hfinished =>
    obtain ⟨hprint, hspecial⟩ := pauseCheckTest_finished hfinished
    have hprint' := hprint.trans beginPauseCheck_printTime
    refine h.applyPauseState rfl rfl hprint'.ge ?_ ?_
    · rw [hspecial]
      by_cases hmain : th.core.specialQueuingState = .main
      · rw [beginPauseCheck_main hmain]
        decide
      · rw [beginPauseCheck_special hmain]
        decide
    · rw [hspecial]
      intro hresult
      by_contra hmain
      rw [beginPauseCheck_special hmain] at hresult
      exact absurd hresult (by decide)
  · exact h.of_eq rfl rfl rfl

/-- The flushes of a plan do not matter in a special queuing state. -/
theorem Scheduled.finishFlushPlan (plan' : ToolheadFlushHandlerPlan K)
    (hplan : th.core.specialQueuingState ≠ .main ∨ plan'.advanceFlushTimes = []) :
    Scheduled (th.finishFlushPlan env plan').1 := by
  have hnone : Ordered th.core.timingState defaultTimingConfig [] := ⟨List.Pairwise.nil, by simp⟩
  obtain ⟨ts, -, hr⟩ := advanceAll_retimed env plan'.advanceFlushTimes th hnone
  have h' := h.retimed hr h.timed.flushedAll fun hmain => by
    rw [hplan.resolve_left (not_not.mpr hmain)]
    exact h.behind hmain
  rw [Toolhead.finishFlushPlan]
  split
  · exact ⟨⟨h'.timed.kin_nonneg, h'.timed.flush_le_gen, h'.timed.gen_le_restart,
      h'.timed.stepGen_le_need⟩, h'.not_drip, h'.behind, h'.batches⟩
  · exact h'

variable [FloorRing K] [HasSqrt K]

theorem Scheduled.flushQueue (lazy : Bool) :
    Scheduled (ToolheadM.state (th.flushQueue env lazy)) := by
  obtain ⟨th', heq, -, hcases⟩ := flushQueue_spec th h.not_drip env lazy
  rw [heq]
  rcases hcases with ⟨-, rfl⟩ | ⟨-, hdone⟩
  · exact h.of_eq rfl rfl rfl
  · exact h.batchDone hdone

theorem Scheduled.flushLookahead : Scheduled (ToolheadM.state (th.flushLookahead env)) := by
  by_cases hq : th.lookahead.queue = []
  · rw [flushLookahead_empty hq]
    exact h.reset.of_eq rfl rfl rfl
  · obtain ⟨th', heq, -, hdone⟩ : Returns (th.flushLookahead env) _ := flushLookahead_batch hq
    rw [heq]
    exact h.reset.batchDone hdone

theorem Scheduled.getLastMoveTime : Scheduled (ToolheadM.state (th.getLastMoveTime env)) := by
  rw [Toolhead.getLastMoveTime]
  split
  · exact h.flushQueue env false
  · exact state_bind (h.flushLookahead env) fun a ha => ha.calcPrintTime env

theorem Scheduled.registerLookaheadCallback (callback : K → List (Activity K)) :
    Scheduled (ToolheadM.state (th.registerLookaheadCallback env callback)) := by
  rw [Toolhead.registerLookaheadCallback]
  split
  · exact state_bind (h.getLastMoveTime env) fun a ha => ha.noteAll _
  · exact h.of_eq rfl rfl rfl

theorem Scheduled.primingHandler : Scheduled (ToolheadM.state (th.primingHandler env)) := by
  have h' : Scheduled { th with primingTimer := none } := h.of_eq rfl rfl rfl
  rw [Toolhead.primingHandler]
  split
  · exact state_bind (h'.flushLookahead env) fun a ha => ha.of_eq rfl rfl rfl
  · exact h'

theorem Scheduled.queueMove (move : Move K) :
    Scheduled (ToolheadM.state (th.queueMove env move)) := by
  have h' : Scheduled { th with lookahead := (th.lookahead.addMove move env.extruder).1 } :=
    h.of_eq rfl rfl rfl
  rw [Toolhead.queueMove]
  split
  · exact h'.flushQueue env true
  · exact h'

theorem Scheduled.move (newpos : Coord K) (speed : K) :
    Scheduled (ToolheadM.state (th.move env newpos speed)) := by
  rw [Toolhead.move]
  split
  · exact h
  · split
    · exact h
    · next move _ =>
      have h' : Scheduled { th with core := { th.core with commandedPos := move.endPos } } :=
        h.of_eq rfl rfl rfl
      refine state_bind (h'.queueMove env move) fun a ha => ?_
      split
      · exact ha.checkPause env
      · exact ha

theorem Scheduled.dwell (delay : K) : Scheduled (ToolheadM.state (th.dwell env delay)) :=
  state_bind (h.getLastMoveTime env) fun _ ha => (ha.advanceMoveTime env _).checkPause env

omit [IsStrictOrderedRing K] in
/-- With an empty queue, step generation is flushed in a special queuing state. -/
theorem Scheduled.flushStepGeneration (hq : th.lookahead.queue = []) :
    Returns (th.flushStepGeneration env) fun th' =>
      Scheduled th' ∧ th'.core.specialQueuingState = .needPrime := by
  rw [Toolhead.flushStepGeneration, flushLookahead_empty hq]
  have hreset : Scheduled { th.reset with lookahead := flushedLookahead } :=
    h.reset.of_eq rfl rfl rfl
  have hr := advanceFlushTime_retimed { th.reset with lookahead := flushedLookahead } env
    th.core.stepGenTime
  have hspecial : needPrime ≠ .main := by decide
  have hflushed := hreset.retimed hr (hreset.timed.flushedTo _) fun hmain => absurd hmain hspecial
  exact returns_ok ⟨⟨hflushed.timed.restartAfter _, hflushed.not_drip, hflushed.behind,
    hflushed.batches⟩, hr.special_eq⟩

omit [IsStrictOrderedRing K] in
theorem Scheduled.noteStepGenerationScanTime (hq : th.lookahead.queue = []) (delay oldDelay : K) :
    Scheduled (ToolheadM.state (th.noteStepGenerationScanTime env delay oldDelay)) := by
  obtain ⟨th', heq, h', hspecial⟩ := h.flushStepGeneration env hq
  rw [Toolhead.noteStepGenerationScanTime, heq]
  refine ⟨h'.timed.updateStepGenerationScanDelay delay oldDelay, h'.not_drip, ?_, h'.batches⟩
  intro hmain
  exact absurd (hspecial.symm.trans hmain) (by decide)

/-- The flush timer, unless it flushes moves out of the queue. -/
theorem Scheduled.flushTimer (eventtime : K) (hq : th.core.specialQueuingState = .main →
      th.core.printTime - env.source.estimatedPrintTime eventtime
          ≤ defaultFlushConfig.bufferTimeLow →
        th.lookahead.queue = []) :
    Scheduled (ToolheadM.state (th.perform env (.flushTimer eventtime))) := by
  obtain ⟨th', heq, hcases⟩ := flushForTimer_spec th env (th.flushPlan env eventtime)
  rw [perform, Toolhead.flushHandler, heq]
  suffices hfinish : Scheduled (th'.finishFlushPlan env (th.flushPlan env eventtime)).1 from
    hfinish.of_eq rfl rfl rfl
  have hmain := plan_main (env.source.estimatedPrintTime eventtime) eventtime
    th.core.flushHandlerState defaultFlushConfig
  rcases hcases with ⟨hno, rfl⟩ | ⟨-, -, rfl⟩ | ⟨hyes, hmoves, -, -⟩
  · -- no look-ahead flush: in the main state the plan then only waits
    refine h.finishFlushPlan env _ (or_iff_not_imp_left.mpr fun hspecial => ?_)
    rcases hmain (not_not.mp hspecial) with ⟨-, hwait⟩ | ⟨-, hflush⟩
    · rw [flushPlan, hwait]
    · exact absurd (hno.symm.trans hflush) (by decide)
  · -- an empty queue: the main state is left before the flushes
    have hreset : Scheduled { th.reset with lookahead := flushedLookahead } :=
      h.reset.of_eq rfl rfl rfl
    exact hreset.finishFlushPlan env _ (.inl (by decide : needPrime ≠ .main))
  · -- a batch, after which the flushes would run in the main state
    have hspecial := plan_shouldFlush hyes
    rcases hmain hspecial with ⟨-, hwait⟩ | ⟨hlow, -⟩
    · rw [flushPlan, hwait] at hyes
      exact absurd hyes (by simp)
    · exact absurd (hq hspecial hlow) hmoves

end

/-! ### Runs -/

section Defs

variable [FloorRing K] [HasSqrt K]

/-- The step generators are not flushed past moves that come out of the look-ahead
queue in the same operation. -/
def Toolhead.Drained (s : Toolhead K) (e : ToolheadEvent K) : Prop :=
  match e.op with
  | .flushStepGeneration => s.lookahead.queue = []
  | .noteStepGenerationScanTime _ _ => s.lookahead.queue = []
  | .flushTimer eventtime => s.core.specialQueuingState = .main →
      s.core.printTime - e.env.source.estimatedPrintTime eventtime
        ≤ defaultFlushConfig.bufferTimeLow → s.lookahead.queue = []
  | _ => True

end Defs

section

variable [IsStrictOrderedRing K] {s : Toolhead K}

theorem Scheduled.resume (h : Scheduled s) (hframes : ∀ f ∈ s.sleeping, f.Valid)
    {e : ToolheadEvent K} {i : ℕ} (he : e.op = .resume i) (hquiet : s.Undisturbed e) :
    Scheduled (s.resume e.env i) := by
  rcases hi : s.sleeping[i]? with _ | frame
  · rw [Toolhead.resume, hi]
    exact h
  · have hbatches : (s.resume e.env i).batches = s.batches := by
      rw [Toolhead.resume, hi]
      dsimp only
      rw [runPauseCheck]
      split <;> rfl
    rcases resume_cases s e.env hi (hframes frame (List.mem_of_getElem? hi)) with
      ⟨hnear, -, state, hcore, hprint, hspecial⟩ | ⟨-, hcore, -⟩
    · -- the copy is written back
      obtain ⟨hle, hsame⟩ := hquiet i frame he hi hnear
      refine h.applyPauseState hcore hbatches (hle.trans_eq hprint.symm) ?_ ?_
      · rw [hspecial]
        split <;> decide
      · rw [hspecial]
        intro hmain
        split at hmain
        · next hstart => exact (hsame.resolve_right fun hne => hne.1 hstart).trans hstart
        · exact absurd hmain (by decide)
    · exact h.of_eq (congrArg _ hcore) (congrArg _ hcore) hbatches

variable [FloorRing K] [HasSqrt K]

theorem Scheduled.step (h : Scheduled s) (hframes : ∀ f ∈ s.sleeping, f.Valid)
    (e : ToolheadEvent K) (hdrained : s.Drained e) (hquiet : s.Undisturbed e) :
    Scheduled (s.step e) := by
  obtain ⟨env, op⟩ := e
  cases op with
  | move newpos speed => exact h.move env newpos speed
  | dwell delay => exact h.dwell env delay
  | getLastMoveTime => exact h.getLastMoveTime env
  | flushQueue lazy => exact h.flushQueue env lazy
  | flushLookahead => exact h.flushLookahead env
  | flushStepGeneration =>
    obtain ⟨th', heq, h', -⟩ := h.flushStepGeneration env hdrained
    rw [Toolhead.step, perform, heq]
    exact h'
  | noteStepGenerationScanTime delay oldDelay =>
    exact h.noteStepGenerationScanTime env hdrained delay oldDelay
  | noteMcuMovequeueActivity activity => exact h.noteAll [activity]
  | registerLookaheadCallback callback => exact h.registerLookaheadCallback env callback
  | flushTimer eventtime => exact h.flushTimer env eventtime hdrained
  | primingTimer => exact h.primingHandler env
  | resume i => exact h.resume hframes rfl hquiet
  | handleShutdown =>
    exact ⟨⟨h.timed.kin_nonneg, h.timed.flush_le_gen, h.timed.gen_le_restart,
      h.timed.stepGen_le_need⟩, h.not_drip, h.behind, h.batches⟩

theorem newToolhead_scheduled (settings : ToolheadVelocitySettings K) (canPause : Bool) :
    Scheduled (newToolhead settings canPause) := by
  refine ⟨newToolhead_timed settings canPause, ?_, ?_, ?_⟩
  · exact (by decide : needPrime ≠ .drip)
  · exact fun h => absurd h (by decide : needPrime ≠ .main)
  · simp [newToolhead]

end

/-- **No batch is scheduled before steps already generated**, in any run of a
toolhead whose steps do not flush the step generators past moves released in the
same operation, and whose pause checks wake undisturbed. -/
theorem batches_scheduled [FloorRing K] [IsStrictOrderedRing K] [HasSqrt K]
    (settings : ToolheadVelocitySettings K) (canPause : Bool) (es : List (ToolheadEvent K))
    (hes : Runs.Along Toolhead.step (fun s e => s.Drained e ∧ s.Undisturbed e)
      (newToolhead settings canPause) es) :
    ∀ b ∈ (Runs.final Toolhead.step (newToolhead settings canPause) es).batches,
      b.lastStepGenTime ≤ b.printTime - b.kinFlushDelay := by
  have hinv := Runs.final_of_invariant
    (I := fun s : Toolhead K => Scheduled s ∧ ∀ f ∈ s.sleeping, f.Valid)
    (fun s e hs he => ⟨hs.1.step hs.2 e he.1 he.2, (step_frames hs.2 e).1⟩)
    ⟨newToolhead_scheduled settings canPause, by simp [newToolhead]⟩ hes
  exact hinv.1.batches

theorem batches_scheduled_firstMove :
    (Runs.final Toolhead.step (newToolhead unitSettings true : Toolhead ℚ)
      [{ env := quietEnv 0, op := .move (fun i => if i = 0 then 1 else 0) 1 },
       { env := quietEnv 0, op := .getLastMoveTime },
       { env := quietEnv 0, op := .flushStepGeneration }]).batches.length = 1 ∧
    ∀ b ∈ (Runs.final Toolhead.step (newToolhead unitSettings true : Toolhead ℚ)
      [{ env := quietEnv 0, op := .move (fun i => if i = 0 then 1 else 0) 1 },
       { env := quietEnv 0, op := .getLastMoveTime },
       { env := quietEnv 0, op := .flushStepGeneration }]).batches,
      b.lastStepGenTime ≤ b.printTime - b.kinFlushDelay := by
  refine ⟨by decide +kernel, batches_scheduled unitSettings true _
    ⟨⟨trivial, ?_⟩, ⟨trivial, ?_⟩, ⟨?_, ?_⟩, trivial⟩⟩
  · exact fun i frame he => absurd he (by simp)
  · exact fun i frame he => absurd he (by simp)
  · show (Runs.final Toolhead.step (newToolhead unitSettings true : Toolhead ℚ)
      [{ env := quietEnv 0, op := .move (fun i => if i = 0 then 1 else 0) 1 },
       { env := quietEnv 0, op := .getLastMoveTime }]).lookahead.queue = []
    decide +kernel
  · exact fun i frame he => absurd he (by simp)

/-- Step generation is flushed with a move in the queue; the next move then starts
before the steps already generated. -/
theorem batch_before_steps :
    ¬ ∀ b ∈ (Runs.final Toolhead.step (newToolhead unitSettings true : Toolhead ℚ)
      [{ env := quietEnv 0, op := .move (fun i => if i = 0 then 1 else 0) 1 },
       { env := quietEnv 0, op := .flushStepGeneration },
       { env := quietEnv 2, op := .move (fun i => if i = 0 then 2 else 0) 1 },
       { env := quietEnv 2, op := .getLastMoveTime }]).batches,
      b.lastStepGenTime ≤ b.printTime - b.kinFlushDelay := by
  decide +kernel

end Motion
