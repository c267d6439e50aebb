/-
Pause checks that sleep, and the callbacks that run meanwhile
(`CheckToolheadPause` of `internal/pkg/motion/toolhead_timer_runtime.go`).

A pause check works on a copy of the pause state.  While it sleeps the reactor
runs other callbacks, which may move the print time and change the queuing
state; when it finishes, the copy is written back.
-/
import KlipperGo.ToolheadTimers

open ExactArith Outcome List

namespace Motion

variable {K : Type*} [Field K] [LinearOrder K]

/-- A pause check sleeps only while pausing is allowed, and has not touched the
print time of its copy; of the queuing states it changes the special ones, to
`Priming`. -/
structure PauseFrame.Valid (frame : PauseFrame K) : Prop where
  canPause_eq : frame.result.state.canPause = true
  printTime_eq : frame.result.state.printTime = frame.start.printTime
  special_eq : frame.result.state.specialQueuingState =
    if frame.start.specialQueuingState = .main then .main else .priming

/-- From `th` to `th'` the print time does not go back, the times stay in order, and
the pause checks that sleep in `th'` did so before or have gone to sleep in the
meantime. -/
structure Forward (th th' : Toolhead K) : Prop where
  printTime_le : th.core.printTime ≤ th'.core.printTime
  timed : th.core.timingState.Timed → th'.core.timingState.Timed
  frames : ∀ f ∈ th'.sleeping, f ∈ th.sleeping ∨ f.Valid

section

variable {th th₁ th₂ : Toolhead K}

theorem Forward.of_eq (hprint : th₁.core.printTime = th.core.printTime)
    (htimed : th.core.timingState.Timed → th₁.core.timingState.Timed)
    (hsleep : th₁.sleeping = th.sleeping) : Forward th th₁ :=
  ⟨hprint.ge, htimed, fun _ hf => .inl (hsleep ▸ hf)⟩

theorem Forward.refl (th : Toolhead K) : Forward th th := Forward.of_eq rfl id rfl

theorem Forward.trans (h : Forward th th₁) (h' : Forward th₁ th₂) : Forward th th₂ where
  printTime_le := h.printTime_le.trans h'.printTime_le
  timed ht := h'.timed (h.timed ht)
  frames f hf := (h'.frames f hf).elim (h.frames f) .inr

theorem Retimed.forward {t : ToolheadTimingState K} {ts : List K} (h : Retimed th t ts th₁)
    (ht : th.core.printTime ≤ t.printTime) (htimed : th.core.timingState.Timed → t.Timed) :
    Forward th th₁ := by
  refine ⟨?_, ?_, fun _ hf => .inl (h.sleeping_eq ▸ hf)⟩
  · rw [h.core_eq]
    exact ht
  · rw [h.timing_eq]
    exact htimed

end

/-! ### Timing -/

section

variable (th : Toolhead K) (env : Env K)

theorem noteMcu_forward (activity : Activity K) :
    Forward th (th.noteMcuMovequeueActivity activity) :=
  (noteMcu_retimed th activity).forward le_rfl (noting_noteMovequeueActivity _ activity).timed

theorem advanceFlushTime_forward (flushTime : K) : Forward th (th.advanceFlushTime env flushTime) :=
  (advanceFlushTime_retimed th env flushTime).forward le_rfl fun ht => ht.flushedTo _

variable [FloorRing K] [IsStrictOrderedRing K]

theorem advanceMoveTime_forward (nextPrintTime : K) :
    Forward th (th.advanceMoveTime env nextPrintTime) := by
  obtain ⟨ts, -, h⟩ := advanceMoveTime_retimed th env nextPrintTime
  exact h.forward (le_max_left _ _) fun ht => ht.movedTo _

end

/-! ### Pause checks -/

section

variable {result : ToolheadPauseResult K} {eventtime estPrintTime : K}

theorem pauseCheckTest_sleep {waketime : K}
    (h : pauseCheckTest result eventtime estPrintTime defaultPauseConfig = .sleep waketime) :
    result.state.canPause = true := by
  rw [pauseCheckTest] at h
  split_ifs at h with _ hpause
  exact hpause

/-- A pause check that has just begun. -/
theorem beginPauseCheck_valid (start : ToolheadPauseState K) (waketime : K)
    (h : (beginPauseCheck start eventtime estPrintTime defaultPauseConfig).state.canPause = true) :
    PauseFrame.Valid { start := start, waketime := waketime
                       result := beginPauseCheck start eventtime estPrintTime
                         defaultPauseConfig } := by
  refine ⟨h, beginPauseCheck_printTime, ?_⟩
  by_cases hmain : start.specialQueuingState = .main
  · exact (beginPauseCheck_main hmain).trans (if_pos hmain).symm
  · exact (beginPauseCheck_special hmain).trans (if_neg hmain).symm

theorem checkPause_forward (th : Toolhead K) (env : Env K) : Forward th (th.checkPause env) := by
  rw [Toolhead.checkPause, Toolhead.runPauseCheck]
  split
  · next result' hfinished =>
    obtain ⟨hprint, -⟩ := pauseCheckTest_finished hfinished
    refine Forward.of_eq (hprint.trans beginPauseCheck_printTime) ?_ rfl
    exact fun ht => { ht with }
  · next waketime hsleep =>
    refine ⟨le_rfl, id, fun f hf => ?_⟩
    rcases mem_append.mp hf with hf | hf
    · exact .inl hf
    · rw [mem_singleton.mp hf]
      exact .inr (beginPauseCheck_valid _ _ (pauseCheckTest_sleep hsleep))

variable [IsStrictOrderedRing K]

/-- Where pausing is allowed, a pause check finishes exactly when the print time is
near enough. -/
theorem pauseCheckTest_cases (hpause : result.state.canPause = true) :
    (result.state.printTime - estPrintTime ≤ bufferTimeHigh ∧ ∃ result',
      pauseCheckTest result eventtime estPrintTime defaultPauseConfig = .finished result' ∧
      result'.state.printTime = result.state.printTime ∧
      result'.state.specialQueuingState = result.state.specialQueuingState) ∨
    (bufferTimeHigh < result.state.printTime - estPrintTime ∧ ∃ waketime,
      pauseCheckTest result eventtime estPrintTime defaultPauseConfig = .sleep waketime) := by
  by_cases hnear : result.state.printTime - estPrintTime - bufferTimeHigh ≤ 0
  · refine .inl ⟨sub_nonpos.mp hnear, _, if_pos hnear, ?_⟩
    exact ⟨rfl, rfl⟩
  · exact .inr ⟨sub_pos.mp (not_le.mp hnear), _, (if_neg hnear).trans (if_pos hpause)⟩

/-- What happens when the reactor wakes a pause check: it finishes and writes its
copy back, or it goes to sleep again. -/
theorem resume_cases (th : Toolhead K) (env : Env K) {i : ℕ} {frame : PauseFrame K}
    (hi : th.sleeping[i]? = some frame) (hframe : frame.Valid) :
    (frame.start.printTime - env.source.estimatedPrintTime env.source.monotonic ≤ bufferTimeHigh ∧
      (th.resume env i).sleeping = th.sleeping.eraseIdx i ∧
      ∃ state, (th.resume env i).core = th.core.applyPauseState state ∧
        state.printTime = frame.start.printTime ∧
        state.specialQueuingState =
          if frame.start.specialQueuingState = .main then .main else .priming) ∨
    (bufferTimeHigh < frame.start.printTime -
        env.source.estimatedPrintTime env.source.monotonic ∧
      (th.resume env i).core = th.core ∧ ∃ waketime, (th.resume env i).sleeping =
        th.sleeping.eraseIdx i ++ [{ frame with waketime := waketime }]) := by
  have hresume : th.resume env i =
      ({ th with sleeping := th.sleeping.eraseIdx i } : Toolhead K).runPauseCheck frame.start
        frame.result env.source.monotonic
        (env.source.estimatedPrintTime env.source.monotonic) := by
    rw [Toolhead.resume, hi]
  rw [hresume, Toolhead.runPauseCheck, ← hframe.printTime_eq, ← hframe.special_eq]
  rcases pauseCheckTest_cases hframe.canPause_eq with
    ⟨hnear, result', hfinished, hprint, hspecial⟩ | ⟨hfar, waketime, hsleep⟩
  · rw [hfinished]
    exact .inl ⟨hnear, rfl, result'.state, rfl, hprint, hspecial⟩
  · rw [hsleep]
    exact .inr ⟨hfar, rfl, waketime, rfl⟩

end

/-! ### Steps -/

section

variable [IsStrictOrderedRing K]

/-- The waking of a pause check, in terms of what it did when it went to sleep. -/
theorem resume_frames {s : Toolhead K} (hs : ∀ f ∈ s.sleeping, f.Valid) (env : Env K) (i : ℕ) :
    (∀ f ∈ (s.resume env i).sleeping, f.Valid) ∧
      (s.core.timingState.Timed → (s.resume env i).core.timingState.Timed) := by
  rcases hi : s.sleeping[i]? with _ | frame
  · rw [Toolhead.resume, hi]
    exact ⟨hs, id⟩
  · have hframe : frame.Valid := hs frame (mem_of_getElem? hi)
    have hold : ∀ f ∈ s.sleeping.eraseIdx i, f.Valid :=
      fun f hf => hs f (mem_of_mem_eraseIdx hf)
    rcases resume_cases s env hi hframe with
      ⟨-, hsleep, state, hcore, -⟩ | ⟨-, hcore, waketime, hsleep⟩
    · rw [hsleep, hcore]
      refine ⟨hold, fun ht => ?_⟩
      exact { ht with }
    · rw [hsleep, hcore]
      refine ⟨fun f hf => ?_, id⟩
      rcases mem_append.mp hf with hf | hf
      · exact hold f hf
      · rw [mem_singleton.mp hf]
        exact ⟨hframe.canPause_eq, hframe.printTime_eq, hframe.special_eq⟩

variable [FloorRing K]

/-- So everything that queues, processes and flushes moves goes forward. -/
theorem keptBySteps_forward (env : Env K) : KeptBySteps env (Forward (K := K)) where
  refl := Forward.refl
  trans := Forward.trans
  noteMcu := noteMcu_forward
  calcPrintTime th := by
    refine (calcPrintTime_retimed th env).forward ?_ fun ht => ht.calcPrintTime _
    rw [calcPrintTime_eq]
    exact le_max_left _ _
  advanceMoveTime th := advanceMoveTime_forward th env
  logBatch _ _ := Forward.of_eq rfl id rfl
  leaveSpecial _ := Forward.of_eq rfl id rfl
  lookahead _ _ := Forward.of_eq rfl id rfl
  resetAfterFlush _ _ := Forward.of_eq rfl id rfl
  advanceFlushTime th := advanceFlushTime_forward th env
  restartAfter _ time := Forward.of_eq rfl (fun ht => ht.restartAfter time) rfl
  commandedPos _ _ := Forward.of_eq rfl id rfl
  checkPause th := checkPause_forward th env
  primingTimer _ _ := Forward.of_eq rfl id rfl
  flushTimer _ _ := Forward.of_eq rfl id rfl
  checkStallTime _ _ := Forward.of_eq rfl id rfl
  kickFlushTimer _ := Forward.of_eq rfl (fun ht => { ht with }) rfl
  handleShutdown _ := Forward.of_eq rfl (fun ht => { ht with }) rfl

variable [HasSqrt K]

/-- Every operation but the waking of a pause check goes forward. -/
theorem step_forward (s : Toolhead K) (e : ToolheadEvent K) (he : ∀ i, e.op ≠ .resume i) :
    Forward s (s.step e) := by
  obtain ⟨env, op⟩ := e
  have hkept := keptBySteps_forward env
  by_cases hscan : ∃ delay oldDelay, op = .noteStepGenerationScanTime delay oldDelay
  · obtain ⟨delay, oldDelay, rfl⟩ := hscan
    refine hkept.bind (hkept.flushStepGeneration s) fun a => ?_
    exact Forward.of_eq rfl (fun ht => ht.updateStepGenerationScanDelay delay oldDelay) rfl
  · exact hkept.perform s op (fun delay oldDelay h => hscan ⟨delay, oldDelay, h⟩) he

/-- Every step leaves valid pause checks asleep, and the times in order. -/
theorem step_frames {s : Toolhead K} (hs : ∀ f ∈ s.sleeping, f.Valid) (e : ToolheadEvent K) :
    (∀ f ∈ (s.step e).sleeping, f.Valid) ∧
      (s.core.timingState.Timed → (s.step e).core.timingState.Timed) := by
  by_cases he : ∃ i, e.op = .resume i
  · obtain ⟨i, he⟩ := he
    have hstep : s.step e = s.resume e.env i := by rw [Toolhead.step, he]; rfl
    rw [hstep]
    exact resume_frames hs e.env i
  · have hforward := step_forward s e fun i h => he ⟨i, h⟩
    exact ⟨fun f hf => (hforward.frames f hf).elim (hs f) id, hforward.timed⟩

theorem newToolhead_timed (settings : ToolheadVelocitySettings K) (canPause : Bool) :
    (newToolhead settings canPause).core.timingState.Timed := by
  refine ⟨?_, le_rfl, le_rfl, le_rfl⟩
  show (0 : K) ≤ 1 / 1000
  norm_num

/-- The times of a toolhead are in order in every state it reaches. -/
theorem run_timed (settings : ToolheadVelocitySettings K) (canPause : Bool)
    (es : List (ToolheadEvent K)) :
    (Runs.final Toolhead.step (newToolhead settings canPause) es).core.timingState.Timed := by
  have hinv := Runs.final_of_invariant (G := fun _ _ => True)
    (I := fun s : Toolhead K => s.core.timingState.Timed ∧ ∀ f ∈ s.sleeping, f.Valid)
    (fun s e hs _ => ⟨(step_frames hs.2 e).2 hs.1, (step_frames hs.2 e).1⟩)
    ⟨newToolhead_timed settings canPause, by simp [newToolhead]⟩
    (Runs.along_of_forall fun e _ => trivial : Runs.Along _ _ _ es)
  exact hinv.1

theorem run_timed_dwell : (Runs.final Toolhead.step (newToolhead unitSettings true : Toolhead ℚ)
    [⟨quietEnv 0, .dwell 5⟩, ⟨quietEnv 5, .resume 0⟩]).core.timingState.Timed := run_timed _ _ _

end

/-! ### Runs -/

section Defs

variable [FloorRing K] [HasSqrt K]

/-- The step does not set the print time back, and where a pause check wakes to
another queuing state than the one it copied, that state stays. -/
def Toolhead.Progresses (s : Toolhead K) (e : ToolheadEvent K) : Prop :=
  s.core.printTime ≤ (s.step e).core.printTime ∧
  ∀ i frame, e.op = .resume i → s.sleeping[i]? = some frame →
    s.core.specialQueuingState ≠ frame.start.specialQueuingState →
      (s.step e).core.specialQueuingState = s.core.specialQueuingState

/-- When a pause check wakes up for good, the callbacks that ran during its sleep
have not moved the print time on from its copy, and have left the queuing state
as it was copied, or have begun priming as the pause check will. -/
def Toolhead.Undisturbed (s : Toolhead K) (e : ToolheadEvent K) : Prop :=
  ∀ i frame, e.op = .resume i → s.sleeping[i]? = some frame →
    frame.start.printTime - e.env.source.estimatedPrintTime e.env.source.monotonic
      ≤ bufferTimeHigh →
    s.core.printTime ≤ frame.start.printTime ∧
      (s.core.specialQueuingState = frame.start.specialQueuingState ∨
        frame.start.specialQueuingState ≠ .main ∧ s.core.specialQueuingState = .priming)

end Defs

section

variable {s : Toolhead K} {e : ToolheadEvent K} {frame : PauseFrame K} {i : ℕ}

/-- A step wakes one pause check. -/
theorem forall_resume_iff {P : PauseFrame K → Prop} (he : e.op = .resume i)
    (hi : s.sleeping[i]? = some frame) :
    (∀ j frame', e.op = .resume j → s.sleeping[j]? = some frame' → P frame') ↔ P frame := by
  refine ⟨fun h => h i frame he hi, ?_⟩
  rintro h j frame' hj hframe'
  obtain rfl : j = i := by simpa using hj.symm.trans he
  obtain rfl : frame' = frame := Option.some.inj (hframe'.symm.trans hi)
  exact h

theorem undisturbed_of_resume (he : e.op = .resume i) (hi : s.sleeping[i]? = some frame) :
    s.Undisturbed e ↔
      (frame.start.printTime - e.env.source.estimatedPrintTime e.env.source.monotonic
        ≤ bufferTimeHigh →
      s.core.printTime ≤ frame.start.printTime ∧
        (s.core.specialQueuingState = frame.start.specialQueuingState ∨
          frame.start.specialQueuingState ≠ .main ∧ s.core.specialQueuingState = .priming)) :=
  forall_resume_iff he hi

variable [FloorRing K] [HasSqrt K]

theorem progresses_of_resume (he : e.op = .resume i) (hi : s.sleeping[i]? = some frame) :
    s.Progresses e ↔ s.core.printTime ≤ (s.resume e.env i).core.printTime ∧
      (s.core.specialQueuingState ≠ frame.start.specialQueuingState →
        (s.resume e.env i).core.specialQueuingState = s.core.specialQueuingState) := by
  have hstep : s.step e = s.resume e.env i := by
    rw [Toolhead.step, he]
    rfl
  rw [Toolhead.Progresses, hstep]
  exact and_congr_right fun _ => forall_resume_iff he hi

variable [IsStrictOrderedRing K]

/-- A step that wakes no pause check. -/
theorem progresses_of_no_wake (h : ¬ ∃ i frame, e.op = .resume i ∧ s.sleeping[i]? = some frame) :
    s.Progresses e ∧ s.Undisturbed e := by
  refine ⟨⟨?_, ?_⟩, ?_⟩
  · by_cases he : ∃ i, e.op = .resume i
    · obtain ⟨i, he⟩ := he
      have hnone : s.sleeping[i]? = none := by
        by_contra hsome
        obtain ⟨frame, hframe⟩ := Option.ne_none_iff_exists'.mp hsome
        exact h ⟨i, frame, he, hframe⟩
      have hstep : s.step e = s := by
        rw [Toolhead.step, he]
        show s.resume e.env i = s
        rw [Toolhead.resume, hnone]
      rw [hstep]
    · exact (step_forward s e fun i hi => he ⟨i, hi⟩).printTime_le
  · intro i frame he hframe
    exact absurd ⟨i, frame, he, hframe⟩ h
  · intro i frame he hframe
    exact absurd ⟨i, frame, he, hframe⟩ h

/-- A step that wakes a pause check keeps the promise exactly when nothing has
disturbed its copy. -/
theorem progresses_resume_iff (he : e.op = .resume i) (hi : s.sleeping[i]? = some frame)
    (hframe : frame.Valid) : s.Progresses e ↔ s.Undisturbed e := by
  rw [progresses_of_resume he hi, undisturbed_of_resume he hi]
  rcases resume_cases s e.env hi hframe with
    ⟨hnear, -, state, hcore, hprint, hspecial⟩ | ⟨hfar, hcore, -⟩
  · -- it finishes: the copy is what the step leaves
    rw [hcore]
    show s.core.printTime ≤ state.printTime ∧ (_ → state.specialQueuingState = _) ↔ _
    rw [hprint, hspecial]
    constructor
    · rintro ⟨hle, hkeep⟩ -
      refine ⟨hle, ?_⟩
      by_cases hsame : s.core.specialQueuingState = frame.start.specialQueuingState
      · exact .inl hsame
      · have hkept := hkeep hsame
        split at hkept
        · next hmain => exact absurd (hkept.symm.trans hmain.symm) hsame
        · next hmain => exact .inr ⟨hmain, hkept.symm⟩
    · intro h
      obtain ⟨hle, hsame⟩ := h hnear
      refine ⟨hle, fun hne => ?_⟩
      obtain ⟨hmain, hpriming⟩ := hsame.resolve_left hne
      rw [if_neg hmain, hpriming]
  · -- it goes to sleep again, which changes nothing
    rw [hcore]
    refine iff_of_true ⟨le_rfl, fun _ => rfl⟩ ?_
    intro hnear
    exact absurd hnear (not_le.mpr hfar)

theorem progresses_iff_undisturbed (hs : ∀ f ∈ s.sleeping, f.Valid) (e : ToolheadEvent K) :
    s.Progresses e ↔ s.Undisturbed e := by
  by_cases hwake : ∃ i frame, e.op = .resume i ∧ s.sleeping[i]? = some frame
  · obtain ⟨i, frame, he, hi⟩ := hwake
    exact progresses_resume_iff he hi (hs frame (mem_of_getElem? hi))
  · obtain ⟨hprogress, hquiet⟩ := progresses_of_no_wake hwake
    exact iff_of_true hprogress hquiet

end

/-- **When the print time never goes backwards.**  Along a run that starts with no
pause check asleep, the print time never goes back and no queuing state is undone
by a pause check, exactly when every pause check wakes up undisturbed. -/
theorem progresses_iff [FloorRing K] [IsStrictOrderedRing K] [HasSqrt K] (th : Toolhead K)
    (hth : th.sleeping = []) (es : List (ToolheadEvent K)) :
    Runs.Along Toolhead.step Toolhead.Progresses th es ↔
      Runs.Along Toolhead.step Toolhead.Undisturbed th es := by
  refine Runs.along_iff_of_invariant (I := fun s => ∀ f ∈ s.sleeping, f.Valid)
    (fun _ e hs _ => (step_frames hs e).1) (fun _ e hs => progresses_iff_undisturbed hs e) ?_
  simp [hth]

/-- A long dwell falls asleep, and is woken with nothing else in between. -/
theorem progresses_iff_dwell : Runs.Along Toolhead.step Toolhead.Progresses
    (newToolhead unitSettings true : Toolhead ℚ)
    [{ env := quietEnv 0, op := .dwell 5 }, { env := quietEnv 5, op := .resume 0 }] := by
  refine (progresses_iff _ rfl _).mpr ⟨?_, ?_, trivial⟩
  · intro i frame he
    exact absurd he (by simp)
  · intro i frame _ hframe _
    have hcopy : ∀ f ∈ ((newToolhead unitSettings true : Toolhead ℚ).step
        { env := quietEnv 0, op := .dwell 5 }).sleeping,
        ((newToolhead unitSettings true : Toolhead ℚ).step
            { env := quietEnv 0, op := .dwell 5 }).core.printTime ≤ f.start.printTime ∧
          ((newToolhead unitSettings true : Toolhead ℚ).step
            { env := quietEnv 0, op := .dwell 5 }).core.specialQueuingState
            = f.start.specialQueuingState := by
      decide +kernel
    obtain ⟨hprint, hspecial⟩ := hcopy frame (mem_of_getElem? hframe)
    exact ⟨hprint, .inl hspecial⟩

/-- A second dwell during the sleep of the first is undone when the first wakes. -/
theorem printTime_goes_back : ¬ Runs.Along Toolhead.step Toolhead.Progresses
    (newToolhead unitSettings true : Toolhead ℚ)
    [{ env := quietEnv 0, op := .dwell 5 }, { env := quietEnv 0, op := .dwell 3 },
     { env := quietEnv 5, op := .resume 0 }] := by
  intro h
  exact absurd h.2.2.1.1 (by decide +kernel)

end Motion
