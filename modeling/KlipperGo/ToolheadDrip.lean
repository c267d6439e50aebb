/-
The drip move (`RunToolheadDripMove` of
`internal/pkg/motion/toolhead_move_runtime.go`, with the methods of `Toolhead` in
`project/goklipper.go` that it runs on).

A homing move is submitted in small segments.  For that the toolhead enters the
queuing state `Drip` and the flush timer is put to sleep.  Two deferred functions
are to undo this after a panic: that of the submission looks for a `*CommandError`,
that of the flush for `ErrDripModeEnd`, and each lets every other value pass.
-/
import KlipperGo.CallLog
import KlipperGo.Homing
import KlipperGo.ToolheadInterleaving

open ExactArith Outcome CallLog

namespace Motion

open Toolhead

inductive DripPanic (K : Type)
  | commandError (msg : String)
  | toolhead (panic : ToolheadPanic K)
  | other (msg : String)

abbrev DripM (K : Type) := EStateM (DripPanic K) (Toolhead K)

/-- `errors.Is(recoveredErr, ErrDripModeEnd)`. -/
def DripPanic.isDripModeEnd {K : Type} : DripPanic K → Bool
  | .toolhead .dripModeEnd => true
  | _ => false

def DripPanic.isCommandError {K : Type} : DripPanic K → Bool
  | .commandError _ => true
  | _ => false

/-- The flush timer is not to run, and no activity is to change that. -/
def Toolhead.Asleep {K : Type*} (self : Toolhead K) : Prop :=
  self.flushTimer = .never ∧ self.core.doKickFlushTimer = false

/-- The queuing state is not `Drip`, and the flush timer is to run now. -/
def Toolhead.Unstuck {K : Type*} [Zero K] (self : Toolhead K) : Prop :=
  self.core.specialQueuingState ≠ .drip ∧ self.flushTimer = .at 0

instance {K : Type*} [Zero K] [DecidableEq K] (self : Toolhead K) : Decidable self.Unstuck :=
  inferInstanceAs (Decidable (_ ∧ _))

/-- The computation does not wake the flush timer, whether it returns or panics. -/
def KeepsAsleep {K : Type} (x : DripM K Unit) : Prop := ∀ s, s.Asleep → (stateOf (x s)).Asleep

/-- The computation leaves the state `Drip`, and leaves the flush timer armed. -/
def LeavesDrip {K : Type} [Zero K] (x : DripM K Unit) : Prop :=
  ∀ s, s.flushTimer = .at 0 → (stateOf (x s)).Unstuck

/-- `ToolheadDripMoveRuntime`: the operations of the toolhead.  Any of them may panic,
with any value.  Moves and flushes do not wake the flush timer. -/
structure ToolheadDripMoveRuntime (K : Type) [Zero K] where
  dwell : K → DripM K Unit
  flushLookaheadQueue : Bool → DripM K Unit
  submitMove : Coord K → K → DripM K Unit
  flushStepGeneration : DripM K Unit
  submitMove_keepsAsleep : ∀ newpos speed, KeepsAsleep (submitMove newpos speed)
  flushLookaheadQueue_keepsAsleep : ∀ lazy, KeepsAsleep (flushLookaheadQueue lazy)
  flushStepGeneration_leavesDrip : LeavesDrip flushStepGeneration

section Defs

variable {K : Type} [Field K]

def Toolhead.updateFlushTimer (self : Toolhead K) (waketime : WakeTime K) : Toolhead K :=
  { self with flushTimer := waketime }

/-- What `RunToolheadDripMove` sets before it submits the move. -/
def Toolhead.enterDrip (self : Toolhead K) : Toolhead K :=
  { self with
    core := { self.core with
      specialQueuingState := .drip
      needCheckPause := neverTime
      doKickFlushTimer := false
      checkStallTime := 0 }
    flushTimer := .never
    lookahead := self.lookahead.setFlushTime bufferTimeHigh }

variable (runtime : ToolheadDripMoveRuntime K)

/-- The beginning of `RunToolheadDripMove`. -/
def prepareDripMove : DripM K Unit := do
  let self ← get
  runtime.dwell self.core.kinFlushDelay
  runtime.flushLookaheadQueue false

/-- The flush timer is armed, and what is queued flushed. -/
def rearmFlushTimer : DripM K Unit := do
  modify fun self => self.updateFlushTimer (.at 0)
  runtime.flushStepGeneration

variable (newpos : Coord K) (speed : K)

def runToolheadDripSubmitMove : DripM K Unit := fun s =>
  match runtime.submitMove newpos speed s with
  | .ok a s => .ok a s
  | .error recovered s =>
    if recovered.isCommandError then
      -- the panic goes on, unless the deferred function has panicked itself
      match rearmFlushTimer runtime s with
      | .ok _ s => .error recovered s
      | .error panic s => .error panic s
    else .error recovered s

/-- `runToolheadDripFlush`.  `FinalizeDripMoves` concerns the motion queue only. -/
def runToolheadDripFlush (lazy : Bool) : DripM K Unit := fun s =>
  match runtime.flushLookaheadQueue lazy s with
  | .ok a s => .ok a s
  | .error recovered s =>
    if recovered.isDripModeEnd then .ok () { s with lookahead := s.lookahead.reset }
    else .error recovered s

/-- `RunToolheadDripMove` from the state that it has prepared. -/
def runDripMoveIn : DripM K Unit := do
  runToolheadDripSubmitMove runtime newpos speed
  runToolheadDripFlush runtime false
  rearmFlushTimer runtime

def runToolheadDripMove : DripM K Unit := do
  prepareDripMove runtime
  modify enterDrip
  runDripMoveIn runtime newpos speed

end Defs

/-! ### What a panic leaves behind -/

section

variable {K : Type} [Field K] {runtime : ToolheadDripMoveRuntime K}
  {newpos : Coord K} {speed : K} {s s₁ : Toolhead K}

theorem not_unstuck_of_asleep (h : s.Asleep) : ¬ s.Unstuck := by
  intro hs
  have htimer := h.1
  rw [hs.2] at htimer
  cases htimer

variable (runtime) in
theorem rearmFlushTimer_unstuck (s : Toolhead K) : (stateOf (rearmFlushTimer runtime s)).Unstuck :=
  runtime.flushStepGeneration_leavesDrip (s.updateFlushTimer (.at 0)) rfl

/-- If the submission panics, then with a command error. -/
def SubmitPanicsRight (runtime : ToolheadDripMoveRuntime K) (newpos : Coord K) (speed : K)
    (s : Toolhead K) : Prop :=
  ∀ panic s', runtime.submitMove newpos speed s = .error panic s' → panic.isCommandError = true

/-- If the flush after the submission panics, then at the end of the drip mode. -/
def FlushPanicsRight (runtime : ToolheadDripMoveRuntime K) (newpos : Coord K) (speed : K)
    (s : Toolhead K) : Prop :=
  ∀ s' panic s'', runtime.submitMove newpos speed s = .ok () s' →
    runtime.flushLookaheadQueue false s' = .error panic s'' → panic.isDripModeEnd = true

variable {panic : DripPanic K}

/-- After a command error the deferred function rearms the timer, and panics again or itself. -/
theorem runToolheadDripSubmitMove_rearms
    (hsubmit : runtime.submitMove newpos speed s = .error panic s₁)
    (hcommand : panic.isCommandError = true) :
    ∃ panic', runToolheadDripSubmitMove runtime newpos speed s =
      .error panic' (stateOf (rearmFlushTimer runtime s₁)) := by
  rcases hrearm : rearmFlushTimer runtime s₁ with ⟨a, s₂⟩ | ⟨panic', s₂⟩
  · exact ⟨panic, by simp [runToolheadDripSubmitMove, stateOf, hsubmit, hcommand, hrearm]⟩
  · exact ⟨panic', by simp [runToolheadDripSubmitMove, stateOf, hsubmit, hcommand, hrearm]⟩

theorem submit_error_unstuck_iff (hs : s.Asleep)
    (hsubmit : runtime.submitMove newpos speed s = .error panic s₁) :
    (stateOf (runDripMoveIn runtime newpos speed s)).Unstuck ↔ panic.isCommandError = true := by
  have hasleep : s₁.Asleep := by
    have hkeeps := runtime.submitMove_keepsAsleep newpos speed s hs
    rwa [hsubmit] at hkeeps
  by_cases hcommand : panic.isCommandError = true
  · obtain ⟨panic', hresult⟩ := runToolheadDripSubmitMove_rearms hsubmit hcommand
    rw [runDripMoveIn, bind_error hresult]
    exact ⟨fun _ => hcommand, fun _ => rearmFlushTimer_unstuck runtime s₁⟩
  · have hresult : runToolheadDripSubmitMove runtime newpos speed s = .error panic s₁ := by
      simp [runToolheadDripSubmitMove, hsubmit, hcommand]
    rw [runDripMoveIn, bind_error hresult]
    exact ⟨fun h => absurd h (not_unstuck_of_asleep hasleep), fun h => absurd h hcommand⟩

theorem flush_error_unstuck_iff {s₂ : Toolhead K} (hs : s.Asleep)
    (hsubmit : runtime.submitMove newpos speed s = .ok () s₁)
    (hflush : runtime.flushLookaheadQueue false s₁ = .error panic s₂) :
    (stateOf (runDripMoveIn runtime newpos speed s)).Unstuck ↔ panic.isDripModeEnd = true := by
  have hasleep₁ : s₁.Asleep := by
    have hkeeps := runtime.submitMove_keepsAsleep newpos speed s hs
    rwa [hsubmit] at hkeeps
  have hasleep₂ : s₂.Asleep := by
    have hkeeps := runtime.flushLookaheadQueue_keepsAsleep false s₁ hasleep₁
    rwa [hflush] at hkeeps
  have hsubmitted : runToolheadDripSubmitMove runtime newpos speed s = .ok () s₁ := by
    simp [runToolheadDripSubmitMove, hsubmit]
  rw [runDripMoveIn, bind_ok hsubmitted]
  by_cases hend : panic.isDripModeEnd = true
  · have hflushed : runToolheadDripFlush runtime false s₁ =
        .ok () { s₂ with lookahead := s₂.lookahead.reset } := by
      simp [runToolheadDripFlush, hflush, hend]
    rw [bind_ok hflushed]
    exact ⟨fun _ => hend, fun _ => rearmFlushTimer_unstuck runtime _⟩
  · have hflushed : runToolheadDripFlush runtime false s₁ = .error panic s₂ := by
      simp [runToolheadDripFlush, hflush, hend]
    rw [bind_error hflushed]
    exact ⟨fun h => absurd h (not_unstuck_of_asleep hasleep₂), fun h => absurd h hend⟩

theorem no_panic_unstuck {s₂ : Toolhead K} (hsubmit : runtime.submitMove newpos speed s = .ok () s₁)
    (hflush : runtime.flushLookaheadQueue false s₁ = .ok () s₂) :
    (stateOf (runDripMoveIn runtime newpos speed s)).Unstuck := by
  have hsubmitted : runToolheadDripSubmitMove runtime newpos speed s = .ok () s₁ := by
    simp [runToolheadDripSubmitMove, hsubmit]
  have hflushed : runToolheadDripFlush runtime false s₁ = .ok () s₂ := by
    simp [runToolheadDripFlush, hflush]
  rw [runDripMoveIn, bind_ok hsubmitted, bind_ok hflushed]
  exact rearmFlushTimer_unstuck runtime _

/-! The conditions, read off what the submission and the flush do. -/

theorem panicsRight_of_submit_error (hsubmit : runtime.submitMove newpos speed s = .error panic s₁)
    :
    SubmitPanicsRight runtime newpos speed s ∧ FlushPanicsRight runtime newpos speed s ↔
      panic.isCommandError = true := by
  refine ⟨fun h => h.1 panic s₁ hsubmit, fun hcommand => ⟨fun panic' s' h => ?_, ?_⟩⟩
  · rw [hsubmit] at h
    cases h
    exact hcommand
  · intro s' panic' s'' h
    rw [hsubmit] at h
    cases h

theorem panicsRight_of_submit_ok (hsubmit : runtime.submitMove newpos speed s = .ok () s₁) :
    SubmitPanicsRight runtime newpos speed s ∧ FlushPanicsRight runtime newpos speed s ↔
      ∀ panic s', runtime.flushLookaheadQueue false s₁ = .error panic s' →
        panic.isDripModeEnd = true := by
  refine ⟨fun h panic s' hflush => h.2 s₁ panic s' hsubmit hflush, fun hend => ⟨?_, ?_⟩⟩
  · intro panic s' h
    rw [hsubmit] at h
    cases h
  · intro s' panic s'' h hflush
    rw [hsubmit] at h
    cases h
    exact hend panic s'' hflush

/-- After a drip move that has been prepared, the toolhead is not stuck if and only if
the submission panics with nothing but a command error, and the flush with nothing but
the end of the drip mode. -/
theorem dripMove_unstuck_iff (runtime : ToolheadDripMoveRuntime K) (newpos : Coord K) (speed : K)
    {s s₁ : Toolhead K} (hprepare : prepareDripMove runtime s = .ok () s₁) :
    (stateOf (runToolheadDripMove runtime newpos speed s)).Unstuck ↔
      SubmitPanicsRight runtime newpos speed s₁.enterDrip ∧
        FlushPanicsRight runtime newpos speed s₁.enterDrip := by
  have hrun : runToolheadDripMove runtime newpos speed s =
      runDripMoveIn runtime newpos speed s₁.enterDrip := by
    rw [runToolheadDripMove, bind_ok hprepare]
    rfl
  have hasleep : s₁.enterDrip.Asleep := ⟨rfl, rfl⟩
  rw [hrun]
  rcases hsubmit : runtime.submitMove newpos speed s₁.enterDrip with ⟨⟨⟩, s₂⟩ | ⟨panic, s₂⟩
  · rw [panicsRight_of_submit_ok hsubmit]
    rcases hflush : runtime.flushLookaheadQueue false s₂ with ⟨⟨⟩, s₃⟩ | ⟨panic, s₃⟩
    · exact iff_of_true (no_panic_unstuck hsubmit hflush) nofun
    · rw [flush_error_unstuck_iff hasleep hsubmit hflush]
      refine ⟨fun hend panic' s' h => ?_, fun h => h panic s₃ rfl⟩
      cases h
      exact hend
  · rw [submit_error_unstuck_iff hasleep hsubmit, panicsRight_of_submit_error hsubmit]

end

/-! ### The flush timer -/

/-- From `th` to `th'` the flush timer is not woken, nor disarmed. -/
structure TimerKept {K : Type*} [Zero K] (th th' : Toolhead K) : Prop where
  asleep : th.Asleep → th'.Asleep
  armed : th.flushTimer = .at 0 → th'.flushTimer = .at 0

section

variable {K : Type*} [Field K] {th th₁ th₂ : Toolhead K}

theorem TimerKept.of_eq (htimer : th₁.flushTimer = th.flushTimer)
    (hkick : th₁.core.doKickFlushTimer = th.core.doKickFlushTimer) : TimerKept th th₁ where
  asleep h := ⟨htimer.trans h.1, hkick.trans h.2⟩
  armed h := htimer.trans h

theorem TimerKept.refl (th : Toolhead K) : TimerKept th th := TimerKept.of_eq rfl rfl

theorem TimerKept.trans (h : TimerKept th th₁) (h' : TimerKept th₁ th₂) : TimerKept th th₂ where
  asleep hs := h'.asleep (h.asleep hs)
  armed hs := h'.armed (h.armed hs)

/-- Only a note that finds the flag set kicks the timer. -/
theorem kick_timerKept {kicked : Bool} (htimer : th₁.flushTimer = th.flushTimer)
    (hcore : th.core.doKickFlushTimer = false → th₁.core.doKickFlushTimer = false)
    (hkicked : kicked = true → th.core.doKickFlushTimer = true) :
    TimerKept th (th₁.kick kicked) := by
  rw [kick]
  split
  · rename_i h
    refine ⟨fun hs => ?_, fun _ => rfl⟩
    have hflag := hkicked h
    rw [hs.2] at hflag
    cases hflag
  · exact ⟨fun hs => ⟨htimer.trans hs.1, hcore hs.2⟩, fun hs => htimer.trans hs⟩

variable [LinearOrder K]

section

variable (th : Toolhead K)

theorem noteMcu_timerKept (activity : Activity K) :
    TimerKept th (th.noteMcuMovequeueActivity activity) :=
  kick_timerKept rfl (fun _ => rfl) id

theorem advanced_timerKept {f : ToolheadTimingState K → ToolheadTimingState K × FlushTrace K}
    (hf : KeepsNotes th.core.timingState (f th.core.timingState).1) :
    TimerKept th (th.advanced (th.core.onCopy f)) := by
  refine kick_timerKept rfl ?_ fun h => ((noteAll_kicked _ _).mp h).2
  exact fun h => hf.2.2.trans h

theorem advanceFlushTime_timerKept (env : Env K) (flushTime : K) :
    TimerKept th (th.advanceFlushTime env flushTime) :=
  advanced_timerKept th (advanceFlushTime_keepsNotes _ _ _ _)

end

variable [FloorRing K] [IsStrictOrderedRing K]

theorem advanceMoveTime_timerKept (th : Toolhead K) (env : Env K) (nextPrintTime : K) :
    TimerKept th (th.advanceMoveTime env nextPrintTime) :=
  advanced_timerKept th
    (advanceMoveTime_keepsNotes _ _ defaultTimingConfig_moveBatchTime_pos _)

theorem keptByMoves_timerKept (env : Env K) : KeptByMoves env (TimerKept (K := K)) where
  refl := TimerKept.refl
  trans := TimerKept.trans
  noteMcu := noteMcu_timerKept
  calcPrintTime th := by
    refine TimerKept.of_eq rfl ?_
    show (th.core.timingState.calcPrintTime defaultTimingConfig env.source).doKickFlushTimer = _
    rw [calcPrintTime_eq]
    rfl
  advanceMoveTime th := advanceMoveTime_timerKept th env
  logBatch _ _ := TimerKept.of_eq rfl rfl
  leaveSpecial _ := TimerKept.of_eq rfl rfl
  lookahead _ _ := TimerKept.of_eq rfl rfl
  resetAfterFlush _ _ := TimerKept.of_eq rfl rfl
  advanceFlushTime th := advanceFlushTime_timerKept th env
  restartAfter _ _ := TimerKept.of_eq rfl rfl
  commandedPos _ _ := TimerKept.of_eq rfl rfl
  checkPause th := by
    rw [Toolhead.checkPause, runPauseCheck]
    split <;> exact TimerKept.of_eq rfl rfl

variable [HasSqrt K]

/-- `FlushStepGeneration` begins with a queuing state that is not `Drip`, and then does
not panic. -/
theorem flushStepGeneration_special (th : Toolhead K) (env : Env K) :
    (ToolheadM.state (th.flushStepGeneration env)).core.specialQueuingState ≠ .drip := by
  have hflush : Returns (th.flushLookahead env) fun th' =>
      th'.core.specialQueuingState ≠ .drip := by
    by_cases hq : th.lookahead.queue = []
    · rw [flushLookahead_empty hq]
      refine returns_ok ?_
      simp [Toolhead.reset, ToolheadCoreState.resetAfterLookaheadFlush, buildToolheadFlushReset]
    · refine (flushLookahead_batch hq).mono fun th' h => ?_
      simp [h.2.special_eq]
  obtain ⟨th', hth', hspecial⟩ := hflush
  rw [Toolhead.flushStepGeneration, hth']
  show (th'.advanceFlushTime env th'.core.stepGenTime).core.specialQueuingState ≠ .drip
  rw [(advanceFlushTime_retimed th' env _).special_eq]
  exact hspecial

end

/-! ### The toolhead -/

section

variable {K : Type} [Field K] [LinearOrder K] [FloorRing K] [HasSqrt K]
  (op : Toolhead K → ToolheadM K (Toolhead K))

/-- An operation of the toolhead in a drip move. -/
def inDrip : DripM K Unit := fun s =>
  match op s with
  | .ok s => .ok () s
  | .error (panic, s) => .error (.toolhead panic) s

omit [Field K] [LinearOrder K] [FloorRing K] [HasSqrt K] in
theorem stateOf_inDrip (s : Toolhead K) : stateOf (inDrip op s) = ToolheadM.state (op s) := by
  rw [inDrip]
  rcases op s with ⟨panic, s'⟩ | s' <;> rfl

variable [IsStrictOrderedRing K]

def toolheadRuntime (env : Env K) : ToolheadDripMoveRuntime K where
  dwell delay := inDrip fun self => self.dwell env delay
  flushLookaheadQueue lazy := inDrip fun self => self.flushQueue env lazy
  submitMove newpos speed := inDrip fun self => self.move env newpos speed
  flushStepGeneration := inDrip fun self => self.flushStepGeneration env
  submitMove_keepsAsleep newpos speed s hs := by
    rw [stateOf_inDrip]
    exact ((keptByMoves_timerKept env).move s newpos speed).asleep hs
  flushLookaheadQueue_keepsAsleep lazy s hs := by
    rw [stateOf_inDrip]
    exact ((keptByMoves_timerKept env).flushQueue s lazy).asleep hs
  flushStepGeneration_leavesDrip s hs := by
    rw [stateOf_inDrip]
    exact ⟨flushStepGeneration_special s env,
      ((keptByMoves_timerKept env).flushStepGeneration s).armed hs⟩

variable {env : Env K}

/-- The drip move finds the look-ahead queue empty. -/
theorem prepareDripMove_empty {s s₁ : Toolhead K}
    (h : prepareDripMove (toolheadRuntime env) s = .ok () s₁) : s₁.lookahead.queue = [] := by
  rw [prepareDripMove, bind_get] at h
  rcases hdwell : (toolheadRuntime env).dwell s.core.kinFlushDelay s with ⟨⟨⟩, s₂⟩ | ⟨panic, s₂⟩
  · rw [bind_ok hdwell] at h
    rcases hflush : s₂.flushQueue env false with e | out
    · simp [toolheadRuntime, inDrip, hflush] at h
    · simp only [toolheadRuntime, inDrip, hflush] at h
      cases h
      rw [flushQueue, flush_full] at hflush
      split at hflush
      · cases hflush
        rfl
      · obtain ⟨out, -, hout⟩ := bind_eq_ok hflush
        cases hout
        rfl
  · rw [bind_error hdwell] at h
    cases h

/-- With an empty queue, the submission panics when the kinematics refuses the move,
with what it refuses it with. -/
theorem toolheadRuntime_submit_error {newpos : Coord K} {speed : K} {s s' : Toolhead K}
    {panic : DripPanic K} (hempty : s.lookahead.queue = [])
    (h : (toolheadRuntime env).submitMove newpos speed s = .error panic s') :
    (newMove s.core.moveConfig s.core.commandedPos newpos speed).moveD ≠ 0 ∧
      ∃ err, s.checkedMove env newpos speed = .error err ∧
        panic = .toolhead (.moveError err) := by
  simp only [toolheadRuntime, inDrip] at h
  rw [Toolhead.move] at h
  by_cases hmove : (newMove s.core.moveConfig s.core.commandedPos newpos speed).moveD = 0
  · rw [if_pos hmove] at h
    cases h
  · rw [if_neg hmove] at h
    rcases hcheck : s.checkedMove env newpos speed with err | move
    · rw [hcheck] at h
      cases h
      exact ⟨hmove, err, rfl, rfl⟩
    · -- the first move of a queue does not flush it
      have hadd : (s.lookahead.addMove move env.extruder).2 = false := by
        simp [LookAheadQueue.addMove, hempty]
      rw [hcheck] at h
      simp [Toolhead.queueMove, hadd, bind, Except.bind] at h

omit [HasSqrt K] [IsStrictOrderedRing K] in
/-- A flush panics at the end of the drip mode only. -/
theorem updateToolheadDripTime_error {nextPrintTime flushDelay : K} {config : ToolheadDripConfig K}
    {polls : List (DripPoll K)} {th : Toolhead K} {e : ToolheadPanic K × Toolhead K}
    (h : updateToolheadDripTime env nextPrintTime flushDelay config polls th = .error e) :
    e.1 = .dripModeEnd := by
  induction polls generalizing th with
  | nil =>
    rw [updateToolheadDripTime] at h
    split at h <;> cases h
    rfl
  | cons poll polls ih =>
    rw [updateToolheadDripTime] at h
    split at h
    · split at h
      · cases h
        rfl
      · dsimp only at h
        split at h <;> exact ih h
    · cases h

theorem toolheadRuntime_flush_error {lazy : Bool} {s s' : Toolhead K} {panic : DripPanic K}
    (h : (toolheadRuntime env).flushLookaheadQueue lazy s = .error panic s') :
    panic.isDripModeEnd = true := by
  simp only [toolheadRuntime, inDrip] at h
  rcases hflush : s.flushQueue env lazy with e | out
  · have hend : e.1 = .dripModeEnd := by
      rw [flushQueue] at hflush
      split at hflush
      · cases hflush
      · rcases bind_eq_error hflush with hmoves | ⟨_, -, hok⟩
        · rcases bind_eq_error hmoves with hdrip | ⟨_, -, hok⟩
          · rw [dripBatch] at hdrip
            split at hdrip
            · cases hdrip
            · exact updateToolheadDripTime_error hdrip
          · cases hok
        · cases hok
    rw [hflush] at h
    cases h
    rw [hend]
    rfl
  · rw [hflush] at h
    cases h

/-- So the toolhead comes out of a drip move unless the kinematics refuses it. -/
theorem toolheadRuntime_panicsRight_iff {newpos : Coord K} {speed : K} {s s₁ : Toolhead K}
    (hprepare : prepareDripMove (toolheadRuntime env) s = .ok () s₁) :
    SubmitPanicsRight (toolheadRuntime env) newpos speed s₁.enterDrip ∧
        FlushPanicsRight (toolheadRuntime env) newpos speed s₁.enterDrip ↔
      (newMove s₁.core.moveConfig s₁.core.commandedPos newpos speed).moveD = 0 ∨
        ∃ move, s₁.checkedMove env newpos speed = .ok move := by
  have hqueue := prepareDripMove_empty hprepare
  have hempty : s₁.enterDrip.lookahead.queue = [] := hqueue
  have hflush : FlushPanicsRight (toolheadRuntime env) newpos speed s₁.enterDrip :=
    fun _ _ _ _ h => toolheadRuntime_flush_error h
  rw [and_iff_left hflush]
  constructor
  · intro hright
    by_contra hrefused
    push Not at hrefused
    obtain ⟨hmove, hcheck⟩ := hrefused
    rcases herr : s₁.checkedMove env newpos speed with err | move
    · have hpanic : (toolheadRuntime env).submitMove newpos speed s₁.enterDrip =
          .error (.toolhead (.moveError err)) s₁.enterDrip := by
        have herr' : s₁.enterDrip.checkedMove env newpos speed = .error err := herr
        have hmove' : (newMove s₁.enterDrip.core.moveConfig s₁.enterDrip.core.commandedPos newpos
          speed).moveD ≠ 0 := hmove
        simp only [toolheadRuntime, inDrip, Toolhead.move, if_neg hmove', herr']
      cases hright _ _ hpanic
    · exact hcheck move herr
  · intro haccepted panic s' h
    obtain ⟨hmove, err, hcheck, -⟩ := toolheadRuntime_submit_error hempty h
    rcases haccepted with hzero | ⟨move, hok⟩
    · exact absurd hzero hmove
    · exact absurd (hcheck.symm.trans hok) (by simp)

end

/-- A printer that was just started refuses the drip move; the toolhead stays in the
state `Drip` and the flush timer asleep. -/
theorem dripMove_refused : ¬ (stateOf (runToolheadDripMove
    (toolheadRuntime
      { quietEnv (0 : ℚ) with checkKinematicMove := startedMachine.kinematics.checkMove })
    (fun i => if i = 0 then 1 else 0) 1 (newToolhead unitSettings true))).Unstuck := by
  decide +kernel

/-- A kinematics that accepts every move: the drip move ends with the toolhead unstuck. -/
theorem dripMove_unstuck_quiet : ∃ s₁,
    prepareDripMove (toolheadRuntime (quietEnv (0 : ℚ))) (newToolhead unitSettings true) =
      .ok () s₁ ∧
    (stateOf (runToolheadDripMove (toolheadRuntime (quietEnv (0 : ℚ))) (fun _ => 1) 1
      (newToolhead unitSettings true))).Unstuck := by
  have hok : (match prepareDripMove (toolheadRuntime (quietEnv (0 : ℚ)))
      (newToolhead unitSettings true) with
    | .ok _ _ => true
    | .error _ _ => false) = true := by decide +kernel
  rcases hprepare : prepareDripMove (toolheadRuntime (quietEnv (0 : ℚ)))
    (newToolhead unitSettings true) with ⟨⟨⟩, s₁⟩ | ⟨panic, s₁⟩
  · refine ⟨s₁, rfl, (dripMove_unstuck_iff _ _ _ hprepare).mpr ?_⟩
    refine (toolheadRuntime_panicsRight_iff hprepare).mpr (.inr ?_)
    rw [checkedMove]
    split <;> exact ⟨_, rfl⟩
  · rw [hprepare] at hok
    cases hok

end Motion
