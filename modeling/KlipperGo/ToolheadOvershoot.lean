/-
The drip loop (`UpdateToolheadDripTime` of `internal/pkg/motion/toolhead_drip.go`).

While an endstop is watched, the print time is moved on in segments, and only when the
machine has nearly caught up: then a move that is to stop has not been planned far beyond
the place where it is.  A pass of the loop is a `DripPass`, and `dripRun` repeats the passes
over what they see and logs the advances of the print time:

* `updateToolheadDripTime_eq` — the loop is the repetition of its passes.
-/
import KlipperGo.ToolheadTimers

open ExactArith Outcome

namespace Motion

open Toolhead

variable {K : Type*} [Field K] [LinearOrder K]

/-- What a pass of the loop does. -/
inductive DripPass (K : Type*)
  | reached
  | ended
  | waited
  | advanced (self : Toolhead K)

/-- An advance of the print time, with the estimate that it was decided on. -/
structure DripAdvance (K : Type*) where
  estPrintTime : K
  before : K
  after : K

inductive DripStatus
  | reached
  | ended
  | running
deriving DecidableEq, Repr

structure DripRun (K : Type*) where
  status : DripStatus
  advances : List (DripAdvance K)
  toolhead : Toolhead K

section Defs

variable [FloorRing K]

/-- The body of the loop. -/
def Toolhead.dripPass (env : Env K) (nextPrintTime flushDelay : K) (config : ToolheadDripConfig K)
    (poll : DripPoll K) (self : Toolhead K) : DripPass K :=
  if self.core.printTime < nextPrintTime then
    if poll.triggered then .ended
    else if 0 < self.core.printTime - poll.estPrintTime - flushDelay ∧
        self.core.canPause = true then
      .waited
    else
      let nextSegmentPrintTime := min (self.core.printTime + config.dripSegmentTime) nextPrintTime
      .advanced ((self.noteMcuMovequeueActivity
        { mqTime := nextSegmentPrintTime + self.core.kinFlushDelay
          setStepGenTime := true }).advanceMoveTime env nextSegmentPrintTime)
  else .reached

/-- The passes over what they see, with the advances they make. -/
def Toolhead.dripRun (env : Env K) (nextPrintTime flushDelay : K) (config : ToolheadDripConfig K) :
    List (DripPoll K) → Toolhead K → DripRun K
  | [], self =>
    { status := if self.core.printTime < nextPrintTime then .running else .reached
      advances := [], toolhead := self }
  | poll :: polls, self =>
    match self.dripPass env nextPrintTime flushDelay config poll with
    | .reached => { status := .reached, advances := [], toolhead := self }
    | .ended => { status := .ended, advances := [], toolhead := self }
    | .waited => self.dripRun env nextPrintTime flushDelay config polls
    | .advanced next =>
      let run := next.dripRun env nextPrintTime flushDelay config polls
      { run with
        advances := ⟨poll.estPrintTime, self.core.printTime, next.core.printTime⟩ :: run.advances }

end Defs

section

variable [FloorRing K] {env : Env K} {nextPrintTime flushDelay : K} {config : ToolheadDripConfig K}
  {th : Toolhead K}

/-! ### The loop and its passes -/

variable (polls : List (DripPoll K))

theorem updateToolheadDripTime_eq (th : Toolhead K) :
    updateToolheadDripTime env nextPrintTime flushDelay config polls th =
      let run := th.dripRun env nextPrintTime flushDelay config polls
      if run.status = .reached then .ok run.toolhead else .error (.dripModeEnd, run.toolhead) := by
  induction polls generalizing th with
  | nil =>
    rw [updateToolheadDripTime, dripRun]
    by_cases hprint : th.core.printTime < nextPrintTime <;> simp [hprint]
  | cons poll polls ih =>
    rw [updateToolheadDripTime, dripRun, dripPass]
    by_cases hprint : th.core.printTime < nextPrintTime
    · rw [if_pos hprint, if_pos hprint]
      by_cases htriggered : poll.triggered = true
      · rw [if_pos htriggered, if_pos htriggered]
        rfl
      · rw [if_neg htriggered, if_neg htriggered]
        dsimp only
        split
        · exact ih th
        · exact ih _
    · rw [if_neg hprint, if_neg hprint]
      rfl

/-- A pass ends the loop early just if it sees the completion triggered before the requested
time is reached. -/
theorem dripPass_ended_iff (poll : DripPoll K) (th : Toolhead K) :
    th.dripPass env nextPrintTime flushDelay config poll = .ended ↔
      th.core.printTime < nextPrintTime ∧ poll.triggered = true := by
  rw [dripPass]
  split
  · next hprint =>
    split
    · next htriggered => exact iff_of_true rfl ⟨hprint, htriggered⟩
    · next htriggered =>
      refine iff_of_false ?_ fun h => htriggered h.2
      split <;> exact nofun
  · next hprint => exact iff_of_false nofun fun h => hprint h.1

theorem dripRun_nil_running_iff (th : Toolhead K) :
    (th.dripRun env nextPrintTime flushDelay config []).status = .running ↔
      th.core.printTime < nextPrintTime := by
  rw [dripRun]
  by_cases hprint : th.core.printTime < nextPrintTime <;> simp [hprint]

/-- The loop ends early exactly when one of the passes sees the completion triggered: until
then it has been running, so that the requested time has not been reached. -/
theorem dripRun_ended_iff (th : Toolhead K) :
    (th.dripRun env nextPrintTime flushDelay config polls).status = .ended ↔
      ∃ before poll after, polls = before ++ poll :: after ∧ poll.triggered = true ∧
        (th.dripRun env nextPrintTime flushDelay config before).status = .running := by
  induction polls generalizing th with
  | nil =>
    refine iff_of_false ?_ (by simp)
    rw [dripRun]
    split <;> exact nofun
  | cons poll polls ih =>
    -- either this pass sees it, or a later one
    have hsplit : (∃ before poll' after, poll :: polls = before ++ poll' :: after ∧
        poll'.triggered = true ∧
        (th.dripRun env nextPrintTime flushDelay config before).status = .running) ↔
        th.dripPass env nextPrintTime flushDelay config poll = .ended ∨
        ∃ before poll' after, polls = before ++ poll' :: after ∧ poll'.triggered = true ∧
          (th.dripRun env nextPrintTime flushDelay config (poll :: before)).status = .running := by
      rw [dripPass_ended_iff]
      constructor
      · rintro ⟨_ | ⟨first, before⟩, poll', after, heq, htriggered, hrunning⟩
        · obtain ⟨rfl, -⟩ := List.cons.inj heq
          exact .inl ⟨(dripRun_nil_running_iff th).mp hrunning, htriggered⟩
        · obtain ⟨rfl, rfl⟩ := List.cons.inj heq
          exact .inr ⟨before, poll', after, rfl, htriggered, hrunning⟩
      · rintro (⟨hprint, htriggered⟩ | ⟨before, poll', after, rfl, htriggered, hrunning⟩)
        · exact ⟨[], poll, polls, rfl, htriggered, (dripRun_nil_running_iff th).mpr hprint⟩
        · exact ⟨poll :: before, poll', after, rfl, htriggered, hrunning⟩
    rw [hsplit, dripRun]
    cases hpass : th.dripPass env nextPrintTime flushDelay config poll with
    | reached => simp [dripRun, hpass]
    | ended => simp
    | waited => simpa [dripRun, hpass] using ih th
    | advanced next => simpa [dripRun, hpass] using ih next

/-! ### Advances -/

/-- The advance is decided on when the print time is at most the lead time ahead of the
estimate, is at most one segment long, and does not go beyond the requested time. -/
structure DripAdvance.Bounded (nextPrintTime lead segment : K) (a : DripAdvance K) : Prop where
  lead_le : a.before - a.estPrintTime ≤ lead
  before_lt : a.before < nextPrintTime
  before_le : a.before ≤ a.after
  segment_le : a.after - a.before ≤ segment
  after_le : a.after ≤ nextPrintTime

/-- The advances lead from one print time to another, each from where the last one ended. -/
def DripLinked : K → List (DripAdvance K) → K → Prop
  | printTime, [], final => printTime = final
  | printTime, a :: advances, final => a.before = printTime ∧ DripLinked a.after advances final

variable [IsStrictOrderedRing K]

/-- What a pass with an advance does to the toolhead. -/
theorem dripPass_advanced {poll : DripPoll K} {next : Toolhead K}
    (hpause : th.core.canPause = true) (hsegment : 0 ≤ config.dripSegmentTime)
    (h : th.dripPass env nextPrintTime flushDelay config poll = .advanced next) :
    DripAdvance.Bounded nextPrintTime flushDelay config.dripSegmentTime
        ⟨poll.estPrintTime, th.core.printTime, next.core.printTime⟩ ∧
      next.core.canPause = true := by
  rw [dripPass] at h
  split at h
  · next hprint =>
    split at h
    · cases h
    · split at h
      · cases h
      · next hwait =>
        injection h with h
        set segment := min (th.core.printTime + config.dripSegmentTime) nextPrintTime with hseg
        have hnote := noteMcu_retimed th
          { mqTime := segment + th.core.kinFlushDelay, setStepGenTime := true }
        obtain ⟨ts, -, hmove⟩ := advanceMoveTime_retimed (th.noteMcuMovequeueActivity
          { mqTime := segment + th.core.kinFlushDelay, setStepGenTime := true }) env segment
        rw [hnote.timing_eq, h] at hmove
        have hafter : next.core.printTime = max th.core.printTime segment := by
          rw [hmove.core_eq]
          rfl
        have hcan : next.core.canPause = true := by
          rw [hmove.core_eq]
          exact hpause
        have hle := le_min (le_add_of_nonneg_right hsegment) hprint.le
        rw [max_eq_right hle] at hafter
        -- pausing is allowed, so the pass has not waited because it need not
        have hlead := not_lt.mp fun hpos => hwait ⟨hpos, hpause⟩
        refine ⟨⟨by linarith, hprint, hafter ▸ hle, ?_, hafter ▸ min_le_right _ _⟩, hcan⟩
        rw [hafter, sub_le_iff_le_add']
        exact min_le_left _ _
  · cases h

/-- Over any passes the advances are bounded, and link the print times before and after. -/
theorem dripRun_advances (hsegment : 0 ≤ config.dripSegmentTime) (polls : List (DripPoll K))
    (th : Toolhead K) (hpause : th.core.canPause = true) :
    let run := th.dripRun env nextPrintTime flushDelay config polls
    (∀ a ∈ run.advances, a.Bounded nextPrintTime flushDelay config.dripSegmentTime) ∧
      DripLinked th.core.printTime run.advances run.toolhead.core.printTime := by
  induction polls generalizing th with
  | nil => exact ⟨by simp [dripRun], rfl⟩
  | cons poll polls ih =>
    rw [dripRun]
    cases hpass : th.dripPass env nextPrintTime flushDelay config poll with
    | reached => exact ⟨by simp, rfl⟩
    | ended => exact ⟨by simp, rfl⟩
    | waited => exact ih th hpause
    | advanced next =>
      obtain ⟨hbounded, hcan⟩ := dripPass_advanced hpause hsegment hpass
      obtain ⟨hall, hlinked⟩ := ih next hcan
      exact ⟨List.forall_mem_cons.mpr ⟨hbounded, hall⟩, rfl, hlinked⟩

omit [FloorRing K] [IsStrictOrderedRing K] [Field K] [LinearOrder K] in
/-- The print time that linked advances lead to is the one after the last of them. -/
theorem DripLinked.last {printTime final : K} {advances : List (DripAdvance K)} {a : DripAdvance K}
    (h : DripLinked printTime advances final) (hlast : advances.getLast? = some a) :
    a.after = final := by
  induction advances generalizing printTime with
  | nil => simp at hlast
  | cons b advances ih =>
    cases advances with
    | nil =>
      obtain rfl : b = a := by simpa using hlast
      exact h.2
    | cons c advances => exact ih h.2 (by simpa using hlast)

omit [IsStrictOrderedRing K] in
/-- The loop has not come to its end just if the completion is triggered at one of the passes,
or after them. -/
theorem dripRun_not_reached_iff (th : Toolhead K) :
    (th.dripRun env nextPrintTime flushDelay config polls).status ≠ .reached ↔
      ∃ before after, polls = before ++ after ∧ (∀ poll ∈ after.head?, poll.triggered = true) ∧
        (th.dripRun env nextPrintTime flushDelay config before).status = .running := by
  have hcases : (th.dripRun env nextPrintTime flushDelay config polls).status ≠ .reached ↔
      (th.dripRun env nextPrintTime flushDelay config polls).status = .running ∨
        (th.dripRun env nextPrintTime flushDelay config polls).status = .ended := by
    cases (th.dripRun env nextPrintTime flushDelay config polls).status <;> simp
  rw [hcases, dripRun_ended_iff]
  constructor
  · rintro (hrunning | ⟨before, poll, after, rfl, htriggered, hrunning⟩)
    · exact ⟨polls, [], (List.append_nil _).symm, by simp, hrunning⟩
    · exact ⟨before, poll :: after, rfl, by simpa using htriggered, hrunning⟩
  · rintro ⟨before, _ | ⟨poll, after⟩, rfl, htriggered, hrunning⟩
    · exact .inl (by rwa [List.append_nil])
    · exact .inr ⟨before, poll, after, rfl, htriggered poll rfl, hrunning⟩

/-- With pausing allowed, whatever the passes of the loop see: it returns the drip-end error
exactly when the completion is triggered at a pass before the requested time is reached (after
the last of `polls` it counts as triggered); every advance is bounded by the lead time and the
segment; the advances make up the change of the print time; and after the last of them the
print time exceeds the estimate by at most the lead time plus a segment. -/
theorem dripTime_overshoot (env : Env K) (nextPrintTime : K) (config : ToolheadDripConfig K)
    (hsegment : 0 ≤ config.dripSegmentTime) (polls : List (DripPoll K)) (th : Toolhead K)
    (hpause : th.core.canPause = true) :
    let lead := config.dripTime + config.stepcompressFlushTime + th.core.kinFlushDelay
    let result := updateToolheadDripTime env nextPrintTime lead config polls th
    let run := th.dripRun env nextPrintTime lead config polls
    ToolheadM.state result = run.toolhead ∧
      ((∃ th', result = .error (.dripModeEnd, th')) ↔ ∃ before after, polls = before ++ after ∧
        (∀ poll ∈ after.head?, poll.triggered = true) ∧
        (th.dripRun env nextPrintTime lead config before).status = .running) ∧
      (∀ a ∈ run.advances, a.Bounded nextPrintTime lead config.dripSegmentTime) ∧
      DripLinked th.core.printTime run.advances run.toolhead.core.printTime ∧
      ∀ a, run.advances.getLast? = some a →
        run.toolhead.core.printTime - a.estPrintTime ≤ lead + config.dripSegmentTime := by
  intro lead result run
  have hresult : result = if run.status = .reached then .ok run.toolhead
      else .error (.dripModeEnd, run.toolhead) := updateToolheadDripTime_eq polls th
  obtain ⟨hbounded, hlinked⟩ : (∀ a ∈ run.advances, a.Bounded nextPrintTime lead _) ∧
      DripLinked th.core.printTime run.advances run.toolhead.core.printTime :=
    dripRun_advances hsegment polls th hpause
  refine ⟨?_, ?_, hbounded, hlinked, fun a hlast => ?_⟩
  · rw [hresult]
    split <;> rfl
  · rw [← dripRun_not_reached_iff, hresult]
    by_cases hreached : run.status = .reached
    · rw [if_pos hreached]
      exact iff_of_false nofun (not_not_intro hreached)
    · rw [if_neg hreached]
      exact iff_of_true ⟨_, rfl⟩ hreached
  · have ha := hbounded a (List.mem_of_getLast? hlast)
    have hfinal := hlinked.last hlast
    have hlead := ha.lead_le
    have hseg := ha.segment_le
    linarith

end

/-- Two passes over a clock that stands still: a segment, and then the completion. -/
theorem dripTime_overshoot_segment :
    let th : Toolhead ℚ := newToolhead unitSettings true
    let polls : List (DripPoll ℚ) := [⟨false, 0⟩, ⟨true, 0⟩]
    let run := th.dripRun (quietEnv 0) 1 (151 / 1000) defaultDripConfig polls
    th.core.canPause = true ∧ run.status = .ended ∧ run.advances.length = 1 ∧
      ∀ a ∈ run.advances, a.Bounded 1 (151 / 1000) (1 / 20) := by
  intro th polls run
  have hlead : (defaultDripConfig : ToolheadDripConfig ℚ).dripTime +
      (defaultDripConfig : ToolheadDripConfig ℚ).stepcompressFlushTime + th.core.kinFlushDelay =
        151 / 1000 := by decide +kernel
  have hdrip := dripTime_overshoot (quietEnv 0) 1 defaultDripConfig (by decide +kernel) polls th rfl
  rw [hlead] at hdrip
  exact ⟨rfl, by decide +kernel, by decide +kernel, hdrip.2.2.1⟩

end Motion
