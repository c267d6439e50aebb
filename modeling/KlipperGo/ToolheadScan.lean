/-
The scan delays of the step generators
(`ToolheadTimingState.UpdateStepGenerationScanDelay` of
`internal/pkg/motion/toolhead_runtime.go`, `Toolhead.Note_step_generation_scan_time` of
`project/goklipper.go`).

A step generator that looks ahead or back in time registers its delay, and replaces or
removes it later.  The toolhead keeps the delays in a list, and from it the kinematic
flush delay.  Seen from outside the list is a multiset (`registered`), and the flush delay
should be the largest of the built-in minimum and the registered delays plus their offset.
The update starts from zero, not from that minimum:

* `scanDelays_faithful_iff` — the flush delay is the right one, not below its initial
  value, and restored when a delay is added and removed again, exactly when some
  registered delay is not negative.
-/
import KlipperGo.ToolheadTimers

open ExactArith Outcome

namespace Motion

open Multiset

variable {K : Type*} [Field K] [LinearOrder K]

/-- `DefaultSdsCheckTime`, the flush delay a toolhead starts with. -/
def defaultSdsCheckTime : K := 1 / 1000

/-! ### Delays as a multiset -/

/-- A call of `Note_step_generation_scan_time`. -/
structure ScanCall (K : Type*) where
  delay : K
  oldDelay : K

/-- What a call does to the registered delays; zero stands for no delay. -/
def register (delays : Multiset K) (call : ScanCall K) : Multiset K :=
  (if call.oldDelay ≠ 0 then delays.erase call.oldDelay else delays) +
    if call.delay ≠ 0 then {call.delay} else 0

def registered (calls : List (ScanCall K)) : Multiset K := calls.foldl register 0

/-- The largest of `minimum` and the delays plus their offset. -/
def largestDelay (minimum : K) (delays : Multiset K) : K :=
  (delays.map (· + (defaultTimingConfig : ToolheadTimingConfig K).scanTimeOffset)).fold max minimum

section

variable {minimum d : K} {delays : Multiset K}

theorem largestDelay_cons : largestDelay minimum (d ::ₘ delays) =
    max (d + (defaultTimingConfig : ToolheadTimingConfig K).scanTimeOffset)
      (largestDelay minimum delays) := by
  rw [largestDelay, map_cons, fold_cons_left]
  rfl

theorem le_largestDelay_iff {a : K} : a ≤ largestDelay minimum delays ↔ a ≤ minimum ∨
    ∃ d ∈ delays, a ≤ d + (defaultTimingConfig : ToolheadTimingConfig K).scanTimeOffset := by
  induction delays using Multiset.induction with
  | empty => simp [largestDelay]
  | cons d delays ih =>
    rw [largestDelay_cons, le_max_iff, ih]
    simp only [mem_cons, exists_eq_or_imp]
    tauto

/-- A minimum can be taken into account at the end. -/
theorem largestDelay_eq_max (hmin : 0 ≤ minimum) :
    largestDelay minimum delays = max minimum (largestDelay 0 delays) := by
  induction delays using Multiset.induction with
  | empty => exact (max_eq_left hmin).symm
  | cons d delays ih => rw [largestDelay_cons, largestDelay_cons, ih, max_left_comm]

/-- A delay that is registered and then removed leaves the others. -/
theorem register_restores (hd : d ≠ 0) (delays : Multiset K) :
    register (register delays ⟨d, 0⟩) ⟨0, d⟩ = delays := by
  have hadd : register delays ⟨d, 0⟩ = d ::ₘ delays := by
    simp [register, hd, add_comm delays, singleton_add]
  rw [hadd]
  simp [register, hd]

/-! ### The list of the toolhead -/

/-- The update handles the list as the multiset of its entries, and looks for the largest
delay from zero on. -/
theorem updateStepGenerationScanDelay_spec (st : ToolheadTimingState K) (call : ScanCall K) :
    let st' := st.updateStepGenerationScanDelay call.delay call.oldDelay defaultTimingConfig
    (st'.kinFlushTimes : Multiset K) = register st.kinFlushTimes call ∧
      st'.kinFlushDelay = largestDelay 0 (register st.kinFlushTimes call) := by
  intro st'
  have htimes : (st'.kinFlushTimes : Multiset K) = register st.kinFlushTimes call := by
    show ((if call.delay ≠ 0 then _ ++ [call.delay] else _ : List K) : Multiset K) = _
    rw [register]
    by_cases hold : call.oldDelay = 0 <;> by_cases hnew : call.delay = 0 <;>
      simp [hold, hnew, ← coe_add]
  refine ⟨htimes, ?_⟩
  rw [← htimes, largestDelay, map_coe, coe_fold_l, List.foldl_map]
  -- the comparison of the loop is the maximum
  refine congrArg (fun f => List.foldl f 0 st'.kinFlushTimes) ?_
  funext newDelay value
  rw [max_def_lt]

/-! ### Runs -/

def scanCalls (events : List (ToolheadEvent K)) : List (ScanCall K) :=
  events.filterMap fun e => match e.op with
    | .noteStepGenerationScanTime delay oldDelay => some ⟨delay, oldDelay⟩
    | _ => none

end

/-- From `th` to `th'` the flush delay and the list it comes from have not changed. -/
def KinKept (th th' : Toolhead K) : Prop :=
  th'.core.kinFlushDelay = th.core.kinFlushDelay ∧ th'.core.kinFlushTimes = th.core.kinFlushTimes

section

variable {th th₁ th₂ : Toolhead K}

omit [Field K] [LinearOrder K] in
theorem KinKept.trans (h : KinKept th th₁) (h' : KinKept th₁ th₂) : KinKept th th₂ :=
  ⟨h'.1.trans h.1, h'.2.trans h.2⟩

omit [Field K] [LinearOrder K] in
theorem Retimed.kinKept {t : ToolheadTimingState K} {ts : List K} (h : Retimed th t ts th₁)
    (hdelay : t.kinFlushDelay = th.core.kinFlushDelay)
    (htimes : t.kinFlushTimes = th.core.kinFlushTimes) : KinKept th th₁ := by
  rw [KinKept, h.core_eq]
  exact ⟨hdelay, htimes⟩

variable (th : Toolhead K)

theorem runPauseCheck_kinKept (start : ToolheadPauseState K)
    (result : ToolheadPauseResult K) (eventtime estPrintTime : K) :
    KinKept th (th.runPauseCheck start result eventtime estPrintTime) := by
  rw [Toolhead.runPauseCheck]
  split <;> exact ⟨rfl, rfl⟩

theorem resume_kinKept (env : Env K) (i : ℕ) : KinKept th (th.resume env i) := by
  rw [Toolhead.resume]
  split
  · exact ⟨rfl, rfl⟩
  · exact runPauseCheck_kinKept _ _ _ _ _

variable [FloorRing K] [IsStrictOrderedRing K]

theorem keptBySteps_kinKept (env : Env K) : KeptBySteps env (KinKept (K := K)) where
  refl _ := ⟨rfl, rfl⟩
  trans := KinKept.trans
  noteMcu th activity := (noteMcu_retimed th activity).kinKept rfl rfl
  calcPrintTime th := by
    refine (calcPrintTime_retimed th env).kinKept ?_ ?_ <;> rw [calcPrintTime_eq] <;> rfl
  advanceMoveTime th nextPrintTime := by
    obtain ⟨ts, -, h⟩ := advanceMoveTime_retimed th env nextPrintTime
    exact h.kinKept rfl rfl
  logBatch _ _ := ⟨rfl, rfl⟩
  leaveSpecial _ := ⟨rfl, rfl⟩
  lookahead _ _ := ⟨rfl, rfl⟩
  resetAfterFlush _ _ := ⟨rfl, rfl⟩
  advanceFlushTime th flushTime := (advanceFlushTime_retimed th env flushTime).kinKept rfl rfl
  restartAfter _ _ := ⟨rfl, rfl⟩
  commandedPos _ _ := ⟨rfl, rfl⟩
  checkPause th := runPauseCheck_kinKept th _ _ _ _
  primingTimer _ _ := ⟨rfl, rfl⟩
  flushTimer _ _ := ⟨rfl, rfl⟩
  checkStallTime _ _ := ⟨rfl, rfl⟩
  kickFlushTimer _ := ⟨rfl, rfl⟩
  handleShutdown _ := ⟨rfl, rfl⟩

variable [HasSqrt K]

/-- A call first flushes, which always comes back, and then updates the list. -/
theorem noteStepGenerationScanTime_kin (env : Env K) (call : ScanCall K) :
    let th' := th.step ⟨env, .noteStepGenerationScanTime call.delay call.oldDelay⟩
    (th'.core.kinFlushTimes : Multiset K) = register th.core.kinFlushTimes call ∧
      th'.core.kinFlushDelay = largestDelay 0 (register th.core.kinFlushTimes call) := by
  obtain ⟨th₁, hflush⟩ : ∃ th', th.flushLookahead env = .ok th' := by
    by_cases hq : th.lookahead.queue = []
    · exact ⟨_, flushLookahead_empty hq⟩
    · have hbatch : Returns (th.flushLookahead env) _ := flushLookahead_batch hq
      exact hbatch.imp fun _ h => h.1
  have hkept := (keptBySteps_kinKept env).flushStepGeneration th
  rw [Toolhead.flushStepGeneration, hflush] at hkept
  have htimes := hkept.2
  rw [Toolhead.step, Toolhead.perform, Toolhead.noteStepGenerationScanTime,
    Toolhead.flushStepGeneration, hflush, ← htimes]
  exact updateStepGenerationScanDelay_spec _ call

theorem step_kin (e : ToolheadEvent K) :
    (KinKept th (th.step e) ∧ scanCalls [e] = []) ∨
      ∃ call, scanCalls [e] = [call] ∧
        ((th.step e).core.kinFlushTimes : Multiset K) = register th.core.kinFlushTimes call ∧
        (th.step e).core.kinFlushDelay = largestDelay 0 (register th.core.kinFlushTimes call) := by
  obtain ⟨env, op⟩ := e
  by_cases hscan : ∃ delay oldDelay, op = .noteStepGenerationScanTime delay oldDelay
  · obtain ⟨delay, oldDelay, rfl⟩ := hscan
    exact .inr ⟨⟨delay, oldDelay⟩, rfl, noteStepGenerationScanTime_kin th env ⟨delay, oldDelay⟩⟩
  · refine .inl ⟨?_, ?_⟩
    · by_cases hresume : ∃ i, op = .resume i
      · obtain ⟨i, rfl⟩ := hresume
        exact resume_kinKept th env i
      · exact (keptBySteps_kinKept env).perform th op (fun d o h => hscan ⟨d, o, h⟩)
          fun i h => hresume ⟨i, h⟩
    · cases op with
      | noteStepGenerationScanTime delay oldDelay => exact absurd ⟨_, _, rfl⟩ hscan
      | _ => rfl

/-- After any run the list is the multiset of the registered delays, and the flush delay the
largest of them from zero on, if there has been a call at all. -/
theorem run_kin (events : List (ToolheadEvent K)) :
    let th' := Runs.final Toolhead.step th events
    let delays := (scanCalls events).foldl register (th.core.kinFlushTimes : Multiset K)
    (th'.core.kinFlushTimes : Multiset K) = delays ∧
      th'.core.kinFlushDelay =
        if scanCalls events = [] then th.core.kinFlushDelay else largestDelay 0 delays := by
  induction events generalizing th with
  | nil => exact ⟨rfl, rfl⟩
  | cons e events ih =>
    have hcalls : scanCalls (e :: events) = scanCalls [e] ++ scanCalls events :=
      List.filterMap_append (l := [e])
    obtain ⟨htimes, hdelay⟩ := ih (th.step e)
    rcases step_kin th e with ⟨⟨hdelay₁, htimes₁⟩, hnone⟩ | ⟨call, hone, htimes₁, hdelay₁⟩
    · rw [hdelay₁, htimes₁] at hdelay
      rw [htimes₁] at htimes
      rw [hcalls, hnone]
      exact ⟨htimes, hdelay⟩
    · rw [htimes₁] at htimes hdelay
      rw [hcalls, hone]
      refine ⟨htimes, ?_⟩
      refine hdelay.trans ?_
      split
      · next hnil => rw [hdelay₁, hnil]; rfl
      · rfl

/-! ### The flush delay of a new toolhead -/

variable (settings : ToolheadVelocitySettings K)

section

variable (canPause : Bool) (events : List (ToolheadEvent K))

def afterRun : Toolhead K :=
  Runs.final Toolhead.step (newToolhead settings canPause) events

/-- The flush delay after the run is the one its calls ask for: the largest of the minimum
and the registered delays; so it is not below its initial value, and a delay that is added
and then removed does not change it. -/
structure ScanFaithful (settings : ToolheadVelocitySettings K) (canPause : Bool)
    (events : List (ToolheadEvent K)) : Prop where
  delay_eq : (afterRun settings canPause events).core.kinFlushDelay =
    largestDelay defaultSdsCheckTime (registered (scanCalls events))
  not_below : defaultSdsCheckTime ≤ (afterRun settings canPause events).core.kinFlushDelay
  restored : ∀ env env' d, d ≠ 0 →
    (afterRun settings canPause (events ++ [⟨env, .noteStepGenerationScanTime d 0⟩,
        ⟨env', .noteStepGenerationScanTime 0 d⟩])).core.kinFlushDelay =
      (afterRun settings canPause events).core.kinFlushDelay

theorem afterRun_kinFlushDelay :
    (afterRun settings canPause events).core.kinFlushDelay =
      if scanCalls events = [] then defaultSdsCheckTime
      else largestDelay 0 (registered (scanCalls events)) :=
  (run_kin (newToolhead settings canPause) events).2

omit [FloorRing K] [HasSqrt K] in
/-- From zero on, the minimum is reached just if a delay is registered that is not negative:
the offset is the minimum. -/
theorem defaultSdsCheckTime_le_iff {delays : Multiset K} :
    defaultSdsCheckTime ≤ largestDelay 0 delays ↔ ∃ d ∈ delays, 0 ≤ d := by
  have hpos : ¬ (defaultSdsCheckTime : K) ≤ 0 := by norm_num [defaultSdsCheckTime]
  have hoffset : ∀ d : K, defaultSdsCheckTime ≤
      d + (defaultTimingConfig : ToolheadTimingConfig K).scanTimeOffset ↔ 0 ≤ d := by
    intro d
    exact le_add_iff_nonneg_left _
  rw [le_largestDelay_iff, or_iff_right hpos]
  simp only [hoffset]

/-- A delay added and removed again leaves the largest delay from zero on. -/
theorem restored_kinFlushDelay (env env' : Env K) {d : K} (hd : d ≠ 0) :
    (afterRun settings canPause (events ++ [⟨env, .noteStepGenerationScanTime d 0⟩,
        ⟨env', .noteStepGenerationScanTime 0 d⟩])).core.kinFlushDelay =
      largestDelay 0 (registered (scanCalls events)) := by
  have hcalls : scanCalls (events ++ [⟨env, .noteStepGenerationScanTime d 0⟩,
      ⟨env', .noteStepGenerationScanTime 0 d⟩]) = scanCalls events ++ [⟨d, 0⟩, ⟨0, d⟩] :=
    List.filterMap_append
  rw [afterRun_kinFlushDelay, hcalls, if_neg (by simp), registered, List.foldl_append]
  exact congrArg (largestDelay 0) (register_restores hd _)

end

/-- The flush delay is the one that the calls ask for if and only if a delay is registered
that is not negative. -/
theorem scanDelays_faithful_iff (settings : ToolheadVelocitySettings K) (canPause : Bool)
    (events : List (ToolheadEvent K)) :
    ScanFaithful settings canPause events ↔ ∃ d ∈ registered (scanCalls events), 0 ≤ d := by
  have hmin : (0 : K) < defaultSdsCheckTime := by norm_num [defaultSdsCheckTime]
  have hafter := afterRun_kinFlushDelay settings canPause events
  by_cases hnone : scanCalls events = []
  · refine iff_of_false ?_ (by simp [hnone, registered])
    -- the first call forgets the initial delay
    intro h
    have hrestored := h.restored (quietEnv 0) (quietEnv 0) 1 one_ne_zero
    rw [restored_kinFlushDelay _ _ _ _ _ one_ne_zero, hafter, hnone] at hrestored
    exact hmin.ne hrestored
  · rw [if_neg hnone] at hafter
    constructor
    · intro h
      have hbelow := h.not_below
      rwa [hafter, defaultSdsCheckTime_le_iff] at hbelow
    · intro h
      have hbelow := defaultSdsCheckTime_le_iff.mpr h
      refine ⟨?_, hafter ▸ hbelow, fun env env' d hd => ?_⟩
      · rw [hafter, largestDelay_eq_max hmin.le, max_eq_right hbelow]
      · rw [restored_kinFlushDelay _ _ _ _ _ hd, hafter]

end

/-- One delay of ten milliseconds. -/
theorem scanDelays_faithful_one : (0 : ℚ) ≤ 1 / 100 ∧
      ScanFaithful unitSettings true [⟨quietEnv 0, .noteStepGenerationScanTime (1 / 100 : ℚ) 0⟩] :=
  ⟨by norm_num, (scanDelays_faithful_iff _ _ _).mpr
    ⟨1 / 100, by simp [scanCalls, registered, register], by norm_num⟩⟩

/-- The delay is removed: nothing is left of the minimum. -/
theorem removed_delay_forgets_minimum : let events : List (ToolheadEvent ℚ) :=
      [⟨quietEnv 0, .noteStepGenerationScanTime (1 / 100) 0⟩,
        ⟨quietEnv 0, .noteStepGenerationScanTime 0 (1 / 100)⟩]
    (afterRun unitSettings true []).core.kinFlushDelay = (1 / 1000 : ℚ) ∧
      (afterRun unitSettings true events).core.kinFlushDelay = 0 ∧
      largestDelay (1 / 1000) (registered (scanCalls events)) = 1 / 1000 ∧
      ¬ ScanFaithful unitSettings true events := by
  intro events
  have hzero : (afterRun unitSettings true events).core.kinFlushDelay = 0 :=
    restored_kinFlushDelay unitSettings true [] (quietEnv 0) (quietEnv 0) (by norm_num)
  have hnone : registered (scanCalls events) = 0 := register_restores (by norm_num) 0
  refine ⟨rfl, hzero, by rw [hnone]; rfl, fun h => ?_⟩
  have hbelow := h.not_below
  rw [hzero] at hbelow
  norm_num [defaultSdsCheckTime] at hbelow

end Motion
