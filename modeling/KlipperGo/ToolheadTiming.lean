/-
The timing state of the toolhead (`internal/pkg/motion/toolhead_runtime.go`).

The step generators and the micro-controllers are flushed up to a flush time
that follows the print time.  `ToolheadTimingState.advanceFlushTime` makes one
such flush, `ToolheadTimingState.advanceMoveTime` moves the print time forward
and flushes behind it in batches, `ToolheadTimingState.calcPrintTime` moves the
print time past the estimated one and past the steps already generated.

The operations of `ToolheadCoreState` work on a copy of the timing state and
write the copy back.  The callbacks that run in between (step generators,
extruder, micro-controllers) may note move-queue activity, which goes to the
original.  The step generators are called with increasing times
(`advanceMoveTime_ordered`).
-/
import KlipperGo.Move
import KlipperGo.Runs

open List

namespace Motion

/-- `SpecialQueuingState`; the empty string of the source is `main`. -/
inductive SpecialQueuingState
  | main
  | needPrime
  | priming
  | drip
deriving DecidableEq, Repr

structure ToolheadTimingConfig (K : Type*) where
  bufferTimeStart : K
  minKinTime : K
  moveBatchTime : K
  moveHistoryExpire : K
  scanTimeOffset : K
  stepcompressFlushTime : K

/-- `FlushActions`.  A callback is represented by the move-queue activity it
notes; one that is absent notes nothing. -/
structure FlushActions (K : Type*) where
  stepGenerators : List (K → List (Activity K))
  finalizeMoves : K → K → List (Activity K)
  updateExtruderMoveTime : K → K → List (Activity K)
  flushDrivers : List (K → K → List (Activity K))

structure ToolheadTimingState (K : Type*) where
  printTime : K
  lastFlushTime : K
  lastStepGenTime : K
  minRestartTime : K
  needFlushTime : K
  stepGenTime : K
  clearHistoryTime : K
  kinFlushDelay : K
  kinFlushTimes : List K
  doKickFlushTimer : Bool
  canPause : Bool
deriving DecidableEq, Repr

/-- What the flushes of an operation did: the times the step generators were
called with, and the activity noted by the callbacks. -/
structure FlushTrace (K : Type*) where
  stepGenTimes : List K
  notes : List (Activity K)

/-- `PrintTimeSource`, during one operation. -/
structure TimeSource (K : Type*) where
  monotonic : K
  estimatedPrintTime : K → K

/-- `ToolheadCoreState`: the timing state and the rest. -/
structure ToolheadCoreState (K : Type*) extends ToolheadTimingState K where
  commandedPos : Coord K
  maxVelocity : K
  maxAccel : K
  requestedAccelToDecel : K
  maxAccelToDecel : K
  squareCornerVelocity : K
  junctionDeviation : K
  checkStallTime : K
  specialQueuingState : SpecialQueuingState
  needCheckPause : K
  printStall : K

section Defs

variable {K : Type*} [Field K] [LinearOrder K]

def defaultTimingConfig : ToolheadTimingConfig K where
  bufferTimeStart := 1 / 4
  minKinTime := 1 / 10
  moveBatchTime := 1 / 2
  moveHistoryExpire := 30
  scanTimeOffset := 1 / 1000
  stepcompressFlushTime := 1 / 20

namespace ToolheadTimingState

variable (self : ToolheadTimingState K) (flushTime nextPrintTime delay oldDelay : K)
  (config : ToolheadTimingConfig K) (actions : FlushActions K) (source : TimeSource K)

/-- The flush time that `AdvanceFlushTime` hands to the step generators. -/
def sgFlushTime : K :=
  let sgFlushWant :=
    min (flushTime + config.stepcompressFlushTime) (self.printTime - self.kinFlushDelay)
  max sgFlushWant flushTime

def advanceFlushTime : ToolheadTimingState K × FlushTrace K :=
  let flushTime := max flushTime self.lastFlushTime
  let sgFlushTime := self.sgFlushTime flushTime config
  let freeTime := sgFlushTime - self.kinFlushDelay
  let clearHistoryTime :=
    if self.canPause then self.clearHistoryTime else max 0 (freeTime - config.moveHistoryExpire)
  ({ self with
      lastStepGenTime := sgFlushTime
      minRestartTime := max self.minRestartTime sgFlushTime
      lastFlushTime := flushTime },
    { stepGenTimes := [sgFlushTime]
      notes := actions.stepGenerators.flatMap (fun sg => sg sgFlushTime) ++
        actions.finalizeMoves freeTime clearHistoryTime ++
        actions.updateExtruderMoveTime freeTime clearHistoryTime ++
        actions.flushDrivers.flatMap fun flusher => flusher flushTime clearHistoryTime })

/-- The loop of `AdvanceMoveTime`, with fuel. -/
def advanceMoveLoop (wantFlushTime : K) :
    ℕ → K → ToolheadTimingState K → ToolheadTimingState K × FlushTrace K
  | 0, _, self => (self, { stepGenTimes := [], notes := [] })
  | fuel + 1, flushTime, self =>
    let flushTime := min (flushTime + config.moveBatchTime) wantFlushTime
    let out := self.advanceFlushTime flushTime config actions
    if wantFlushTime ≤ flushTime then out
    else
      let rest := advanceMoveLoop wantFlushTime fuel flushTime out.1
      (rest.1, { stepGenTimes := out.2.stepGenTimes ++ rest.2.stepGenTimes
                 notes := out.2.notes ++ rest.2.notes })

/-- `ToolheadTimingState.AdvanceMoveTime`.  The fuel is the number of batches
(`advanceMoveLoop_fst`). -/
def advanceMoveTime [FloorRing K] : ToolheadTimingState K × FlushTrace K :=
  let ptDelay := self.kinFlushDelay + config.stepcompressFlushTime
  let flushTime := max self.lastFlushTime (self.printTime - ptDelay)
  let self := { self with printTime := max self.printTime nextPrintTime }
  let wantFlushTime := max flushTime (self.printTime - ptDelay)
  advanceMoveLoop config actions wantFlushTime
    (⌈(wantFlushTime - flushTime) / config.moveBatchTime⌉.toNat + 1) flushTime self

def calcPrintTime : ToolheadTimingState K :=
  let curTime := source.monotonic
  let estPrintTime := source.estimatedPrintTime curTime
  let kinTime := max (estPrintTime + config.minKinTime) self.minRestartTime
  let kinTime := kinTime + self.kinFlushDelay
  let minPrintTime := max (estPrintTime + config.bufferTimeStart) kinTime
  if minPrintTime ≤ self.printTime then self else { self with printTime := minPrintTime }

def updateStepGenerationScanDelay : ToolheadTimingState K :=
  let kinFlushTimes :=
    if oldDelay ≠ 0 then self.kinFlushTimes.erase oldDelay else self.kinFlushTimes
  let kinFlushTimes := if delay ≠ 0 then kinFlushTimes ++ [delay] else kinFlushTimes
  let newDelay := kinFlushTimes.foldl (fun newDelay value =>
    let value := value + config.scanTimeOffset
    if newDelay < value then value else newDelay) 0
  { self with kinFlushTimes := kinFlushTimes, kinFlushDelay := newDelay }

/-- `ToolheadTimingState.NoteMovequeueActivity`; the result says whether to kick
the flush timer. -/
def noteMovequeueActivity (activity : Activity K) : ToolheadTimingState K × Bool :=
  ({ self with
      needFlushTime := max self.needFlushTime activity.mqTime
      stepGenTime :=
        if activity.setStepGenTime then max self.stepGenTime activity.mqTime else self.stepGenTime
      doKickFlushTimer := false },
    self.doKickFlushTimer)

end ToolheadTimingState

/-- `NewToolheadCoreState`, with the velocity limits still to be set. -/
def newToolheadCoreState (canPause : Bool) : ToolheadCoreState K where
  printTime := 0
  lastFlushTime := 0
  lastStepGenTime := 0
  minRestartTime := 0
  needFlushTime := 0
  stepGenTime := 0
  clearHistoryTime := 0
  kinFlushDelay := 1 / 1000
  kinFlushTimes := []
  doKickFlushTimer := true
  canPause := canPause
  commandedPos := fun _ => 0
  maxVelocity := 0
  maxAccel := 0
  requestedAccelToDecel := 0
  maxAccelToDecel := 0
  squareCornerVelocity := 0
  junctionDeviation := 0
  checkStallTime := 0
  specialQueuingState := .needPrime
  needCheckPause := -1
  printStall := 0

/-- `ToolheadCoreState.TimingState`: a copy. -/
def ToolheadCoreState.timingState (self : ToolheadCoreState K) : ToolheadTimingState K :=
  self.toToolheadTimingState

def ToolheadCoreState.applyTimingState (self : ToolheadCoreState K)
    (state : ToolheadTimingState K) : ToolheadCoreState K :=
  { self with toToolheadTimingState := state }

def ToolheadCoreState.noteMovequeueActivity (self : ToolheadCoreState K)
    (activity : Activity K) : ToolheadCoreState K × Bool :=
  let state := self.timingState
  let out := state.noteMovequeueActivity activity
  (self.applyTimingState out.1, out.2)

/-- The activities noted one after the other, and whether one kicked the flush timer. -/
def ToolheadCoreState.noteAll (self : ToolheadCoreState K) :
    List (Activity K) → ToolheadCoreState K × Bool
  | [] => (self, false)
  | activity :: activities =>
    let out := self.noteMovequeueActivity activity
    let rest := out.1.noteAll activities
    (rest.1, out.2 || rest.2)

/-- The result of an operation that flushes: the state, what the flushes did, and
whether a note made on the way kicked the flush timer. -/
structure Advanced (K : Type*) where
  core : ToolheadCoreState K
  trace : FlushTrace K
  kicked : Bool

namespace ToolheadCoreState

variable (self : ToolheadCoreState K) (flushTime nextPrintTime delay oldDelay : K)
  (config : ToolheadTimingConfig K) (actions : FlushActions K) (source : TimeSource K)

/-- The operation `f` on a copy of the timing state.  The callbacks note on the
original, which the copy then overwrites. -/
def onCopy (f : ToolheadTimingState K → ToolheadTimingState K × FlushTrace K) : Advanced K :=
  let out := f self.timingState
  let noted := self.noteAll out.2.notes
  { core := noted.1.applyTimingState out.1, trace := out.2, kicked := noted.2 }

def advanceFlushTime : Advanced K :=
  self.onCopy fun state => state.advanceFlushTime flushTime config actions

def advanceMoveTime [FloorRing K] : Advanced K :=
  self.onCopy fun state => state.advanceMoveTime nextPrintTime config actions

def calcPrintTime : ToolheadCoreState K :=
  self.applyTimingState (self.timingState.calcPrintTime config source)

def updateStepGenerationScanDelay : ToolheadCoreState K :=
  self.applyTimingState (self.timingState.updateStepGenerationScanDelay delay oldDelay config)

end ToolheadCoreState

end Defs

variable {K : Type*} [Field K] [LinearOrder K]

/-! ### Flushes -/

section

variable {self : ToolheadTimingState K} {config : ToolheadTimingConfig K} {s t : K}
  [IsStrictOrderedRing K]

theorem sgFlushTime_mono (self : ToolheadTimingState K) (config : ToolheadTimingConfig K)
    (h : s ≤ t) : self.sgFlushTime s config ≤ self.sgFlushTime t config :=
  max_le_max (min_le_min_right _ (by linarith)) h

/-- Of two flushes in a row only the later one shows in the state. -/
theorem advanceFlushTime_twice (h : s ≤ t) (actions : FlushActions K) :
    ((self.advanceFlushTime s config actions).1.advanceFlushTime t config actions).1
      = (self.advanceFlushTime t config actions).1 := by
  have hmax : max t (max s self.lastFlushTime) = max t self.lastFlushTime := by
    rw [← max_assoc, max_eq_left h]
  have hmono := sgFlushTime_mono self config (max_le_max_right self.lastFlushTime h)
  simp only [ToolheadTimingState.advanceFlushTime, hmax]
  congr 1
  exact (max_assoc _ _ _).trans (congrArg _ (max_eq_right hmono))

/-- With enough fuel, the batches come to a single flush. -/
theorem advanceMoveLoop_fst (hbatch : 0 < config.moveBatchTime) (actions : FlushActions K)
    {want flushTime : K} (hwant : flushTime ≤ want) (fuel : ℕ)
    (hfuel : want - flushTime ≤ fuel * config.moveBatchTime) :
    (ToolheadTimingState.advanceMoveLoop config actions want (fuel + 1) flushTime self).1
      = (self.advanceFlushTime want config actions).1 := by
  -- each turn but the last flushes a batch, which the next flush makes invisible
  induction fuel generalizing flushTime self with
  | zero =>
    have hle : want ≤ flushTime + config.moveBatchTime := by
      simp only [Nat.cast_zero, zero_mul] at hfuel
      linarith
    rw [ToolheadTimingState.advanceMoveLoop, min_eq_right hle, if_pos le_rfl]
  | succ fuel ih =>
    rw [ToolheadTimingState.advanceMoveLoop]
    by_cases hle : want ≤ flushTime + config.moveBatchTime
    · rw [min_eq_right hle, if_pos le_rfl]
    · rw [min_eq_left (not_le.mp hle).le, if_neg hle]
      have hrest : want - (flushTime + config.moveBatchTime) ≤ fuel * config.moveBatchTime := by
        push_cast at hfuel
        linarith
      exact (ih (not_le.mp hle).le hrest).trans
        (advanceFlushTime_twice (not_le.mp hle).le actions)

end

variable (self : ToolheadTimingState K) (flushTime nextPrintTime : K)
  (config : ToolheadTimingConfig K) (source : TimeSource K)

def ToolheadTimingState.flushedTo : ToolheadTimingState K :=
  let flushTime := max flushTime self.lastFlushTime
  { self with
    lastStepGenTime := self.sgFlushTime flushTime config
    minRestartTime := max self.minRestartTime (self.sgFlushTime flushTime config)
    lastFlushTime := flushTime }

theorem advanceFlushTime_fst (actions : FlushActions K) :
    (self.advanceFlushTime flushTime config actions).1 = self.flushedTo flushTime config := rfl

def ToolheadTimingState.wantFlushTime : K :=
  let ptDelay := self.kinFlushDelay + config.stepcompressFlushTime
  max self.lastFlushTime (max self.printTime nextPrintTime - ptDelay)

def ToolheadTimingState.movedTo : ToolheadTimingState K :=
  ({ self with printTime := max self.printTime nextPrintTime } : ToolheadTimingState K).flushedTo
    (self.wantFlushTime nextPrintTime config) config

theorem movedTo_lastFlushTime :
    (self.movedTo nextPrintTime config).lastFlushTime = self.wantFlushTime nextPrintTime config :=
  max_eq_left (le_max_left _ _)

section

variable [FloorRing K] [IsStrictOrderedRing K] {self : ToolheadTimingState K}
  {config : ToolheadTimingConfig K} {nextPrintTime : K}

/-- `advanceMoveTime` sets the print time and flushes behind it. -/
theorem advanceMoveTime_fst (hbatch : 0 < config.moveBatchTime) (actions : FlushActions K) :
    (self.advanceMoveTime nextPrintTime config actions).1 = self.movedTo nextPrintTime config := by
  have hwant : max (max self.lastFlushTime
        (self.printTime - (self.kinFlushDelay + config.stepcompressFlushTime)))
        (max self.printTime nextPrintTime - (self.kinFlushDelay + config.stepcompressFlushTime))
      = self.wantFlushTime nextPrintTime config := by
    rw [ToolheadTimingState.wantFlushTime, max_assoc]
    congr 1
    exact max_eq_right (sub_le_sub_right (le_max_left _ _) _)
  rw [ToolheadTimingState.advanceMoveTime, ToolheadTimingState.movedTo,
    ← advanceFlushTime_fst _ _ _ actions]
  simp only [hwant]
  -- the fuel is the number of batches that fit, rounded up
  refine advanceMoveLoop_fst hbatch actions (hwant ▸ le_max_left _ _) _ ?_
  rw [← div_le_iff₀ hbatch]
  exact (Int.le_ceil _).trans (by exact_mod_cast Int.self_le_toNat _)

end

/-- The print time `calcPrintTime` does not stay below: past the estimated one,
and past the steps already generated. -/
def ToolheadTimingState.minPrintTime : K :=
  let estPrintTime := source.estimatedPrintTime source.monotonic
  max (estPrintTime + config.bufferTimeStart)
    (max (estPrintTime + config.minKinTime) self.minRestartTime + self.kinFlushDelay)

theorem calcPrintTime_eq : self.calcPrintTime config source =
      { self with printTime := max self.printTime (self.minPrintTime config source) } := by
  by_cases h : self.minPrintTime config source ≤ self.printTime
  · rw [max_eq_left h]
    exact if_pos h
  · rw [max_eq_right (not_le.mp h).le]
    exact if_neg h

/-- How the times of a running toolhead stand to each other. -/
structure ToolheadTimingState.Timed (st : ToolheadTimingState K) : Prop where
  kin_nonneg : 0 ≤ st.kinFlushDelay
  flush_le_gen : st.lastFlushTime ≤ st.lastStepGenTime
  gen_le_restart : st.lastStepGenTime ≤ st.minRestartTime
  stepGen_le_need : st.stepGenTime ≤ st.needFlushTime

section

variable {self : ToolheadTimingState K} {config : ToolheadTimingConfig K}

section

variable (h : self.Timed)
include h

namespace ToolheadTimingState.Timed

theorem withPrintTime (printTime : K) :
    ({ self with printTime := printTime } : ToolheadTimingState K).Timed :=
  { h with }

theorem restartAfter (time : K) :
    ({ self with minRestartTime := max self.minRestartTime time } : ToolheadTimingState K).Timed :=
  ⟨h.kin_nonneg, h.flush_le_gen, h.gen_le_restart.trans (le_max_left _ _), h.stepGen_le_need⟩

theorem flushedTo (flushTime : K) : (self.flushedTo flushTime config).Timed :=
  ⟨h.kin_nonneg, (le_max_right _ _), le_max_right _ _, h.stepGen_le_need⟩

theorem movedTo (nextPrintTime : K) : (self.movedTo nextPrintTime config).Timed :=
  (h.withPrintTime _).flushedTo _

theorem calcPrintTime (source : TimeSource K) : (self.calcPrintTime config source).Timed := by
  rw [calcPrintTime_eq]
  exact h.withPrintTime _

/-- The largest of the scan delays is not negative. -/
theorem updateStepGenerationScanDelay (delay oldDelay : K) :
    (self.updateStepGenerationScanDelay delay oldDelay config).Timed := by
  have hfold : ∀ (values : List K) (start : K), start ≤ values.foldl (fun newDelay value =>
      let value := value + config.scanTimeOffset
      if newDelay < value then value else newDelay) start := by
    intro values
    induction values with
    | nil => exact fun start => le_rfl
    | cons v values ih =>
      intro start
      refine le_trans ?_ (ih _)
      dsimp only
      split
      · next hlt => exact hlt.le
      · exact le_rfl
  exact ⟨hfold _ 0, h.flush_le_gen, h.gen_le_restart, h.stepGen_le_need⟩

end ToolheadTimingState.Timed

end

end

/-! ### The order of the flushes -/

/-- The step generators have been called with the increasing times `ts`, none of
them later than what the next flush hands them. -/
structure Ordered (st : ToolheadTimingState K) (config : ToolheadTimingConfig K)
    (ts : List K) : Prop where
  sorted : ts.Pairwise (· ≤ ·)
  le_next : ∀ t ∈ ts, t ≤ st.sgFlushTime st.lastFlushTime config

section

variable [IsStrictOrderedRing K] {self : ToolheadTimingState K} {config : ToolheadTimingConfig K}
  {ts : List K}

theorem Ordered.advanceFlushTime (h : Ordered self config ts) (flushTime : K)
    (actions : FlushActions K) :
    Ordered (self.advanceFlushTime flushTime config actions).1 config
      (ts ++ (self.advanceFlushTime flushTime config actions).2.stepGenTimes) := by
  have hmono : self.sgFlushTime self.lastFlushTime config
      ≤ self.sgFlushTime (max flushTime self.lastFlushTime) config :=
    sgFlushTime_mono self config (le_max_right _ _)
  constructor
  · refine pairwise_append.mpr ⟨h.sorted, pairwise_singleton _ _, ?_⟩
    intro t ht x hx
    rw [mem_singleton.mp hx]
    exact (h.le_next t ht).trans hmono
  · intro t ht
    rcases mem_append.mp ht with ht | ht
    · exact (h.le_next t ht).trans hmono
    · rw [mem_singleton.mp ht]
      exact le_rfl

theorem Ordered.advanceMoveLoop (h : Ordered self config ts) (actions : FlushActions K)
    (want : K) (fuel : ℕ) (flushTime : K) :
    Ordered (ToolheadTimingState.advanceMoveLoop config actions want fuel flushTime self).1 config
      (ts ++ (ToolheadTimingState.advanceMoveLoop config actions want fuel flushTime
        self).2.stepGenTimes) := by
  induction fuel generalizing flushTime self ts with
  | zero => simpa [ToolheadTimingState.advanceMoveLoop] using h
  | succ fuel ih =>
    rw [ToolheadTimingState.advanceMoveLoop]
    split
    · exact h.advanceFlushTime _ actions
    · have hrest := ih (h.advanceFlushTime (min (flushTime + config.moveBatchTime) want) actions)
        (min (flushTime + config.moveBatchTime) want)
      rw [append_assoc] at hrest
      exact hrest

/-- The batches of `advanceMoveTime` go forward. -/
theorem advanceMoveTime_ordered [FloorRing K] (self : ToolheadTimingState K)
    (config : ToolheadTimingConfig K) (nextPrintTime : K) (actions : FlushActions K) :
    Ordered (self.advanceMoveTime nextPrintTime config actions).1 config
      (self.advanceMoveTime nextPrintTime config actions).2.stepGenTimes := by
  have hnil : Ordered { self with printTime := max self.printTime nextPrintTime } config [] :=
    ⟨List.Pairwise.nil, by simp⟩
  exact hnil.advanceMoveLoop actions _ _ _

end

/-! ### Activity noted while the state is copied -/

section

variable (self : ToolheadCoreState K) (activities : List (Activity K))
  (state : ToolheadTimingState K)

omit [Field K] in
theorem noteAll_applyTimingState :
    (self.noteAll activities).1.applyTimingState state = self.applyTimingState state := by
  induction activities generalizing self with
  | nil => rfl
  | cons a as ih => exact ih _

omit [Field K] in
theorem noteAll_kicked :
    (self.noteAll activities).2 = true ↔ activities ≠ [] ∧ self.doKickFlushTimer = true := by
  induction activities generalizing self with
  | nil => simp [ToolheadCoreState.noteAll]
  | cons a as ih =>
    -- the first note clears the flag, so no later one kicks
    have hrest : ((self.noteMovequeueActivity a).1.noteAll as).2 = false := by
      by_contra h
      exact absurd ((ih _).mp (by simpa using h)).2 (by
        simp [ToolheadCoreState.noteMovequeueActivity, ToolheadTimingState.noteMovequeueActivity,
          ToolheadCoreState.applyTimingState])
    simp only [ToolheadCoreState.noteAll, hrest, Bool.or_false, ne_eq, reduceCtorEq,
      not_false_eq_true, true_and]
    rfl

omit [Field K] in
/-- The copy wins: what the callbacks noted is gone. -/
theorem onCopy_core (f : ToolheadTimingState K → ToolheadTimingState K × FlushTrace K) :
    (self.onCopy f).core = self.applyTimingState (f self.timingState).1 :=
  noteAll_applyTimingState self _ _

/-- An operation that does not itself touch what notes are kept in. -/
def KeepsNotes (state' : ToolheadTimingState K) : Prop :=
  state'.needFlushTime = state.needFlushTime ∧ state'.stepGenTime = state.stepGenTime ∧
    state'.doKickFlushTimer = state.doKickFlushTimer

theorem advanceFlushTime_keepsNotes (flushTime : K)
    (config : ToolheadTimingConfig K) (actions : FlushActions K) :
    KeepsNotes state (state.advanceFlushTime flushTime config actions).1 := ⟨rfl, rfl, rfl⟩

theorem advanceMoveTime_keepsNotes [FloorRing K] [IsStrictOrderedRing K]
    (nextPrintTime : K) {config : ToolheadTimingConfig K}
    (hbatch : 0 < config.moveBatchTime) (actions : FlushActions K) :
    KeepsNotes state (state.advanceMoveTime nextPrintTime config actions).1 := by
  rw [advanceMoveTime_fst hbatch]
  exact ⟨rfl, rfl, rfl⟩

end

section Defs

/-- The operations of a run on the timing state, with the callbacks they run. -/
inductive TimingOp (K : Type*)
  | note (activity : Activity K)
  | advanceFlushTime (flushTime : K) (actions : FlushActions K)
  | advanceMoveTime (nextPrintTime : K) (actions : FlushActions K)

/-- A state, and all the activity noted so far. -/
structure Noted (K : Type*) where
  core : ToolheadCoreState K
  noted : List (Activity K)

variable [FloorRing K]

/-- What an operation does when it flushes. -/
def ToolheadCoreState.perform (self : ToolheadCoreState K) : TimingOp K → Advanced K
  | .note activity =>
    let out := self.noteMovequeueActivity activity
    { core := out.1, trace := { stepGenTimes := [], notes := [activity] }, kicked := out.2 }
  | .advanceFlushTime flushTime actions =>
    self.advanceFlushTime flushTime defaultTimingConfig actions
  | .advanceMoveTime nextPrintTime actions =>
    self.advanceMoveTime nextPrintTime defaultTimingConfig actions

variable (s : Noted K) (op : TimingOp K)

def Noted.step : Noted K :=
  let out := s.core.perform op
  { core := out.core, noted := s.noted ++ out.trace.notes }

/-- Every activity in the list is covered by the needed flush time, and by the
step-generation time if it was noted with that flag. -/
def Covers (core : ToolheadCoreState K) (activities : List (Activity K)) : Prop :=
  ∀ a ∈ activities, a.mqTime ≤ core.needFlushTime ∧
    (a.setStepGenTime = true → a.mqTime ≤ core.stepGenTime)

instance (core : ToolheadCoreState K) (activities : List (Activity K)) :
    Decidable (Covers core activities) := inferInstanceAs (Decidable (∀ a ∈ activities, _))

/-- After the operation nothing noted so far is lost, and if a note made during
it kicked the flush timer, the kick flag is cleared. -/
def Noted.Kept : Prop :=
  Covers (s.step op).core (s.step op).noted ∧
    ((s.core.perform op).kicked = true → (s.step op).core.doKickFlushTimer = false)

/-- The activity noted by the callbacks of the operation changes nothing: it is
covered already, and the flush timer has been kicked before. -/
def Noted.Harmless : TimingOp K → Prop
  | .note _ => True
  | op => Covers s.core (s.core.perform op).trace.notes ∧
      ((s.core.perform op).trace.notes = [] ∨ s.core.doKickFlushTimer = false)

end Defs

section

variable [FloorRing K] [IsStrictOrderedRing K] {s : Noted K}

theorem defaultTimingConfig_moveBatchTime_pos :
    0 < (defaultTimingConfig : ToolheadTimingConfig K).moveBatchTime := by
  show (0 : K) < 1 / 2
  norm_num

/-- The flushing operations leave the noted times and the kick flag as they were. -/
theorem perform_keepsNotes (core : ToolheadCoreState K) (op : TimingOp K)
    (hop : ∀ a, op ≠ .note a) :
    KeepsNotes core.timingState (core.perform op).core.timingState ∧
    ((core.perform op).kicked = true ↔
      (core.perform op).trace.notes ≠ [] ∧ core.doKickFlushTimer = true) := by
  match op, hop with
  | .note a, hop => exact absurd rfl (hop a)
  | .advanceFlushTime flushTime actions, _ =>
    refine ⟨?_, noteAll_kicked _ _⟩
    exact advanceFlushTime_keepsNotes _ flushTime _ actions
  | .advanceMoveTime nextPrintTime actions, _ =>
    refine ⟨?_, noteAll_kicked _ _⟩
    exact advanceMoveTime_keepsNotes _ nextPrintTime defaultTimingConfig_moveBatchTime_pos actions

omit [Field K] [FloorRing K] [IsStrictOrderedRing K] in
theorem covers_append (core : ToolheadCoreState K) (as bs : List (Activity K)) :
    Covers core (as ++ bs) ↔ Covers core as ∧ Covers core bs := by
  rw [Covers, forall_mem_append]
  rfl

omit [IsStrictOrderedRing K] in
theorem kept_note (hs : Covers s.core s.noted) (a : Activity K) : s.Kept (.note a) := by
  refine ⟨(covers_append _ _ _).mpr ⟨?_, ?_⟩, fun _ => rfl⟩
  · intro b hb
    obtain ⟨h1, h2⟩ := hs b hb
    refine ⟨h1.trans (le_max_left _ _), fun hflag => (h2 hflag).trans ?_⟩
    show s.core.stepGenTime ≤ if a.setStepGenTime then _ else _
    split
    · exact le_max_left _ _
    · exact le_rfl
  · intro b hb
    rw [mem_singleton.mp hb]
    refine ⟨le_max_right _ _, fun hflag => ?_⟩
    show a.mqTime ≤ if a.setStepGenTime then _ else _
    rw [if_pos hflag]
    exact le_max_right _ _

/-- One operation loses nothing exactly when its callbacks note nothing new. -/
theorem kept_iff_harmless (hs : Covers s.core s.noted) (op : TimingOp K) :
    s.Kept op ↔ s.Harmless op := by
  by_cases hop : ∃ a, op = .note a
  · obtain ⟨a, rfl⟩ := hop
    exact iff_of_true (kept_note hs a) trivial
  · obtain ⟨⟨hneed, hgen, hkick⟩, hkicked⟩ :=
      perform_keepsNotes s.core op fun a ha => hop ⟨a, ha⟩
    have hcovers : ∀ as, Covers (s.step op).core as ↔ Covers s.core as := by
      intro as
      show (∀ a ∈ as, a.mqTime ≤ (s.core.perform op).core.timingState.needFlushTime ∧ (_ →
        a.mqTime ≤ (s.core.perform op).core.timingState.stepGenTime)) ↔ _
      rw [hneed, hgen]
      rfl
    have hharmless : s.Harmless op ↔ Covers s.core (s.core.perform op).trace.notes ∧
        ((s.core.perform op).trace.notes = [] ∨ s.core.doKickFlushTimer = false) := by
      cases op with
      | note a => exact absurd ⟨a, rfl⟩ hop
      | advanceFlushTime flushTime actions => rfl
      | advanceMoveTime nextPrintTime actions => rfl
    have hflag : (s.step op).core.doKickFlushTimer = s.core.doKickFlushTimer := hkick
    rw [Noted.Kept, hharmless, hcovers, hkicked, hflag]
    show Covers s.core (s.noted ++ (s.core.perform op).trace.notes) ∧ _ ↔ _
    rw [covers_append, and_iff_right hs]
    by_cases hnil : (s.core.perform op).trace.notes = [] <;>
      cases s.core.doKickFlushTimer <;> simp [hnil]

end

/-- **When noted activity is not lost.**  Along a run, nothing that was noted is
lost and a kicked flush timer stays kicked, exactly when the callbacks of every
flush note only what is covered already. -/
theorem noted_kept_iff [FloorRing K] [IsStrictOrderedRing K] (core : ToolheadCoreState K)
    (ops : List (TimingOp K)) :
    Runs.Along Noted.step Noted.Kept ⟨core, []⟩ ops ↔
      Runs.Along Noted.step Noted.Harmless ⟨core, []⟩ ops := by
  refine Runs.along_iff_of_invariant (fun _ _ _ hkept => hkept.1)
    (fun _ op hs => kept_iff_harmless hs op) ?_
  simp [Covers]

/-- A step generator that notes an activity five seconds ahead, as a fan request
queued for later does. -/
def notesAhead : FlushActions ℚ where
  stepGenerators := [fun flushTime => [{ mqTime := flushTime + 5, setStepGenTime := true }]]
  finalizeMoves := fun _ _ => []
  updateExtruderMoveTime := fun _ _ => []
  flushDrivers := []

theorem noted_kept_iff_notesAhead : Runs.Along Noted.step Noted.Kept
    ⟨newToolheadCoreState true, []⟩
    [.note { mqTime := (10 : ℚ), setStepGenTime := true }, .advanceFlushTime 1 notesAhead] :=
  (noted_kept_iff _ _).mpr ⟨trivial, ⟨by decide +kernel, by decide +kernel⟩, trivial⟩

theorem noted_lost : ¬ Runs.Along Noted.step Noted.Kept
    ⟨newToolheadCoreState true, []⟩ [.advanceFlushTime 1 notesAhead] := by
  intro h
  have hcovers := (h.1.1 { mqTime := 6, setStepGenTime := true } (by decide +kernel)).1
  exact absurd hcovers (by decide +kernel)

end Motion
