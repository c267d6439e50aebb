/-
The homing move (`internal/pkg/motion/homing/move.go`).

`Execute` arms the endstops, drives the toolhead towards the target until the
combined completion of the endstops, waits for every endstop, and sets the position
of the toolhead from where the steppers have stopped.  It calls out all the time; a
`MoveCall` labels a call, and a `HomingMove` says which of them panic in this move.

Nothing disarms the endstops but the loop after the drip move, so a call that panics
between the first `HomeStart` and that loop leaves them armed (`not_disarmed_drive`).
-/
import KlipperGo.CallLog
import KlipperGo.Homing
import KlipperGo.MultiComplete

open ExactArith CallLog List

namespace Motion

/-- `Stepper`, as a homing move uses it. -/
structure Stepper (K σ : Type) where
  name : String
  stepDist : K
  calcPositionFromCoord : Coord K → K
  mcuPosition : σ → ℤ
  pastMCUPosition : K → σ → ℤ
  commandedPosition : σ → K

structure HomeStartArgs (K : Type) where
  printTime : K
  sampleTime : K
  sampleCount : ℤ
  restTime : K
  triggered : ℤ

structure NamedEndstop (K σ ω : Type) where
  name : String
  steppers : List (Stepper K σ)
  homeStart : HomeStartArgs K → σ → ω × σ
  homeWait : K → σ → K × σ

/-- `DripToolhead`, with the kinematics it has. -/
structure DripToolhead (K σ ω : Type) where
  steppers : List (Stepper K σ)
  calcPosition : (String → K) → Fin 3 → K
  position : σ → Coord K
  flushStepGeneration : σ → σ
  lastMoveTime : σ → K × σ
  dwell : K → σ → σ
  dripMove : Coord K → K → Combined ω → σ → σ
  setPosition : Coord K → σ → σ

structure StepperPosition (K σ : Type) where
  stepper : Stepper K σ
  endstopName : String
  stepperName : String
  startPos : ℤ
  haltPos : ℤ
  trigPos : ℤ

/-- The world, and the positions the move has noted. -/
structure MoveState (K σ : Type) where
  world : σ
  stepperPositions : List (StepperPosition K σ)

inductive MoveCall
  | flushStepGeneration
  | getKinematics
  | getSteppers
  | getLastMoveTime
  | calcEndstopRate (i : ℕ)
  | homeStart (i : ℕ)
  | multiComplete
  | dwell
  | dripMove
  | getMoveEndTime
  | homeWait (i : ℕ)
  | noteHomeEnd
  | calcToolheadPos
  | setPosition
deriving DecidableEq, Repr

/-- A homing move and what happens to it: which calls panic, and the error that the
drip move returns if it does return. -/
structure HomingMove (K σ ω : Type) where
  endstops : List (NamedEndstop K σ ω)
  toolhead : DripToolhead K σ ω
  isDebugInput : Bool
  panics : MoveCall → Option PanicValue
  dripError : Option String

abbrev MoveM (K σ : Type) := EStateM PanicValue (Logged (MoveState K σ) MoveCall)

structure ExecuteResult (K : Type) where
  triggerPos : Option (Coord K)
  triggerTime : K
  err : Option String

/-- What the loop over `HomeWait` has found. -/
structure Waited (K : Type) where
  triggerTimes : String → Option K
  triggerTime : K
  err : Option String

section Defs

variable {K : Type} [Field K] [LinearOrder K] [HasSqrt K] {σ ω : Type}

def homingStartDelay : K := 1 / 1000

def endstopSampleTime : K := 15 / 1000000

def endstopSampleCount : ℤ := 4

def newStepperPosition (stepper : Stepper K σ) (endstopName : String) (world : σ) :
    StepperPosition K σ where
  stepper := stepper
  endstopName := endstopName
  stepperName := stepper.name
  startPos := stepper.mcuPosition world
  haltPos := 0
  trigPos := 0

def StepperPosition.noteHomeEnd (self : StepperPosition K σ) (triggerTime : K) (world : σ) :
    StepperPosition K σ :=
  { self with
    haltPos := self.stepper.mcuPosition world
    trigPos := self.stepper.pastMCUPosition triggerTime world }

/-- A map from the names of the steppers, filled in order. -/
def stepMap (positions : List (StepperPosition K σ)) (steps : StepperPosition K σ → ℤ) :
    String → K :=
  positions.foldl (fun map position =>
    Function.update map position.stepperName (steps position : K)) fun _ => 0

/-- The commanded positions of the steppers of the kinematics. -/
def DripToolhead.kinSPos (self : DripToolhead K σ ω) (world : σ) : String → K :=
  self.steppers.foldl (fun map stepper =>
    Function.update map stepper.name (stepper.commandedPosition world)) fun _ => 0

variable (self : HomingMove K σ ω) (movepos : Coord K) (probePos : Bool)

namespace HomingMove

def calcEndstopRate (endstop : NamedEndstop K σ ω) (movepos : Coord K) (speed : K)
    (world : σ) : K :=
  let startpos := self.toolhead.position world
  let axesD : Coord K := fun i => movepos i - startpos i
  let moveD := sqrt (axesD 0 * axesD 0 + axesD 1 * axesD 1 + axesD 2 * axesD 2)
  let moveT := moveD / speed
  let maxSteps := endstop.steppers.foldl (fun maxSteps stepper =>
    max (|stepper.calcPositionFromCoord startpos - stepper.calcPositionFromCoord movepos| /
      stepper.stepDist) maxSteps) 0
  if maxSteps ≤ 0 then 1 / 1000 else moveT / maxSteps

def calcToolheadPos (kinSPos offsets : String → K) (world : σ) : Coord K :=
  let kinSPos := self.toolhead.steppers.foldl (fun map stepper =>
    Function.update map stepper.name
      (map stepper.name + offsets stepper.name * stepper.stepDist)) kinSPos
  Fin.lastCases (self.toolhead.position world 3) (self.toolhead.calcPosition kinSPos)

variable (c : MoveCall)

/-- A call that acts on the world only. -/
def act {α : Type} (f : σ → α × σ) : MoveM K σ α :=
  call self.panics c fun s => ((f s.world).1, { s with world := (f s.world).2 })

/-- A call that only reads the state. -/
def ask {α : Type} (f : MoveState K σ → α) : MoveM K σ α :=
  call self.panics c fun s => (f s, s)

/-- `Move.Execute`, before it arms the endstops: the positions of the steppers, and
the print time. -/
def prepare : MoveM K σ ((String → K) × K) := do
  self.act .flushStepGeneration fun world => ((), self.toolhead.flushStepGeneration world)
  let kinSPos ← self.ask .getKinematics fun s => self.toolhead.kinSPos s.world
  call self.panics .getSteppers fun s =>
    ((), { s with stepperPositions := self.endstops.flatMap fun endstop =>
      endstop.steppers.map fun stepper => newStepperPosition stepper endstop.name s.world })
  let printTime ← self.act .getLastMoveTime self.toolhead.lastMoveTime
  pure (kinSPos, printTime)

/-- The loop of `Move.Execute` that arms the endstops, from number `i` on. -/
def arm (self : HomingMove K σ ω) (movepos : Coord K) (speed printTime : K)
    (triggered : Bool) : ℕ → List (NamedEndstop K σ ω) → MoveM K σ (List ω)
  | _, [] => pure []
  | i, endstop :: endstops => do
    let restTime ← self.ask (.calcEndstopRate i) fun s =>
      self.calcEndstopRate endstop movepos speed s.world
    let trigger ← self.act (.homeStart i) <| endstop.homeStart
      { printTime := printTime, sampleTime := endstopSampleTime, sampleCount := endstopSampleCount
        restTime := restTime, triggered := if triggered then 1 else 0 }
    let triggers ← self.arm movepos speed printTime triggered (i + 1) endstops
    pure (trigger :: triggers)

/-- `Move.Execute`, from the first endstop that is armed to the drip move. -/
def drive (speed printTime : K) (triggered : Bool) : MoveM K σ Unit := do
  let endstopTriggers ← self.arm movepos speed printTime triggered 0 self.endstops
  let allEndstopTrigger ← self.ask .multiComplete fun _ => multiComplete endstopTriggers
  self.act .dwell fun world => ((), self.toolhead.dwell homingStartDelay world)
  self.act .dripMove fun world => ((), self.toolhead.dripMove movepos speed allEndstopTrigger world)

end HomingMove

/-- One turn of the loop over `HomeWait`. -/
def Waited.note (self : Waited K) (name : String) (triggerTime : K) (checkTriggered : Bool) :
    Waited K :=
  if 0 < triggerTime then
    { self with
      triggerTimes := Function.update self.triggerTimes name (some triggerTime)
      triggerTime := triggerTime }
  else if triggerTime < 0 ∧ self.err = none then
    { self with
      triggerTime := triggerTime
      err := some ("communication timeout during homing " ++ name) }
  else if checkTriggered = true ∧ self.err = none then
    { self with
      triggerTime := triggerTime
      err := some ("no trigger on " ++ name ++ " after full movement") }
  else { self with triggerTime := triggerTime }

/-- The loop of `Move.Execute` over `HomeWait`, from endstop number `i` on. -/
def HomingMove.wait (self : HomingMove K σ ω) (moveEndPrintTime : K) (checkTriggered : Bool) :
    ℕ → List (NamedEndstop K σ ω) → Waited K → MoveM K σ (Waited K)
  | _, [], waited => pure waited
  | i, endstop :: endstops, waited => do
    let triggerTime ← self.act (.homeWait i) (endstop.homeWait moveEndPrintTime)
    self.wait moveEndPrintTime checkTriggered (i + 1) endstops
      (waited.note endstop.name triggerTime checkTriggered)

/-- The halting and triggering positions of the steppers are noted. -/
def MoveState.noteHomeEnd (self : MoveState K σ) (moveEndPrintTime : K) (waited : Waited K) :
    MoveState K σ :=
  let timestamp := fun name => (waited.triggerTimes name).getD moveEndPrintTime
  { self with stepperPositions := self.stepperPositions.map fun position =>
      position.noteHomeEnd (timestamp position.endstopName) self.world }

variable (kinSPos : String → K)

namespace HomingMove

def probePositions : MoveM K σ (Coord K × Coord K) := do
  let positions ← self.ask .calcToolheadPos fun s => s.stepperPositions
  let haltSteps : String → K := stepMap positions fun p => p.haltPos - p.startPos
  let triggerSteps : String → K := stepMap positions fun p => p.trigPos - p.startPos
  let triggerPos ← self.ask .calcToolheadPos fun s =>
    self.calcToolheadPos kinSPos triggerSteps s.world
  if positions.all fun p => triggerSteps p.stepperName = haltSteps p.stepperName then
    pure (triggerPos, triggerPos)
  else do
    let haltPos ← self.ask .calcToolheadPos fun s =>
      self.calcToolheadPos kinSPos haltSteps s.world
    pure (haltPos, triggerPos)

def homePositions : MoveM K σ (Coord K × Coord K) := do
  let positions ← self.ask .calcToolheadPos fun s => s.stepperPositions
  let overSteps : String → K := stepMap positions fun p => p.haltPos - p.trigPos
  if positions.any fun p => overSteps p.stepperName ≠ 0 then do
    self.act .setPosition fun world => ((), self.toolhead.setPosition movepos world)
    let haltKinSPos ← self.ask .getKinematics fun s => self.toolhead.kinSPos s.world
    let haltPos ← self.ask .calcToolheadPos fun s =>
      self.calcToolheadPos haltKinSPos overSteps s.world
    pure (haltPos, movepos)
  else pure (movepos, movepos)

def haltPositions : MoveM K σ (Coord K × Coord K) :=
  if probePos then self.probePositions kinSPos else self.homePositions movepos

/-- The rest of `Move.Execute`: the position of the toolhead is set from the steppers. -/
def settle (moveEndPrintTime : K) (waited : Waited K) : MoveM K σ (ExecuteResult K) := do
  self.act .flushStepGeneration fun world => ((), self.toolhead.flushStepGeneration world)
  call self.panics .noteHomeEnd fun s => ((), s.noteHomeEnd moveEndPrintTime waited)
  let halted ← self.haltPositions movepos probePos kinSPos
  self.act .setPosition fun world => ((), self.toolhead.setPosition halted.1 world)
  pure { triggerPos := some halted.2, triggerTime := waited.triggerTime, err := waited.err }

/-- `Move.Execute` after a drip move that returned no error. -/
def finish (checkTriggered : Bool) (kinSPos : String → K) : MoveM K σ (ExecuteResult K) := do
  let moveEndPrintTime ← self.act .getMoveEndTime self.toolhead.lastMoveTime
  let waited ← self.wait moveEndPrintTime checkTriggered 0 self.endstops
    { triggerTimes := fun _ => none, triggerTime := 0, err := none }
  self.settle movepos probePos kinSPos moveEndPrintTime waited

def execute (speed : K) (probePos triggered checkTriggered : Bool) :
    MoveM K σ (ExecuteResult K) := do
  let prepared ← self.prepare
  self.drive movepos speed prepared.2 triggered
  match self.dripError with
  -- the endstops are left as they are
  | some err =>
    pure { triggerPos := none, triggerTime := 0, err := some ("error during homing move: " ++ err) }
  | none => self.finish movepos probePos checkTriggered prepared.1

end HomingMove

end Defs

variable {K σ ω : Type} (self : HomingMove K σ ω)

/-! ### The calls of a homing move -/

def prepareCalls : List MoveCall :=
  [.flushStepGeneration, .getKinematics, .getSteppers, .getLastMoveTime]

variable (i n : ℕ)

/-- The calls that arm the endstops `i`, ..., `i + n - 1`. -/
def armCalls : List MoveCall :=
  (range' i n).flatMap fun i => [.calcEndstopRate i, .homeStart i]

def driveCalls (n : ℕ) : List MoveCall := armCalls 0 n ++ [.multiComplete, .dwell, .dripMove]

def waitCalls : List MoveCall := (range' i n).map .homeWait

/-- The calls up to the last `HomeWait`, if none of them panics. -/
def HomingMove.calls : List MoveCall :=
  prepareCalls ++ (driveCalls self.endstops.length ++
    if self.dripError.isSome then [] else
      .getMoveEndTime :: waitCalls 0 self.endstops.length)

def MoveCall.ofEndstop : MoveCall → Prop
  | .homeStart _ | .homeWait _ => True
  | _ => False

theorem armCalls_succ :
    armCalls i (n + 1) = [.calcEndstopRate i] ++ ([.homeStart i] ++ armCalls (i + 1) n) := by
  simp [armCalls, range'_succ]

section

variable {self} {α : Type} (movepos : Coord K) (c : MoveCall)

theorem act_calls (f : σ → α × σ) :
    Calls self.panics (self.act c f : MoveM K σ α) [c] := calls_call c _

theorem ask_calls (f : MoveState K σ → α) : Calls self.panics (self.ask c f) [c] := calls_call c _

theorem act_callsOnly (hc : ¬ c.ofEndstop) (f : σ → α × σ) :
    CallsOnly (self.act c f : MoveM K σ α) fun c => ¬ c.ofEndstop :=
  (act_calls c f).only (by simpa using hc)

theorem ask_callsOnly (hc : ¬ c.ofEndstop) (f : MoveState K σ → α) :
    CallsOnly (self.ask c f) fun c => ¬ c.ofEndstop :=
  (ask_calls c f).only (by simpa using hc)

variable [Field K]

theorem prepare_calls : Calls self.panics self.prepare prepareCalls := by
  refine (act_calls .flushStepGeneration _).bind fun _ => ?_
  refine (ask_calls .getKinematics _).bind fun _ => ?_
  refine (calls_call MoveCall.getSteppers _).bind fun _ => ?_
  exact (act_calls .getLastMoveTime _).bind fun _ => calls_pure _

variable [LinearOrder K] (probePos : Bool) (kinSPos : String → K)
  (moveEndPrintTime speed printTime : K) (triggered checkTriggered : Bool) (i : ℕ)
  (endstops : List (NamedEndstop K σ ω)) (waited : Waited K)

theorem wait_calls :
    Calls self.panics (self.wait moveEndPrintTime checkTriggered i endstops waited)
      (waitCalls i endstops.length) := by
  induction endstops generalizing i waited with
  | nil => exact calls_pure _
  | cons endstop endstops ih =>
    exact (act_calls (.homeWait i) _).bind fun _ => ih _ _

theorem haltPositions_callsOnly :
    CallsOnly (self.haltPositions movepos probePos kinSPos) fun c => ¬ c.ofEndstop := by
  rw [HomingMove.haltPositions]
  split
  · refine (ask_callsOnly .calcToolheadPos id _).bind fun _ => ?_
    refine (ask_callsOnly .calcToolheadPos id _).bind fun _ => ?_
    split
    · exact callsOnly_pure _
    · exact (ask_callsOnly .calcToolheadPos id _).bind fun _ => callsOnly_pure _
  · refine (ask_callsOnly .calcToolheadPos id _).bind fun _ => ?_
    dsimp only
    split
    · refine (act_callsOnly .setPosition id _).bind fun _ => ?_
      refine (ask_callsOnly .getKinematics id _).bind fun _ => ?_
      exact (ask_callsOnly .calcToolheadPos id _).bind fun _ => callsOnly_pure _
    · exact callsOnly_pure _

/-- After the loop over `HomeWait` no endstop is called any more. -/
theorem settle_callsOnly :
    CallsOnly (self.settle movepos probePos kinSPos moveEndPrintTime waited)
      fun c => ¬ c.ofEndstop := by
  refine (act_callsOnly .flushStepGeneration id _).bind fun _ => ?_
  have hnote : Calls self.panics _ [MoveCall.noteHomeEnd] := calls_call MoveCall.noteHomeEnd
    fun s : MoveState K σ => ((), s.noteHomeEnd moveEndPrintTime waited)
  refine (hnote.only (by simp [MoveCall.ofEndstop])).bind fun _ => ?_
  refine (haltPositions_callsOnly movepos probePos kinSPos).bind fun _ => ?_
  exact (act_callsOnly .setPosition id _).bind fun _ => callsOnly_pure _

variable [HasSqrt K]

theorem arm_calls :
    Calls self.panics (self.arm movepos speed printTime triggered i endstops)
      (armCalls i endstops.length) := by
  induction endstops generalizing i with
  | nil => exact calls_pure _
  | cons endstop endstops ih =>
    rw [length_cons, armCalls_succ]
    refine (ask_calls (.calcEndstopRate i) _).bind fun _ => ?_
    refine (act_calls (.homeStart i) _).bind fun trigger => ?_
    rw [← append_nil (armCalls (i + 1) endstops.length)]
    exact (ih (i + 1)).bind fun triggers => calls_pure (trigger :: triggers)

theorem drive_calls :
    Calls self.panics (self.drive movepos speed printTime triggered)
      (driveCalls self.endstops.length) := by
  refine (arm_calls movepos speed printTime triggered 0 self.endstops).bind fun _ => ?_
  refine (ask_calls .multiComplete _).bind fun _ => ?_
  exact (act_calls .dwell _).bind fun _ => act_calls .dripMove _

variable (self) in
theorem execute_calls (movepos : Coord K) (speed : K) (probePos triggered checkTriggered : Bool) :
    CallsFirst self.panics (self.execute movepos speed probePos triggered checkTriggered)
      self.calls fun c => ¬ c.ofEndstop := by
  refine prepare_calls.first fun prepared => ?_
  refine (drive_calls movepos speed prepared.2 triggered).first fun _ => ?_
  cases self.dripError with
  | some err => exact (callsOnly_pure _).first
  | none =>
    refine (act_calls .getMoveEndTime _).first fun moveEndPrintTime => ?_
    show CallsFirst self.panics _ (waitCalls 0 self.endstops.length) _
    rw [← append_nil (waitCalls 0 self.endstops.length)]
    refine (wait_calls moveEndPrintTime checkTriggered 0 self.endstops _).first fun waited => ?_
    exact (settle_callsOnly movepos probePos prepared.1 moveEndPrintTime waited).first

end

/-! ### Every endstop that is armed is waited for -/

def Disarmed (log : List MoveCall) : Prop :=
  ∀ i, .homeStart i ∈ log → log.count (.homeWait i) = 1

/-- The move fails before it arms an endstop, or the drip move returns no error and no
call from the first arming to the last wait panics; the last wait itself may. -/
def HomingMove.Disarms : Prop :=
  self.endstops = [] ∨
  (∃ c ∈ prepareCalls ++ [.calcEndstopRate 0], self.panics c ≠ none) ∨
  self.dripError = none ∧
    ∀ c ∈ driveCalls self.endstops.length ++
      .getMoveEndTime :: waitCalls 0 (self.endstops.length - 1), self.panics c = none

/-- The calls up to the end of the drip move, split at the first arming. -/
theorem driveCalls_split (n : ℕ) (tail : List MoveCall) :
    prepareCalls ++ driveCalls (n + 1) ++ tail =
      (prepareCalls ++ [.calcEndstopRate 0]) ++ .homeStart 0 ::
        (armCalls 1 n ++ [.multiComplete, .dwell, .dripMove] ++ tail) := by
  simp [driveCalls, armCalls_succ]

theorem homeStart_mem_driveCalls {i n : ℕ} :
    .homeStart i ∈ prepareCalls ++ driveCalls n ↔ i < n := by
  simp [prepareCalls, driveCalls, armCalls]

theorem homeWait_notMem_driveCalls : .homeWait i ∉ prepareCalls ++ driveCalls n := by
  simp [prepareCalls, driveCalls, armCalls]

theorem homeStart_notMem_waitCalls : .homeStart i ∉ .getMoveEndTime :: waitCalls 0 n := by
  simp [waitCalls]

theorem count_waitCalls {i n : ℕ} (hi : i < n) : (waitCalls 0 n).count (.homeWait i) = 1 := by
  have hnodup : (waitCalls 0 n).Nodup :=
    (nodup_range').map fun _ _ h => MoveCall.homeWait.inj h
  exact count_eq_one_of_mem hnodup (by simpa [waitCalls] using hi)

theorem not_disarmed {log : List MoveCall} {i : ℕ} (hstart : .homeStart i ∈ log)
    (hwait : .homeWait i ∉ log) : ¬ Disarmed log := by
  intro h
  have hcount := h i hstart
  rw [count_eq_zero_of_not_mem hwait] at hcount
  exact absurd hcount Nat.zero_ne_one

/-- Calls that concern no endstop can be left out. -/
theorem disarmed_append_iff {log rest : List MoveCall} (hrest : ∀ c ∈ rest, ¬ c.ofEndstop) :
    Disarmed (log ++ rest) ↔ Disarmed log := by
  have hstart : ∀ i, .homeStart i ∉ rest := fun i hi => hrest _ hi trivial
  have hwait : ∀ i, rest.count (.homeWait i) = 0 := fun i =>
    count_eq_zero_of_not_mem fun hi => hrest _ hi trivial
  simp [Disarmed, count_append, hwait, hstart]

section

variable {panics : MoveCall → Option PanicValue} {n : ℕ} {tail : List MoveCall}

/-- A call panics before an endstop is armed. -/
theorem disarmed_prepare (hprepare : ∃ c ∈ prepareCalls ++ [.calcEndstopRate 0], panics c ≠ none) :
    Disarmed (cut panics (prepareCalls ++ driveCalls (n + 1) ++ tail)) := by
  intro i hi
  rw [driveCalls_split, cut_append_of_some hprepare] at hi
  have hmem := mem_of_mem_cut hi
  simp [prepareCalls] at hmem

/-- An endstop is armed, and a call before the loop over `HomeWait` panics. -/
theorem not_disarmed_drive (hprepare : ∀ c ∈ prepareCalls ++ [.calcEndstopRate 0], panics c = none)
    (hdrive : ∃ c ∈ prepareCalls ++ driveCalls (n + 1), panics c ≠ none) :
    ¬ Disarmed (cut panics (prepareCalls ++ driveCalls (n + 1) ++ tail)) := by
  refine not_disarmed (i := 0) ?_ ?_
  · exact mem_cut_of_none hprepare
  · rw [cut_append_of_some hdrive]
    exact fun h => homeWait_notMem_driveCalls 0 (n + 1) (mem_of_mem_cut h)

/-- The loop over `HomeWait` after a drip move that returned no error. -/
theorem disarmed_wait_iff : Disarmed (prepareCalls ++ driveCalls (n + 1) ++
      cut panics (.getMoveEndTime :: waitCalls 0 (n + 1))) ↔
    ∀ c ∈ .getMoveEndTime :: waitCalls 0 n, panics c = none := by
  have hsplit : .getMoveEndTime :: waitCalls 0 (n + 1) =
      (.getMoveEndTime :: waitCalls 0 n) ++ [.homeWait n] := by
    simp [waitCalls, range'_1_concat]
  by_cases hnone : ∀ c ∈ .getMoveEndTime :: waitCalls 0 n, panics c = none
  · -- the last wait is made whether it panics or not
    have hcut : cut panics (.getMoveEndTime :: waitCalls 0 (n + 1)) =
        .getMoveEndTime :: waitCalls 0 (n + 1) := by
      rw [hsplit, cut_append_of_none hnone]
      simp [cut]
    refine ⟨fun _ => hnone, fun _ i hi => ?_⟩
    rw [hcut] at hi ⊢
    have hlt : i < n + 1 := by
      rcases mem_append.mp hi with hi | hi
      · exact homeStart_mem_driveCalls.mp hi
      · exact absurd hi (homeStart_notMem_waitCalls i (n + 1))
    rw [count_append, count_eq_zero_of_not_mem (homeWait_notMem_driveCalls i (n + 1)),
      count_cons_of_ne (by simp), count_waitCalls hlt]
  · -- a wait before the last one panics, and the last endstop stays armed
    have hsome : ∃ c ∈ .getMoveEndTime :: waitCalls 0 n, panics c ≠ none := by
      push Not at hnone
      exact hnone
    refine ⟨fun h => absurd h (not_disarmed (i := n) ?_ ?_), fun h => absurd h hnone⟩
    · exact mem_append_left _ (homeStart_mem_driveCalls.mpr n.lt_succ_self)
    · rw [hsplit, cut_append_of_some hsome, mem_append]
      rintro (h | h)
      · exact homeWait_notMem_driveCalls n (n + 1) h
      · have hmem := mem_of_mem_cut h
        simp [waitCalls] at hmem

end

variable {self} in
/-- The endstops are all called before the rest of the move. -/
theorem disarmed_calls_iff : Disarmed (cut self.panics self.calls) ↔ self.Disarms := by
  rw [HomingMove.calls, ← append_assoc]
  rcases hn : self.endstops.length with _ | n
  · have hnil : self.endstops = [] := length_eq_zero_iff.mp hn
    refine ⟨fun _ => .inl hnil, fun _ i hi => ?_⟩
    rcases mem_append.mp (mem_of_mem_cut hi) with hi | hi
    · exact absurd (homeStart_mem_driveCalls.mp hi) (Nat.not_lt_zero i)
    · split at hi
      · cases hi
      · exact absurd hi (homeStart_notMem_waitCalls i 0)
  have hne : self.endstops ≠ [] := by
    intro h
    rw [h] at hn
    cases hn
  by_cases hprepare : ∃ c ∈ prepareCalls ++ [.calcEndstopRate 0], self.panics c ≠ none
  · exact ⟨fun _ => .inr (.inl hprepare), fun _ => disarmed_prepare hprepare⟩
  have hnone : ∀ c ∈ prepareCalls ++ [.calcEndstopRate 0], self.panics c = none := by
    push Not at hprepare
    exact hprepare
  have hdisarms : self.Disarms ↔ self.dripError = none ∧
      (∀ c ∈ driveCalls (n + 1), self.panics c = none) ∧
      ∀ c ∈ .getMoveEndTime :: waitCalls 0 n, self.panics c = none := by
    rw [HomingMove.Disarms, or_iff_right hne, or_iff_right hprepare, hn, Nat.add_sub_cancel,
      forall_mem_append]
  rw [hdisarms]
  by_cases hdrive : ∀ c ∈ driveCalls (n + 1), self.panics c = none
  · have hall := forall_mem_append.mpr ⟨(forall_mem_append.mp hnone).1, hdrive⟩
    rw [cut_append_of_none hall, and_iff_right hdrive]
    cases hdrip : self.dripError with
    | none =>
      rw [if_neg (by simp), disarmed_wait_iff, and_iff_right rfl]
    | some err =>
      rw [if_pos (by simp), cut, append_nil]
      exact ⟨fun h => absurd h (not_disarmed (homeStart_mem_driveCalls.mpr n.succ_pos)
        (homeWait_notMem_driveCalls 0 (n + 1))), fun h => absurd h.1 (by simp)⟩
  · obtain ⟨c, hc, hpanic⟩ : ∃ c ∈ driveCalls (n + 1), self.panics c ≠ none := by
      push Not at hdrive
      exact hdrive
    have hsome : ∃ c ∈ prepareCalls ++ driveCalls (n + 1), self.panics c ≠ none :=
      ⟨c, mem_append_right _ hc, hpanic⟩
    exact ⟨fun h => absurd h (not_disarmed_drive hnone hsome), fun h => absurd h.2.1 hdrive⟩

variable [Field K] [LinearOrder K] [HasSqrt K]

def HomingMove.log (movepos : Coord K) (speed : K) (probePos triggered checkTriggered : Bool)
    (s : MoveState K σ) : List MoveCall :=
  (stateOf (self.execute movepos speed probePos triggered checkTriggered
    { world := s, log := [] })).log

/-- Every endstop that `Execute` arms gets exactly one `HomeWait`, however the move
goes, if and only if the move fails before it arms one, or the drip move succeeds and
no call panics while an endstop is armed. -/
theorem execute_disarmed_iff (movepos : Coord K) (speed : K)
    (probePos triggered checkTriggered : Bool) (s : MoveState K σ) :
    Disarmed (self.log movepos speed probePos triggered checkTriggered s) ↔ self.Disarms := by
  obtain ⟨rest, hlog, hrest⟩ :=
    execute_calls self movepos speed probePos triggered checkTriggered { world := s, log := [] }
  rw [HomingMove.log, hlog, nil_append, disarmed_append_iff hrest, disarmed_calls_iff]

def oneEndstop (panics : MoveCall → Option PanicValue) (dripError : Option String) :
    HomingMove ℚ Unit Unit where
  endstops :=
    [{ name := "x", steppers := []
       homeStart := fun _ _ => ((), ()), homeWait := fun _ _ => (1, ()) }]
  toolhead :=
    { steppers := []
      calcPosition := fun _ _ => 0
      position := fun _ _ => 0
      flushStepGeneration := id
      lastMoveTime := fun _ => (0, ())
      dwell := fun _ => id
      dripMove := fun _ _ _ => id
      setPosition := fun _ => id }
  isDebugInput := false
  panics := panics
  dripError := dripError

/-- The endstop stays armed when the drip move returns an error, and when it panics. -/
theorem execute_drip_failure :
    ¬ Disarmed ((oneEndstop (fun _ => none) (some "failed")).log (fun _ => 0) 1 false true true
      { world := (), stepperPositions := [] }) ∧
    ¬ Disarmed ((oneEndstop (fun c => if c = .dripMove then some (.error "Must home axis first")
      else none) none).log (fun _ => 0) 1 false true true
      { world := (), stepperPositions := [] }) := by
  constructor <;> exact not_disarmed (i := 0) (by decide) (by decide)

end Motion
