/-
Probe runs and multi-probe sessions
(`internal/pkg/motion/probe/printer_probe_runtime.go`, `printer_probe_events.go`, `samples.go`,
`printer_probe_module.go`).

A probe run takes samples until enough of them in a row agree, and starts over, a limited
number of times, when they do not.  Around the samples it begins a multi-probe session, unless
one is pending, and ends it after the loop.  A panic leaves the loop without that.  The module
also ends the session when it receives the event `gcode:command_error`; but the dispatcher,
which does not recover from panics, sends no such event.
-/
import KlipperGo.CallLog
import KlipperGo.ExactArith
import KlipperGo.GcodeDispatch

open GoRuntime GoStrings Outcome CallLog Gcode List

namespace Probe

open DispatchRuntime Dispatcher

abbrev Position (K : Type) := Fin 3 → K

/-- `ProbeCommand`: the parameters of the command, or a panic. -/
structure ProbeCommand (K : Type) where
  getFloat : String → K → Except Panic K
  getInt : String → ℤ → ℤ → Except Panic ℤ
  get : String → String → String

/-- `PrinterProbe`, with the fields that a probe run uses. -/
structure PrinterProbe (K : Type) where
  speed : K
  liftSpeed : K
  sampleCount : ℤ
  sampleRetractDist : K
  samplesTolerance : K
  samplesRetries : ℤ
  samplesResult : String
  multiProbePending : Bool
  lastZResult : K

structure ProbeParams (K : Type) where
  speed : K
  liftSpeed : K
  sampleCount : ℤ
  sampleRetractDist : K
  samplesTolerance : K
  samplesRetries : ℤ
  samplesResult : String

/-- The surroundings of a probe run.  The outcome of a probe and of the move after it depends on
how many probes there have been; the handlers of other modules are called for an event; any of
this may panic. -/
structure ProbeEnv (K : Type) where
  toolheadPosition : Fin 4 → K
  probe : ℕ → K → Except Panic (Position K)
  move : ℕ → List K → K → Except Panic Unit
  beginMCUMultiProbe : Except Panic Unit
  endMCUMultiProbe : Except Panic Unit
  otherHandlers : String → Except Panic Unit
  extendParams : DispatchCommand → Except Panic DispatchCommand
  asProbeCommand : DispatchCommand → ProbeCommand K

/-- The probe, the events sent so far, and the number of probes. -/
structure ProbeState (K : Type) where
  core : PrinterProbe K
  sent : List String
  probes : ℕ

abbrev ProbeM (K : Type) := EStateM Panic (ProbeState K)

section Defs

variable {K : Type} [Field K] [LinearOrder K]

/-! ### Samples -/

variable (positions : List (Position K)) (env : ProbeEnv K) (p : ProbeParams K) (probexy : List K)

def meanPosition : Option (Position K) :=
  if positions.isEmpty then none
  else some fun i => (positions.map fun pos => pos i).sum / (positions.length : K)

def medianPosition : Option (Position K) :=
  let zSorted := positions.mergeSort fun a b => decide (a 2 ≤ b 2)
  let middle := zSorted.length / 2
  if zSorted.length % 2 = 1 then zSorted[middle]?
  else meanPosition ((zSorted.take (middle + 1)).drop (middle - 1))

def zRange : List (Position K) → K × K
  | [] => (0, 0)
  | first :: rest => rest.foldl (fun range item =>
      (if range.1 < item 2 then item 2 else range.1, if item 2 < range.2 then item 2 else range.2))
      (first 2, first 2)

def exceedsTolerance (tolerance : K) : Bool :=
  if positions.isEmpty then false
  else decide (tolerance < (zRange positions).1 - (zRange positions).2)

/-! ### The run -/

/-- The parameters of the run; the defaults are the configured values. -/
def readParams (core : PrinterProbe K) (command : ProbeCommand K) :
    Except Panic (ProbeParams K) := do
  let speed ← command.getFloat "PROBE_SPEED" core.speed
  let liftSpeed ← command.getFloat "LIFT_SPEED" core.liftSpeed
  let sampleCount ← command.getInt "SAMPLES" core.sampleCount 1
  let sampleRetractDist ← command.getFloat "SAMPLE_RETRACT_DIST" core.sampleRetractDist
  let samplesTolerance ← command.getFloat "SAMPLES_TOLERANCE" core.samplesTolerance
  let samplesRetries ← command.getInt "SAMPLES_TOLERANCE_RETRIES" core.samplesRetries 0
  let samplesResult := command.get "SAMPLES_RESULT" core.samplesResult
  return { speed, liftSpeed, sampleCount, sampleRetractDist, samplesTolerance, samplesRetries
           samplesResult }

def retractMove (z : K) : List K := probexy ++ [z]

/-- The loop of `RunProbeSequence`, from probe number `i` on: the positions it ends with or its
panic, and the number of the next probe. -/
def probeLoop (env : ProbeEnv K) (p : ProbeParams K) (probexy : List K)
    (positions : List (Position K)) (retries : ℤ) (i : ℕ) : Except Panic (List (Position K)) × ℕ :=
  if _h : (positions.length : ℤ) < p.sampleCount then
    match env.probe i p.speed with
    | .error panic => (.error panic, i + 1)
    | .ok pos =>
      let moved := env.move i (retractMove probexy (pos 2 + p.sampleRetractDist)) p.liftSpeed
      if exceedsTolerance (positions ++ [pos]) p.samplesTolerance then
        if _h : p.samplesRetries ≤ retries then
          (.error (.value ["Probe samples exceed samples_tolerance"]), i + 1)
        else
          match moved with
          | .error panic => (.error panic, i + 1)
          | .ok _ => probeLoop env p probexy [] (retries + 1) (i + 1)
      else if (positions.length : ℤ) + 1 < p.sampleCount then
        match moved with
        | .error panic => (.error panic, i + 1)
        | .ok _ => probeLoop env p probexy (positions ++ [pos]) retries (i + 1)
      else probeLoop env p probexy (positions ++ [pos]) retries (i + 1)
  else (.ok positions, i)
termination_by ((p.samplesRetries - retries).toNat, p.sampleCount.toNat - positions.length)
decreasing_by
  · apply Prod.Lex.left
    omega
  · apply Prod.Lex.right
    simp only [length_append, length_singleton]
    omega
  · apply Prod.Lex.right
    simp only [length_append, length_singleton]
    omega

/-! ### The session -/

def liftExcept {α : Type} (x : Except Panic α) : ProbeM K α := fun s =>
  match x with
  | .ok a => .ok a s
  | .error panic => .error panic s

/-- An event that the probe itself does not handle is sent. -/
def sendOther (event : String) : ProbeM K Unit := do
  modify fun s => { s with sent := s.sent ++ [event] }
  liftExcept (env.otherHandlers event)

def beginMultiProbe : ProbeM K Unit := do
  sendOther env "homing:multi_probe_begin"
  liftExcept env.beginMCUMultiProbe
  modify fun s => { s with core := { s.core with multiProbePending := true } }

def endMultiProbe : ProbeM K Unit := do
  let wasPending := (← get).core.multiProbePending
  modify fun s => { s with core := { s.core with multiProbePending := false } }
  if wasPending then liftExcept env.endMCUMultiProbe
  sendOther env "homing:multi_probe_end"

/-- An event is sent; the probe handles `gcode:command_error` (`HandleCommandError`).  The events
of homing moves come with arguments and are not sent this way. -/
def sendEvent (event : String) : ProbeM K Unit := do
  sendOther env event
  if event = "gcode:command_error" then endMultiProbe env

/-- The loop, as a part of the run. -/
def runLoop : ProbeM K (List (Position K)) := fun s =>
  match probeLoop env p probexy [] 0 s.probes with
  | (.ok positions, i) => .ok positions { s with probes := i }
  | (.error panic, i) => .error panic { s with probes := i }

def runProbeSequence (command : ProbeCommand K) : ProbeM K (Option (Position K)) := do
  let core := (← get).core
  let p ← liftExcept (readParams core command)
  let mustNotifyMultiProbe := !core.multiProbePending
  if mustNotifyMultiProbe then beginMultiProbe env
  let probexy := [env.toolheadPosition 0, env.toolheadPosition 1]
  let positions ← runLoop env p probexy
  if mustNotifyMultiProbe then endMultiProbe env
  if p.samplesResult = "median" then return medianPosition positions
  return meanPosition positions

def handleProbeCommand : Handler (ProbeState K) := fun gcmd => do
  let pos ← runProbeSequence env (env.asProbeCommand gcmd)
  match pos with
  | none => throw (.indexOutOfRange 2 0)
  | some pos =>
    modify fun s => { s with core := { s.core with lastZResult := pos 2 } }
    return none

/-- The dispatcher.  An error that a handler returns shuts the printer down. -/
def probeDispatcher (dispatch : DispatchRuntime (Handler (ProbeState K))) :
    Dispatcher (ProbeState K) where
  dispatch := dispatch
  extendParams gcmd := liftExcept (env.extendParams gcmd)
  cmdDefault _ := return none
  invokeShutdown _ := sendEvent env "project:shutdown"
  respondError _ := return

/-! ### When the probes settle -/

/-- Samples that are given up: the last of them exceeds the tolerance. -/
structure ProbeParams.Rejects (p : ProbeParams K) (block : List (Position K)) : Prop where
  length_le : block.length ≤ p.sampleCount.toNat
  exceeds : exceedsTolerance block p.samplesTolerance = true
  before : ∀ first, first <+: block → first ≠ block →
    exceedsTolerance first p.samplesTolerance = false

/-- Samples never exceed the tolerance. -/
def ProbeParams.Within (block : List (Position K)) : Prop :=
  ∀ first, first <+: block → exceedsTolerance first p.samplesTolerance = false

/-- From number `i` on the probes give these positions, and the moves between them succeed. -/
def ProbeEnv.Yields (env : ProbeEnv K) (p : ProbeParams K) (probexy : List K) :
    ℕ → List (Position K) → Prop
  | _, [] => True
  | i, [pos] => env.probe i p.speed = .ok pos
  | i, pos :: next :: more => env.probe i p.speed = .ok pos ∧
      env.move i (retractMove probexy (pos 2 + p.sampleRetractDist)) p.liftSpeed = .ok () ∧
      env.Yields p probexy (i + 1) (next :: more)

/-- From number `i` on the probes give as many positions as asked for in a row that stay within
the tolerance, after at most as many rejected ones as there are retries; and nothing panics. -/
def Settles (i : ℕ) : Prop :=
  ∃ (rejected : List (List (Position K))) (accepted : List (Position K)),
    rejected.length ≤ p.samplesRetries.toNat ∧ (∀ b ∈ rejected, p.Rejects b) ∧
    accepted.length = p.sampleCount.toNat ∧ p.Within accepted ∧
    env.Yields p probexy i (rejected.flatten ++ accepted)

end Defs

section

variable {K : Type} [Field K] [LinearOrder K] {env : ProbeEnv K} {p : ProbeParams K}
  {probexy : List K} {positions todo : List (Position K)} {pos : Position K} {r : ℕ}

/-! ### Blocks of samples -/

/-- The samples taken since the last rejection, followed by those to come, are rejected blocks, at
most `r`, and an accepted one. -/
def ProbeParams.Splits (p : ProbeParams K) (positions : List (Position K)) (r : ℕ)
    (todo : List (Position K)) : Prop :=
  ∃ (rejected : List (List (Position K))) (accepted : List (Position K)),
    positions ++ todo = rejected.flatten ++ accepted ∧ rejected.length ≤ r ∧
    (∀ b ∈ rejected, p.Rejects b) ∧ accepted.length = p.sampleCount.toNat ∧ p.Within accepted ∧
    ∀ b ∈ rejected.head?, positions.length < b.length

theorem ProbeParams.Rejects.length_pos {block : List (Position K)} (h : p.Rejects block) :
    0 < block.length := by
  cases block with
  | nil => cases h.exceeds
  | cons pos block => exact Nat.succ_pos _

omit [Field K] [LinearOrder K] in
/-- A block that is longer than the samples so far begins with them and the next one. -/
theorem begins_block {b rest : List (Position K)} (heq : positions ++ pos :: todo = b ++ rest)
    (hlt : positions.length < b.length) : positions ++ [pos] <+: b := by
  have hone : positions ++ [pos] <+: positions ++ pos :: todo := ⟨todo, by simp⟩
  have hb : b <+: positions ++ pos :: todo := ⟨rest, heq.symm⟩
  exact prefix_of_prefix_length_le hone hb (by simpa using hlt)

theorem splits_nil_iff (h : p.Within positions) :
    p.Splits positions r [] ↔ positions.length = p.sampleCount.toNat := by
  constructor
  · rintro ⟨_ | ⟨b, rejected⟩, accepted, heq, -, -, hlength, -, hhead⟩
    · rw [append_nil, flatten_nil, nil_append] at heq
      rw [heq, hlength]
    · -- a rejected block would be longer than what there is
      have hlen := congrArg List.length heq
      have hlt := hhead b rfl
      simp only [flatten_cons, length_append, length_nil] at hlen
      omega
  · intro hlength
    exact ⟨[], positions, by simp, Nat.zero_le r, by simp, hlength, h, by simp⟩

/-- A sample that exceeds the tolerance ends a rejected block. -/
theorem splits_cons_exceeds_iff (h : p.Within positions)
    (hlength : positions.length < p.sampleCount.toNat)
    (hexceeds : exceedsTolerance (positions ++ [pos]) p.samplesTolerance = true) :
    p.Splits positions r (pos :: todo) ↔ 0 < r ∧ p.Splits [] (r - 1) todo := by
  constructor
  · rintro ⟨_ | ⟨b, rejected⟩, accepted, heq, hr, hrejects, haccepted, hwithin, hhead⟩
    · have hbegin : positions ++ [pos] <+: accepted :=
        ⟨todo, by simpa using heq⟩
      rw [hwithin _ hbegin] at hexceeds
      cases hexceeds
    · obtain ⟨hb, hall⟩ := forall_mem_cons.mp hrejects
      rw [flatten_cons, append_assoc] at heq
      have hbegin := begins_block heq (hhead b rfl)
      obtain rfl : positions ++ [pos] = b := by
        by_contra hne
        rw [hb.before _ hbegin hne] at hexceeds
        cases hexceeds
      refine ⟨by simp at hr; omega, rejected, accepted, ?_, by simp at hr; omega, hall, haccepted,
        hwithin, ?_⟩
      · simpa using heq
      · intro b' hb'
        exact (hall b' (mem_of_head? hb')).length_pos
  · rintro ⟨hr, rejected, accepted, heq, hle, hrejects, haccepted, hwithin, -⟩
    have hb : p.Rejects (positions ++ [pos]) := by
      refine ⟨by simpa using hlength, hexceeds, fun first hfirst hne => ?_⟩
      rcases prefix_concat_iff.mp hfirst with heq | hbefore
      · exact absurd heq hne
      · exact h first hbefore
    refine ⟨(positions ++ [pos]) :: rejected, accepted, ?_, by simp; omega,
      forall_mem_cons.mpr ⟨hb, hrejects⟩, haccepted, hwithin, ?_⟩
    · rw [nil_append] at heq
      simp [heq]
    · cases hb
      simp

theorem within_concat (h : p.Within positions)
    (hexceeds : exceedsTolerance (positions ++ [pos]) p.samplesTolerance = false) :
    p.Within (positions ++ [pos]) := by
  intro first hfirst
  rcases prefix_concat_iff.mp hfirst with rfl | hbefore
  · exact hexceeds
  · exact h first hbefore

/-- Any other sample goes on with the block. -/
theorem splits_cons_within_iff
    (hexceeds : exceedsTolerance (positions ++ [pos]) p.samplesTolerance = false) :
    p.Splits positions r (pos :: todo) ↔ p.Splits (positions ++ [pos]) r todo := by
  constructor
  · rintro ⟨rejected, accepted, heq, hr, hrejects, haccepted, hwithin, hhead⟩
    refine ⟨rejected, accepted, by simpa using heq, hr, hrejects, haccepted, hwithin, ?_⟩
    intro b hb
    obtain ⟨more, hmore⟩ := head?_eq_some_iff.mp hb
    have hlt := hhead b hb
    -- a block of just these samples would not be rejected
    have hne : b ≠ positions ++ [pos] := by
      rintro rfl
      have hexceeds' := (hrejects _ (mem_of_head? hb)).exceeds
      rw [hexceeds] at hexceeds'
      cases hexceeds'
    have hbegin : positions ++ [pos] <+: b := by
      rw [hmore, flatten_cons, append_assoc] at heq
      exact begins_block heq hlt
    rcases Nat.lt_or_ge (positions ++ [pos]).length b.length with hlonger | hshorter
    · exact hlonger
    · exact absurd (hbegin.eq_of_length_le hshorter).symm hne
  · rintro ⟨rejected, accepted, heq, hr, hrejects, haccepted, hwithin, hhead⟩
    refine ⟨rejected, accepted, by simpa using heq, hr, hrejects, haccepted, hwithin, ?_⟩
    intro b hb
    have hlt := hhead b hb
    simp at hlt
    omega

/-! ### The loop -/

omit [LinearOrder K] in
theorem yields_cons_iff {i : ℕ} : env.Yields p probexy i (pos :: todo) ↔
    env.probe i p.speed = .ok pos ∧ (todo ≠ [] →
      env.move i (retractMove probexy (pos 2 + p.sampleRetractDist)) p.liftSpeed = .ok ()) ∧
    env.Yields p probexy (i + 1) todo := by
  cases todo <;> simp [ProbeEnv.Yields]

theorem within_nil : p.Within [] := by simp [ProbeParams.Within, exceedsTolerance]

/-- While samples are missing, the next probe decides how it goes on. -/
theorem exists_todo_iff {i : ℕ} (hwithin : p.Within positions)
    (hlt : positions.length < p.sampleCount.toNat) (hprobe : env.probe i p.speed = .ok pos) :
    (∃ todo, env.Yields p probexy i todo ∧ p.Splits positions r todo) ↔
      ∃ todo, (todo ≠ [] →
          env.move i (retractMove probexy (pos 2 + p.sampleRetractDist)) p.liftSpeed = .ok ()) ∧
        env.Yields p probexy (i + 1) todo ∧ p.Splits positions r (pos :: todo) := by
  constructor
  · rintro ⟨_ | ⟨pos', todo⟩, hyields, hsplits⟩
    · have hlength := (splits_nil_iff hwithin).mp hsplits
      omega
    · obtain ⟨hok, hmove, hrest⟩ := yields_cons_iff.mp hyields
      cases hprobe.symm.trans hok
      exact ⟨todo, hmove, hrest, hsplits⟩
  · rintro ⟨todo, hmove, hyields, hsplits⟩
    exact ⟨pos :: todo, yields_cons_iff.mpr ⟨hprobe, hmove, hyields⟩, hsplits⟩

/-- The loop comes to its end just if the outcomes to come split into blocks. -/
theorem probeLoop_ok_iff (retries : ℤ) (i : ℕ) (hwithin : p.Within positions)
    (hlength : positions.length ≤ p.sampleCount.toNat) :
    (∃ ps, (probeLoop env p probexy positions retries i).1 = .ok ps) ↔
      ∃ todo, env.Yields p probexy i todo ∧
        p.Splits positions (p.samplesRetries - retries).toNat todo := by
  fun_induction probeLoop env p probexy positions retries i with
  | case1 positions retries i h panic hprobe =>
    -- the probe panics
    refine iff_of_false (by simp) ?_
    rintro ⟨_ | ⟨pos, todo⟩, hyields, hsplits⟩
    · have hlen := (splits_nil_iff hwithin).mp hsplits
      omega
    · cases hprobe.symm.trans (yields_cons_iff.mp hyields).1
  | case2 positions retries i h pos hprobe hexceeds hretries =>
    -- there is no retry left
    rw [exists_todo_iff hwithin (by omega) hprobe]
    refine iff_of_false (by simp) ?_
    rintro ⟨todo, -, -, hsplits⟩
    have hpos := ((splits_cons_exceeds_iff hwithin (by omega) hexceeds).mp hsplits).1
    omega
  | case3 positions retries i h pos hprobe moved hexceeds hretries panic hmoved =>
    -- the move after a rejected block panics
    rw [exists_todo_iff hwithin (by omega) hprobe]
    refine iff_of_false (by simp) ?_
    rintro ⟨_ | ⟨next, todo⟩, hmove, -, hsplits⟩
    · have hrest := ((splits_cons_exceeds_iff hwithin (by omega) hexceeds).mp hsplits).2
      have hzero := (splits_nil_iff within_nil).mp hrest
      simp at hzero
      omega
    · cases hmoved.symm.trans (hmove (cons_ne_nil _ _))
  | case4 positions retries i h pos hprobe moved hexceeds hretries u hmoved ih =>
    have hr : (p.samplesRetries - (retries + 1)).toNat =
        (p.samplesRetries - retries).toNat - 1 := by
      omega
    rw [ih within_nil (Nat.zero_le _), exists_todo_iff hwithin (by omega) hprobe, hr]
    refine exists_congr fun todo => ?_
    rw [splits_cons_exceeds_iff hwithin (by omega) hexceeds, and_iff_right (by omega : 0 < _)]
    exact (and_iff_right fun _ => hmoved).symm
  | case5 positions retries i h pos hprobe moved hexceeds hmore panic hmoved =>
    -- the move between two samples panics
    rw [Bool.not_eq_true] at hexceeds
    rw [exists_todo_iff hwithin (by omega) hprobe]
    refine iff_of_false (by simp) ?_
    rintro ⟨_ | ⟨next, todo⟩, hmove, -, hsplits⟩
    · have hlen := (splits_nil_iff (within_concat hwithin hexceeds)).mp
        ((splits_cons_within_iff hexceeds).mp hsplits)
      simp at hlen
      omega
    · cases hmoved.symm.trans (hmove (cons_ne_nil _ _))
  | case6 positions retries i h pos hprobe moved hexceeds hmore u hmoved ih =>
    rw [Bool.not_eq_true] at hexceeds
    rw [ih (within_concat hwithin hexceeds) (by simp; omega),
      exists_todo_iff hwithin (by omega) hprobe]
    refine exists_congr fun todo => ?_
    rw [splits_cons_within_iff hexceeds]
    exact (and_iff_right fun _ => hmoved).symm
  | case7 positions retries i h pos hprobe hexceeds hmore ih =>
    -- the last sample is not followed by a move
    rw [Bool.not_eq_true] at hexceeds
    have hconcat := within_concat hwithin hexceeds
    have hlast : p.Splits (positions ++ [pos]) (p.samplesRetries - retries).toNat [] :=
      (splits_nil_iff hconcat).mpr (by simp; omega)
    rw [exists_todo_iff hwithin (by omega) hprobe]
    refine iff_of_true ((ih hconcat (by simp; omega)).mpr ⟨[], trivial, hlast⟩) ?_
    exact ⟨[], by simp, trivial, (splits_cons_within_iff hexceeds).mpr hlast⟩
  | case8 positions retries i h =>
    refine iff_of_true ⟨_, rfl⟩ ⟨[], trivial, ?_⟩
    exact (splits_nil_iff hwithin).mpr (by omega)

/-- From the start: the probes settle. -/
theorem probeLoop_settles_iff (i : ℕ) :
    (∃ ps, (probeLoop env p probexy [] 0 i).1 = .ok ps) ↔ Settles env p probexy i := by
  rw [probeLoop_ok_iff 0 i within_nil (Nat.zero_le _), sub_zero]
  constructor
  · rintro ⟨todo, hyields, rejected, accepted, heq, hr, hrejects, hlength, hwithin, -⟩
    exact ⟨rejected, accepted, hr, hrejects, hlength, hwithin, heq ▸ hyields⟩
  · rintro ⟨rejected, accepted, hr, hrejects, hlength, hwithin, hyields⟩
    refine ⟨_, hyields, rejected, accepted, rfl, hr, hrejects, hlength, hwithin, ?_⟩
    intro b hb
    exact (hrejects b (mem_of_head? hb)).length_pos

/-! ### Sessions -/

/-- The run begins a session, with these parameters: they can be read, no session is pending,
and nothing panics until the flag is set. -/
def Begins (env : ProbeEnv K) (command : ProbeCommand K) (s : ProbeState K) (p : ProbeParams K) :
    Prop :=
  readParams s.core command = .ok p ∧ s.core.multiProbePending = false ∧
    env.otherHandlers "homing:multi_probe_begin" = .ok () ∧ env.beginMCUMultiProbe = .ok ()

omit [Field K] [LinearOrder K] in
theorem liftExcept_ok {α : Type} {x : Except Panic α} {a : α} (h : x = .ok a) (s : ProbeState K) :
    liftExcept x s = .ok a s := by
  rw [h]
  rfl

omit [Field K] [LinearOrder K] in
theorem liftExcept_error {α : Type} {x : Except Panic α} {panic : Panic} (h : x = .error panic)
    (s : ProbeState K) : liftExcept x s = .error panic s := by
  rw [h]
  rfl

omit [Field K] [LinearOrder K] in
/-- A session is begun, or a panic comes before the flag is set. -/
theorem beginMultiProbe_cases (env : ProbeEnv K) (s : ProbeState K) :
    (env.otherHandlers "homing:multi_probe_begin" = .ok () ∧ env.beginMCUMultiProbe = .ok () ∧
      ∃ s', beginMultiProbe env s = .ok () s' ∧ s'.core.multiProbePending = true ∧
        s'.probes = s.probes) ∨
    (¬ (env.otherHandlers "homing:multi_probe_begin" = .ok () ∧ env.beginMCUMultiProbe = .ok ()) ∧
      ∃ panic s', beginMultiProbe env s = .error panic s' ∧
        s'.core.multiProbePending = s.core.multiProbePending) := by
  set s₁ : ProbeState K := { s with sent := s.sent ++ ["homing:multi_probe_begin"] } with hs₁
  rcases hevent : env.otherHandlers "homing:multi_probe_begin" with panic | ⟨⟩
  · have hsend := liftExcept_error hevent s₁
    exact .inr ⟨by simp, panic, s₁, bind_error hsend _, rfl⟩
  · have hsend : sendOther env "homing:multi_probe_begin" s = .ok () s₁ := liftExcept_ok hevent s₁
    rcases hmcu : env.beginMCUMultiProbe with panic | ⟨⟩
    · refine .inr ⟨by simp, panic, s₁, ?_, rfl⟩
      rw [beginMultiProbe, bind_ok hsend]
      exact bind_error (liftExcept_error hmcu s₁) _
    · refine .inl ⟨rfl, rfl, { s₁ with core := { s₁.core with multiProbePending := true } }, ?_,
        rfl, rfl⟩
      rw [beginMultiProbe, bind_ok hsend, bind_ok (liftExcept_ok hmcu s₁)]
      rfl

omit [Field K] [LinearOrder K] in
/-- The end of a session clears the flag before anything can panic. -/
theorem endMultiProbe_pending (env : ProbeEnv K) (s : ProbeState K) :
    (stateOf (endMultiProbe env s)).core.multiProbePending = false := by
  rw [endMultiProbe, bind_get]
  have hsend : ∀ s' : ProbeState K, s'.core.multiProbePending = false →
      (stateOf (sendOther env "homing:multi_probe_end" s')).core.multiProbePending = false := by
    intro s' hs'
    rw [sendOther, bind_modify]
    cases env.otherHandlers "homing:multi_probe_end" <;> exact hs'
  rw [bind_modify]
  split
  · rcases env.endMCUMultiProbe with panic | ⟨⟩
    · rfl
    · exact hsend _ rfl
  · exact hsend _ rfl

/-- Without a session before, the run leaves none behind just if it does not begin one or its
probes settle. -/
theorem runProbeSequence_pending_iff {command : ProbeCommand K} {s : ProbeState K}
    (h : s.core.multiProbePending = false) :
    (stateOf (runProbeSequence env command s)).core.multiProbePending = false ↔
      ∀ p, Begins env command s p →
        Settles env p [env.toolheadPosition 0, env.toolheadPosition 1] s.probes := by
  rw [runProbeSequence, bind_get]
  rcases hread : readParams s.core command with panic | p
  · refine iff_of_true h fun p hp => ?_
    rw [Begins, hread] at hp
    cases hp.1
  rw [bind_ok (liftExcept_ok rfl s)]
  simp only [h, Bool.not_false, if_true]
  rcases beginMultiProbe_cases env s with
    ⟨hevent, hmcu, s₁, hbegin, hpending, hprobes⟩ | ⟨hnot, panic, s₁, hbegin, hpending⟩
  · have hbegins : ∀ p', Begins env command s p' ↔ p' = p := by
      intro p'
      rw [Begins, hread]
      simp [h, hevent, hmcu, eq_comm]
    simp only [hbegins, forall_eq, bind_ok hbegin, ← probeLoop_settles_iff]
    rcases hloop : probeLoop env p [env.toolheadPosition 0, env.toolheadPosition 1] [] 0
      s.probes with ⟨panic | ps, i⟩
    · -- the panic passes by the end of the session
      have hrun : runLoop env p [env.toolheadPosition 0, env.toolheadPosition 1] s₁ =
          .error panic { s₁ with probes := i } := by
        simp only [runLoop, hprobes, hloop]
      rw [bind_error hrun]
      exact iff_of_false (by simp [stateOf, hpending]) (by simp)
    · have hrun : runLoop env p [env.toolheadPosition 0, env.toolheadPosition 1] s₁ =
          .ok ps { s₁ with probes := i } := by
        simp only [runLoop, hprobes, hloop]
      rw [bind_ok hrun]
      refine iff_of_true ?_ ⟨ps, rfl⟩
      have hended := endMultiProbe_pending env { s₁ with probes := i }
      rcases hend : endMultiProbe env { s₁ with probes := i } with ⟨⟨⟩, s₂⟩ | ⟨panic, s₂⟩
      · rw [hend] at hended
        rw [bind_ok hend]
        split <;> exact hended
      · rw [hend] at hended
        rw [bind_error hend]
        exact hended
  · rw [bind_error hbegin]
    exact iff_of_true (hpending.trans h) fun p hp => absurd ⟨hp.2.2.1, hp.2.2.2⟩ hnot

/-- What follows the run in the command does not touch the flag. -/
theorem handleProbeCommand_pending (env : ProbeEnv K) (gcmd : DispatchCommand) (s : ProbeState K) :
    (stateOf (handleProbeCommand env gcmd s)).core.multiProbePending =
      (stateOf (runProbeSequence env (env.asProbeCommand gcmd) s)).core.multiProbePending := by
  rw [handleProbeCommand]
  rcases hrun : runProbeSequence env (env.asProbeCommand gcmd) s with ⟨_ | pos, s'⟩ | ⟨panic, s'⟩
  · rw [bind_ok hrun]
    rfl
  · rw [bind_ok hrun]
    rfl
  · rw [bind_error hrun]
    rfl

/-! ### The command -/

/-- The dispatched command leaves the flag as the run does; if its parameters cannot be read,
there is no run. -/
theorem processCommand_pending {u : UnicodeTables} {line : String} {s : ProbeState K}
    {dispatch : DispatchRuntime (Handler (ProbeState K))}
    (hline : dispatch.activeHandlers (parseDispatchCommandLine u line).command =
      some (.extended "PROBE" (handleProbeCommand env))) :
    (stateOf ((probeDispatcher env dispatch).processCommand u line s)).core.multiProbePending =
      match env.extendParams (newCommand (parseDispatchCommandLine u line)) with
      | .ok paras =>
        (stateOf (runProbeSequence env (env.asProbeCommand paras) s)).core.multiProbePending
      | .error _ => s.core.multiProbePending := by
  have hactive : (probeDispatcher env dispatch).dispatch.activeHandlers
      (parseDispatchCommandLine u line).command =
        some (.extended "PROBE" (handleProbeCommand env)) := hline
  simp only [processCommand, hactive, invokeDispatchHandler]
  rcases hparas : env.extendParams (newCommand (parseDispatchCommandLine u line)) with
    panic | paras
  · have hext : (probeDispatcher env dispatch).extendParams
        (newCommand (parseDispatchCommandLine u line)) s = .error panic s :=
      liftExcept_error hparas s
    rw [bind_error (bind_error hext _)]
    rfl
  · have hext : (probeDispatcher env dispatch).extendParams
        (newCommand (parseDispatchCommandLine u line)) s = .ok paras s :=
      liftExcept_ok hparas s
    simp only [← handleProbeCommand_pending]
    rcases hrun : handleProbeCommand env paras s with ⟨_ | err, s'⟩ | ⟨panic, s'⟩
    · rw [bind_ok ((bind_ok hext _).trans (bind_ok hrun _))]
      rfl
    · rw [bind_error ((bind_ok hext _).trans (bind_ok hrun _))]
      rfl
    · rw [bind_error ((bind_ok hext _).trans (bind_error hrun _))]
      rfl

/-- The session that the command began, if it began one, is over: the flag is cleared, and the
next run begins its own. -/
structure SessionEnded (s' : ProbeState K) : Prop where
  cleared : s'.core.multiProbePending = false
  next_begins : ∀ (env : ProbeEnv K) (command : ProbeCommand K) (p : ProbeParams K),
    readParams s'.core command = .ok p → env.otherHandlers "homing:multi_probe_begin" = .ok () →
      env.beginMCUMultiProbe = .ok () → Begins env command s' p

omit [Field K] [LinearOrder K] in
theorem sessionEnded_iff {s' : ProbeState K} :
    SessionEnded s' ↔ s'.core.multiProbePending = false :=
  ⟨fun h => h.cleared, fun h => ⟨h, fun _ _ _ hread hevent hmcu => ⟨hread, h, hevent, hmcu⟩⟩⟩

/-- If the command begins a session, this is ended when the command is over exactly when the
probes settle. -/
theorem probe_session_balanced_iff (u : UnicodeTables) (env : ProbeEnv K)
    (dispatch : DispatchRuntime (Handler (ProbeState K))) (line : String) (s : ProbeState K)
    (hline : dispatch.activeHandlers (parseDispatchCommandLine u line).command =
      some (.extended "PROBE" (handleProbeCommand env))) :
    (∀ paras p,
      env.extendParams (newCommand (parseDispatchCommandLine u line)) = .ok paras →
      Begins env (env.asProbeCommand paras) s p →
        SessionEnded (stateOf ((probeDispatcher env dispatch).processCommand u line s))) ↔
    ∀ paras p,
      env.extendParams (newCommand (parseDispatchCommandLine u line)) = .ok paras →
      Begins env (env.asProbeCommand paras) s p →
        Settles env p [env.toolheadPosition 0, env.toolheadPosition 1] s.probes := by
  refine forall_congr' fun paras => forall_congr' fun p => ?_
  refine imp_congr_right fun hparas => imp_congr_right fun hbegins => ?_
  rw [sessionEnded_iff, processCommand_pending hline, hparas]
  simp only [runProbeSequence_pending_iff hbegins.2.1]
  constructor
  · intro h
    exact h p hbegins
  · intro h p' hp'
    obtain rfl : p = p' := Except.ok.inj (hbegins.1.symm.trans hp'.1)
    exact h

end

def singleProbe : PrinterProbe ℚ :=
  { speed := 5, liftSpeed := 5, sampleCount := 1, sampleRetractDist := 2
    samplesTolerance := 1 / 10, samplesRetries := 0, samplesResult := "average"
    multiProbePending := false, lastZResult := 0 }

variable (probe : ℕ → ℚ → Except Panic (Position ℚ))

/-- Surroundings in which nothing but the probe can panic; a command has no parameters. -/
def probeSurroundings : ProbeEnv ℚ :=
  { toolheadPosition := fun _ => 0, probe := probe, move := fun _ _ _ => .ok ()
    beginMCUMultiProbe := .ok (), endMCUMultiProbe := .ok (), otherHandlers := fun _ => .ok ()
    extendParams := .ok
    asProbeCommand := fun _ =>
      { getFloat := fun _ default => .ok default, getInt := fun _ default _ => .ok default
        get := fun _ default => default } }

def probeRuntime (env : ProbeEnv ℚ) : DispatchRuntime (Handler (ProbeState ℚ)) :=
  Runs.final (step .ascii) newDispatchRuntime
    [.registerCommand "PROBE" (some (handleProbeCommand env)) false "", .setReady true]

def afterProbe : ProbeState ℚ :=
  stateOf ((probeDispatcher (probeSurroundings probe)
    (probeRuntime (probeSurroundings probe))).processCommand .ascii "PROBE"
      ⟨singleProbe, [], 0⟩)

theorem probeRuntime_line (env : ProbeEnv ℚ) : (probeRuntime env).activeHandlers
        (parseDispatchCommandLine .ascii "PROBE").command =
      some (.extended "PROBE" (handleProbeCommand env)) := by
  have hcommand : (parseDispatchCommandLine .ascii "PROBE").command =
      "PROBE" := by decide +kernel
  rw [hcommand]
  rfl

theorem begins_singleProbe (gcmd : DispatchCommand) :
    ∃ p, Begins (probeSurroundings probe) ((probeSurroundings probe).asProbeCommand gcmd)
      ⟨singleProbe, [], 0⟩ p :=
  ⟨_, rfl, rfl, rfl, rfl⟩

/-- A probe that panics leaves the session pending. -/
theorem panicking_probe_stays_pending :
    (∃ p, Begins (probeSurroundings fun _ _ => .error (.value ["Communication timeout"]))
      ((probeSurroundings fun _ _ => .error (.value ["Communication timeout"])).asProbeCommand
        (newCommand (parseDispatchCommandLine .ascii "PROBE")))
      ⟨singleProbe, [], 0⟩ p) ∧
    (afterProbe fun _ _ => .error (.value ["Communication timeout"])).core.multiProbePending =
      true := by
  obtain ⟨p, hp⟩ := begins_singleProbe (fun _ _ => .error (.value ["Communication timeout"]))
    (newCommand (parseDispatchCommandLine .ascii "PROBE"))
  refine ⟨⟨p, hp⟩, ?_⟩
  rw [afterProbe, processCommand_pending (probeRuntime_line _), ← Bool.not_eq_false]
  intro hcleared
  have hsettles := (runProbeSequence_pending_iff rfl).mp hcleared p hp
  obtain ⟨ps, hps⟩ := (probeLoop_settles_iff 0).mpr hsettles
  obtain ⟨⟨⟩, -⟩ := hp
  rw [probeLoop] at hps
  cases hps

/-- A probe that succeeds ends it. -/
theorem probe_session_balanced_success : SessionEnded (afterProbe fun _ _ => .ok fun _ => 0) := by
  obtain ⟨p, hp⟩ := begins_singleProbe (fun _ _ => .ok fun _ => 0) (newCommand
    (parseDispatchCommandLine .ascii "PROBE"))
  refine (probe_session_balanced_iff .ascii _ _ "PROBE" ⟨singleProbe, [], 0⟩
    (probeRuntime_line _)).mpr ?_ _ p rfl hp
  rintro paras p ⟨⟩ ⟨⟨⟩, -⟩
  refine ⟨[], [fun _ => 0], le_rfl, by simp, rfl, ?_, rfl⟩
  intro first hfirst
  rcases prefix_cons_iff.mp hfirst with rfl | ⟨t, rfl, ht⟩
  · rfl
  · rw [prefix_nil.mp ht]
    simp [exceedsTolerance, zRange, singleProbe]

end Probe
