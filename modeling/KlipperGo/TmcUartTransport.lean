/-
Verified register writes over the UART of a TMC driver
(`internal/pkg/tmc/uart_transport_runtime.go`).

A driver counts the writes it applies in its register `IFCNT`, modulo 256.  The host keeps
a copy of the counter; it writes, reads the counter again and takes the write for done if
the counter is one ahead of the copy.  The wire is an environment: a `Wire` says for each
transaction whether a write is applied, whether a read is answered, and whether the call
panics.

* `verified_iff` — a write that is reported done was applied, except when the copy is one
  behind and the write is dropped.
-/
import KlipperGo.CallLog
import KlipperGo.Runs
import Mathlib.Data.Nat.Bitwise

open Outcome CallLog List

namespace Tmc

/-! ### The driver and the wire -/

/-- A driver, with the log of the writes that it applied. -/
structure Driver where
  ifcnt : ℕ
  ifcnt_lt : ifcnt < 256
  regs : ℕ → ℕ
  applied : List (ℕ × ℕ)

def ifcntAddr : ℕ := 0x02

namespace Driver

def read (d : Driver) (reg : ℕ) : ℕ := if reg = ifcntAddr then d.ifcnt else d.regs reg

def apply (d : Driver) (reg val : ℕ) : Driver where
  ifcnt := (d.ifcnt + 1) % 256
  ifcnt_lt := Nat.mod_lt _ (by decide)
  regs := fun r => if r = reg then val else d.regs r
  applied := d.applied ++ [(reg, val)]

end Driver

inductive ReadReply where
  | answered
  | silent
  | panicked (reason : String)

structure WriteReply where
  applied : Bool
  panicked : Option String

/-- What happens to the transaction with a given number, if it is a read and if it is a
write. -/
structure Wire where
  read : ℕ → ReadReply
  write : ℕ → WriteReply

/-- `isUARTTransportRetryableTimeout`. -/
def isRetryableTimeout (reason : String) : Bool :=
  "Timeout on wait for 'tmcuart_response'".toList.isPrefixOf reason.toList ||
    "Timeout on send for 'tmcuart_response'".toList.isPrefixOf reason.toList

/-! ### The host -/

/-- The constant part of a `UARTTransportRuntime`; the counter is in the register table under
its name. -/
structure UARTConfig where
  name : String
  nameToReg : String → ℕ
  ifcnt_reg : nameToReg "IFCNT" = ifcntAddr
  debugEnabled : Bool

/-- Host and driver, and the number of the next transaction. -/
structure UARTWorld where
  ifcnt : ℕ
  hasIFCNT : Bool
  driver : Driver
  count : ℕ

/-- `NewUARTTransportRuntime`, with the driver it finds. -/
def newUARTTransport (driver : Driver) : UARTWorld := ⟨0, false, driver, 0⟩

abbrev TransportM := EStateM String UARTWorld

section Code

variable (cfg : UARTConfig) (wire : Wire)

/-- `transportReadRegister`: `none` stands for `ok = false`. -/
def transportReadRegister (reg : ℕ) : TransportM (Option ℕ) := fun w =>
  let w' := { w with count := w.count + 1 }
  match wire.read w.count with
  | .answered => .ok (some (w.driver.read reg)) w'
  | .silent => .ok none w'
  | .panicked reason => if isRetryableTimeout reason then .ok none w' else .error reason w'

/-- The driver after the next transaction, if that is this write. -/
def Wire.afterWrite (w : UARTWorld) (reg val : ℕ) : Driver :=
  if (wire.write w.count).applied then w.driver.apply reg val else w.driver

def transportWriteRegister (reg val : ℕ) : TransportM Bool := fun w =>
  let w' := { w with driver := wire.afterWrite w reg val, count := w.count + 1 }
  match (wire.write w.count).panicked with
  | none => .ok true w'
  | some reason => if isRetryableTimeout reason then .ok false w' else .error reason w'

def uartTransportReadRetries : ℕ := 10

def uartTransportWriteRetries : ℕ := 10

def uartTransportWriteVerifyPolls : ℕ := 10

/-- The loop of `readRegister`. -/
def readRetries (reg : ℕ) : ℕ → TransportM (Option ℕ)
  | 0 => return none
  | n + 1 => do
    match ← transportReadRegister wire reg with
    | some val => return some val
    | none => readRetries reg n

variable (regName : String)

def unableToRead : String :=
  "Unable to read tmc uart '" ++ cfg.name ++ "' register " ++ regName

/-- `readRegister`: the value, or the text of the error. -/
def readUARTRegister : TransportM (Except String ℕ) := do
  match ← readRetries wire (cfg.nameToReg regName) uartTransportReadRetries with
  | some val => return .ok val
  | none => return .error (unableToRead cfg regName)

/-- The loop of `pollIFCNTAfterWrite`: the counter seen last, whether it is the expected one,
and whether a read was answered. -/
def pollIFCNT (expectedIFCNT : ℕ) : ℕ → ℕ → Bool → TransportM (ℕ × Bool × Bool)
  | 0, currentIFCNT, sawRead => return (currentIFCNT, false, sawRead)
  | n + 1, currentIFCNT, sawRead => do
    match ← transportReadRegister wire (cfg.nameToReg "IFCNT") with
    | none => pollIFCNT expectedIFCNT n currentIFCNT sawRead
    | some nextIFCNT =>
      modify fun w => { w with ifcnt := nextIFCNT, hasIFCNT := true }
      if nextIFCNT = expectedIFCNT then return (nextIFCNT, true, true)
      else pollIFCNT expectedIFCNT n nextIFCNT true

def pollIFCNTAfterWrite (expectedIFCNT : ℕ) : TransportM (ℕ × Bool × Bool) := do
  pollIFCNT cfg wire expectedIFCNT uartTransportWriteVerifyPolls (← get).ifcnt false

/-- The begin of an attempt: the counter is read if the host has no copy of it. -/
def ensureIFCNT : TransportM (Except String Unit) := do
  if (← get).hasIFCNT then return .ok ()
  match ← readUARTRegister cfg wire "IFCNT" with
  | .error err => return .error err
  | .ok currentIFCNT =>
    modify fun w => { w with ifcnt := currentIFCNT, hasIFCNT := true }
    return .ok ()

/-- The attempt number `i` of a write, from the copy of the counter on: `none` for success, or
the text of the error. -/
def writeAndVerify (reg val i : ℕ) : TransportM (Option String) := do
  let ifcnt := (← get).ifcnt
  if !(← transportWriteRegister wire reg val) then
    -- the write may have been applied all the same, so the copy is dropped
    modify fun w => { w with hasIFCNT := false }
    return some ("transport timeout on write attempt " ++ toString (i + 1))
  let expectedIFCNT := (ifcnt + 1) &&& 0xff
  let (currentIFCNT, matched, sawRead) ← pollIFCNTAfterWrite cfg wire expectedIFCNT
  if matched then return none
  if !sawRead then
    modify fun w => { w with hasIFCNT := false }
    return some ("reading IFCNT after write attempt " ++ toString (i + 1) ++ ": " ++
      unableToRead cfg "IFCNT")
  return some ("IFCNT unchanged after write attempt " ++ toString (i + 1) ++
    " (before=" ++ toString ifcnt ++ " after=" ++ toString currentIFCNT ++
    " expected=" ++ toString expectedIFCNT ++ ")")

/-- The body of the loop of `SetRegister`. -/
def writeAttempt (reg val i : ℕ) : TransportM (Option String) := do
  match ← ensureIFCNT cfg wire with
  | .error err =>
    return some ("reading IFCNT before write attempt " ++ toString (i + 1) ++ ": " ++ err)
  | .ok () => writeAndVerify cfg wire reg val i

def unableToWrite : Option String → String
  | some lastErr =>
    "Unable to write tmc uart '" ++ cfg.name ++ "' register " ++ regName ++ ": " ++ lastErr
  | none => "Unable to write tmc uart '" ++ cfg.name ++ "' register " ++ regName

/-- The loop of `SetRegister`, with the attempts left, the number of the next one and the
error of the last one. -/
def writeAttempts (regName : String) (reg val : ℕ) :
    ℕ → ℕ → Option String → TransportM (Option String)
  | 0, _, lastErr => return some (unableToWrite cfg regName lastErr)
  | n + 1, i, _ => do
    match ← writeAttempt cfg wire reg val i with
    | none => return none
    | some err => writeAttempts regName reg val n (i + 1) (some err)

/-- `SetRegister`, scheduled for a print time or immediate: `none` for success, or the text of
the error. -/
def setUARTRegister (val : ℕ) (scheduled : Bool) : TransportM (Option String) := do
  if cfg.debugEnabled then return none
  let reg := cfg.nameToReg regName
  if scheduled then
    if !(← transportWriteRegister wire reg val) then
      -- here the copy is kept
      return some "transport timeout on scheduled write"
    modify fun w => { w with hasIFCNT := false }
    return none
  writeAttempts cfg wire regName reg val uartTransportWriteRetries 0 none

end Code

/-! ### The contract -/

variable {cfg : UARTConfig} {wire : Wire} {w w' : UARTWorld}

/-- The driver applied the value to the register between the two states. -/
def AppliedDuring (w w' : UARTWorld) (reg val : ℕ) : Prop :=
  ∃ news, w'.driver.applied = w.driver.applied ++ news ∧ (reg, val) ∈ news

/-- The contract of an immediate write. -/
def Verified (cfg : UARTConfig) (wire : Wire) (w : UARTWorld) (regName : String) (val : ℕ) : Prop :=
  ∀ w', setUARTRegister cfg wire regName val false w = .ok none w' →
    AppliedDuring w w' (cfg.nameToReg regName) val

/-- One of the next `n` reads is answered, before any of them panics. -/
def Wire.answersWithin (wire : Wire) : ℕ → ℕ → Bool
  | 0, _ => false
  | n + 1, count =>
    match wire.read count with
    | .answered => true
    | .silent => wire.answersWithin n (count + 1)
    | .panicked reason => isRetryableTimeout reason && wire.answersWithin n (count + 1)

/-- The copy of the counter is one behind, the write is dropped without a sign of it, and then
a read is answered. -/
def FalseMatch (wire : Wire) (w : UARTWorld) : Prop :=
  w.hasIFCNT = true ∧ w.driver.ifcnt = (w.ifcnt + 1) &&& 0xff ∧
    wire.write w.count = ⟨false, none⟩ ∧ wire.answersWithin uartTransportWriteVerifyPolls
      (w.count + 1) = true

/-- The copy of the counter, if there is one, is the counter of the driver. -/
def InStep (w : UARTWorld) : Prop := w.hasIFCNT = true → w.ifcnt = w.driver.ifcnt

/-- The counter is never one ahead of itself. -/
theorem Driver.ifcnt_ne_next (d : Driver) : d.ifcnt ≠ (d.ifcnt + 1) &&& 0xff := by
  have hmod : (d.ifcnt + 1) &&& 0xff = (d.ifcnt + 1) % 256 := Nat.and_two_pow_sub_one_eq_mod _ 8
  omega

theorem InStep.not_falseMatch (h : InStep w) : ¬ FalseMatch wire w := by
  rintro ⟨hhas, hcount, -, -⟩
  rw [h hhas] at hcount
  exact w.driver.ifcnt_ne_next hcount

/-! ### Reads -/

variable (regName : String) (reg val n i : ℕ)

/-- A read changes nothing; it is answered with the value of the register, or missed. -/
theorem transportReadRegister_gives : Gives (transportReadRegister wire reg) w fun a w' =>
      w' = { w with count := w.count + 1 } ∧
        ((a = none ∧ ∀ n, wire.answersWithin (n + 1) w.count = wire.answersWithin n (w.count + 1)) ∨
          (a = some (w.driver.read reg) ∧ ∀ n, wire.answersWithin (n + 1) w.count = true)) := by
  intro a w' h
  unfold transportReadRegister at h
  split at h
  · next hread =>
    cases h
    exact ⟨rfl, .inr ⟨rfl, fun n => by simp [Wire.answersWithin, hread]⟩⟩
  · next hread =>
    cases h
    exact ⟨rfl, .inl ⟨rfl, fun n => by simp [Wire.answersWithin, hread]⟩⟩
  · next reason hread =>
    split at h
    · next hretry =>
      cases h
      exact ⟨rfl, .inl ⟨rfl, fun n => by simp [Wire.answersWithin, hread, hretry]⟩⟩
    · cases h

theorem readRetries_gives : Gives (readRetries wire reg n) w fun a w' =>
      ∃ count, w' = { w with count := count } ∧ (a = none ∨ a = some (w.driver.read reg)) := by
  induction n generalizing w with
  | zero => exact gives_pure ⟨w.count, rfl, .inl rfl⟩
  | succ n ih =>
    refine (transportReadRegister_gives reg).bind ?_
    rintro a w' ⟨rfl, ⟨rfl, -⟩ | ⟨rfl, -⟩⟩
    · exact ih
    · exact gives_pure ⟨w.count + 1, rfl, .inr rfl⟩

theorem read_ifcnt (cfg : UARTConfig) (d : Driver) : d.read (cfg.nameToReg "IFCNT") = d.ifcnt := by
  rw [Driver.read, cfg.ifcnt_reg, if_pos rfl]

/-- After the begin of an attempt the copy is as it was, or it is fresh, or there is none. -/
theorem ensureIFCNT_gives : Gives (ensureIFCNT cfg wire) w fun r w' =>
      w'.driver = w.driver ∧
        match r with
        | .ok () => (w' = w ∧ w.hasIFCNT = true) ∨ (w'.ifcnt = w.driver.ifcnt)
        | .error _ => w'.hasIFCNT = false := by
  refine gives_get_bind ?_
  by_cases hhas : w.hasIFCNT = true
  · rw [if_pos hhas]
    exact gives_pure ⟨rfl, .inl ⟨rfl, hhas⟩⟩
  · rw [if_neg hhas]
    unfold readUARTRegister
    rw [bind_assoc]
    refine (readRetries_gives _ _).bind ?_
    rintro a w' ⟨count, rfl, rfl | rfl⟩
    · exact gives_pure ⟨rfl, by simpa using hhas⟩
    · exact gives_pure ⟨rfl, .inr (read_ifcnt cfg w.driver)⟩

/-! ### The poll -/

/-- The poll leaves the driver alone.  If a read was answered, the copy is fresh; if the
counter matched, it is the expected one. -/
theorem pollIFCNT_gives (expectedIFCNT n currentIFCNT : ℕ) (sawRead : Bool)
    (hsaw : sawRead = true → w.ifcnt = w.driver.ifcnt) :
    Gives (pollIFCNT cfg wire expectedIFCNT n currentIFCNT sawRead) w fun r w' =>
      w'.driver = w.driver ∧ (r.2.2 = true → w'.ifcnt = w.driver.ifcnt) ∧
        (r.2.1 = true → w'.ifcnt = w.driver.ifcnt ∧ w.driver.ifcnt = expectedIFCNT ∧
          wire.answersWithin n w.count = true) := by
  induction n generalizing w currentIFCNT sawRead with
  | zero => exact gives_pure ⟨rfl, hsaw, nofun⟩
  | succ n ih =>
    refine (transportReadRegister_gives _).bind ?_
    rintro a w' ⟨rfl, ⟨rfl, hnext⟩ | ⟨rfl, hans⟩⟩
    · rw [hnext n]
      exact ih _ _ hsaw
    · refine gives_modify_bind ?_
      have hfresh := read_ifcnt cfg w.driver
      by_cases hmatch : w.driver.read (cfg.nameToReg "IFCNT") = expectedIFCNT
      · rw [if_pos hmatch]
        exact gives_pure ⟨rfl, fun _ => hfresh, fun _ => ⟨hfresh, hfresh ▸ hmatch, hans n⟩⟩
      · rw [if_neg hmatch]
        refine (ih _ _ fun _ => hfresh).mono ?_
        rintro r w'' ⟨hdriver, hfresh', hmatched⟩
        refine ⟨hdriver, hfresh', fun h => ?_⟩
        exact absurd (hfresh.trans (hmatched h).2.1) hmatch

/-- If the counter is the expected one, the poll finds it as soon as a read is answered. -/
theorem pollIFCNT_of_answers {expectedIFCNT n currentIFCNT : ℕ} {sawRead : Bool}
    (hcount : w.driver.ifcnt = expectedIFCNT) (hans : wire.answersWithin n w.count = true) :
    ∃ w', pollIFCNT cfg wire expectedIFCNT n currentIFCNT sawRead w =
      .ok (expectedIFCNT, true, true) w' ∧ w'.driver = w.driver := by
  induction n generalizing w currentIFCNT sawRead with
  | zero => cases hans
  | succ n ih =>
    have hmissed : ∀ {w₁ : UARTWorld}, w₁ = { w with count := w.count + 1 } →
        transportReadRegister wire (cfg.nameToReg "IFCNT") w = .ok none w₁ →
        wire.answersWithin n (w.count + 1) = true →
        ∃ w', pollIFCNT cfg wire expectedIFCNT (n + 1) currentIFCNT sawRead w =
          .ok (expectedIFCNT, true, true) w' ∧ w'.driver = w.driver := by
      rintro w₁ rfl hread hrest
      rw [pollIFCNT, bind_ok hread]
      exact ih hcount hrest
    rw [Wire.answersWithin] at hans
    match hreply : wire.read w.count with
    | .answered =>
      have hread : transportReadRegister wire (cfg.nameToReg "IFCNT") w =
          .ok (some w.driver.ifcnt) { w with count := w.count + 1 } := by
        rw [transportReadRegister, hreply, read_ifcnt]
      rw [pollIFCNT, bind_ok hread]
      refine ⟨{ w with count := w.count + 1, ifcnt := w.driver.ifcnt, hasIFCNT := true }, ?_, rfl⟩
      dsimp only
      rw [if_pos hcount, hcount]
      rfl
    | .silent =>
      rw [hreply] at hans
      exact hmissed rfl (by rw [transportReadRegister, hreply]) hans
    | .panicked reason =>
      rw [hreply] at hans
      obtain ⟨hretry, hrest⟩ := (Bool.and_eq_true _ _).mp hans
      exact hmissed rfl (by rw [transportReadRegister, hreply]; exact if_pos hretry) hrest

/-! ### One attempt -/

theorem transportWriteRegister_gives :
    Gives (transportWriteRegister wire reg val) w fun ok w' =>
      w' = { w with driver := wire.afterWrite w reg val, count := w.count + 1 } ∧
        (ok = true ↔ (wire.write w.count).panicked = none) := by
  intro ok w' h
  unfold transportWriteRegister at h
  split at h
  · next hret =>
    cases h
    exact ⟨rfl, by simp [hret]⟩
  · next reason hpanic =>
    split at h
    · cases h
      exact ⟨rfl, by simp [hpanic]⟩
    · cases h

/-- An attempt with a copy of the counter leaves the copy in step.  If it succeeds, the counter
is one ahead of the copy after the write, and a read was answered. -/
theorem writeAndVerify_gives :
    Gives (writeAndVerify cfg wire reg val i) w fun r w' =>
      w'.driver = wire.afterWrite w reg val ∧ InStep w' ∧
        (r = none → (wire.write w.count).panicked = none ∧
          (wire.afterWrite w reg val).ifcnt = (w.ifcnt + 1) &&& 0xff ∧
          wire.answersWithin uartTransportWriteVerifyPolls (w.count + 1) = true) := by
  refine gives_get_bind ((transportWriteRegister_gives reg val).bind ?_)
  rintro ok w₁ ⟨rfl, hok⟩
  cases ok with
  | false => exact gives_modify_bind (gives_pure ⟨rfl, nofun, nofun⟩)
  | true =>
    refine Gives.bind (gives_get_bind (pollIFCNT_gives _ _ _ false nofun)) ?_
    rintro ⟨currentIFCNT, matched, sawRead⟩ w₂ ⟨hdriver, hsaw, hmatched⟩
    cases matched with
    | true =>
      obtain ⟨hfresh, hcount, hans⟩ := hmatched rfl
      refine gives_pure ⟨hdriver, fun _ => hfresh.trans (congrArg Driver.ifcnt hdriver).symm, ?_⟩
      exact fun _ => ⟨hok.mp rfl, hcount, hans⟩
    | false =>
      cases sawRead with
      | false => exact gives_modify_bind (gives_pure ⟨hdriver, nofun, nofun⟩)
      | true =>
        refine gives_pure ⟨hdriver, fun _ => ?_, nofun⟩
        exact (hsaw rfl).trans (congrArg Driver.ifcnt hdriver).symm

/-- The body of the loop: whatever it returns, the driver has at most one write more, and the
copy is in step; if it succeeds, the write is applied or the match was false. -/
theorem writeAttempt_gives : Gives (writeAttempt cfg wire reg val i) w fun r w' =>
      InStep w' ∧ w.driver.applied <+: w'.driver.applied ∧
        (r = none → FalseMatch wire w ∨ AppliedDuring w w' reg val) := by
  refine ensureIFCNT_gives.bind ?_
  rintro (err | ⟨⟩) w₁ ⟨hdriver, hcopy⟩
  · refine gives_pure ⟨?_, ?_, nofun⟩
    · intro hhas
      rw [hcopy] at hhas
      cases hhas
    · exact ⟨[], by rw [hdriver, append_nil]⟩
  · refine (writeAndVerify_gives reg val i).mono ?_
    rintro r w' ⟨hafter, hstep, hsuccess⟩
    have hcases : ((wire.write w₁.count).applied = true ∧
          (wire.afterWrite w₁ reg val).applied = w₁.driver.applied ++ [(reg, val)]) ∨
        ((wire.write w₁.count).applied = false ∧ wire.afterWrite w₁ reg val = w₁.driver) := by
      unfold Wire.afterWrite
      cases (wire.write w₁.count).applied with
      | true => exact .inl ⟨rfl, rfl⟩
      | false => exact .inr ⟨rfl, rfl⟩
    rw [← hafter, hdriver] at hcases
    refine ⟨hstep, ?_, ?_⟩
    · rcases hcases with ⟨-, happ⟩ | ⟨-, hsame⟩
      · exact ⟨_, happ.symm⟩
      · exact ⟨[], by rw [hsame, append_nil]⟩
    · intro hr
      obtain ⟨hret, hcount, hans⟩ := hsuccess hr
      rcases hcases with ⟨-, happ⟩ | ⟨hdrop, hsame⟩
      · exact .inr ⟨_, happ, mem_singleton_self _⟩
      · have hkept := hafter.symm.trans hsame
        rw [hkept] at hcount
        rcases hcopy with ⟨rfl, hhas⟩ | hfresh
        · -- the counter is one ahead without the write, so the copy was behind
          have hwrite : wire.write w₁.count = ⟨false, none⟩ := by
            rw [← hdrop, ← hret]
          exact .inl ⟨hhas, hcount, hwrite, hans⟩
        · rw [hfresh] at hcount
          exact absurd hcount w.driver.ifcnt_ne_next

/-! ### A whole call -/

theorem AppliedDuring.of_le {w₁ : UARTWorld} {reg val : ℕ}
    (hle : w.driver.applied <+: w₁.driver.applied) (h : AppliedDuring w₁ w' reg val) :
    AppliedDuring w w' reg val := by
  obtain ⟨before, hbefore⟩ := hle
  obtain ⟨news, hnews, hmem⟩ := h
  refine ⟨before ++ news, ?_, mem_append_right before hmem⟩
  rw [hnews, ← hbefore, append_assoc]

theorem not_appliedDuring {reg val : ℕ} (hdriver : w'.driver = w.driver) :
    ¬ AppliedDuring w w' reg val := by
  rintro ⟨news, hnews, hmem⟩
  rw [hdriver, self_eq_append_right] at hnews
  rw [hnews] at hmem
  cases hmem

/-- The attempts of a call, at least one: only the first can match falsely, since each one
leaves the copy in step. -/
theorem writeAttempts_gives (lastErr : Option String) :
    Gives (writeAttempts cfg wire regName reg val (n + 1) i lastErr) w fun r w' =>
      InStep w' ∧ (r = none → FalseMatch wire w ∨ AppliedDuring w w' reg val) := by
  induction n generalizing w i lastErr with
  | zero =>
    refine (writeAttempt_gives reg val i).bind ?_
    rintro (_ | err) w' ⟨hstep, -, hsuccess⟩
    · exact gives_pure ⟨hstep, hsuccess⟩
    · exact gives_pure ⟨hstep, nofun⟩
  | succ n ih =>
    refine (writeAttempt_gives reg val i).bind ?_
    rintro (_ | err) w₁ ⟨hstep, hle, hsuccess⟩
    · exact gives_pure ⟨hstep, hsuccess⟩
    · refine (ih (i + 1) (some err)).mono ?_
      rintro r w' ⟨hstep', hsuccess'⟩
      refine ⟨hstep', fun hr => .inr ?_⟩
      exact ((hsuccess' hr).resolve_left hstep.not_falseMatch).of_le hle

/-- A false match: the call returns success, and the driver is as it was. -/
theorem setUARTRegister_of_falseMatch (hdebug : cfg.debugEnabled = false)
    (h : FalseMatch wire w) (regName : String) (val : ℕ) :
    ∃ w', setUARTRegister cfg wire regName val false w = .ok none w' ∧ w'.driver = w.driver := by
  obtain ⟨hhas, hcount, hwrite, hans⟩ := h
  have hensure : ensureIFCNT cfg wire w = .ok (.ok ()) w := by
    unfold ensureIFCNT
    rw [bind_get, if_pos hhas]
    rfl
  have hsent : transportWriteRegister wire (cfg.nameToReg regName) val w =
      .ok true { w with count := w.count + 1 } := by
    rw [transportWriteRegister, Wire.afterWrite, hwrite]
    rfl
  obtain ⟨w', hpoll, hdriver⟩ : ∃ w', pollIFCNTAfterWrite cfg wire ((w.ifcnt + 1) &&& 0xff)
      { w with count := w.count + 1 } = .ok ((w.ifcnt + 1) &&& 0xff, true, true) w' ∧
      w'.driver = w.driver :=
    pollIFCNT_of_answers (w := { w with count := w.count + 1 }) hcount hans
  have hverify : writeAndVerify cfg wire (cfg.nameToReg regName) val 0 w = .ok none w' := by
    unfold writeAndVerify
    rw [bind_get, bind_ok hsent]
    exact bind_ok hpoll _
  have hattempt : writeAttempt cfg wire (cfg.nameToReg regName) val 0 w = .ok none w' := by
    unfold writeAttempt
    rw [bind_ok hensure]
    exact hverify
  refine ⟨w', ?_, hdriver⟩
  unfold setUARTRegister
  rw [if_neg (by rw [hdebug]; decide)]
  exact bind_ok hattempt _

/-- **Which immediate writes are verified**: all, if the output is not debugged, except those
that match falsely. -/
theorem verified_iff (cfg : UARTConfig) (wire : Wire) (w : UARTWorld) (regName : String) (val : ℕ) :
    Verified cfg wire w regName val ↔ cfg.debugEnabled = false ∧ ¬ FalseMatch wire w := by
  constructor
  · intro h
    have hdebug : cfg.debugEnabled = false := by
      by_contra hdebug
      rw [Bool.not_eq_false] at hdebug
      have hcall : setUARTRegister cfg wire regName val false w = .ok none w := by
        unfold setUARTRegister
        rw [if_pos hdebug]
        rfl
      exact not_appliedDuring rfl (h w hcall)
    refine ⟨hdebug, fun hfalse => ?_⟩
    obtain ⟨w', hcall, hdriver⟩ := setUARTRegister_of_falseMatch hdebug hfalse regName val
    exact not_appliedDuring hdriver (h w' hcall)
  · rintro ⟨hdebug, hfalse⟩ w' hcall
    unfold setUARTRegister at hcall
    rw [if_neg (by rw [hdebug]; decide)] at hcall
    have hgives := writeAttempts_gives regName (cfg.nameToReg regName) val 9 0 none none w' hcall
    exact (hgives.2 rfl).resolve_left hfalse

/-! ### Runs -/

structure WriteCall where
  regName : String
  val : ℕ
  scheduled : Bool

/-- Host and driver after the call, whether it returns or panics. -/
def UARTWorld.step (cfg : UARTConfig) (wire : Wire) (w : UARTWorld) (call : WriteCall) :
    UARTWorld :=
  stateOf (setUARTRegister cfg wire call.regName call.val call.scheduled w)

/-- **Verified writes over a run** of scheduled and immediate writes: every immediate write that
is reported done was applied during its call exactly if the output is not debugged and none
of them matches falsely. -/
theorem verified_run_iff (cfg : UARTConfig) (wire : Wire) (driver : Driver)
    (calls : List WriteCall) :
    Runs.Along (UARTWorld.step cfg wire)
        (fun w call => call.scheduled = false → Verified cfg wire w call.regName call.val)
        (newUARTTransport driver) calls ↔
      Runs.Along (UARTWorld.step cfg wire)
        (fun w call => call.scheduled = false → cfg.debugEnabled = false ∧ ¬ FalseMatch wire w)
        (newUARTTransport driver) calls := by
  refine Runs.along_iff_of_invariant (I := fun _ => True) (fun _ _ _ _ => trivial) ?_ trivial
  intro w call _
  exact imp_congr_right fun _ => verified_iff cfg wire w call.regName call.val

def freshDriver : Driver := ⟨0, by decide, fun _ => 0, []⟩

/-- All reads are answered and all writes applied, but the reply to the second write (transaction
3) is lost, and the third write (transaction 4) is dropped. -/
def lossyWire : Wire where
  read _ := .answered
  write n :=
    if n = 3 then ⟨true, some "Timeout on wait for 'tmcuart_response' response"⟩
    else if n = 4 then ⟨false, none⟩
    else ⟨true, none⟩

def tmc2209Config : UARTConfig where
  name := "stepper_x"
  nameToReg name := if name = "GCONF" then 0x00 else if name = "IHOLD_IRUN" then 0x10 else 0x02
  ifcnt_reg := by decide
  debugEnabled := false

/-- An immediate write, a scheduled one whose reply is lost, and an immediate one that is
dropped. -/
def lossyCalls : List WriteCall :=
  [⟨"GCONF", 1, false⟩, ⟨"GCONF", 2, true⟩, ⟨"IHOLD_IRUN", 7, false⟩]

theorem lossy_run_not_verified : ¬ Runs.Along (UARTWorld.step tmc2209Config lossyWire)
        (fun w call => call.scheduled = false →
          Verified tmc2209Config lossyWire w call.regName call.val)
        (newUARTTransport freshDriver) lossyCalls := by
  rintro ⟨-, -, h, -⟩
  -- the copy is 1, the counter 2, and the dropped write is taken for the one that made it 2
  have hfalse : FalseMatch lossyWire (Runs.final (UARTWorld.step tmc2209Config lossyWire)
      (newUARTTransport freshDriver) [⟨"GCONF", 1, false⟩, ⟨"GCONF", 2, true⟩]) :=
    ⟨rfl, rfl, rfl, rfl⟩
  have hdebug : tmc2209Config.debugEnabled = false := rfl
  obtain ⟨w', hcall, hdriver⟩ := setUARTRegister_of_falseMatch hdebug hfalse "IHOLD_IRUN" 7
  exact not_appliedDuring hdriver (h rfl w' hcall)

end Tmc
