/-
Register reads over a chain of TMC drivers on one SPI bus.

A chain is read and written in slots of five bytes, one for each driver
(`internal/pkg/tmc/spi_transport_runtime.go`).  The command goes to the bus as a list
of integers; the answer of the micro-controller is a message parameter of dynamic type,
which the bus (`internal/pkg/mcu/legacy_spi_bus.go`) hands on as a text.  A TMC2660 is
alone on its bus, and its responses depend on the readout that was selected before.

* `buildSPIChainCommand_addresses` — the command has the register in the slot of the
  driver, and zeros in all others.
-/
import KlipperGo.MsgFormat
import KlipperGo.TmcFields

open GoRuntime Msgproto List

namespace Tmc

/-! ### The chain codec -/

/-- A place in a chain of drivers. -/
structure ChainSlot where
  chainLen : ℕ
  chainPos : ℕ
  one_le_pos : 1 ≤ chainPos
  pos_le_len : chainPos ≤ chainLen

namespace ChainSlot

variable (slot : ChainSlot)

/-- Where the five bytes of the driver begin. -/
def offset : ℕ := (slot.chainLen - slot.chainPos) * 5

def bytesOf (bs : List ℕ) : List ℕ := (bs.drop slot.offset).take 5

/-- The number that the driver sent: the last four of its bytes, the highest first. -/
def numberOf (bs : List ℕ) : ℕ := ((slot.bytesOf bs).drop 1).foldl (fun n b => n * 256 + b) 0

/-- The command has `data` in the slot of the driver, and zeros in all others. -/
def Addresses (cmd data : List ℕ) : Prop :=
  cmd.length = slot.chainLen * 5 ∧ slot.bytesOf cmd = data ∧
    ∀ i, i < slot.chainLen * 5 → i < slot.offset ∨ slot.offset + 5 ≤ i → cmd[i]? = some 0

end ChainSlot

def buildSPIChainCommand (data : List ℕ) (slot : ChainSlot) : List ℕ :=
  replicate ((slot.chainLen - slot.chainPos) * 5) 0 ++ data ++
    replicate ((slot.chainPos - 1) * 5) 0

variable (spare : ℕ) (response : String) (bus : SPIBus) (reg : ℕ) (slot : ChainSlot) (rdsel : Word)
  (regName : String) (val : Word)

/-- `[]rune(response)`. -/
def runesOf : List Int32 := response.toList.map fun c => Int32.ofNat c.toNat

/-- `DecodeSPIChainResponse`.  A slice expression reaches up to the capacity of its
operand, and Go leaves the capacity of a converted text to the compiler: `spare` zeros lie
behind the runes. -/
def decodeSPIChainResponse : Except Panic ℤ := do
  let backing := runesOf response ++ replicate spare 0
  let pr ← slice backing ((slot.chainLen - slot.chainPos) * 5)
    ((slot.chainLen - slot.chainPos + 1) * 5)
  let r1 ← index pr 1
  let r2 ← index pr 2
  let r3 ← index pr 3
  let r4 ← index pr 4
  return ((r1 <<< 24) ||| (r2 <<< 16) ||| (r3 <<< 8) ||| r4).toInt

/-! ### The bus -/

/-- `cast.ToString` of a message parameter.  A list of integers is no case of it. -/
def castToString (formatFloat : ℚ → String) : Option Value → String
  | some (.string v) => v
  | some (.int v) => toString v
  | some (.int64 v) => toString v
  | some (.float64 v) => formatFloat v
  | some (.ints _) => ""
  | some (.int64s _) => ""
  | none => ""

inductive BusCall where
  | send (data : List ℕ)
  | transfer (data : List ℕ)

def BusCall.data : BusCall → List ℕ
  | .send data => data
  | .transfer data => data

/-- The surroundings of a read: the parameters of the message that answers a transfer, what
Go leaves open, and whether the output goes to a file. -/
structure SPIBus where
  answer : List ℕ → String → Option Value
  formatFloat : ℚ → String
  spare : ℕ
  debugEnabled : Bool

def SPIBus.transfer (data : List ℕ) : String :=
  castToString bus.formatFloat (bus.answer data "response")

/-- `SPIChainRuntime.ReadRegister`, with the calls it makes. -/
def readRegister : List BusCall × Except Panic ℤ :=
  let cmd := buildSPIChainCommand [reg, 0x00, 0x00, 0x00, 0x00] slot
  if bus.debugEnabled then ([.send cmd], .ok 0)
  else
    ([.send cmd, .transfer cmd], decodeSPIChainResponse bus.spare (bus.transfer cmd) slot)

/-- **The contract of a read** that is answered with the bytes `bs`: the commands address
the slot of the driver, and the read returns the number that the driver sent. -/
def ReadsSlot (bs : List ℕ) : Prop :=
  (∀ call ∈ (readRegister bus reg slot).1, slot.Addresses call.data [reg, 0, 0, 0, 0]) ∧
    (readRegister bus reg slot).2 = .ok (slot.numberOf bs : ℤ)

/-! ### The command -/

theorem buildSPIChainCommand_addresses {data : List ℕ}
    (hdata : data.length = 5) : slot.Addresses (buildSPIChainCommand data slot) data := by
  have hpos := slot.one_le_pos
  have hle := slot.pos_le_len
  have hlen : (replicate slot.offset 0 ++ data).length = slot.offset + 5 := by simp [hdata]
  unfold ChainSlot.Addresses ChainSlot.bytesOf buildSPIChainCommand
  refine ⟨?_, ?_, ?_⟩
  · simp only [length_append, length_replicate, hdata]
    omega
  · change (List.drop slot.offset (replicate slot.offset 0 ++ data ++ _)).take 5 = data
    rw [append_assoc, drop_left' (length_replicate), take_left' hdata]
  · intro i hi hout
    have hoff : slot.offset = (slot.chainLen - slot.chainPos) * 5 := rfl
    rw [← hoff]
    rcases hout with hlt | hge
    · rw [getElem?_append_left (by omega), getElem?_append_left (by simpa using hlt),
        getElem?_replicate, if_pos hlt]
    · rw [getElem?_append_right (by omega), hlen, getElem?_replicate, if_pos (by omega)]

/-! ### The answer -/

/-- Of the empty text a slot within the capacity reads as zero. -/
theorem decode_empty : decodeSPIChainResponse spare "" slot =
      if slot.offset + 5 ≤ spare then .ok 0
      else .error (.sliceOutOfRange slot.offset (slot.offset + 5) spare) := by
  have hhi : (slot.chainLen - slot.chainPos + 1) * 5 = slot.offset + 5 := by
    unfold ChainSlot.offset
    omega
  have hback : runesOf "" ++ replicate spare 0 = replicate spare 0 := rfl
  unfold decodeSPIChainResponse
  rw [hhi, hback]
  change (slice (replicate spare 0) slot.offset (slot.offset + 5) >>= _) = _
  by_cases hle : slot.offset + 5 ≤ spare
  · have hslice : slice (replicate spare (0 : Int32)) slot.offset (slot.offset + 5) =
        .ok (replicate 5 0) := by
      rw [slice_of_le (by omega) (by simpa using hle)]
      simp [hle]
    rw [if_pos hle, hslice]
    rfl
  · have hslice : slice (replicate spare (0 : Int32)) slot.offset (slot.offset + 5) =
        .error (.sliceOutOfRange slot.offset (slot.offset + 5) spare) := by
      simp [slice, hle]
    rw [if_neg hle, hslice]
    rfl

/-- **When a read returns what the driver sent**: the number is zero, and the slot ends
within the capacity of the converted text. -/
theorem readRegister_iff {bus : SPIBus} {reg : ℕ} {slot : ChainSlot} {bs : List ℕ}
    (hdebug : bus.debugEnabled = false)
    (hanswer : ∀ cmd, bus.answer cmd "response" = some (.ints bs)) :
    ReadsSlot bus reg slot bs ↔ slot.offset + 5 ≤ bus.spare ∧ slot.numberOf bs = 0 := by
  have hempty : ∀ cmd, bus.transfer cmd = "" := by
    intro cmd
    rw [SPIBus.transfer, hanswer cmd]
    rfl
  have hcmd : slot.Addresses (buildSPIChainCommand [reg, 0, 0, 0, 0] slot) [reg, 0, 0, 0, 0] :=
    buildSPIChainCommand_addresses slot rfl
  unfold ReadsSlot readRegister
  rw [hdebug]
  simp only [Bool.false_eq_true, if_false, hempty, decode_empty]
  constructor
  · rintro ⟨-, hread⟩
    split_ifs at hread with hle
    · refine ⟨hle, ?_⟩
      have hzero := Except.ok.inj hread
      exact_mod_cast hzero.symm
  · rintro ⟨hle, hzero⟩
    refine ⟨?_, by rw [if_pos hle, hzero]; rfl⟩
    intro call hcall
    obtain rfl | rfl := mem_pair.mp hcall <;> exact hcmd

/-- A single driver answers with the number one; the conversion has room for 32 runes. -/
def oneAnswered : SPIBus where
  answer _ _ := some (.ints [0, 0, 0, 0, 1])
  formatFloat _ := ""
  spare := 32
  debugEnabled := false

def singleSlot : ChainSlot := ⟨1, 1, le_refl 1, le_refl 1⟩

theorem one_not_read : (readRegister oneAnswered 0x6f singleSlot).2 = .ok 0 ∧
      ¬ ReadsSlot oneAnswered 0x6f singleSlot [0, 0, 0, 0, 1] := by
  have hread : (readRegister oneAnswered 0x6f singleSlot).2 = .ok 0 := by decide
  refine ⟨hread, ?_⟩
  rintro ⟨-, h⟩
  exact absurd h (by decide)

theorem readRegister_iff_single : oneAnswered.debugEnabled = false ∧
      (ReadsSlot oneAnswered 0x6f singleSlot [0, 0, 0, 0, 1] ↔
        singleSlot.offset + 5 ≤ oneAnswered.spare ∧ singleSlot.numberOf [0, 0, 0, 0, 1] = 0) :=
  ⟨rfl, readRegister_iff rfl fun _ => rfl⟩

/-! ### The readouts of the TMC2660 -/

def tmc2660Registers (name : String) : Word :=
  ([("DRVCONF", 0xE), ("SGCSCONF", 0xC), ("SMARTEN", 0xA), ("CHOPCONF", 0x8),
    ("DRVCTRL", 0x0)].lookup name).getD 0

def tmc2660ReadRegisters : List String := ["READRSP@RDSEL0", "READRSP@RDSEL1", "READRSP@RDSEL2"]

def indexOfString (data : List String) (element : String) : ℤ :=
  if element ∈ data then data.idxOf element else -1

/-- The shadow registers, and the readout that the chip is set to. -/
structure TMC2660 where
  registers : Registers
  rdsel : Word

def message (reg val : Word) : List Word :=
  [(val.sshiftRight 16 ||| reg) &&& 0xff, val.sshiftRight 8 &&& 0xff, val &&& 0xff]

/-- The readout after a message: one that writes the configuration selects it. -/
def selectedBy (msg : List Word) : Word :=
  if msg.getD 0 0 &&& 0xe = 0xe then BitField.extract (msg.getD 2 0) 0x30 else rdsel

def responseWord (pr : UInt8 × UInt8 × UInt8) : Word :=
  pr.1.toBitVec.setWidth 64 <<< 16 ||| pr.2.1.toBitVec.setWidth 64 <<< 8 |||
    pr.2.2.toBitVec.setWidth 64

abbrev Readouts := Word → UInt8 × UInt8 × UInt8

variable (self : TMC2660)

/-- `TMC2660SPITransportRuntime.GetRegister`.  The chip responds while it takes the message, in the
readout that was selected before. -/
def TMC2660.getRegister (debugEnabled : Bool) (chip : Readouts)
    (regName : String) : Word × TMC2660 :=
  let newRdsel := BitVec.ofInt 64 (indexOfString tmc2660ReadRegisters regName)
  let reg := tmc2660Registers "DRVCONF"
  if debugEnabled then (0, self)
  else
    -- the field of the number 0, not of the shadow register
    let oldRdsel := tmc2660Fields.getField self.registers "rdsel" (some 0)
    let (val, registers) := tmc2660Fields.setField self.registers "rdsel" newRdsel
    let msg := message reg val
    let rdsel := if newRdsel ≠ oldRdsel then selectedBy self.rdsel msg else self.rdsel
    (responseWord (chip rdsel), ⟨registers, selectedBy rdsel msg⟩)

def TMC2660.setRegister (regName : String) (val : Word) : TMC2660 :=
  { self with rdsel := selectedBy self.rdsel (message (tmc2660Registers regName) val) }

inductive RegisterAccess where
  | read (r : Fin 3)
  | write (regName : String) (val : Word)

variable (chip : Readouts)

def TMC2660.access (self : TMC2660) : RegisterAccess → TMC2660
  | .read r => (self.getRegister false chip (tmc2660ReadRegisters.get r)).2
  | .write regName val => self.setRegister regName val

/-- The readout that is selected after an access. -/
def RegisterAccess.selection : RegisterAccess → Word
  | .read r => BitVec.ofNat 64 r
  | .write regName val => selectedBy rdsel (message (tmc2660Registers regName) val)

/-- Whatever the chip responds, a read of a readout returns the response in that readout, and the
shadow register selects it until the next read. -/
def TMC2660.ReadsRequested (accesses : List RegisterAccess) : Prop :=
  ∀ chip before (r : Fin 3) writes after, accesses = before ++ .read r :: (writes ++ after) →
    (∀ a ∈ writes, ∃ regName val, a = RegisterAccess.write regName val) →
    let read := (before.foldl (access chip) self).getRegister false chip
      (tmc2660ReadRegisters.get r)
    read.1 = responseWord (chip (BitVec.ofNat 64 r)) ∧
      tmc2660Fields.getField (writes.foldl (access chip) read.2).registers "rdsel" none =
        BitVec.ofNat 64 r

/-- A message to the configuration register selects the readout that it holds. -/
theorem selectedBy_message :
    selectedBy rdsel (message (tmc2660Registers "DRVCONF") val) = BitField.extract val 0x30 := by
  have haddress : (val.sshiftRight 16 ||| 0xe) &&& 0xff &&& 0xe = 0xe#64 := by
    rw [BitVec.and_assoc, show (0xff &&& 0xe : Word) = 0xe by decide]
    apply BitVec.eq_of_getLsbD_eq
    intro i _
    rw [BitVec.getLsbD_and, BitVec.getLsbD_or]
    cases (0xe : Word).getLsbD i <;> simp
  refine (if_pos haddress).trans (BitField.extract_congr ?_)
  show val &&& 0xff &&& 0x30 = _
  rw [BitVec.and_assoc]
  rfl

/-- What a read returns, and where it leaves the chip and the shadow register. -/
theorem getRegister_readout (r : Fin 3) :
    let read := self.getRegister false chip (tmc2660ReadRegisters.get r)
    read.1 = responseWord (chip (if r.val = 0 then self.rdsel else BitVec.ofNat 64 r)) ∧
      read.2.rdsel = BitVec.ofNat 64 r ∧
      tmc2660Fields.getField read.2.registers "rdsel" none = BitVec.ofNat 64 r := by
  have hindex : BitVec.ofInt 64 (indexOfString tmc2660ReadRegisters (tmc2660ReadRegisters.get r)) =
      BitVec.ofNat 64 r := by
    revert r
    decide
  have hold : tmc2660Fields.getField self.registers "rdsel" (some 0) = 0 := by
    simp only [FieldTable.getField, Option.getD_some]
    decide
  have hshadow : tmc2660Fields.getField
      (tmc2660Fields.setField self.registers "rdsel" (BitVec.ofNat 64 r)).2 "rdsel" none =
      BitVec.ofNat 64 r := by
    refine FieldTable.getField_setField (by decide) ?_
    revert r
    decide
  have hselect : BitField.extract
      (tmc2660Fields.setField self.registers "rdsel" (BitVec.ofNat 64 r)).1 0x30 =
      BitVec.ofNat 64 r := by
    rw [FieldTable.setField_fst]
    exact (FieldTable.getField_unsigned (by decide) _).symm.trans hshadow
  have hzero : ∀ r : Fin 3, BitVec.ofNat 64 r ≠ 0 ↔ r.val ≠ 0 := by decide
  simp only [TMC2660.getRegister, hindex, hold, selectedBy_message, hselect, hzero]
  refine ⟨?_, rfl, hshadow⟩
  by_cases hr : r.val = 0 <;> simp [hr]

theorem rdsel_access (self : TMC2660) (a : RegisterAccess) :
    (self.access chip a).rdsel = a.selection self.rdsel := by
  cases a with
  | read r => exact (getRegister_readout self chip r).2.1
  | write regName val => rfl

theorem rdsel_foldl_access (self : TMC2660) (accesses : List RegisterAccess) :
    (accesses.foldl (TMC2660.access chip) self).rdsel =
      accesses.foldl RegisterAccess.selection self.rdsel := by
  induction accesses generalizing self with
  | nil => rfl
  | cons a accesses ih => rw [foldl_cons, ih, rdsel_access, foldl_cons]

theorem registers_foldl_writes {writes : List RegisterAccess}
    (h : ∀ a ∈ writes, ∃ regName val, a = RegisterAccess.write regName val) (chip : Readouts)
    (self : TMC2660) : (writes.foldl (TMC2660.access chip) self).registers = self.registers := by
  induction writes generalizing self with
  | nil => rfl
  | cons a writes ih =>
    obtain ⟨⟨regName, val, rfl⟩, hwrites⟩ := forall_mem_cons.mp h
    rw [foldl_cons, ih hwrites]
    rfl

/-- **When reads return the requested readout**: whenever the first readout is read, it is already
the one that was selected last. -/
theorem readsRequested_iff (self : TMC2660) (accesses : List RegisterAccess) :
    self.ReadsRequested accesses ↔ ∀ before r after, accesses = before ++ .read r :: after →
      r.val = 0 → before.foldl RegisterAccess.selection self.rdsel = 0 := by
  constructor
  · intro h before r after hsplit hr
    -- a chip that tells the first readout from the others
    let chip : Readouts := fun rdsel => (0, 0, if rdsel = 0 then 0 else 1)
    have hread := (h chip before r [] after hsplit (fun a ha => absurd ha not_mem_nil)).1
    rw [(getRegister_readout _ chip r).1, if_pos hr, rdsel_foldl_access, hr] at hread
    by_contra hne
    simp only [chip, if_neg hne] at hread
    exact absurd hread (by decide)
  · intro h chip before r writes after hsplit hwrites
    obtain ⟨hread, -, hshadow⟩ :=
      getRegister_readout (before.foldl (TMC2660.access chip) self) chip r
    refine ⟨hread.trans ?_, by rw [registers_foldl_writes hwrites, hshadow]⟩
    by_cases hr : r.val = 0
    · rw [if_pos hr, rdsel_foldl_access, h before r _ hsplit hr, hr]
      rfl
    · rw [if_neg hr]

/-- The first readout is read after the second, and the response is that of the second. -/
theorem first_readout_stale : ¬ TMC2660.ReadsRequested ⟨fun _ => 0, 0⟩
    [.read ⟨1, by decide⟩, .read ⟨0, by decide⟩] := by
  intro h
  have hread := (h (fun rdsel => (0, 0, rdsel.toNat.toUInt8)) [.read ⟨1, by decide⟩]
    ⟨0, by decide⟩ [] [] rfl (fun a ha => absurd ha not_mem_nil)).1
  exact absurd hread (by decide)

end Tmc
