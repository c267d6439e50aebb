/-
The frames exchanged with a micro-controller
(`internal/pkg/msgproto/msgproto.go`).

A frame is the length, the sequence byte, the command, the CRC of these and a
sync byte.  Bytes are natural numbers below 256.
-/
import KlipperGo.Crc16
import KlipperGo.GoRuntime
import Mathlib.Tactic.IntervalCases

open GoRuntime Crc16 List

namespace Msgproto

/-- The bytes of a frame without content. -/
def messageMin : ℕ := 5
/-- The longest frame. -/
def messageMax : ℕ := 64
/-- The place of the length byte. -/
def messagePosLen : ℕ := 0
/-- The place of the sequence byte. -/
def messagePosSeq : ℕ := 1
/-- The CRC and the sync byte. -/
def messageTrailerSize : ℕ := 3
/-- The CRC, from the end of the frame. -/
def messageTrailerCrc : ℕ := 3
/-- The sync byte, from the end of the frame. -/
def messageTrailerSync : ℕ := 1
/-- The bits of the sequence number. -/
def messageSeqMask : ℕ := 0x0f
/-- The other bits of the sequence byte. -/
def messageDest : ℕ := 0x10
/-- The byte that ends a frame. -/
def messageSync : ℕ := 0x7e

/-- The two bytes of the CRC, the high one first. -/
def crc16Ccitt (buf : List ℕ) : List ℕ :=
  let crc := run 0xffff buf
  [crc >>> 8, crc &&& 0xff]

/-- `x & ^mask`. -/
def andNot (x mask : ℕ) : ℕ := x ^^^ (x &&& mask)

variable (s : List ℕ) (seq : ℤ)

/-- The length of the frame the input begins with, 0 if it is not all there, -1 if it is none. -/
def checkPacket : Except Panic ℤ := do
  if s.length < messageMin then
    return 0
  let msglen ← index s messagePosLen
  if msglen < messageMin ∨ messageMax < msglen then
    return -1
  let msgseq ← index s messagePosSeq
  if andNot msgseq messageSeqMask ≠ messageDest then
    return -1
  if s.length < msglen then
    -- need more data
    return 0
  let sync ← index s (msglen - messageTrailerSync)
  if sync ≠ messageSync then
    return -1
  let msgcrc ← slice s (msglen - messageTrailerCrc) (msglen - messageTrailerCrc + 2)
  let covered ← slice s 0 (msglen - messageTrailerSize)
  if crc16Ccitt covered ≠ msgcrc then
    return -1
  return msglen

/-- The sequence byte of a frame, `(seq & MESSAGE_SEQ_MASK) | MESSAGE_DEST`; the sequence number
is any integer, so its low bits are taken modulo sixteen. -/
def seqByte : ℕ := (seq % (messageSeqMask + 1)).toNat ||| messageDest

/-- The frame of a command. -/
def encodeMsgblock (cmd : List ℕ) : List ℕ :=
  let msglen := messageMin + cmd.length
  let seq := seqByte seq
  let out := [msglen, seq] ++ cmd
  out ++ crc16Ccitt out ++ [messageSync]

/-! ### What the check answers -/

/-- The answer of the check, read off the whole input. -/
def packetAnswer : ℤ :=
  let msglen := s.getD 0 0
  if s.length < messageMin then 0
  else if msglen < messageMin ∨ messageMax < msglen then -1
  else if andNot (s.getD 1 0) messageSeqMask ≠ messageDest then -1
  else if s.length < msglen then 0
  else if s.getD (msglen - 1) 0 ≠ messageSync then -1
  else if crc16Ccitt (s.take (msglen - 3)) ≠ (s.take (msglen - 1)).drop (msglen - 3) then -1
  else msglen

/-- The check returns on every input: no read is outside of it. -/
theorem checkPacket_eq : checkPacket s = .ok (packetAnswer s) := by
  have hfive : messageMin = 5 := rfl
  have hthree : messageTrailerCrc = 3 := rfl
  refine ite_return fun hmin => ?_
  have hlen : index s messagePosLen = .ok (s.getD 0 0) :=
    index_of_lt (show 0 < s.length by omega) 0
  have hseq : index s messagePosSeq = .ok (s.getD 1 0) :=
    index_of_lt (show 1 < s.length by omega) 0
  rw [hlen]
  generalize s.getD 0 0 = msglen
  refine ite_return fun hrange => ?_
  rw [hseq]
  refine ite_return fun hdest => ite_return fun hmore => ?_
  -- from here on the whole frame is in the input
  have hsync : index s (msglen - messageTrailerSync) = .ok (s.getD (msglen - 1) 0) :=
    index_of_lt (show msglen - 1 < s.length by omega) 0
  have hcrc : slice s (msglen - messageTrailerCrc) (msglen - messageTrailerCrc + 2) =
      .ok ((s.take (msglen - 1)).drop (msglen - 3)) := by
    rw [slice_of_le (by omega) (by omega)]
    congr 3
    omega
  have hcovered : slice s 0 (msglen - messageTrailerSize) = .ok (s.take (msglen - 3)) :=
    slice_of_le (Nat.zero_le _) (show msglen - 3 ≤ s.length by omega)
  rw [hsync]
  refine ite_return fun _ => ?_
  rw [hcrc, hcovered]
  exact ite_return fun _ => rfl

/-- The answer to a frame whose length byte and sync byte are right. -/
theorem packetAnswer_frame {msglen seq : ℕ} {cmd : List ℕ} (hlen : msglen = cmd.length + 5)
    (hmax : msglen ≤ 64) (c₁ c₂ : ℕ) (rest : List ℕ) :
    packetAnswer ((msglen :: seq :: cmd) ++ [c₁, c₂] ++ [messageSync] ++ rest) =
      if andNot seq messageSeqMask ≠ messageDest ∨
        crc16Ccitt (msglen :: seq :: cmd) ≠ [c₁, c₂] then -1 else (msglen : ℤ) := by
  have hcovered : (msglen :: seq :: cmd).length = msglen - 3 := by
    simp only [length_cons]
    omega
  have hall : ((msglen :: seq :: cmd) ++ [c₁, c₂]).length = msglen - 1 := by
    simp only [length_append, hcovered, length_cons, length_nil]
    omega
  obtain ⟨frame, hframe⟩ : ∃ frame,
      frame = (msglen :: seq :: cmd) ++ [c₁, c₂] ++ [messageSync] ++ rest := ⟨_, rfl⟩
  have hshort : ¬ frame.length < messageMin ∧ ¬ frame.length < msglen := by
    have hfive : messageMin = 5 := rfl
    rw [hframe, length_append, length_append, hall, length_singleton]
    omega
  have hrange : ¬ (msglen < messageMin ∨ messageMax < msglen) := by
    have hfive : messageMin = 5 := rfl
    have hsixtyfour : messageMax = 64 := rfl
    omega
  have hsync : frame.getD (msglen - 1) 0 = messageSync := by
    rw [hframe, append_assoc, getD_append_right _ _ _ _ hall.le, hall, Nat.sub_self]
    rfl
  have hhead : frame.take (msglen - 3) = msglen :: seq :: cmd := by
    rw [hframe, append_assoc, append_assoc, ← hcovered, take_left]
  have hcrc : (frame.take (msglen - 1)).drop (msglen - 3) = [c₁, c₂] := by
    rw [hframe, append_assoc, ← hall, take_left, ← hcovered, drop_left]
  have hzero : frame.getD 0 0 = msglen := by
    rw [hframe]
    rfl
  have hone : frame.getD 1 0 = seq := by
    rw [hframe]
    rfl
  rw [← hframe]
  simp only [packetAnswer, hzero, hone, hsync, hhead, hcrc, if_neg hshort.1, if_neg hshort.2,
    if_neg hrange, ne_eq, not_true_eq_false, if_false]
  by_cases hdest : andNot seq messageSeqMask = messageDest <;> simp [hdest]

/-- A beginning of a frame that shows its length and its sequence byte is waited for. -/
theorem packetAnswer_beginning {msglen seq : ℕ} (hmin : 5 ≤ msglen) (hmax : msglen ≤ 64)
    (hdest : andNot seq messageSeqMask = messageDest) {s : List ℕ}
    (hlen : (msglen :: seq :: s).length < msglen) : packetAnswer (msglen :: seq :: s) = 0 := by
  have hrange : ¬ (msglen < messageMin ∨ messageMax < msglen) := by
    have hfive : messageMin = 5 := rfl
    have hsixtyfour : messageMax = 64 := rfl
    omega
  unfold packetAnswer
  by_cases hshort : (msglen :: seq :: s).length < messageMin
  · exact if_pos hshort
  · simp only [getD_cons_zero, getD_cons_succ, if_neg hshort, if_neg hrange, hdest,
      if_pos hlen, ne_eq, not_true_eq_false, if_false]

/-! ### Encoded frames -/

theorem seqByte_spec : andNot (seqByte seq) messageSeqMask = messageDest ∧ seqByte seq < 2 ^ 8 := by
  have hlt : (seq % (messageSeqMask + 1)).toNat < 16 := by
    have hmask : (messageSeqMask : ℤ) + 1 = 16 := rfl
    rw [hmask]
    omega
  unfold seqByte
  generalize (seq % (messageSeqMask + 1)).toNat = low at hlt
  interval_cases low <;> decide

section Frame

variable (seq : ℤ) (cmd : List ℕ)

/-- The bytes the CRC of a frame covers. -/
def covered : List ℕ := (messageMin + cmd.length) :: seqByte seq :: cmd

theorem encodeMsgblock_eq :
    encodeMsgblock seq cmd = covered seq cmd ++ crc16Ccitt (covered seq cmd) ++ [messageSync] :=
  rfl

theorem length_covered : (covered seq cmd).length = cmd.length + 2 := rfl

theorem length_encodeMsgblock : (encodeMsgblock seq cmd).length = messageMin + cmd.length := by
  rw [encodeMsgblock_eq, length_append, length_append, length_covered]
  have hfive : messageMin = 5 := rfl
  simp only [crc16Ccitt, length_cons, length_nil]
  omega

variable {seq cmd}

theorem covered_lt (hbytes : ∀ b ∈ cmd, b < 2 ^ 8) (hcmd : cmd.length ≤ 59) :
    ∀ b ∈ covered seq cmd, b < 2 ^ 8 := by
  intro b hb
  rcases mem_cons.mp hb with rfl | hb
  · have hfive : messageMin = 5 := rfl
    omega
  rcases mem_cons.mp hb with rfl | hb
  · exact (seqByte_spec seq).2
  · exact hbytes b hb

theorem crc16Ccitt_injOn {s t : List ℕ} (h : crc16Ccitt s = crc16Ccitt t) :
    run 0xffff s = run 0xffff t := by
  obtain ⟨hhigh, hlow⟩ : run 0xffff s >>> 8 = run 0xffff t >>> 8 ∧
      run 0xffff s &&& 0xff = run 0xffff t &&& 0xff := by
    simpa [crc16Ccitt] using h
  rw [and_255, and_255] at hlow
  omega

theorem checkPacket_block (hcmd : cmd.length ≤ 59) (rest : List ℕ) :
    checkPacket (encodeMsgblock seq cmd ++ rest) = .ok (encodeMsgblock seq cmd).length := by
  have hfive : messageMin = 5 := rfl
  obtain ⟨c₁, c₂, hcrc⟩ : ∃ c₁ c₂, crc16Ccitt (covered seq cmd) = [c₁, c₂] := ⟨_, _, rfl⟩
  rw [checkPacket_eq, length_encodeMsgblock, encodeMsgblock_eq, hcrc, covered,
    packetAnswer_frame (by omega) (by omega) c₁ c₂ rest, if_neg]
  rintro (hdest | hne)
  · exact hdest (seqByte_spec seq).1
  · exact hne hcrc

theorem checkPacket_beginning (hcmd : cmd.length ≤ 59) {s : List ℕ}
    (hs : s <+: encodeMsgblock seq cmd) (hne : s ≠ encodeMsgblock seq cmd) :
    checkPacket s = .ok 0 := by
  have hfive : messageMin = 5 := rfl
  have hlen : s.length < messageMin + cmd.length := by
    have hle := hs.length_le
    rw [length_encodeMsgblock] at hle
    refine lt_of_le_of_ne hle fun heq => hne (hs.eq_of_length ?_)
    rw [length_encodeMsgblock, heq]
  rw [checkPacket_eq]
  congr 1
  by_cases hshort : s.length < messageMin
  · exact if_pos hshort
  -- the beginning shows the length and the sequence byte
  obtain ⟨t, rfl⟩ : ∃ t, s = (messageMin + cmd.length) :: seqByte seq :: t := by
    match s, hs, hshort with
    | [], _, hshort => exact absurd (show 0 < 5 by decide) hshort
    | [_], _, hshort => exact absurd (show 1 < 5 by decide) hshort
    | a :: b :: t, hs, _ =>
      obtain ⟨rfl, htail⟩ := cons_prefix_cons.mp hs
      obtain ⟨rfl, -⟩ := cons_prefix_cons.mp htail
      exact ⟨t, rfl⟩
  exact packetAnswer_beginning (by omega) (by omega) (seqByte_spec seq).1 hlen

theorem checkPacket_burst (hbytes : ∀ b ∈ cmd, b < 2 ^ 8) (hcmd : cmd.length ≤ 59) {w p : ℕ}
    (hw : 0 < w) (hw16 : w < 2 ^ 16) (hp : 8 ≤ p)
    (hfit : w * 2 ^ p < 2 ^ (8 * (cmd.length + 2))) (rest : List ℕ) :
    checkPacket (flipBits (w * 2 ^ p) (encodeMsgblock seq cmd) ++ rest) = .ok (-1) := by
  have hfive : messageMin = 5 := rfl
  rw [← length_covered seq cmd] at hfit
  have hne : crc16Ccitt (flipBits (w * 2 ^ p) (covered seq cmd)) ≠
      crc16Ccitt (covered seq cmd) := fun h =>
    run_flipBits_ne (by decide) (covered_lt hbytes hcmd) hw hw16 hfit (crc16Ccitt_injOn h)
  rw [encodeMsgblock_eq, append_assoc, flipBits_append hfit, ← append_assoc, checkPacket_eq]
  -- the length byte is before the burst
  obtain ⟨seq', cmd', hlen, hflip⟩ : ∃ seq' cmd', cmd'.length = cmd.length ∧
      flipBits (w * 2 ^ p) (covered seq cmd) = (messageMin + cmd.length) :: seq' :: cmd' := by
    have hlow : w * 2 ^ p % 256 = 0 := by
      have hdvd : 256 ∣ 2 ^ p := pow_dvd_pow 2 hp
      exact Nat.mod_eq_zero_of_dvd (hdvd.mul_left w)
    refine ⟨seqByte seq ^^^ w * 2 ^ p / 256 % 256, flipBits (w * 2 ^ p / 256 / 256) cmd,
      length_flipBits _ cmd, ?_⟩
    rw [covered, flipBits, flipBits, hlow, Nat.xor_zero]
  obtain ⟨c₁, c₂, hcrc⟩ : ∃ c₁ c₂, crc16Ccitt (covered seq cmd) = [c₁, c₂] := ⟨_, _, rfl⟩
  rw [hcrc, hflip] at hne
  rw [hcrc, hflip, packetAnswer_frame (by omega) (by omega) c₁ c₂ rest, if_pos (.inr hne)]

end Frame

/-- The frame codec: an encoded frame is accepted whatever follows it, a proper beginning of it is
waited for, a burst of up to sixteen flipped bits behind the length byte is refused, and the check
reads inside its input. -/
theorem msgblock_checked (seq : ℤ) {cmd : List ℕ} (hbytes : ∀ b ∈ cmd, b < 2 ^ 8)
    (hcmd : cmd.length ≤ 59) (rest : List ℕ) :
    checkPacket (encodeMsgblock seq cmd ++ rest) = .ok (encodeMsgblock seq cmd).length ∧
      (∀ s, s <+: encodeMsgblock seq cmd → s ≠ encodeMsgblock seq cmd →
        checkPacket s = .ok 0) ∧
      (∀ w p, 0 < w → w < 2 ^ 16 → 8 ≤ p →
        w * 2 ^ p < 2 ^ (8 * ((encodeMsgblock seq cmd).length - messageTrailerSize)) →
        checkPacket (flipBits (w * 2 ^ p) (encodeMsgblock seq cmd) ++ rest) = .ok (-1)) ∧
      ∀ s, ∃ r, checkPacket s = .ok r := by
  refine ⟨checkPacket_block hcmd rest, fun s hs hne => checkPacket_beginning hcmd hs hne, ?_,
    fun s => ⟨_, checkPacket_eq s⟩⟩
  intro w p hw hw16 hp hfit
  have hlen : (encodeMsgblock seq cmd).length - messageTrailerSize = cmd.length + 2 := by
    rw [length_encodeMsgblock]
    have hfive : messageMin = 5 := rfl
    have hthree : messageTrailerSize = 3 := rfl
    omega
  rw [hlen] at hfit
  exact checkPacket_burst hbytes hcmd hw hw16 hp hfit rest

theorem msgblock_checked_identify : checkPacket (encodeMsgblock 1 [1, 0, 40] ++ [5]) = .ok 8 ∧
      checkPacket (flipBits (0x8001 * 2 ^ 17) (encodeMsgblock 1 [1, 0, 40]) ++ [5]) =
        .ok (-1) := by
  have h := msgblock_checked 1 (show ∀ b ∈ [1, 0, 40], b < 2 ^ 8 by decide) (by decide) [5]
  exact ⟨h.1, h.2.2.1 0x8001 17 (by decide) (by decide) (by decide) (by decide)⟩

end Msgproto
