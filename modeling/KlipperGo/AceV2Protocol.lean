/-
The frames of the second protocol of the filament box
(`internal/pkg/filament/ace_v2/protocol.go`).

A frame is two magic bytes, a length, a sequence number, the device, the command, the
payload and a CRC-16.  The length counts everything before the CRC, in one byte: the
sum wraps for a payload of more than 248 bytes, and a length below the seven bytes of
the header makes the bounds of the payload cross.

* `parseResponse_eq` — what the parser does with a frame, one condition after the other.
-/
import KlipperGo.ByteOrder

open GoRuntime ByteOrder List

namespace Filament

/-! ### The handler -/

structure V2ProtoHandler where
  deviceID : UInt8
  sequence : UInt16
  deriving DecidableEq, Repr

def newV2ProtoHandler (deviceID : UInt8) : V2ProtoHandler := { deviceID, sequence := 0 }

/-- One bit of `calculateCRC16`. -/
def crc16Bit (crc : UInt16) : UInt16 :=
  if crc &&& 0x0001 ≠ 0 then (crc >>> 1) ^^^ 0xA001 else crc >>> 1

variable (data : List UInt8)

def calculateCRC16 : UInt16 :=
  data.foldl (fun crc b => crc16Bit^[8] (crc ^^^ b.toUInt16)) 0xFFFF

/-- `copy(dst, src)`. -/
def copy (dst src : List UInt8) : List UInt8 :=
  src.take dst.length ++ dst.drop src.length

namespace V2ProtoHandler

variable (h : V2ProtoHandler) (cmdCode : UInt8) (payload : List UInt8)

/-- The frame before its CRC. -/
def header : List UInt8 :=
  [0xAC, 0xE2, UInt8.ofNat (payload.length + 7)] ++ putUint16BE h.sequence ++
    [h.deviceID, cmdCode] ++ payload

/-- `V2ProtoHandler.BuildRequest`: the frame or an error, and the handler after it. -/
def buildRequest : Except String (List UInt8) × V2ProtoHandler :=
  if payload.length > 255 then (.error "payload too large", h)
  else
    let h := { h with sequence := h.sequence + 1 }
    let frame := h.header cmdCode payload
    (.ok (frame ++ putUint16LE (calculateCRC16 frame)), h)

end V2ProtoHandler

/-- `V2ProtoHandler.ParseResponse`, which reads nothing of the handler: the command and the
payload, or an error. -/
def parseResponse : Except Panic (Except String (UInt8 × List UInt8)) := do
  if data.length < 9 then return .error "frame too small"
  if (← index data 0) ≠ 0xAC ∨ (← index data 1) ≠ 0xE2 then return .error "invalid magic bytes"
  let length ← index data 2
  if length.toNat + 2 > data.length then return .error "incomplete frame"
  let expectedCRC ← uint16LE (← slice data length.toNat (length.toNat + 2))
  let actualCRC := calculateCRC16 (← slice data 0 length.toNat)
  if actualCRC ≠ expectedCRC then return .error "CRC mismatch"
  let cmdCode ← index data 6
  -- both the length of the payload and the bound of the slice are computed in one byte
  let payloadLen := length - 7
  let payload := replicate payloadLen.toNat 0
  return .ok (cmdCode, copy payload (← slice data 7 (7 + payloadLen).toNat))

/-! ### What the parser does -/

def lengthByte : UInt8 := data.getD 2 0

theorem add_sub_seven (length : UInt8) : 7 + (length - 7) = length := by
  rw [UInt8.add_comm]
  exact UInt8.sub_add_cancel length 7

/-- Copying into a list of the same length leaves nothing of it. -/
theorem copy_of_length {dst src : List UInt8} (h : dst.length = src.length) :
    copy dst src = src := by
  rw [copy, h, take_length, drop_eq_nil_of_le (by omega), append_nil]

theorem toNat_sub_seven {length : UInt8} (h : 7 ≤ length.toNat) :
    (length - 7).toNat = length.toNat - 7 :=
  UInt8.toNat_sub_of_le length 7 (UInt8.le_iff_toNat_le.mpr h)

/-- `ParseResponse` on a text that is not too small. -/
theorem parseResponse_eq {data : List UInt8} (h : 9 ≤ data.length) : parseResponse data =
      if data.getD 0 0 ≠ 0xAC ∨ data.getD 1 0 ≠ 0xE2 then .ok (.error "invalid magic bytes")
      else if (lengthByte data).toNat + 2 > data.length then .ok (.error "incomplete frame")
      else if calculateCRC16 (data.take (lengthByte data).toNat) ≠
          uint16At data (lengthByte data).toNat then .ok (.error "CRC mismatch")
      else if (lengthByte data).toNat < 7 then
        .error (.sliceOutOfRange 7 (lengthByte data).toNat data.length)
      else .ok (.ok (data.getD 6 0, (data.take (lengthByte data).toNat).drop 7)) := by
  have h0 := index_of_lt (s := data) (i := 0) (by omega) 0
  have h1 := index_of_lt (s := data) (i := 1) (by omega) 0
  have h2 : index data 2 = .ok (lengthByte data) := index_of_lt (by omega) 0
  have h6 := index_of_lt (s := data) (i := 6) (by omega) 0
  unfold parseResponse
  rw [if_neg (by omega), h0, h1, h2]
  generalize lengthByte data = length
  show (if _ then _ else _) = _
  by_cases hmagic : data.getD 0 0 ≠ 0xAC ∨ data.getD 1 0 ≠ 0xE2
  · rw [if_pos hmagic, if_pos hmagic]
    rfl
  rw [if_neg hmagic, if_neg hmagic]
  show (if _ then _ else _) = _
  by_cases hlen : length.toNat + 2 > data.length
  · rw [if_pos hlen, if_pos hlen]
    rfl
  rw [if_neg hlen, if_neg hlen]
  rw [← bind_assoc, uint16LE_slice (by omega), slice_of_le (by omega) (by omega)]
  show (if _ then _ else _) = _
  rw [drop_zero, h6]
  by_cases hcrc : calculateCRC16 (data.take length.toNat) ≠ uint16At data length.toNat
  · rw [if_pos hcrc, if_pos hcrc]
    rfl
  rw [if_neg hcrc, if_neg hcrc]
  show (slice data 7 (7 + (length - 7)).toNat >>= _) = _
  rw [add_sub_seven]
  by_cases hshort : length.toNat < 7
  · rw [if_pos hshort, slice, if_neg (by omega)]
    rfl
  rw [if_neg hshort, slice_of_le (by omega) (by omega)]
  show Except.ok (Except.ok (_, copy _ _)) = _
  rw [copy_of_length]
  rw [length_replicate, toNat_sub_seven (by omega), length_drop, length_take]
  omega

/-! ### The two halves of the codec -/

/-- The parser reads a text without a panic. -/
def Survives : Prop := ∃ r, parseResponse data = .ok r

/-- A text with a length below the header and a CRC that fits it. -/
def ShortFrame : Prop :=
  9 ≤ data.length ∧ data.getD 0 0 = 0xAC ∧ data.getD 1 0 = 0xE2 ∧
    (lengthByte data).toNat < 7 ∧
    calculateCRC16 (data.take (lengthByte data).toNat) = uint16At data (lengthByte data).toNat

instance (data : List UInt8) : Decidable (ShortFrame data) := by
  unfold ShortFrame
  infer_instance

theorem survives_iff : Survives data ↔ ¬ ShortFrame data := by
  by_cases hsmall : data.length < 9
  · refine iff_of_true ⟨.error "frame too small", ?_⟩ fun h => absurd h.1 (by omega)
    rw [parseResponse, if_pos hsmall]
    rfl
  rw [Survives, parseResponse_eq (by omega)]
  by_cases hmagic : data.getD 0 0 ≠ 0xAC ∨ data.getD 1 0 ≠ 0xE2
  · rw [if_pos hmagic]
    refine iff_of_true ⟨_, rfl⟩ ?_
    rintro ⟨-, h0, h1, -⟩
    exact hmagic.elim (fun h => h h0) fun h => h h1
  rw [if_neg hmagic]
  by_cases hlen : (lengthByte data).toNat + 2 > data.length
  · rw [if_pos hlen]
    exact iff_of_true ⟨_, rfl⟩ fun h => absurd h.2.2.2.1 (by omega)
  rw [if_neg hlen]
  by_cases hcrc : calculateCRC16 (data.take (lengthByte data).toNat) ≠
      uint16At data (lengthByte data).toNat
  · rw [if_pos hcrc]
    exact iff_of_true ⟨_, rfl⟩ fun h => hcrc h.2.2.2.2
  rw [if_neg hcrc]
  by_cases hshort : (lengthByte data).toNat < 7
  · rw [if_pos hshort]
    rw [not_or, not_not, not_not] at hmagic
    refine iff_of_false ?_ fun h => h ⟨by omega, hmagic.1, hmagic.2, hshort, not_not.mp hcrc⟩
    rintro ⟨r, hr⟩
    cases hr
  · rw [if_neg hshort]
    exact iff_of_true ⟨_, rfl⟩ fun h => hshort h.2.2.2.1

/-- Whatever `BuildRequest` makes of the payload comes back, with any bytes behind it. -/
def RoundTrips (h : V2ProtoHandler) (cmdCode : UInt8) (payload tail : List UInt8) : Prop :=
  ∀ frame, (h.buildRequest cmdCode payload).1 = .ok frame →
    parseResponse (frame ++ tail) = .ok (.ok (cmdCode, payload))

namespace V2ProtoHandler

variable (h : V2ProtoHandler) (cmdCode : UInt8) (payload tail : List UInt8)

theorem length_header : (h.header cmdCode payload).length = payload.length + 7 := by
  simp [header]
  omega

theorem header_drop_seven : (h.header cmdCode payload).drop 7 = payload := rfl

theorem lengthByte_header : lengthByte (h.header cmdCode payload ++ tail) =
    UInt8.ofNat (payload.length + 7) := rfl

end V2ProtoHandler

variable (h : V2ProtoHandler) (cmdCode : UInt8)

/-- The bytes of a frame, whatever follows it: the parser is past the magic bytes. -/
theorem parseResponse_header (payload tail : List UInt8) (hp : payload.length ≤ 248) :
    let frame := h.header cmdCode payload
    parseResponse (frame ++ putUint16LE (calculateCRC16 frame) ++ tail) =
      .ok (.ok (cmdCode, payload)) := by
  intro frame
  have hframe : frame.length = payload.length + 7 := h.length_header cmdCode payload
  have hbyte : (lengthByte (frame ++ putUint16LE (calculateCRC16 frame) ++ tail)).toNat =
      frame.length := by
    exact Nat.mod_eq_of_lt (by omega)
  have htake : (frame ++ putUint16LE (calculateCRC16 frame) ++ tail).take frame.length = frame := by
    rw [append_assoc, take_left]
  have hlen : frame.length + 2 ≤
      (frame ++ putUint16LE (calculateCRC16 frame) ++ tail).length := by
    simp
  rw [parseResponse_eq (by omega), hbyte, htake, uint16At_append, if_neg (by simp [frame,
    V2ProtoHandler.header]), if_neg (by omega), if_neg (not_not.mpr rfl), if_neg (by omega),
    h.header_drop_seven]
  rfl

/-- A frame with a length below the header is never accepted. -/
theorem seven_le_of_accepted {data payload : List UInt8} {cmdCode : UInt8} (h : 9 ≤ data.length)
    (hok : parseResponse data = .ok (.ok (cmdCode, payload))) : 7 ≤ (lengthByte data).toNat := by
  by_contra hshort
  rw [parseResponse_eq h, if_pos (c := (lengthByte data).toNat < 7) (by omega)] at hok
  split_ifs at hok
  all_goals cases hok

theorem payload_returns_iff (payload tail : List UInt8) :
    RoundTrips h cmdCode payload tail ↔ (payload.length ≤ 255 → payload.length ≤ 248) := by
  by_cases hlarge : payload.length > 255
  · refine iff_of_true ?_ fun h => absurd h (by omega)
    intro frame hframe
    rw [V2ProtoHandler.buildRequest, if_pos hlarge] at hframe
    cases hframe
  rw [RoundTrips, V2ProtoHandler.buildRequest, if_neg hlarge]
  constructor
  · intro hround _
    -- the length byte of a payload of 249 to 255 bytes is 0 to 6
    have hframe := hround _ rfl
    have hlong := seven_le_of_accepted
      (by simp [V2ProtoHandler.length_header]; omega) hframe
    rw [append_assoc, V2ProtoHandler.lengthByte_header, UInt8.toNat_ofNat'] at hlong
    omega
  · intro hp frame hframe
    cases hframe
    exact parseResponse_header _ cmdCode payload tail (hp (by omega))

/-- A payload comes back unless its frame needs a length of more than a byte, and the parser
survives every text but those with a length below the header and a CRC that fits it. -/
theorem codec_iff (payload tail data : List UInt8) :
    (RoundTrips h cmdCode payload tail ↔ (payload.length ≤ 255 → payload.length ≤ 248)) ∧
      (Survives data ↔ ¬ ShortFrame data) :=
  ⟨payload_returns_iff h cmdCode payload tail, survives_iff data⟩

/-- A payload of 249 bytes is lost, and nine bytes with the length three make the parser panic. -/
theorem codec_fails : ¬ RoundTrips (newV2ProtoHandler 1) 0x15 (replicate 249 0) [] ∧
      ¬ Survives [0xAC, 0xE2, 0x03, 0xB9, 0x40, 0x00, 0x00, 0x00, 0x00] := by
  rw [payload_returns_iff, survives_iff, not_not, length_replicate]
  exact ⟨by omega, by decide +kernel⟩

end Filament
