/-
The serial line of the filament box
(`internal/pkg/filament/ace_commun.go`, `ace_crc.go`, `ace_v2_proxy.go`).

A request is a JSON text in a frame: two start bytes, the length, the text, its CRC and
an end byte.  The reader appends what the line has to its buffer, looks for a start,
takes at most one frame a call, and gives the decoded object to the callback that
waits for its id.

* `takeFrame_append`, `takeFrame_short` — what the search does on a buffer that begins
  with a frame, or with a part of one.
-/
import KlipperGo.AceV2Protocol
import KlipperGo.Decimal
import KlipperGo.ExactArith
import KlipperGo.Returns

open GoRuntime ByteOrder Outcome List Nat UInt8

namespace Filament

def frameStart1 : UInt8 := 0xFF
def frameStart2 : UInt8 := 0xAA
def frameEnd : UInt8 := 0xFE
/-- The bytes of a frame around its payload. -/
def minFrameSize : ℕ := 7

def calcCRC (buf : List UInt8) : UInt16 :=
  buf.foldl (fun crc b =>
    let data := b.toUInt16
    let data := data ^^^ (crc &&& 0xff)
    let data := data ^^^ ((data &&& 0x0f) <<< 4)
    ((data <<< 8) ||| (crc >>> 8)) ^^^ (data >>> 4) ^^^ (data <<< 3)) 0xffff

/-! ### Objects and their texts -/

/-- What may stand behind the key `id`. -/
inductive IdValue where
  | int (n : ℤ)
  | float (v : ℚ)
  | other
  deriving DecidableEq

/-- A `map[string]interface{}`: its `id`, and the other keys. -/
structure AceObject (β : Type) where
  id : Option IdValue
  rest : β
  deriving DecidableEq

/-- `json.Marshal` and `json.Unmarshal` on the objects.  The numbers of a text come back as floats,
`wire` is the object that comes back. -/
structure JsonCodec (β : Type) where
  marshal : AceObject β → List UInt8
  unmarshal : List UInt8 → Option (AceObject β)
  wire : AceObject β → AceObject β
  unmarshal_marshal : ∀ o, unmarshal (marshal o) = some (wire o)
  /-- An integer that a float holds exactly. -/
  wire_id : ∀ o (n : ℤ), o.id = some (.int n) → n.natAbs ≤ 2 ^ 53 →
    (wire o).id = some (.float n)

/-- The type switch on the `id`: the request it names. -/
def AceObject.requestId {β : Type} (o : AceObject β) : Option ℤ :=
  match o.id with
  | some (.float v) => some (v.num.tdiv v.den)
  | some (.int n) => some n
  | some .other => none
  | none => none

/-- `AceCommun`, with callbacks of type `κ`. -/
structure AceCommun (κ K : Type) where
  requestId : ℤ
  sendTime : K
  readBuffer : List UInt8
  callbackMap : ℤ → Option κ
  isV2 : Bool

/-! ### The sender -/

def frameV1 (bts : List UInt8) : List UInt8 :=
  let size := bts.length
  let crc := calcCRC bts
  [frameStart1, frameStart2, ofNat size, ofNat (size >>> 8)] ++ bts ++
    [crc.toUInt8, (crc >>> 8).toUInt8] ++ [frameEnd]

section

variable {β κ K : Type} (json : JsonCodec β) (self : AceCommun κ K)

/-- `sendRequestV1`: the sender, the request with its `id`, and what is written. -/
def sendRequestV1 (req : AceObject β) : AceCommun κ K × AceObject β × List UInt8 :=
  let (self, req) :=
    if req.id.isNone then
      ({ self with requestId := self.requestId + 1 }, { req with id := some (.int self.requestId) })
    else (self, req)
  (self, req, frameV1 (json.marshal req))

/-- The requests one after the other: what is sent, with its `id`s, and the frames. -/
def sendAll (json : JsonCodec β) :
    AceCommun κ K → List (AceObject β) → List (AceObject β) × List (List UInt8)
  | _, [] => ([], [])
  | self, req :: reqs =>
    let (self, req, frame) := sendRequestV1 json self req
    let (sent, frames) := sendAll json self reqs
    (req :: sent, frame :: frames)

/-! ### The reader -/

/-- The loop of `Reader`: the frame at the first start that is followed by all of it, or nothing,
and what stays in the buffer. -/
def takeFrame : List UInt8 → List UInt8 × List UInt8
  | [] => ([], [])
  | b :: bs =>
    let buf := b :: bs
    if buf.length < minFrameSize then ([], buf)
    else if b ≠ frameStart1 ∨ buf.getD 1 0 ≠ frameStart2 then takeFrame bs
    else
      let expectedLen := (uint16At buf 2).toNat + minFrameSize
      -- a length that no frame has: these were not the start bytes of one
      if expectedLen > 4096 then takeFrame bs
      else if buf.length ≥ expectedLen then (buf.take expectedLen, buf.drop expectedLen)
      else ([], buf)

/-- The checks on a frame: its payload, if they pass. -/
def checkFrame (buffer : List UInt8) : Except Panic (Option (List UInt8)) := do
  let payloadLen := uint16At buffer 2
  if (← index buffer (buffer.length - 1)) ≠ frameEnd then return none
  let payload ← slice buffer 4 (4 + payloadLen).toNat
  let crc ← uint16LE (← slice buffer (4 + payloadLen).toNat (4 + payloadLen + 2).toNat)
  if buffer.length < (4 + payloadLen + 2 + 1).toNat then return none
  if crc ≠ calcCRC payload then return none
  return some payload

/-- `V2ProtoHandler.ParseResponse` of the default build. -/
def v2ParseResponse (frame : List UInt8) : Except Panic (Except String (List UInt8)) := do
  if frame.length < 7 then return .error "frame too small"
  if (← index frame 0) ≠ 0xFF ∨ (← index frame 1) ≠ 0xAA then return .error "invalid frame start"
  if (← index frame (frame.length - 1)) ≠ 0xFE then return .error "invalid frame end"
  let payloadLen ← uint16LE (← slice frame 2 4)
  if frame.length ≠ (4 + payloadLen + 2 + 1).toNat then
    return .error "invalid frame length mismatch"
  let payload ← slice frame 4 (4 + payloadLen).toNat
  let crc ← uint16LE (← slice frame (4 + payloadLen).toNat (4 + payloadLen + 2).toNat)
  if calculateCRC16 (← slice frame 0 (4 + payloadLen).toNat) ≠ crc then return .error "crc failure"
  return .ok payload

/-- `TranslateACEV2ResponseToJSON` of the default build. -/
def translateACEV2ResponseToJSON (_unwrappedV2 : List UInt8) : Option (AceObject β) := none

/-- What a call of `Reader` did: the error it returned, the payload it decoded, and the callback
it called with what. -/
structure ReaderLog (κ β : Type) where
  error : Option String := none
  decoded : Option (List UInt8) := none
  call : Option (κ × AceObject β) := none

/-- How `Reader` decodes a payload.  A translated object would borrow the id of some callback; there
is none in this build. -/
def decodePayload (payload : List UInt8) : Except Panic (Option (AceObject β)) := do
  if self.isV2 then
    match ← v2ParseResponse payload with
    | .ok unwrappedV2 =>
      let ret :=
        if unwrappedV2.length > 0 then translateACEV2ResponseToJSON unwrappedV2 else none
      return ret <|> json.unmarshal payload
    | .error _ => return json.unmarshal payload
  else return json.unmarshal payload

/-- The end of `Reader`, on a payload whose frame passed the checks. -/
def handlePayload (payload : List UInt8) : Except Panic (AceCommun κ K × ReaderLog κ β) := do
  match ← decodePayload json self payload with
  | none => return (self, { decoded := some payload })
  | some ret =>
    match ret.requestId with
    | none => return (self, { decoded := some payload })
    | some id =>
      match self.callbackMap id with
      | some cb =>
        return ({ self with callbackMap := Function.update self.callbackMap id none },
          { decoded := some payload, call := some (cb, ret) })
      | none => return (self, { decoded := some payload })

/-- What `syscall.Read` gives: an error, or some of the bytes of the line. -/
inductive ReadResult where
  | failed (err : String)
  | bytes (raw : List UInt8) (fits : raw.length ≤ 4096)

variable [Field K] [LinearOrder K]

def unableToCommunError : String := "Unable to communicate with the ACE PRO"
def respondTimeoutError : String := "Respond timeout with the ACE PRO"

/-- The two places of `Reader` that have nothing to handle. -/
def waiting (self : AceCommun κ K) (eventtime : K) : AceCommun κ K × ReaderLog κ β :=
  (self, { error := if eventtime - self.sendTime > 2 then some respondTimeoutError else none })

def reader (json : JsonCodec β) (self : AceCommun κ K) (eventtime : K) :
    ReadResult → Except Panic (AceCommun κ K × ReaderLog κ β)
  | .failed err => return (self, { error := some (unableToCommunError ++ " " ++ err) })
  | .bytes raw _ => do
    if raw.length = 0 ∧ self.readBuffer.length = 0 then return waiting self eventtime
    let (buffer, readBuffer) := takeFrame (self.readBuffer ++ raw)
    let self := { self with readBuffer }
    if buffer.length = 0 then return waiting self eventtime
    match ← checkFrame buffer with
    | none => return (self, {})
    | some payload => handlePayload json self payload

/-- One call of `Reader` for each read. -/
def readAll (json : JsonCodec β) : AceCommun κ K → List (K × ReadResult) →
    Except Panic (AceCommun κ K × List (ReaderLog κ β))
  | self, [] => return (self, [])
  | self, (eventtime, r) :: rs => do
    let (self, log) ← reader json self eventtime r
    let (self, logs) ← readAll json self rs
    return (self, log :: logs)

end

/-! ### Frames in the buffer -/

variable {bts buf rest : List UInt8}

theorem length_frameV1 (bts : List UInt8) : (frameV1 bts).length = bts.length + minFrameSize := by
  simp [frameV1, minFrameSize]

/-- The length of a text, cut into bytes and put together again. -/
theorem join_length (h : bts.length < 2 ^ 16) :
    join (ofNat bts.length) (ofNat (bts.length >>> 8)) = UInt16.ofNat bts.length := by
  have hlow : ofNat bts.length = (UInt16.ofNat bts.length).toUInt8 := by
    apply toNat.inj
    rw [toNat_ofNat', UInt16.toNat_toUInt8, UInt16.toNat_ofNat_of_lt' h]
  have hhigh : ofNat (bts.length >>> 8) = (UInt16.ofNat bts.length >>> 8).toUInt8 := by
    apply toNat.inj
    rw [toNat_ofNat', UInt16.toNat_toUInt8, UInt16.toNat_shiftRight, UInt16.toNat_ofNat_of_lt' h]
    rfl
  rw [hlow, hhigh]
  exact join_split _

section

variable (h : bts.length ≤ 4089)
include h

/-- The length field, as soon as the buffer holds it. -/
theorem uint16At_frameV1 (hbuf : buf <+: frameV1 bts ++ rest)
    (hlen : 4 ≤ buf.length) : (uint16At buf 2).toNat = bts.length := by
  obtain ⟨b0, b1, b2, b3, buf, rfl⟩ : ∃ b0 b1 b2 b3 bs, buf = b0 :: b1 :: b2 :: b3 :: bs := by
    match buf, hlen with
    | b0 :: b1 :: b2 :: b3 :: bs, _ => exact ⟨b0, b1, b2, b3, bs, rfl⟩
  simp only [frameV1, cons_append, cons_prefix_cons] at hbuf
  obtain ⟨-, -, rfl, rfl, -⟩ := hbuf
  show (join (ofNat bts.length) (ofNat (bts.length >>> 8))).toNat = _
  rw [join_length (by omega), UInt16.toNat_ofNat_of_lt' (h.trans_lt (by decide))]

/-- A buffer that begins with the start bytes of a frame is not searched any further. -/
theorem takeFrame_start (hbuf : buf <+: frameV1 bts ++ rest) : takeFrame buf =
      if buf.length < minFrameSize then ([], buf)
      else if buf.length ≥ bts.length + minFrameSize then
        (buf.take (bts.length + minFrameSize), buf.drop (bts.length + minFrameSize))
      else ([], buf) := by
  rcases buf with _ | ⟨b, bs⟩
  · rfl
  rw [takeFrame]
  by_cases hmin : (b :: bs).length < minFrameSize
  · rw [if_pos hmin, if_pos hmin]
  have hlen := uint16At_frameV1 h hbuf (by simp only [minFrameSize] at hmin; omega)
  rw [if_neg hmin, if_neg hmin]
  simp only [hlen]
  obtain ⟨b1, bs, rfl⟩ : ∃ b1 bs', bs = b1 :: bs' := by
    rcases bs with _ | ⟨b1, bs⟩
    · simp [minFrameSize] at hmin
    · exact ⟨b1, bs, rfl⟩
  simp only [frameV1, cons_append, cons_prefix_cons] at hbuf
  obtain ⟨rfl, rfl, -⟩ := hbuf
  rw [if_neg (by simp), if_neg (by simp only [minFrameSize]; omega)]

theorem takeFrame_append (rest : List UInt8) :
    takeFrame (frameV1 bts ++ rest) = (frameV1 bts, rest) := by
  have hlen := length_frameV1 bts
  rw [takeFrame_start h prefix_rfl, if_neg (by rw [length_append]; omega),
    if_pos (by rw [length_append]; omega), ← hlen, take_left, drop_left]

theorem takeFrame_short (hbuf : buf <+: frameV1 bts ++ rest)
    (hshort : buf.length < (frameV1 bts).length) : takeFrame buf = ([], buf) := by
  rw [length_frameV1] at hshort
  rw [takeFrame_start h hbuf, if_neg (c := buf.length ≥ _) (by omega), ite_self]

end

/-! ### The checks on a frame -/

/-- Small numbers are added without wrapping. -/
theorem toNat_four_add {n k : UInt16} (h : n.toNat ≤ 4089) (hk : k.toNat ≤ 7) :
    (n + k).toNat = n.toNat + k.toNat := by
  rw [UInt16.toNat_add]
  exact mod_eq_of_lt (by omega)

/-- `checkFrame` on what the search gives: no read is outside the frame. -/
theorem checkFrame_eq {n : UInt16} (hn : uint16At buf 2 = n) (hlen : buf.length = n.toNat + 7)
    (hmax : buf.length ≤ 4096) :
    checkFrame buf = .ok (
      if buf.getD (buf.length - 1) 0 ≠ frameEnd then none
      else if uint16At buf (n.toNat + 4) ≠ calcCRC ((buf.take (n.toNat + 4)).drop 4) then none
      else some ((buf.take (n.toNat + 4)).drop 4)) := by
  have h4 : (4 + n).toNat = n.toNat + 4 := by
    rw [UInt16.add_comm, toNat_four_add (by omega) (by decide)]
    rfl
  have h6 : (4 + n + 2).toNat = n.toNat + 4 + 2 := by
    rw [UInt16.toNat_add, h4]
    exact mod_eq_of_lt (by show n.toNat + 4 + 2 < _; omega)
  have h7 : (4 + n + 2 + 1).toNat = n.toNat + 7 := by
    rw [UInt16.toNat_add, h6]
    exact mod_eq_of_lt (by show n.toNat + 4 + 2 + 1 < _; omega)
  unfold checkFrame
  rw [index_of_lt (by omega) 0, hn]
  dsimp only
  rw [h4, h6, h7]
  show (if _ then _ else _) = _
  by_cases hend : buf.getD (buf.length - 1) 0 ≠ frameEnd
  · rw [if_pos hend, if_pos hend]
    rfl
  rw [if_neg hend, if_neg hend, slice_of_le (by omega) (by omega)]
  show (slice buf (n.toNat + 4) (n.toNat + 4 + 2) >>= fun b => uint16LE b >>= _) = _
  rw [← bind_assoc, uint16LE_slice (by omega)]
  show (if _ then _ else _) = _
  rw [if_neg (by omega)]
  exact ite_return fun _ => rfl

theorem checkFrame_frameV1 (h : bts.length ≤ 4089) : checkFrame (frameV1 bts) = .ok (some bts) := by
  have hlen := length_frameV1 bts
  have hn := UInt16.toNat_ofNat_of_lt' (h.trans_lt (by decide))
  have hfield : uint16At (frameV1 bts) 2 = UInt16.ofNat bts.length := join_length (by omega)
  set start := [frameStart1, frameStart2, ofNat bts.length, ofNat (bts.length >>> 8)]
  have hstart : (start ++ bts).length = bts.length + 4 := by
    rfl
  have hbody : frameV1 bts = (start ++ bts) ++ putUint16LE (calcCRC bts) ++ [frameEnd] := rfl
  have hpayload : ((frameV1 bts).take (bts.length + 4)).drop 4 = bts := by
    rw [hbody, ← hstart, append_assoc, take_left]
    rfl
  have hcrc : uint16At (frameV1 bts) (bts.length + 4) = calcCRC bts := by
    exact uint16At_append _ _ _
  have hend : (frameV1 bts).getD ((frameV1 bts).length - 1) 0 = frameEnd := by
    rw [hbody, length_append, length_singleton, Nat.add_sub_cancel,
      getD_append_right _ _ _ _ (Nat.le_refl _), Nat.sub_self]
    rfl
  rw [checkFrame_eq hfield (by rw [hn]; exact hlen) (by simp only [minFrameSize] at hlen; omega),
    hn, hend, hcrc, hpayload, if_neg (not_not.mpr rfl), if_neg (not_not.mpr rfl)]

/-- The parser of the second protocol reads every payload without a panic: the length it
accepts is that of the payload, wrapped or not. -/
theorem v2ParseResponse_returns (frame : List UInt8) :
    Returns (v2ParseResponse frame) fun _ => True := by
  unfold v2ParseResponse
  by_cases hsmall : frame.length < 7
  · rw [if_pos hsmall]
    exact returns_ok trivial
  rw [if_neg hsmall, index_of_lt (i := 0) (by omega) 0, index_of_lt (i := 1) (by omega) 0,
    index_of_lt (i := frame.length - 1) (by omega) 0]
  show Returns (if _ then _ else _) _
  split
  · exact returns_ok trivial
  show Returns (if _ then _ else _) _
  split
  · exact returns_ok trivial
  rw [← bind_assoc, uint16LE_slice (by omega)]
  generalize uint16At frame 2 = n
  show Returns (if _ then _ else _) _
  split
  · exact returns_ok trivial
  next hlen =>
    have hn := n.toNat_lt
    have h7 : frame.length = (n.toNat + 7) % 2 ^ 16 := by
      rw [not_not.mp hlen]
      simp only [UInt16.toNat_add, UInt16.reduceToNat]
      omega
    have h4 : (4 + n).toNat = n.toNat + 4 := by
      simp only [UInt16.toNat_add, UInt16.reduceToNat]
      omega
    have h6 : (4 + n + 2).toNat = n.toNat + 4 + 2 := by
      rw [UInt16.toNat_add, h4]
      simp only [UInt16.reduceToNat]
      omega
    rw [h4, h6, slice_of_le (by omega) (by omega)]
    show Returns (slice frame (n.toNat + 4) (n.toNat + 4 + 2) >>= fun b => uint16LE b >>= _) _
    rw [← bind_assoc, uint16LE_slice (by omega), slice_of_le (by omega) (by omega)]
    show Returns (if _ then _ else _) _
    split <;> exact returns_ok trivial

/-! ### Payloads and callbacks -/

section

variable {β κ K : Type} (json : JsonCodec β) (self sender : AceCommun κ K)
  (reqs : List (AceObject β)) (waits : ℤ → Option κ) (o : AceObject β)

/-- The callbacks that wait after an object has come in. -/
def forget : ℤ → Option κ :=
  match o.requestId with
  | some id => Function.update waits id none
  | none => waits

/-- The callback that waits for an object. -/
def waitsFor : Option κ := o.requestId.bind waits

/-- The calls a list of objects makes, each to the callback that waits for its id. -/
def pendingCalls : (ℤ → Option κ) → List (AceObject β) → List (κ × AceObject β)
  | _, [] => []
  | waits, o :: os =>
    ((waitsFor waits o).map fun cb => (cb, o)).toList ++ pendingCalls (forget waits o) os

theorem forget_of_none {waits : ℤ → Option κ} {o : AceObject β} (h : waitsFor waits o = none) :
    forget waits o = waits := by
  unfold forget
  unfold waitsFor at h
  split
  · next id hid =>
    rw [hid] at h
    have hnone : waits id = none := h
    rw [← hnone, Function.update_eq_self]
  · rfl

/-- The two ways to decode a payload end in the same one: what the second protocol finds is
not translated in this build. -/
theorem decodePayload_eq (payload : List UInt8) :
    decodePayload json self payload = .ok (json.unmarshal payload) := by
  unfold decodePayload
  split
  · obtain ⟨r, hr, -⟩ := v2ParseResponse_returns payload
    rw [hr]
    rcases r with err | unwrapped
    · rfl
    · show Except.ok ((if _ then _ else _) <|> _) = _
      rw [translateACEV2ResponseToJSON, ite_self]
      rfl
  · rfl

/-- The text of a request is decoded, and its object goes to the callback that waits for it. -/
theorem handlePayload_marshal : handlePayload json self (json.marshal o) =
      .ok ({ self with callbackMap := forget self.callbackMap (json.wire o) },
        { decoded := some (json.marshal o)
          call := (waitsFor self.callbackMap (json.wire o)).map fun cb => (cb, json.wire o) }) := by
  rw [handlePayload, decodePayload_eq, json.unmarshal_marshal]
  show (match (json.wire o).requestId with | none => _ | some id => _) = _
  rcases hid : (json.wire o).requestId with _ | id
  · simp only [forget, waitsFor, hid]
    rfl
  · rcases hcb : self.callbackMap id with _ | cb
    · have hnone : waitsFor self.callbackMap (json.wire o) = none := by
        rw [waitsFor, hid]
        exact hcb
      rw [forget_of_none hnone, hnone]
      simp only [hcb]
      rfl
    · simp only [forget, waitsFor, hid, hcb, Option.bind_some]
      rfl

/-- The request that the text of a request names: its own, where a float holds the number. -/
theorem requestId_wire {o : AceObject β} {n : ℤ} (hid : o.id = some (.int n))
    (hn : n.natAbs ≤ 2 ^ 53) : (json.wire o).requestId = some n := by
  rw [AceObject.requestId, json.wire_id o n hid hn]
  show some ((n : ℚ).num.tdiv ((n : ℚ).den : ℤ)) = some n
  exact congrArg some (Int.tdiv_one n)

def stream (os : List (AceObject β)) : List UInt8 :=
  (os.map fun o => frameV1 (json.marshal o)).flatten

theorem length_sendAll : (sendAll json sender reqs).1.length = reqs.length := by
  induction reqs generalizing sender with
  | nil => rfl
  | cons req reqs ih => exact congrArg Nat.succ (ih _)

theorem flatten_sendAll :
    (sendAll json sender reqs).2.flatten = stream json (sendAll json sender reqs).1 := by
  induction reqs generalizing sender with
  | nil => rfl
  | cons req reqs ih => exact congrArg (_ ++ ·) (ih _)

end

/-! ### Calls of the reader -/

variable {β κ K : Type} [Field K] [LinearOrder K] (json : JsonCodec β) (self : AceCommun κ K)
variable (eventtime : K) (raw : List UInt8) (fits : raw.length ≤ 4096)

/-- A call that completes a frame. -/
theorem reader_frame {o : AceObject β} (hsize : (json.marshal o).length ≤ 4089)
    (h : self.readBuffer ++ raw = frameV1 (json.marshal o) ++ rest) :
    reader json self eventtime (.bytes raw fits) =
      .ok ({ self with
              readBuffer := rest
              callbackMap := forget self.callbackMap (json.wire o) },
        { decoded := some (json.marshal o)
          call := (waitsFor self.callbackMap (json.wire o)).map fun cb => (cb, json.wire o) }) := by
  have hlen := length_frameV1 (json.marshal o)
  have hsome : ¬ (raw.length = 0 ∧ self.readBuffer.length = 0) := by
    have htotal := congrArg List.length h
    rw [length_append, length_append, hlen, minFrameSize] at htotal
    omega
  have hframe : ¬ (frameV1 (json.marshal o)).length = 0 := by
    rw [hlen, minFrameSize]
    omega
  rw [reader, if_neg hsome, h, takeFrame_append hsize]
  dsimp only
  rw [if_neg hframe, checkFrame_frameV1 hsize]
  exact handlePayload_marshal json _ o

/-- A call that leaves a part of a frame in the buffer, or nothing. -/
theorem reader_wait {buf : List UInt8} (h : self.readBuffer ++ raw = buf)
    (hbuf : takeFrame buf = ([], buf)) :
    ∃ log : ReaderLog κ β, log.decoded = none ∧ log.call = none ∧
      reader json self eventtime (.bytes raw fits) =
        .ok ({ self with readBuffer := buf }, log) := by
  rw [reader]
  by_cases hempty : raw.length = 0 ∧ self.readBuffer.length = 0
  · have hnil : self.readBuffer = buf := by
      rw [← h, eq_nil_of_length_eq_zero hempty.1, append_nil]
    rw [if_pos hempty, ← hnil]
    exact ⟨_, rfl, rfl, rfl⟩
  · rw [if_neg hempty, h, hbuf]
    dsimp only
    exact ⟨_, rfl, rfl, rfl⟩

/-! ### Streams of frames -/

/-- The reads take the reader from `self` to `self'` and deliver the objects `os`: their texts are
decoded one after the other, and each goes to the callback that waits for it then. -/
def Delivers (self self' : AceCommun κ K) (reads : List (K × ReadResult))
    (os : List (AceObject β)) : Prop :=
  ∃ logs : List (ReaderLog κ β), readAll json self reads = .ok (self', logs) ∧
    logs.filterMap (·.decoded) = os.map json.marshal ∧
    logs.filterMap (·.call) = pendingCalls self.callbackMap (os.map json.wire) ∧
    self'.callbackMap = (os.map json.wire).foldl forget self.callbackMap

theorem Delivers.nil : Delivers json self self [] [] := ⟨[], rfl, rfl, rfl, rfl⟩

variable {json self} {reads reads' : List (K × ReadResult)} {self₁ self₂ : AceCommun κ K}

theorem readAll_append {logs logs' : List (ReaderLog κ β)}
    (h : readAll json self reads = .ok (self₁, logs))
    (h' : readAll json self₁ reads' = .ok (self₂, logs')) :
    readAll json self (reads ++ reads') = .ok (self₂, logs ++ logs') := by
  induction reads generalizing self logs with
  | nil =>
    cases h
    exact h'
  | cons r reads ih =>
    obtain ⟨⟨self₀, log⟩, hr, h⟩ := bind_eq_ok h
    obtain ⟨⟨self₃, logs₃⟩, hrest, h⟩ := bind_eq_ok h
    cases h
    rw [cons_append, readAll, hr]
    show (readAll json self₀ (reads ++ reads') >>= _) = _
    rw [ih hrest]
    rfl

theorem pendingCalls_append (waits : ℤ → Option κ) (os os' : List (AceObject β)) :
    pendingCalls waits (os ++ os') =
      pendingCalls waits os ++ pendingCalls (os.foldl forget waits) os' := by
  induction os generalizing waits with
  | nil => rfl
  | cons o os ih =>
    rw [cons_append, pendingCalls, pendingCalls, ih, foldl_cons, append_assoc]

theorem Delivers.append {os os' : List (AceObject β)} (h : Delivers json self self₁ reads os)
    (h' : Delivers json self₁ self₂ reads' os') :
    Delivers json self self₂ (reads ++ reads') (os ++ os') := by
  obtain ⟨logs, hrun, hdecodes, hcalls, hend⟩ := h
  obtain ⟨logs', hrun', hdecodes', hcalls', hend'⟩ := h'
  refine ⟨logs ++ logs', readAll_append hrun hrun', ?_, ?_, ?_⟩
  · rw [filterMap_append, hdecodes, hdecodes', map_append]
  · rw [filterMap_append, hcalls, hcalls', map_append, pendingCalls_append, hend]
  · rw [hend', hend, map_append, foldl_append]

variable {os : List (AceObject β)}

/-- The first read completes a frame. -/
theorem Delivers.frame {self₁ self' : AceCommun κ K} {log : ReaderLog κ β} {o : AceObject β}
    {reads : List (K × ReadResult)} {r : ReadResult}
    (hr : reader json self eventtime r = .ok (self₁, log))
    (hdecoded : log.decoded = some (json.marshal o))
    (hcall : log.call = (waitsFor self.callbackMap (json.wire o)).map fun cb => (cb, json.wire o))
    (hmap : self₁.callbackMap = forget self.callbackMap (json.wire o))
    (h : Delivers json self₁ self' reads os) :
    Delivers json self self' ((eventtime, r) :: reads) (o :: os) := by
  obtain ⟨logs, hrun, hdecodes, hcalls, hend⟩ := h
  refine ⟨log :: logs, ?_, ?_, ?_, ?_⟩
  · rw [readAll, hr]
    show (readAll json self₁ reads >>= _) = _
    rw [hrun]
    rfl
  · rw [filterMap_cons_some hdecoded, hdecodes, map_cons]
  · rw [map_cons, pendingCalls, ← hmap, ← hcalls, ← hcall, filterMap_cons]
    cases log.call <;> rfl
  · rw [hend, hmap, map_cons, foldl_cons]

/-- The first read completes nothing. -/
theorem Delivers.wait {self₁ self' : AceCommun κ K} {log : ReaderLog κ β}
    {reads : List (K × ReadResult)} {r : ReadResult}
    (hr : reader json self eventtime r = .ok (self₁, log)) (hdecoded : log.decoded = none)
    (hcall : log.call = none) (hmap : self₁.callbackMap = self.callbackMap)
    (h : Delivers json self₁ self' reads os) :
    Delivers json self self' ((eventtime, r) :: reads) os := by
  obtain ⟨logs, hrun, hdecodes, hcalls, hend⟩ := h
  refine ⟨log :: logs, ?_, ?_, ?_, ?_⟩
  · rw [readAll, hr]
    show (readAll json self₁ reads >>= _) = _
    rw [hrun]
    rfl
  · rw [filterMap_cons_none hdecoded, hdecodes]
  · rw [filterMap_cons_none hcall, hcalls, hmap]
  · rw [hend, hmap]

variable (json)

def chunkRead (c : K × { raw : List UInt8 // raw.length ≤ 4096 }) : K × ReadResult :=
  (c.1, .bytes c.2.1 c.2.2)

def emptyRead (eventtime : K) : K × ReadResult := (eventtime, .bytes [] (zero_le _))

/-- Empty reads take the frames that are in the buffer, one each. -/
theorem readAll_empty {self : AceCommun κ K} (hsize : ∀ o ∈ os, (json.marshal o).length ≤ 4089)
    (hbuf : self.readBuffer = stream json os) (idle : List K) (hidle : os.length ≤ idle.length) :
    ∃ self', Delivers json self self' (idle.map emptyRead) os ∧ self'.readBuffer = [] := by
  induction idle generalizing os self with
  | nil =>
    obtain rfl : os = [] := eq_nil_of_length_eq_zero (le_zero.mp hidle)
    exact ⟨self, .nil json self, hbuf⟩
  | cons t idle ih =>
    rcases os with _ | ⟨o, os⟩
    · have hempty : self.readBuffer ++ [] = [] := by rw [hbuf]; rfl
      obtain ⟨log, hdecoded, hcall, hr⟩ :=
        reader_wait json self t [] (zero_le _) hempty rfl
      obtain ⟨self', h, hend⟩ := ih (by simp) (show AceCommun.readBuffer
        { self with readBuffer := [] } = stream json [] from rfl) (zero_le _)
      exact ⟨self', .wait t hr hdecoded hcall rfl h, hend⟩
    · have hframe : self.readBuffer ++ [] = frameV1 (json.marshal o) ++ stream json os := by
        rw [append_nil, hbuf]
        rfl
      have hr := reader_frame json self t [] (zero_le _) (hsize o (by simp)) hframe
      obtain ⟨self', h, hend⟩ := ih (fun x hx => hsize x (by simp [hx]))
        (show AceCommun.readBuffer { self with
            readBuffer := stream json os
            callbackMap := forget self.callbackMap (json.wire o) } = stream json os from rfl)
        (le_of_succ_le_succ hidle)
      exact ⟨self', .frame t hr rfl rfl rfl h, hend⟩

/-- Reads of a stream of frames, cut anywhere: some of the requests are delivered, and the frames of
the others are what the buffer holds then. -/
theorem readAll_chunks {self : AceCommun κ K} (hsize : ∀ o ∈ os, (json.marshal o).length ≤ 4089)
    {chunks : List (K × { raw : List UInt8 // raw.length ≤ 4096 })}
    (hbuf : self.readBuffer ++ (chunks.map (·.2.1)).flatten = stream json os) :
    ∃ self' done left, os = done ++ left ∧ Delivers json self self' (chunks.map chunkRead) done ∧
      self'.readBuffer = stream json left := by
  induction chunks generalizing os self with
  | nil =>
    refine ⟨self, [], os, rfl, .nil json self, ?_⟩
    rw [← hbuf]
    exact (append_nil _).symm
  | cons c chunks ih =>
    obtain ⟨t, raw, fits⟩ := c
    have hcut : self.readBuffer ++ raw ++ (chunks.map (·.2.1)).flatten = stream json os := by
      rw [append_assoc]
      exact hbuf
    -- a frame is complete, or the buffer is a part of the next one
    by_cases hframe : ∃ o rest, os = o :: rest ∧
        (frameV1 (json.marshal o)).length ≤ (self.readBuffer ++ raw).length
    · obtain ⟨o, os, rfl, hlong⟩ := hframe
      have hstream : stream json (o :: os) = frameV1 (json.marshal o) ++ stream json os := rfl
      obtain ⟨rest, hrest⟩ := prefix_of_prefix_length_le
        ⟨_, hstream.symm⟩ ⟨_, hcut⟩ hlong
      have hr := reader_frame json self t raw fits (hsize o (by simp)) hrest.symm
      rw [← hrest, hstream, append_assoc] at hcut
      obtain ⟨self', done, left, rfl, h, hend⟩ := ih (fun x hx => hsize x (by simp [hx]))
        (show AceCommun.readBuffer { self with
            readBuffer := rest
            callbackMap := forget self.callbackMap (json.wire o) } ++ _ = _ from
          append_cancel_left hcut)
      exact ⟨self', o :: done, left, rfl, .frame t hr rfl rfl rfl h, hend⟩
    · have hnone : takeFrame (self.readBuffer ++ raw) = ([], self.readBuffer ++ raw) := by
        rcases os with _ | ⟨o, os⟩
        · rw [(eq_nil_of_append_eq_nil hcut).1]
          rfl
        · refine takeFrame_short (hsize o (by simp)) ⟨_, hcut⟩ ?_
          exact Nat.lt_of_not_le fun hlong => hframe ⟨o, os, rfl, hlong⟩
      obtain ⟨log, hdecoded, hcall, hr⟩ := reader_wait json self t raw fits rfl hnone
      obtain ⟨self', done, left, rfl, h, hend⟩ := ih hsize
        (show AceCommun.readBuffer { self with readBuffer := self.readBuffer ++ raw } ++ _ = _ from
          hcut)
      exact ⟨self', done, left, rfl, .wait t hr hdecoded hcall rfl h, hend⟩

/-- The frames of any requests, read in any chunks and then with empty reads, one for each
request at least: the text of every request is decoded once and in order and goes to the callback
that waits for its id, and nothing is left in the buffer.  The id is that of the request, up to the
numbers that a float holds. -/
theorem reader_delivers (sender : AceCommun κ K) (reqs : List (AceObject β))
    (hsize : ∀ o ∈ (sendAll json sender reqs).1, (json.marshal o).length ≤ 4089)
    (self : AceCommun κ K) (hbuf : self.readBuffer = [])
    (chunks : List (K × { raw : List UInt8 // raw.length ≤ 4096 }))
    (hchunks : (chunks.map (·.2.1)).flatten = (sendAll json sender reqs).2.flatten)
    (idle : List K) (hidle : reqs.length ≤ idle.length) :
    ∃ self', Delivers json self self' (chunks.map chunkRead ++ idle.map emptyRead)
        (sendAll json sender reqs).1 ∧ self'.readBuffer = [] ∧
      ∀ o ∈ (sendAll json sender reqs).1, ∀ n : ℤ, o.id = some (.int n) → n.natAbs ≤ 2 ^ 53 →
        (json.wire o).requestId = some n := by
  have hstream : self.readBuffer ++ (chunks.map (·.2.1)).flatten =
      stream json (sendAll json sender reqs).1 := by
    rw [hbuf, nil_append, hchunks, flatten_sendAll]
  have hcount := length_sendAll json sender reqs
  generalize (sendAll json sender reqs).1 = os at hsize hstream hcount ⊢
  obtain ⟨self₁, done, left, rfl, hdone, hleft⟩ := readAll_chunks json hsize hstream
  rw [length_append] at hcount
  obtain ⟨self', hempty, hend⟩ := readAll_empty json
    (fun o ho => hsize o (mem_append_right done ho)) hleft idle (by omega)
  exact ⟨self', hdone.append hempty, hend, fun o _ n => requestId_wire json⟩

/-! ### Requests for the status -/

/-- The numeral of an integer, and its value. -/
def intText (n : ℤ) : List Char :=
  if 0 ≤ n then toDigits 10 n.toNat else '-' :: toDigits 10 (-n).toNat

def intValue (text : List Char) : ℤ :=
  if text.head? = some '-' then -ofDigitChars 10 text.tail 0 else ofDigitChars 10 text 0

theorem intValue_intText (n : ℤ) : intValue (intText n) = n := by
  unfold intText intValue
  split
  · have hhead : (toDigits 10 n.toNat).head? ≠ some '-' := fun h =>
      Decimal.sign_notMem_toDigits _ (mem_of_mem_head? h)
    rw [if_neg hhead, ofDigitChars_toDigits (by decide) (by decide)]
    omega
  · rw [head?_cons, if_pos rfl, tail_cons, ofDigitChars_toDigits (by decide) (by decide)]
    omega

/-- A character of a numeral is one byte, and no comma. -/
theorem toNat_of_mem_intText {n : ℤ} {c : Char} (h : c ∈ intText n) :
    (ofNat c.toNat : UInt8).toNat = c.toNat ∧ c.toNat ≠ 44 := by
  have hchar : c = '-' ∨ c.isDigit := by
    unfold intText at h
    split at h
    · exact .inr (isDigit_of_mem_toDigits (by decide) (by decide) h)
    · rcases mem_cons.mp h with rfl | h
      · exact .inl rfl
      · exact .inr (isDigit_of_mem_toDigits (by decide) (by decide) h)
  rcases hchar with rfl | hdigit
  · decide
  · have hrange : 48 ≤ c.toNat ∧ c.toNat ≤ 57 := by
      simpa [Char.isDigit, UInt32.le_iff_toNat_le] using hdigit
    rw [toNat_ofNat']
    omega

/-- The bytes of a text of ASCII characters. -/
def asciiBytes (text : List Char) : List UInt8 := text.map fun c => ofNat c.toNat

def idKey : List UInt8 := asciiBytes "\x7b\"id\":".toList

/-- JSON for the requests for the status, `method` being their only key beside an integer `id`: the
text has its keys in order. -/
def statusCodec : JsonCodec Unit where
  marshal o :=
    match o.id with
    | some (.int n) =>
      idKey ++ asciiBytes (intText n) ++ asciiBytes ",\"method\":\"get_status\"\x7d".toList
    | _ => asciiBytes "\x7b\"method\":\"get_status\"\x7d".toList
  unmarshal bs :=
    if idKey <+: bs then
      let text := (bs.drop idKey.length).takeWhile (· ≠ 44)
      some ⟨some (.float (intValue (text.map fun b => Char.ofNat b.toNat))), ()⟩
    else some ⟨none, ()⟩
  wire o :=
    match o.id with
    | some (.int n) => ⟨some (.float n), ()⟩
    | _ => ⟨none, ()⟩
  unmarshal_marshal o := by
    rcases o with ⟨_ | ⟨n⟩ | _ | _, _⟩
    · rfl
    · have hcomma : ∀ b ∈ asciiBytes (intText n), decide (b ≠ 44) = true := by
        intro b hb
        obtain ⟨c, hc, rfl⟩ := mem_map.mp hb
        obtain ⟨hbyte, hne⟩ := toNat_of_mem_intText hc
        exact decide_eq_true fun h => hne (hbyte.symm.trans (congrArg UInt8.toNat h))
      have hback : (asciiBytes (intText n)).map (fun b => Char.ofNat b.toNat) = intText n := by
        rw [asciiBytes, map_map]
        refine (map_congr_left fun c hc => ?_).trans (map_id _)
        rw [Function.comp_apply, (toNat_of_mem_intText hc).1, Char.ofNat_toNat, id]
      simp only [append_assoc, if_pos (prefix_append _ _), drop_left]
      rw [takeWhile_append_of_pos hcomma, map_append, hback]
      -- the text after the numeral begins with a comma
      exact congrArg (fun v : ℤ => some (⟨some (.float v), ()⟩ : AceObject Unit))
        ((congrArg intValue (append_nil _)).trans (intValue_intText n))
    · rfl
    · rfl
  wire_id o n hid _ := by simp [hid]

example : statusCodec.marshal ⟨some (.int 12), ()⟩ =
    asciiBytes "\x7b\"id\":12,\"method\":\"get_status\"\x7d".toList := by decide +kernel

/-- Two requests in three chunks, both of them cut in their middle. -/
theorem reader_delivers_two :
    let sender : AceCommun String ℚ := ⟨1, 0, [], fun _ => none, false⟩
    let self : AceCommun String ℚ :=
      ⟨0, 0, [], fun n => if n = 1 then some "one" else none, true⟩
    let reqs : List (AceObject Unit) := [⟨none, ()⟩, ⟨none, ()⟩]
    ∃ c₁ c₂ c₃ : { raw : List UInt8 // raw.length ≤ 4096 }, ∃ self',
      Delivers statusCodec self self'
        ([(0, c₁), (1, c₂), (2, c₃)].map chunkRead ++ [3, 4].map emptyRead)
        (sendAll statusCodec sender reqs).1 ∧ self'.readBuffer = [] := by
  intro sender self reqs
  let bytes := (sendAll statusCodec sender reqs).2.flatten
  let c₁ : { raw : List UInt8 // raw.length ≤ 4096 } := ⟨bytes.take 20, by decide +kernel⟩
  let c₂ : { raw : List UInt8 // raw.length ≤ 4096 } := ⟨(bytes.drop 20).take 30, by decide +kernel⟩
  let c₃ : { raw : List UInt8 // raw.length ≤ 4096 } := ⟨bytes.drop 50, by decide +kernel⟩
  obtain ⟨self', h, hend, -⟩ := reader_delivers statusCodec sender reqs (by decide +kernel) self rfl
    [(0, c₁), (1, c₂), (2, c₃)] (by decide +kernel) [3, 4] (by decide)
  exact ⟨c₁, c₂, c₃, self', h, hend⟩

end Filament
