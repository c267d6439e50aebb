/-
The send side of a web hook client.

`Send` sanitizes and encodes a message, puts it followed by one `0x03` byte into
the send buffer and, unless the socket is known to block, writes the buffer.  What
the socket leaves is written by the next write-ready callback (`doSend`).  The
socket is an environment: a `WriteOutcome` says how much of a write it takes and
which error it reports, and `accepted` collects the bytes it took.

* `step_intact_iff` — a step neither loses nor repeats a byte exactly if a message
  finds the buffer empty and a write that reports an error took nothing;
* `delivered_iff_fits` — so a schedule delivers its messages intact exactly if each
  of its events fits the number of bytes still outstanding before it.
-/
import KlipperGo.Runs
import Mathlib.Data.Rat.Defs

open List

namespace Webhooks

abbrev Bytes := List UInt8

/-! ### Messages and their encoding -/

/-- A value handed to `Send`.  A `dict` is a `map[string]interface{}`, its fields in
the order of their keys; `other` is a value of any other type, with the text that
`json.Marshal` makes of it, if it does not refuse. -/
inductive GoValue where
  | null
  | nonFinite
  | number (x : ℚ)
  | text (s : String)
  | list (items : List GoValue)
  | dict (fields : List (String × GoValue))
  | other (json : Option Bytes)

structure JsonTexts where
  number : ℚ → Bytes
  quote : String → Bytes

namespace GoValue

def isNull : GoValue → Bool
  | null => true
  | _ => false

mutual

/-- A float that JSON has no text for becomes `null`, wherever it stands. -/
def sanitizeJSONValue : GoValue → GoValue
  | nonFinite => null
  | list items => list (sanitizeItems items)
  | dict fields => dict (sanitizeFields fields)
  | value => value

def sanitizeItems : List GoValue → List GoValue
  | [] => []
  | item :: items => sanitizeJSONValue item :: sanitizeItems items

def sanitizeFields : List (String × GoValue) → List (String × GoValue)
  | [] => []
  | field :: fields => sanitizeField field :: sanitizeFields fields

def sanitizeField : String × GoValue → String × GoValue
  | (k, item) => (k, sanitizeJSONValue item)

end

mutual

/-- `json.Marshal`, which refuses a value that holds one it has no text for. -/
def marshal (texts : JsonTexts) : GoValue → Option Bytes
  | null => some [0x6e, 0x75, 0x6c, 0x6c]
  | nonFinite => none
  | number x => some (texts.number x)
  | text s => some (texts.quote s)
  | list items => (marshalItems texts items).map fun ts => [0x5b] ++ [0x2c].intercalate ts ++ [0x5d]
  | dict fields =>
    (marshalFields texts fields).map fun ts => [0x7b] ++ [0x2c].intercalate ts ++ [0x7d]
  | other json => json

def marshalItems (texts : JsonTexts) : List GoValue → Option (List Bytes)
  | [] => some []
  | item :: items => do
    let t ← marshal texts item
    let ts ← marshalItems texts items
    return t :: ts

def marshalFields (texts : JsonTexts) : List (String × GoValue) → Option (List Bytes)
  | [] => some []
  | field :: fields => do
    let t ← marshalField texts field
    let ts ← marshalFields texts fields
    return t :: ts

def marshalField (texts : JsonTexts) : String × GoValue → Option Bytes
  | (k, item) => (marshal texts item).map fun t => texts.quote k ++ [0x3a] ++ t

end

end GoValue

variable (texts : JsonTexts)

/-- What `Send` puts into the buffer for a message: nothing for `nil` and for a message
that cannot be encoded. -/
def encode (data : GoValue) : Option Bytes :=
  if data.isNull then none
  else (data.sanitizeJSONValue.marshal texts).map fun jmsg => jmsg ++ [0x03]

/-! ### The client and its socket -/

inductive WriteError where
  | eof
  | other
  deriving DecidableEq

/-- What the socket does with a write: it takes at most `room` bytes, and it may report
an error. -/
structure WriteOutcome where
  room : ℕ
  err : Option WriteError

/-- A `ClientConnection`.  `isOpen` says that the file handle is set, `wakeRead` and
`wakeWrite` what the reactor wakes the client for.  `accepted` are the bytes that the
socket has taken, `sent` the messages that were put into the send buffer. -/
structure Client where
  isOpen : Bool
  isBlocking : Bool
  blockingCount : ℤ
  wakeRead : Bool
  wakeWrite : Bool
  sendBuffer : Bytes
  accepted : Bytes
  sent : List GoValue

def newClientConnection : Client where
  isOpen := true
  isBlocking := false
  blockingCount := 0
  wakeRead := true
  wakeWrite := false
  sendBuffer := []
  accepted := []
  sent := []

namespace Client

variable (c : Client) (w : WriteOutcome)

def taken : ℕ := min w.room c.sendBuffer.length

def close : Client := { c with isOpen := false }

/-- The end of `doSend`, from the count of bytes it goes on with. -/
def consume (sent : ℕ) : Client :=
  let c' :=
    if sent < c.sendBuffer.length then
      if c.isBlocking then c
      -- until all is written the client is woken for the socket, not for requests
      else { c with wakeRead := false, wakeWrite := true, isBlocking := true, blockingCount := 5 }
    else if c.isBlocking then { c with wakeRead := true, wakeWrite := false, isBlocking := false }
    else c
  { c' with sendBuffer := c.sendBuffer.drop sent }

/-- Write the send buffer to the socket.  An error other than the end of the connection
counts as nothing sent. -/
def doSend : Client :=
  if !c.isOpen then c
  else
    let sent := c.taken w
    let c' := { c with accepted := c.accepted ++ c.sendBuffer.take sent }
    match w.err with
    | some .eof => c'.close
    -- the bytes that the socket took before the error stay in the buffer
    | some .other => c'.consume 0
    | none => c'.consume sent

/-- `Send`: the message replaces what is in the buffer. -/
def send (data : GoValue) (w : WriteOutcome) : Client :=
  match encode texts data with
  | none => c
  | some jmsg =>
    -- what is left of an earlier message is dropped
    let c' := { c with sendBuffer := jmsg, sent := c.sent ++ [data] }
    if c.isBlocking then c' else c'.doSend w

end Client

/-- A call of `Send`, with what the socket does if it is written to, or the write-ready
callback of the reactor. -/
inductive Event where
  | send (data : GoValue) (w : WriteOutcome)
  | writeReady (w : WriteOutcome)

/-- The write of the event, if there is one, does not find the connection at its end. -/
def Event.KeepsOpen : Event → Prop
  | .send _ w => w.err ≠ some .eof
  | .writeReady w => w.err ≠ some .eof

/-- The bytes that the event asks to be delivered. -/
def Event.bytes : Event → Bytes
  | .send data _ => (encode texts data).getD []
  | .writeReady _ => []

/-- The reactor runs the write-ready callback only if it was asked to wake for it. -/
def Client.step (c : Client) : Event → Client
  | .send data w => c.send texts data w
  | .writeReady w => if c.wakeWrite then c.doSend w else c

variable (es : List Event) (w : WriteOutcome) (len n : ℕ)

/-- The concatenation, in order, of the encoded messages, each with its `0x03`. -/
def expected : Bytes := (es.map (Event.bytes texts)).flatten

/-- **The contract of the send side**, for the run `es` of a new client: at every point the
accepted bytes are a prefix of the encoded messages, and if the socket then takes all that
is left, all of them have been written. -/
def DeliversIntact : Prop :=
  ∀ done, done <+: es →
    let c := Runs.final (Client.step texts) newClientConnection done
    c.accepted <+: expected texts done ∧
      (c.step texts (.writeReady ⟨c.sendBuffer.length, none⟩)).accepted = expected texts done

/-! ### Which schedules are safe -/

/-- A write of `len` bytes does not report an error for bytes that the socket took. -/
def WriteOutcome.Honest : Prop := w.err = none ∨ min w.room len = 0

/-- The bytes that a write of `len` bytes leaves. -/
def WriteOutcome.left : ℕ :=
  if w.err = none then len - min w.room len else len

/-- With `n` bytes outstanding, the event is no message that comes too early, and its
write does not report an error for bytes that were taken. -/
def Event.Fits : Event → Prop
  | .send data w => ∀ jmsg, encode texts data = some jmsg → n = 0 ∧ w.Honest jmsg.length
  | .writeReady w => w.Honest n

def Event.outstanding : Event → ℕ
  | .send data w => ((encode texts data).map fun jmsg => w.left jmsg.length).getD n
  | .writeReady w => w.left n

/-! ### One step -/

theorem encode_ne_nil {data : GoValue} {jmsg : Bytes} (h : encode texts data = some jmsg) :
    jmsg ≠ [] := by
  unfold encode at h
  split at h
  · cases h
  · obtain ⟨t, -, rfl⟩ := Option.map_eq_some_iff.mp h
    simp

namespace Client

/-- The client is open, and it asks to be woken for writing while bytes are left. -/
structure Steady (c : Client) : Prop where
  isOpen : c.isOpen = true
  wakes : c.wakeWrite = c.isBlocking
  blocks : c.isBlocking = true ↔ c.sendBuffer ≠ []

/-- No byte of `x` is lost and none is repeated. -/
def Intact (c : Client) (x : Bytes) : Prop := c.accepted ++ c.sendBuffer = x

variable {texts} {c : Client} {w : WriteOutcome} {x : Bytes}

@[simp] theorem consume_accepted (n : ℕ) : (c.consume n).accepted = c.accepted := by
  unfold consume
  split_ifs <;> rfl

@[simp] theorem consume_sendBuffer (n : ℕ) : (c.consume n).sendBuffer = c.sendBuffer.drop n := rfl

@[simp] theorem consume_isOpen (n : ℕ) : (c.consume n).isOpen = c.isOpen := by
  unfold consume
  split_ifs <;> rfl

section

variable (hopen : c.isOpen = true)
include hopen

theorem consume_steady (hwakes : c.wakeWrite = c.isBlocking) (n : ℕ) : (c.consume n).Steady := by
  refine ⟨by rw [consume_isOpen, hopen], ?_, ?_⟩
  · unfold consume
    split_ifs <;> first | rfl | exact hwakes
  · unfold consume
    -- the flag is set exactly if something is left
    split_ifs with hn hb hb <;> simp_all

/-- On an open client `doSend` goes on with the count it trusts. -/
theorem doSend_eq (hw : w.err ≠ some .eof) :
    c.doSend w = ({ c with accepted := c.accepted ++ c.sendBuffer.take (c.taken w) }).consume
      (if w.err = none then c.taken w else 0) := by
  unfold doSend
  rw [hopen]
  match hwe : w.err with
  | none => rfl
  | some .eof => exact absurd hwe hw
  | some .other => rfl

theorem doSend_steady (hwakes : c.wakeWrite = c.isBlocking)
    (hw : w.err ≠ some .eof) : (c.doSend w).Steady := by
  rw [doSend_eq hopen hw]
  apply consume_steady
  · exact hopen
  · exact hwakes

theorem doSend_intact_iff (hw : w.err ≠ some .eof) (hc : c.Intact x) :
    (c.doSend w).Intact x ↔ w.Honest c.sendBuffer.length := by
  have hle : c.taken w ≤ c.sendBuffer.length := min_le_right _ _
  rw [doSend_eq hopen hw, Intact, consume_accepted, consume_sendBuffer, ← hc,
    WriteOutcome.Honest, append_assoc, append_cancel_left_eq]
  by_cases hn : w.err = none
  · simp [hn]
  · -- the bytes that were taken stay in the buffer, so there must be none
    rw [if_neg hn, drop_zero, append_left_eq_self, take_eq_nil_iff]
    simp only [hn, false_or]
    constructor
    · rintro (h | h)
      · exact h
      · rw [h] at hle
        exact Nat.le_zero.mp hle
    · exact .inl

theorem doSend_length (hw : w.err ≠ some .eof) :
    (c.doSend w).sendBuffer.length = w.left c.sendBuffer.length := by
  rw [doSend_eq hopen hw, consume_sendBuffer, length_drop, WriteOutcome.left]
  split_ifs <;> rfl

end

theorem doSend_sent (w : WriteOutcome) : (c.doSend w).sent = c.sent := by
  have hconsume : ∀ (c : Client) (n : ℕ), (c.consume n).sent = c.sent := by
    intro c n
    unfold consume
    split_ifs <;> rfl
  unfold doSend
  split_ifs
  · rfl
  · match w.err with
    | none => exact hconsume _ _
    | some .eof => rfl
    | some .other => exact hconsume _ _

/-- A message is sent exactly if it can be encoded. -/
theorem send_sent (texts : JsonTexts) (data : GoValue) (w : WriteOutcome) :
    (c.send texts data w).sent =
      if (encode texts data).isSome then c.sent ++ [data] else c.sent := by
  unfold send
  cases encode texts data with
  | none => rfl
  | some jmsg =>
    by_cases hb : c.isBlocking = true
    · simp [hb]
    · simp [hb, doSend_sent]

/-- A steady client stays so, whether or not its bytes do. -/
theorem step_steady (hc : c.Steady) {e : Event} (he : e.KeepsOpen) : (c.step texts e).Steady := by
  cases e with
  | send data w =>
    change (c.send texts data w).Steady
    unfold send
    split
    · exact hc
    · next jmsg hjmsg =>
      by_cases hb : c.isBlocking = true
      · rw [if_pos hb]
        exact ⟨hc.isOpen, hc.wakes, iff_of_true hb (encode_ne_nil texts hjmsg)⟩
      · rw [if_neg hb]
        exact doSend_steady hc.isOpen hc.wakes he
  | writeReady w =>
    change (if c.wakeWrite then c.doSend w else c).Steady
    split_ifs
    · exact doSend_steady hc.isOpen hc.wakes he
    · exact hc

theorem send_intact_iff (hc : c.Steady) (hw : w.err ≠ some .eof) (hx : c.Intact x)
    {data : GoValue} {jmsg : Bytes} (hjmsg : encode texts data = some jmsg) :
    (c.send texts data w).Intact (x ++ jmsg) ↔
      c.sendBuffer.length = 0 ∧ w.Honest jmsg.length := by
  have hx : c.accepted ++ c.sendBuffer = x := hx
  simp only [send, hjmsg]
  by_cases hb : c.isBlocking = true
  · -- the bytes that were left are replaced by the message
    have hne : c.sendBuffer ≠ [] := hc.blocks.mp hb
    simp [hb, Intact, ← hx, hne]
  · have hnil : c.sendBuffer = [] := by
      by_contra hne
      exact hb (hc.blocks.mpr hne)
    have hsend := doSend_intact_iff (c := { c with sendBuffer := jmsg, sent := c.sent ++ [data] })
      (x := x ++ jmsg) hc.isOpen hw (by rw [Intact, ← hx, hnil, append_nil])
    rw [if_neg hb, hsend]
    simp [hnil]

/-- **One step**: no byte is lost or repeated exactly if the event fits. -/
theorem step_intact_iff (hc : c.Steady) {e : Event} (he : e.KeepsOpen) (hx : c.Intact x) :
    (c.step texts e).Intact (x ++ e.bytes texts) ↔ e.Fits texts c.sendBuffer.length := by
  cases e with
  | send data w =>
    match hjmsg : encode texts data with
    | none => simp [step, send, Event.bytes, Event.Fits, hjmsg, hx]
    | some jmsg =>
      have hiff := send_intact_iff hc he hx hjmsg
      simpa [step, Event.bytes, Event.Fits, hjmsg] using hiff
  | writeReady w =>
    rw [Event.bytes, append_nil]
    change Intact (if c.wakeWrite then c.doSend w else c) x ↔ w.Honest c.sendBuffer.length
    split_ifs with hwake
    · exact doSend_intact_iff hc.isOpen he hx
    · -- nothing is left, so there is nothing to take
      rw [hc.wakes, hc.blocks, not_not] at hwake
      simp [hx, hwake, WriteOutcome.Honest]

theorem step_length (hc : c.Steady) {e : Event} (he : e.KeepsOpen)
    (hfits : e.Fits texts c.sendBuffer.length) :
    (c.step texts e).sendBuffer.length = e.outstanding texts c.sendBuffer.length := by
  cases e with
  | send data w =>
    match hjmsg : encode texts data with
    | none => simp [step, send, Event.outstanding, hjmsg]
    | some jmsg =>
      have hnil : c.sendBuffer = [] := length_eq_zero_iff.mp (hfits jmsg hjmsg).1
      have hb : ¬ c.isBlocking = true := fun hb => hc.blocks.mp hb hnil
      simp only [step, send, hjmsg, if_neg hb, Event.outstanding, Option.map_some, Option.getD_some]
      exact doSend_length hc.isOpen he
  | writeReady w =>
    change (if c.wakeWrite then c.doSend w else c).sendBuffer.length = w.left c.sendBuffer.length
    split_ifs with hwake
    · exact doSend_length hc.isOpen he
    · rw [hc.wakes, hc.blocks, not_not] at hwake
      simp [hwake, WriteOutcome.left]

/-! ### Whole schedules -/

/-- The two parts of the contract at one point say that nothing is lost or repeated. -/
theorem intact_iff (hc : c.Steady) : (c.accepted <+: x ∧
      (c.step texts (.writeReady ⟨c.sendBuffer.length, none⟩)).accepted = x) ↔ c.Intact x := by
  have hflush : (c.step texts (.writeReady ⟨c.sendBuffer.length, none⟩)).accepted =
      c.accepted ++ c.sendBuffer := by
    change (if c.wakeWrite then c.doSend ⟨c.sendBuffer.length, none⟩ else c).accepted = _
    split_ifs with hwake
    · rw [doSend_eq hc.isOpen (by simp), consume_accepted]
      simp [taken]
    · rw [hc.wakes, hc.blocks, not_not] at hwake
      rw [hwake, append_nil]
  rw [hflush]
  constructor
  · intro h
    exact h.2
  · intro h
    exact ⟨⟨c.sendBuffer, h⟩, h⟩

theorem run_intact_iff {es : List Event} (hc : c.Steady) (hes : ∀ e ∈ es, e.KeepsOpen)
    (hx : c.Intact x) :
    (∀ done, done <+: es →
        (Runs.final (step texts) c done).Intact (x ++ expected texts done)) ↔
      Runs.Along (Event.outstanding texts) (Event.Fits texts) c.sendBuffer.length es := by
  induction es generalizing c x with
  | nil => simp [expected, hx]
  | cons e es ih =>
    have he : e.KeepsOpen := hes e mem_cons_self
    have hes' : ∀ e' ∈ es, e'.KeepsOpen := fun e' h => hes e' (mem_cons_of_mem e h)
    have hsteady : (c.step texts e).Steady := step_steady hc he
    have hexpected : ∀ done, x ++ expected texts (e :: done) =
        x ++ e.bytes texts ++ expected texts done := by
      simp [expected]
    rw [Runs.forall_prefix_cons, Runs.along_cons]
    simp only [Runs.final_cons, hexpected]
    constructor
    · rintro ⟨-, h⟩
      -- the messages are intact after the first event, so it fits
      have hx' : (c.step texts e).Intact (x ++ e.bytes texts) := by
        simpa [expected] using h [] nil_prefix
      have hfits := (step_intact_iff hc he hx).mp hx'
      exact ⟨hfits, step_length hc he hfits ▸ (ih hsteady hes' hx').mp h⟩
    · rintro ⟨hfits, h⟩
      have hx' := (step_intact_iff hc he hx).mpr hfits
      rw [← step_length hc he hfits] at h
      exact ⟨by simpa [expected] using hx, (ih hsteady hes' hx').mpr h⟩

end Client

theorem newClientConnection_steady : newClientConnection.Steady where
  isOpen := rfl
  wakes := rfl
  blocks := by simp [newClientConnection]

/-- **Which schedules are delivered intact**: those in which every message finds all earlier
bytes taken, and no write reports an error for bytes that the socket took. -/
theorem delivered_iff_fits {es : List Event} (hes : ∀ e ∈ es, e.KeepsOpen) :
    DeliversIntact texts es ↔ Runs.Along (Event.outstanding texts) (Event.Fits texts) 0 es := by
  have hrun : _ ↔ Runs.Along (Event.outstanding texts) (Event.Fits texts) 0 es :=
    Client.run_intact_iff (x := []) newClientConnection_steady hes rfl
  rw [← hrun]
  refine forall_congr' fun done => imp_congr_right fun hdone => ?_
  have hdone' : ∀ e ∈ done, e.KeepsOpen := fun e h => hes e (hdone.subset h)
  have hsteady : (Runs.final (Client.step texts) newClientConnection done).Steady :=
    Runs.final_of_invariant (I := Client.Steady) (G := fun _ e => e.KeepsOpen)
      (fun _ _ hc he => Client.step_steady hc he) newClientConnection_steady
      (Runs.along_of_forall hdone')
  exact Client.intact_iff hsteady

/-- Two messages, the second one sent when the first is written to its last byte. -/
def hasty : List Event :=
  [.send (.other (some [0x31])) ⟨1, none⟩, .send (.other (some [0x32])) ⟨0, none⟩,
    .writeReady ⟨2, none⟩]

/-- The same messages, the second one sent when the first is written. -/
def patient : List Event :=
  [.send (.other (some [0x31])) ⟨1, none⟩, .writeReady ⟨1, none⟩,
    .send (.other (some [0x32])) ⟨2, none⟩]

theorem hasty_not_delivered : ¬ DeliversIntact ⟨fun _ => [], fun _ => []⟩ hasty := by
  intro h
  -- the last byte of the first message is missing: `31 32 03` against `31 03 32 03`
  have hprefix := (h hasty prefix_rfl).1
  exact absurd hprefix (by decide)

theorem patient_delivered : DeliversIntact ⟨fun _ => [], fun _ => []⟩ patient := by
  have hopen : ∀ e ∈ patient, e.KeepsOpen := by simp [patient, Event.KeepsOpen]
  rw [delivered_iff_fits _ hopen]
  refine ⟨?_, ?_, ?_, trivial⟩
  · intro jmsg _
    exact ⟨rfl, .inl rfl⟩
  · exact .inl rfl
  · intro jmsg _
    exact ⟨rfl, .inl rfl⟩

end Webhooks
