/-
The parser of received messages
(`internal/pkg/msgproto/msgproto.go`, `common/logger/logger.go`).

A message is looked up by the id it carries, and its format decodes it.  A
string that is cut off sends the decoder back to the start of the frame, the
decoder skips as many bytes as its own encoding of the id has, and the check of
the end position is silent when no logger is installed.

* `parse_ok` — what a parameter's decoder did to the position;
* `decodedFrom_iff` — the decoder goes over consecutive bytes up to the trailer
  exactly when the parameters are laid out up to it.
-/
import KlipperGo.MsgBlock
import KlipperGo.MsgFormat

open GoRuntime Outcome List

namespace Msgproto

def messageHeaderSize : ℕ := 2

/-- `logger.Panicf`: without a logger the call does nothing. -/
def panicf (logger : Bool) (text : String) : Except Panic Unit :=
  if logger then throw (.value [text]) else return ()

structure OutputFormat where
  msgidBytes : List ℕ
  msgformat : String
  paramTypes : List BaseType

/-- The entries of `Messages_by_id`. -/
inductive Format where
  | message (f : MessageFormat)
  | output (f : OutputFormat)

/-- The map `Parse` returns. -/
inductive ParsedParams where
  | named (params : String → Option Value)
  | output (msg : List Value)
  | unknown (msgid : Value) (msg : List ℕ)

structure Parsed where
  name : String
  params : ParsedParams

/-- `UnknownFormat.Parse`; its integer decoder is unsigned. -/
def unknownParse (s : List ℕ) (pos : ℕ) : Except Panic (ParsedParams × ℤ) := do
  let (msgid, _) ← BaseType.parseInt false s pos
  let msgid ← if s.length = pos + 1 then (fun b : ℕ => Value.int b) <$> index s pos
    else pure msgid
  return (.unknown msgid s, (s.length : ℤ) - messageTrailerSize)

structure MessageParser where
  enumerations : List (String × List (String × Value))
  messagesById : ℤ → Option Format
  messagesByName : String → Option MessageFormat
  version : String
  buildVersions : String

/-- What `MessageParser.Parse` dispatches to.  An output format does not have the methods of
`IMessageFormat`, so the assertion to that interface fails. -/
def MessageParser.parseAs (format : Option Format) (s : List ℕ) : Except Panic (Parsed × ℤ) :=
  match format with
  | none => do
    let (params, pos) ← unknownParse s messageHeaderSize
    return (⟨"#unknown", params⟩, pos)
  | some (.message f) => do
    let (params, pos) ← f.parse s messageHeaderSize
    return (⟨f.name, .named params⟩, pos)
  | some (.output _) => throw .typeAssertion

/-- The check of the end position in `MessageParser.Parse`. -/
def MessageParser.checkEnd (logger : Bool) (pos : ℤ) (s : List ℕ) : Except Panic Unit :=
  if pos ≠ (s.length : ℤ) - messageTrailerSize then
    panicf logger "Extra data at end of message"
  else return ()

variable (self : MessageParser)

def MessageParser.parse (logger : Bool) (s : List ℕ) : Except Panic Parsed := do
  let (msgid, _) ← Vlq.decode s messageHeaderSize
  let (parsed, pos) ← MessageParser.parseAs (self.messagesById msgid) s
  MessageParser.checkEnd logger pos s
  return parsed

/-! ### What a parameter reads -/

/-- The bytes a parameter takes at the head of the input; none where it is cut off. -/
def BaseType.size (t : BaseType) (bs : List ℕ) : Option ℕ :=
  if t.isString then
    match bs with
    | [] => none
    | l :: rest => if l ≤ rest.length then some (l + 1) else none
  else Vlq.size bs

def PT.baseType : PT → BaseType
  | base t => t
  | enumeration e => e.pt

variable {s : List ℕ}

theorem parseString_ok {pos : ℕ} {v : Value} {next : ℕ}
    (h : BaseType.parseString s pos = .ok (v, next)) :
    ∃ l rest, s.drop pos = l :: rest ∧
      (l ≤ rest.length ∧ next = pos + (l + 1) ∧ v = .ints (rest.take l) ∨
        rest.length < l ∧ next = 0) := by
  obtain ⟨l, hl, h⟩ := bind_eq_ok h
  have hdrop := drop_of_index hl
  have hlen : s.length - pos = (s.drop (pos + 1)).length + 1 := by
    rw [← length_drop, hdrop, length_cons]
  refine ⟨l, s.drop (pos + 1), hdrop, ?_⟩
  split at h
  · next hcut =>
    cases h
    exact .inr ⟨by omega, rfl⟩
  · next hfit =>
    obtain ⟨b, hb, h⟩ := bind_eq_ok h
    cases h
    refine .inl ⟨by omega, rfl, ?_⟩
    rw [eq_of_slice hb, drop_take]
    congr 2
    omega

theorem BaseType.parse_ok {t : BaseType} {pos : ℕ} {v : Value} {next : ℕ}
    (h : t.parse s pos = .ok (v, next)) :
    (∃ n, t.size (s.drop pos) = some n ∧ n ≤ (s.drop pos).length ∧ 0 < n ∧ next = pos + n ∧
      (PT.base t).Decodes ((s.drop pos).take n) v) ∨
    t.size (s.drop pos) = none ∧ next = 0 := by
  unfold BaseType.size PT.Decodes PT.parse
  unfold BaseType.parse at h ⊢
  split at h
  · next hstring =>
    simp only [if_pos hstring]
    obtain ⟨l, rest, hdrop, ⟨hfit, hnext, rfl⟩ | ⟨hcut, hnext⟩⟩ := parseString_ok h
    · rw [hdrop]
      refine .inl ⟨l + 1, if_pos hfit, Nat.succ_le_succ hfit, Nat.succ_pos l, hnext, ?_⟩
      intro pre more
      have hlen : (rest.take l).length = l := length_take_of_le hfit
      have h := parseString_append pre (rest.take l) more
      rw [hlen] at h
      rw [length_take_of_le (Nat.succ_le_succ hfit)]
      exact h
    · rw [hdrop]
      exact .inr ⟨if_neg (Nat.not_le.mpr hcut), hnext⟩
  · next hint =>
    simp only [if_neg hint]
    obtain ⟨⟨w, last⟩, hdecode, h⟩ := bind_eq_ok h
    obtain ⟨n, hsize, hlen, hpos, hnext, hall⟩ := Vlq.decode_ok hdecode
    -- the value is taken modulo 2 ^ 32 or not, wherever it was decoded
    have hvalue : v = (if t.signed then .int64 w else .int64 (w % 2 ^ 32)) ∧ next = last := by
      cases hsigned : t.signed <;> rw [hsigned] at h <;> cases h <;> exact ⟨rfl, rfl⟩
    obtain ⟨rfl, rfl⟩ := hvalue
    refine .inl ⟨n, hsize, hlen, hpos, hnext, fun pre rest => ?_⟩
    rw [BaseType.parseInt, hall, length_take_of_le hlen]
    cases t.signed <;> rfl

theorem PT.parse_ok {t : PT} {pos : ℕ} {v : Value} {next : ℕ} (h : t.parse s pos = .ok (v, next)) :
    (∃ n, t.baseType.size (s.drop pos) = some n ∧ n ≤ (s.drop pos).length ∧ 0 < n ∧
      next = pos + n ∧ t.Decodes ((s.drop pos).take n) v) ∨
    t.baseType.size (s.drop pos) = none ∧ next = 0 := by
  cases t with
  | base t => exact BaseType.parse_ok h
  | enumeration e =>
    obtain ⟨⟨w, last⟩, hparse, h⟩ := bind_eq_ok h
    cases w with
    | int64 w =>
      cases h
      rcases BaseType.parse_ok hparse with ⟨n, hsize, hlen, hpos, hnext, hall⟩ | hcut
      · refine .inl ⟨n, hsize, hlen, hpos, hnext, fun pre rest => ?_⟩
        have hbase : e.pt.parse _ _ = _ := hall pre rest
        show e.parse _ _ = _
        rw [Enumeration.parse, hbase]
        rfl
      · exact .inr hcut
    | _ => cases h

/-! ### What a message is read from -/

/-- The bytes are the encodings of parameters of the given types, one after the other, and the
three bytes of the trailer. -/
def LaidOut : List (String × Option PT) → List ℕ → Prop
  | [], bs => bs.length = messageTrailerSize
  | (_, none) :: _, _ => False
  | (_, some t) :: ts, bs => ∃ n, t.baseType.size bs = some n ∧ LaidOut ts (bs.drop n)

/-- `params` are the values decoded from consecutive parts of `payload`, which they use up, over
the entries `out`. -/
def DecodedFrom : List (String × Option PT) → List ℕ → (String → Option Value) →
    (String → Option Value) → Prop
  | [], payload, out, params => payload = [] ∧ params = out
  | (_, none) :: _, _, _, _ => False
  | (name, some t) :: ts, payload, out, params =>
    ∃ used rest v, payload = used ++ rest ∧ t.Decodes used v ∧
      DecodedFrom ts rest (Function.update out name (some v)) params

section Payload

variable {s : List ℕ} {pos : ℕ}

theorem payload_split {stop n : ℕ} (h : pos + n ≤ stop) :
    (s.take stop).drop pos = (s.drop pos).take n ++ (s.take stop).drop (pos + n) := by
  rw [← take_append_drop n ((s.take stop).drop pos), drop_drop, drop_take,
    take_take, Nat.min_eq_left (by omega)]

/-- A part of the payload that decodes to a value is what the decoder reads at its place. -/
theorem read_eq {t : PT} {stop next : ℕ} {used rest : List ℕ} {v w : Value} (hpos : pos ≤ stop)
    (hstop : stop ≤ s.length) (hsplit : (s.take stop).drop pos = used ++ rest)
    (hused : t.Decodes used w) (hparse : t.parse s pos = .ok (v, next)) :
    v = w ∧ next = pos + used.length := by
  have hs : s = s.take pos ++ (used ++ (rest ++ s.drop stop)) := by
    rw [← append_assoc used, ← hsplit,
      ← drop_append_of_le_length (by rwa [length_take_of_le hstop]),
      take_append_drop, take_append_drop]
  have hread := hused (s.take pos) (rest ++ s.drop stop)
  rw [← hs, length_take_of_le (hpos.trans hstop), hparse] at hread
  simpa using hread

theorem decodedFrom_iff {ps : List (String × Option PT)} {out params : String → Option Value}
    {last : ℕ} (hparse : MessageFormat.parseFrom s ps pos out = .ok (params, last))
    (hlen : 3 ≤ s.length) (hpos : 0 < pos) (hle : pos ≤ s.length) :
    pos ≤ s.length - 3 ∧ DecodedFrom ps ((s.take (s.length - 3)).drop pos) out params ↔
      LaidOut ps (s.drop pos) := by
  induction ps generalizing pos out with
  | nil =>
    cases hparse
    have hthree : messageTrailerSize = 3 := rfl
    rw [LaidOut, DecodedFrom, length_drop, ← length_eq_zero_iff, length_drop, length_take]
    constructor
    · omega
    · intro h
      exact ⟨by omega, by omega, rfl⟩
  | cons p ps ih =>
    obtain ⟨name, t⟩ := p
    cases t with
    | none => cases hparse
    | some t =>
      obtain ⟨⟨v, next⟩, ht, hrest⟩ := bind_eq_ok hparse
      rcases t.parse_ok ht with ⟨n, hsize, hn, hn0, rfl, hdecodes⟩ | ⟨hcut, rfl⟩
      · rw [length_drop] at hn
        have hiff := ih hrest (by omega) (by omega)
        rw [show s.drop (pos + n) = (s.drop pos).drop n from drop_drop.symm] at hiff
        constructor
        · rintro ⟨hstop, used, rest, w, hsplit, hused, hmore⟩
          obtain ⟨rfl, hnext⟩ := read_eq hstop (Nat.sub_le _ _) hsplit hused ht
          have hfit : pos + n ≤ s.length - 3 := by
            have h := congrArg List.length hsplit
            rw [length_drop, length_take, length_append] at h
            omega
          obtain ⟨-, rfl⟩ := append_inj ((payload_split hfit).symm.trans hsplit) (by
            rw [length_take, length_drop]
            omega)
          exact ⟨n, hsize, hiff.mp ⟨hfit, hmore⟩⟩
        · rintro ⟨m, hm, hlaid⟩
          rw [hsize] at hm
          cases hm
          obtain ⟨hfit, hmore⟩ := hiff.mpr hlaid
          exact ⟨by omega, _, _, v, payload_split hfit, hdecodes, hmore⟩
      · -- the string is cut off: neither is it laid out, nor was it read from the payload
        refine iff_of_false ?_ ?_
        · rintro ⟨hstop, used, rest, w, hsplit, hused, hmore⟩
          obtain ⟨-, hnext⟩ := read_eq hstop (Nat.sub_le _ _) hsplit hused ht
          omega
        · rintro ⟨m, hm, -⟩
          rw [hcut] at hm
          cases hm

end Payload

/-- The decoder starts right behind the message id, and the parameters are decoded from the
consecutive bytes from there to the trailer. -/
def ReadsPayload (f : MessageFormat) (s : List ℕ) (idEnd : ℕ)
    (params : String → Option Value) : Prop :=
  idEnd = messageHeaderSize + f.msgidBytes.length ∧ idEnd ≤ s.length - 3 ∧
    DecodedFrom f.paramNames ((s.take (s.length - 3)).drop idEnd) (fun _ => none) params

/-- What a message of a known format that was parsed was decoded to. -/
theorem MessageParser.parse_known {self : MessageParser} {logger : Bool} {msgid : ℤ}
    {idEnd : ℕ} {f : MessageFormat} {parsed : Parsed}
    (hid : Vlq.decode s messageHeaderSize = .ok (msgid, idEnd))
    (hknown : self.messagesById msgid = some (.message f))
    (hok : self.parse logger s = .ok parsed) :
    ∃ params last, parsed = ⟨f.name, .named params⟩ ∧
      f.parse s messageHeaderSize = .ok (params, last) := by
  obtain ⟨⟨id, last⟩, hid', hok⟩ := bind_eq_ok hok
  rw [hid] at hid'
  cases hid'
  obtain ⟨⟨found, pos⟩, hformat, hok⟩ := bind_eq_ok hok
  rw [hknown] at hformat
  obtain ⟨⟨params, last⟩, hparse, hformat⟩ := bind_eq_ok hformat
  cases hformat
  obtain ⟨-, -, hok⟩ := bind_eq_ok hok
  cases hok
  exact ⟨params, last, rfl, hparse⟩

/-- A message of a known format that was parsed was read from its payload exactly when the message
id is as long as the format's own encoding of it, and the parameters are laid out from there to the
trailer. -/
theorem parse_reads_payload_iff (logger : Bool) {s : List ℕ}
    (hmin : messageMin ≤ s.length) {msgid : ℤ} {idEnd : ℕ} {f : MessageFormat} {parsed : Parsed}
    (hid : Vlq.decode s messageHeaderSize = .ok (msgid, idEnd))
    (hknown : self.messagesById msgid = some (.message f))
    (hok : self.parse logger s = .ok parsed) :
    (∃ params, parsed = ⟨f.name, .named params⟩ ∧ ReadsPayload f s idEnd params) ↔
      idEnd = messageHeaderSize + f.msgidBytes.length ∧ LaidOut f.paramNames (s.drop idEnd) := by
  have hfive : messageMin = 5 := rfl
  obtain ⟨params, last, rfl, hparse⟩ := MessageParser.parse_known hid hknown hok
  obtain ⟨n, -, hn, hn0, hnext, -⟩ := Vlq.decode_ok hid
  rw [length_drop] at hn
  constructor
  · rintro ⟨other, heq, hstart, hread⟩
    cases heq
    rw [MessageFormat.parse, ← hstart] at hparse
    exact ⟨hstart, (decodedFrom_iff hparse (by omega) (by omega) (by omega)).mp hread⟩
  · rintro ⟨hstart, hlaid⟩
    rw [MessageFormat.parse, ← hstart] at hparse
    exact ⟨params, rfl, hstart,
      (decodedFrom_iff hparse (by omega) (by omega) (by omega)).mpr hlaid⟩

def parserOf (msgid : ℤ) (f : MessageFormat) : MessageParser where
  enumerations := []
  messagesById := fun id => if id = msgid then some (.message f) else none
  messagesByName := fun name => if name = f.name then some f else none
  version := ""
  buildVersions := ""

def trsyncState : MessageFormat where
  name := "trsync_state"
  msgformat := "trsync_state oid=%c can_trigger=%c"
  msgidBytes := [4]
  paramNames := [("oid", some (.base .byte)), ("can_trigger", some (.base .byte))]

theorem parse_reads_payload_trsync_state :
    ∃ params, (parserOf 4 trsyncState).parse true [8, 0x10, 4, 7, 1, 0, 0, 0x7e] =
        .ok ⟨"trsync_state", .named params⟩ ∧
      ReadsPayload trsyncState [8, 0x10, 4, 7, 1, 0, 0, 0x7e] 3 params := by
  obtain ⟨parsed, hok⟩ : ∃ parsed, (parserOf 4 trsyncState).parse true
      [8, 0x10, 4, 7, 1, 0, 0, 0x7e] = .ok parsed := ⟨_, rfl⟩
  have hid : Vlq.decode [8, 0x10, 4, 7, 1, 0, 0, 0x7e] messageHeaderSize = .ok (4, 3) := by
    decide
  have hlaid : LaidOut trsyncState.paramNames [7, 1, 0, 0, 0x7e] :=
    Exists.intro 1 ⟨rfl, Exists.intro 1 ⟨rfl, rfl⟩⟩
  obtain ⟨params, rfl, hread⟩ :=
    (parse_reads_payload_iff _ true (by decide) hid rfl hok).mpr ⟨rfl, hlaid⟩
  exact ⟨params, hok, hread⟩

/-- An encoded and framed message is accepted and parsed to its own values. -/
theorem MessageParser.parse_encodeMsgblock (logger : Bool) (seq msgid : ℤ)
    (f : MessageFormat) (assign : String → Value) (hlow : -2 ^ 31 ≤ msgid) (hhigh : msgid < 2 ^ 32)
    (hid : f.msgidBytes = Vlq.encode msgid) (hknown : self.messagesById msgid = some (.message f))
    (hrange : ∀ p ∈ f.paramNames, MessageFormat.Admitted assign p)
    (hplain : ∀ p ∈ f.paramNames, MessageFormat.Plain assign p) :
    ∃ cmd, f.encodeByName (fun name => some (assign name)) = .ok cmd ∧
      (cmd.length ≤ 59 → ∀ rest,
        checkPacket (encodeMsgblock seq cmd ++ rest) = .ok (encodeMsgblock seq cmd).length) ∧
      self.parse logger (encodeMsgblock seq cmd) = .ok ⟨f.name, .named (f.assigned assign)⟩ := by
  obtain ⟨bytes, -, hn, hparse⟩ := MessageFormat.parse_encode hrange hplain []
  refine ⟨f.msgidBytes ++ bytes, ?_, checkPacket_block, ?_⟩
  · rw [MessageFormat.encodeByName, hn]
    rfl
  · have hlen := length_encodeMsgblock seq (f.msgidBytes ++ bytes)
    obtain ⟨h₀, h₁, trailer, hframe⟩ : ∃ h₀ h₁ trailer, encodeMsgblock seq
        (f.msgidBytes ++ bytes) = [h₀, h₁] ++ (f.msgidBytes ++ (bytes ++ trailer)) := by
      simp only [← append_assoc]
      exact ⟨_, _, _, append_assoc _ _ _⟩
    rw [length_append, hframe] at hlen
    have hdecode := Vlq.decode_encode hlow hhigh [h₀, h₁] (bytes ++ trailer)
    have hread := hparse ([h₀, h₁] ++ f.msgidBytes) trailer fun _ => none
    rw [append_assoc, length_append] at hread
    rw [hframe, parse, show Vlq.decode _ messageHeaderSize = _ from hid ▸ hdecode]
    show (parseAs (self.messagesById msgid) _ >>= _) = _
    rw [hknown, parseAs, show f.parse _ messageHeaderSize = _ from hread]
    show (checkEnd logger (2 + f.msgidBytes.length + bytes.length : ℕ) _ >>= _) = _
    rw [checkEnd, hlen, if_neg (by simp only [messageMin, messageTrailerSize]; omega)]
    rfl

theorem parse_encodeMsgblock_trsync_state : ∃ cmd,
    (parserOf 4 trsyncState).parse true (encodeMsgblock 3 cmd) =
      .ok ⟨"trsync_state", .named (trsyncState.assigned fun _ => .int 1)⟩ := by
  obtain ⟨cmd, -, -, hparse⟩ := (parserOf 4 trsyncState).parse_encodeMsgblock true 3 4 trsyncState
    (fun _ => .int 1) (by decide) (by decide) rfl rfl (fun p hp => by
      obtain rfl | rfl := mem_pair.mp hp <;> exact ⟨_, rfl, 1, .inl rfl, by decide, by decide⟩)
    (fun p hp => by obtain rfl | rfl := mem_pair.mp hp <;> exact ⟨nofun, nofun⟩)
  exact ⟨cmd, hparse⟩

def debugResult : MessageFormat where
  name := "debug_result"
  msgformat := "debug_result data=%*s a=%c b=%c c=%c"
  msgidBytes := [2]
  paramNames := [("data", some (.base .buffer)), ("a", some (.base .byte)),
    ("b", some (.base .byte)), ("c", some (.base .byte))]

/-- The string is cut off, and the parameters behind it are read from the header. -/
theorem parse_reads_header :
    ∃ params, (parserOf 2 debugResult).parse true [6, 0x10, 2, 5, 0, 0x7e] =
        .ok ⟨"debug_result", .named params⟩ ∧
      params "a" = some (.int64 6) ∧
      ¬ ReadsPayload debugResult [6, 0x10, 2, 5, 0, 0x7e] 3 params := by
  refine ⟨_, rfl, by decide, ?_⟩
  rintro ⟨-, -, used, rest, v, hsplit, hdecodes, -⟩
  obtain ⟨rfl, -⟩ := append_eq_nil_iff.mp hsplit.symm
  have h := hdecodes [] []
  cases h

end Msgproto
