/-
Web hook requests and their answers.

A request is decoded by `parseRequest`, its handler is run with panics caught
(`processRequestSafe`), an error is recorded on the request, and `finish` builds the
response that the client sends.  A handler is known by what it does with the request:
the payloads it hands to `Send`, and how it ends.

* `finish_eq_none_iff` — a request with the id zero is never answered;
* `processRequestSafe_panic` — a panic that is caught is taken for a normal return.
-/
import KlipperGo.Lines
import KlipperGo.WebhookClient
import KlipperGo.Returns

open List

namespace Webhooks

open GoValue

/-! ### Errors and panics -/

/-- `kerror.Error`. -/
structure KError where
  typ : String
  code : String
  message : String

/-- An error that a handler returns: one of `kerror`, or any other with its text. -/
inductive HandlerError where
  | kerror (e : KError)
  | other (message : String)

def unknownCode : String := "1000400"

def methodUnregisteredCode : String := "1000403"

def newWebRequestError (code message : String) : KError := ⟨"WebRequestError", code, message⟩

def fromError : HandlerError → KError
  | .kerror e => e
  | .other message => newWebRequestError unknownCode message

inductive PanicValue where
  | text (s : String)
  | other
  deriving DecidableEq

def exitSignal : PanicValue := .text "exit"

/-- `CatchPanic`, run when a call panics: it logs, and it panics again with the exit
signal only. -/
def catchPanic (v : PanicValue) : Except PanicValue Unit :=
  if v = exitSignal then .error v else .ok ()

/-! ### The request -/

structure Request where
  id : ℚ
  method : String
  params : List (String × GoValue)
  response : GoValue
  isError : Bool

def paramsOf : Option GoValue → Except String (List (String × GoValue))
  | none => .ok []
  | some (.dict fields) => .ok fields
  | some _ => .error "Invalid request type"

/-- `ParseRequest` on the map that `json.Unmarshal` makes of the text, if it is one. -/
def parseRequest (baseRequest : Except String (List (String × GoValue))) :
    Except String Request := do
  let base ← baseRequest
  let some (.number id) := base.lookup "id" | throw "id is Not a number"
  let some (.text method) := base.lookup "method" | throw "Invalid request type"
  let params ← paramsOf (base.lookup "params")
  return ⟨id, method, params, .null, false⟩

namespace Request

variable (r : Request)

/-- `Request.Send` stores the first payload, and refuses the next ones. -/
def send (data : GoValue) : Except String Request :=
  if r.response.isNull then .ok { r with response := data }
  else .error "Multiple calls to send not allowed"

/-- The request after the call, if the caller does not stop at a refusal. -/
def sent (data : GoValue) : Request :=
  match r.send data with
  | .ok r' => r'
  | .error _ => r

def setErrorResponse (response : GoValue) : Request :=
  { r with isError := true, response := response }

def setError (err : HandlerError) : Request :=
  let kerr := fromError err
  r.setErrorResponse (.dict
    [("code", .text kerr.code), ("error", .text kerr.typ), ("message", .text kerr.message)])

/-- The response, its fields in the order of their keys. -/
def finish : Option GoValue :=
  if r.id = 0 then none
  else
    let response := if r.response.isNull then .dict [] else r.response
    if r.isError then some (.dict [("error", response), ("id", .number r.id)])
    else some (.dict [("id", .number r.id), ("result", response)])

end Request

/-! ### Handlers -/

inductive HandlerEnd where
  | returned
  | failed (err : HandlerError)
  | panicked (v : PanicValue)

/-- What a handler does: the payloads it hands to `Send`, in order, and how it ends. -/
structure Behaviour where
  sends : List GoValue
  ending : HandlerEnd

abbrev Handler := Request → Behaviour

/-- Run the handler with panics caught: the error it returned, and the request it leaves. -/
def processRequestSafe (handler : Handler) (r : Request) :
    Except PanicValue (Option HandlerError × Request) := do
  let r' := (handler r).sends.foldl Request.sent r
  match (handler r).ending with
  | .returned => return (none, r')
  | .failed err => return (some err, r')
  | .panicked v =>
    -- the deferred call leaves the results at their zero values
    catchPanic v
    return (none, r')

variable (texts : JsonTexts) (registry : String → Option Handler) (r : Request)

/-- The request with its outcome recorded on it. -/
def handled : Except PanicValue Request :=
  match registry r.method with
  | none =>
    .ok (r.setError (.kerror (newWebRequestError methodUnregisteredCode
      ("web request method: " ++ r.method ++ " unregistered"))))
  | some handler => do
    let (err, r') ← processRequestSafe handler r
    match err with
    | some err => return r'.setError err
    | none => return r'

/-- `processRequest`, with what the socket does if the response is written to it. -/
def processRequest (c : Client) (r : Request) (w : WriteOutcome) : Except PanicValue Client := do
  let r' ← handled registry r
  match r'.finish with
  | none => return c
  | some result => return c.send texts result w

/-! ### The contract -/

/-- The method is unknown, or its handler returns an error or panics. -/
def Fails : Prop :=
  match registry r.method with
  | none => True
  | some handler =>
    match (handler r).ending with
    | .returned => False
    | .failed _ => True
    | .panicked _ => True

/-- The fields of a response to the request: its id, and an error if `isError` is set. -/
def IsResponse (m : GoValue) (id : ℚ) (isError : Bool) : Prop :=
  ∃ payload, m = .dict (if isError then [("error", payload), ("id", .number id)]
    else [("id", .number id), ("result", payload)])

/-- **One truthful answer**: the call returns, it sends one message, a response with the id
of the request, and the response is an error if the request fails. -/
def AnsweredOnce (c : Client) (r : Request) (w : WriteOutcome) : Prop :=
  ∃ c' m isError, processRequest texts registry c r w = .ok c' ∧ c'.sent = c.sent ++ [m] ∧
    IsResponse m r.id isError ∧ (Fails registry r → isError = true)

/-- The payload of a normal return: the first one that is not `nil`, or an empty map. -/
def Behaviour.payload (b : Behaviour) : GoValue :=
  (b.sends.find? fun data => !data.isNull).getD (.dict [])

/-- The id is not zero, and the handler of a known method fails with an error or returns
a payload that JSON has a text for. -/
def Answerable : Prop :=
  r.id ≠ 0 ∧ ∀ handler, registry r.method = some handler →
    match (handler r).ending with
    | .returned => ((handler r).payload.sanitizeJSONValue.marshal texts).isSome = true
    | .failed _ => True
    | .panicked _ => False

/-! ### What each part of the composition does -/

variable {texts : JsonTexts} {registry : String → Option Handler} {r : Request}
  {base : Except String (List (String × GoValue))}

theorem parseRequest_fresh (h : parseRequest base = .ok r) :
    r.response = .null ∧ r.isError = false := by
  obtain ⟨fields, -, h⟩ := Outcome.bind_eq_ok h
  split at h
  · split at h
    · obtain ⟨params, -, h⟩ := Outcome.bind_eq_ok h
      cases h
      exact ⟨rfl, rfl⟩
    · cases h
  · cases h

/-- The handler's calls of `Send` leave the first payload that is not `nil`. -/
theorem foldl_sent (sends : List GoValue) (hr : r.response = .null) : sends.foldl Request.sent r =
      { r with response := (sends.find? fun data => !data.isNull).getD .null } := by
  have hkept : ∀ (sends : List GoValue) (r : Request), r.response.isNull = false →
      sends.foldl Request.sent r = r := by
    intro sends
    induction sends with
    | nil => intro r _; rfl
    | cons data sends ih =>
      intro r h
      have hsent : r.sent data = r := by simp [Request.sent, Request.send, h]
      rw [foldl_cons, hsent, ih r h]
  induction sends with
  | nil => simp [← hr]
  | cons data sends ih =>
    have hsent : r.sent data = { r with response := data } := by
      simp [Request.sent, Request.send, hr, isNull]
    rw [foldl_cons, hsent]
    cases hd : data.isNull with
    | true =>
      have hnull : data = .null := by
        cases data <;> first | rfl | cases hd
      subst hnull
      have hself : ({ r with response := .null } : Request) = r := by simp [← hr]
      rw [hself, ih]
      simp [isNull]
    | false =>
      rw [hkept sends _ hd]
      simp [hd]

variable {handler : Handler}

theorem processRequestSafe_panic {v : PanicValue} (h : (handler r).ending = .panicked v)
    (hv : v ≠ exitSignal) :
    processRequestSafe handler r = .ok (none, (handler r).sends.foldl Request.sent r) := by
  unfold processRequestSafe
  simp [h, catchPanic, hv]

theorem Request.finish_eq_none_iff : r.finish = none ↔ r.id = 0 := by
  unfold Request.finish
  split_ifs <;> simp_all

/-- A request that is answered with a result: its handler returned or its panic was caught. -/
theorem handled_result (hreg : registry r.method = some handler) (hr : r.response = .null)
    (hend : (handler r).ending = .returned ∨
      ∃ v, v ≠ exitSignal ∧ (handler r).ending = .panicked v) :
    handled registry r = .ok
      { r with response := ((handler r).sends.find? fun data => !data.isNull).getD .null } := by
  have hsafe : processRequestSafe handler r =
      .ok (none, (handler r).sends.foldl Request.sent r) := by
    rcases hend with hend | ⟨v, hv, hend⟩
    · unfold processRequestSafe
      rw [hend]
      rfl
    · exact processRequestSafe_panic hend hv
  unfold handled
  rw [hreg, ← foldl_sent _ hr]
  dsimp only
  rw [hsafe]
  rfl

/-- A request that fails with an error is answered with one. -/
theorem handled_error (hr : r.response = .null)
    (hfail : ∀ handler, registry r.method = some handler →
      ∃ err, (handler r).ending = .failed err) :
    ∃ (r₁ : Request) (err : HandlerError),
      handled registry r = .ok (r₁.setError err) ∧ r₁.id = r.id := by
  unfold handled
  match hreg : registry r.method with
  | none => exact ⟨r, _, rfl, rfl⟩
  | some handler =>
    obtain ⟨err, hend⟩ := hfail handler hreg
    refine ⟨(handler r).sends.foldl Request.sent r, err, ?_, ?_⟩
    · dsimp only
      unfold processRequestSafe
      rw [hend]
      rfl
    · rw [foldl_sent _ hr]

/-- An error response always has a text. -/
theorem finish_setError (texts : JsonTexts) (err : HandlerError) (hid : r.id ≠ 0) :
    ∃ m, (r.setError err).finish = some m ∧ IsResponse m r.id true ∧
      (encode texts m).isSome = true := by
  refine ⟨_, if_neg hid, ⟨_, rfl⟩, ?_⟩
  simp [Request.setError, Request.setErrorResponse, encode, isNull, sanitizeJSONValue,
    sanitizeFields, sanitizeField, marshal, marshalFields, marshalField]

theorem encode_result (payload : GoValue) (id : ℚ) :
    (encode texts (.dict [("id", .number id), ("result", payload)])).isSome =
      (payload.sanitizeJSONValue.marshal texts).isSome := by
  cases h : payload.sanitizeJSONValue.marshal texts <;>
    simp [encode, isNull, sanitizeJSONValue, sanitizeFields,
      sanitizeField, marshal, marshalFields, marshalField, h]

theorem finish_result (data : GoValue) (hid : r.id ≠ 0) (hr : r.isError = false) :
    ({ r with response := data } : Request).finish =
      some (.dict [("id", .number r.id),
        ("result", if data.isNull then .dict [] else data)]) := by
  simp [Request.finish, hid, hr]

theorem payload_eq (b : Behaviour) :
    b.payload = (if ((b.sends.find? fun data => !data.isNull).getD .null).isNull then .dict []
      else (b.sends.find? fun data => !data.isNull).getD .null) := by
  unfold Behaviour.payload
  cases h : b.sends.find? fun data => !data.isNull with
  | none => rfl
  | some data =>
    have hdata : data.isNull = false := by simpa using find?_some h
    simp [hdata]

/-! ### The answers -/

theorem processRequest_of_finish {r' : Request} (hr' : handled registry r = .ok r') (c : Client)
    (w : WriteOutcome) :
    processRequest texts registry c r w =
      .ok (match r'.finish with
        | none => c
        | some result => c.send texts result w) := by
  unfold processRequest
  rw [hr']
  cases h : r'.finish <;> simp [h, bind, Except.bind, pure, Except.pure]

/-- Without the exit signal, a request fails with an error or is answered with a result. -/
theorem failed_or_result (hexit : ∀ handler, registry r.method = some handler →
      (handler r).ending ≠ .panicked exitSignal) :
    (∀ handler, registry r.method = some handler → ∃ err, (handler r).ending = .failed err) ∨
    ∃ handler, registry r.method = some handler ∧ ((handler r).ending = .returned ∨
      ∃ v, v ≠ exitSignal ∧ (handler r).ending = .panicked v) := by
  cases hreg : registry r.method with
  | none => exact .inl nofun
  | some handler =>
    cases hend : (handler r).ending with
    | returned => exact .inr ⟨handler, rfl, .inl hend⟩
    | failed err =>
      refine .inl fun handler' h => ?_
      obtain rfl := Option.some.inj h
      exact ⟨err, hend⟩
    | panicked v =>
      refine .inr ⟨handler, rfl, .inr ⟨v, ?_, hend⟩⟩
      rintro rfl
      exact hexit handler hreg hend

theorem not_answeredOnce_of_zero (hr : r.response = .null)
    (hexit : ∀ handler, registry r.method = some handler →
      (handler r).ending ≠ .panicked exitSignal) (hid : r.id = 0) (c : Client)
    (w : WriteOutcome) : ¬ AnsweredOnce texts registry c r w := by
  rintro ⟨c', m, isError, hrun, hsent, -, -⟩
  -- the handling of a request keeps its id
  obtain ⟨r', hr', hid'⟩ : ∃ r', handled registry r = .ok r' ∧ r'.id = r.id := by
    rcases failed_or_result hexit with hfail | ⟨handler, hreg, hend⟩
    · obtain ⟨r₁, err, hr₁, hid₁⟩ := handled_error hr hfail
      exact ⟨r₁.setError err, hr₁, hid₁⟩
    · exact ⟨_, handled_result hreg hr hend, rfl⟩
  rw [processRequest_of_finish hr', Request.finish_eq_none_iff.mpr (hid'.trans hid)] at hrun
  cases hrun
  simp at hsent

/-- A request that fails with an error gets a truthful answer. -/
theorem answeredOnce_of_failed (hr : r.response = .null)
    (hfail : ∀ handler, registry r.method = some handler →
      ∃ err, (handler r).ending = .failed err) (hid : r.id ≠ 0) (c : Client)
    (w : WriteOutcome) : AnsweredOnce texts registry c r w := by
  obtain ⟨r₁, err, hr₁, hid₁⟩ := handled_error hr hfail
  obtain ⟨m, hm, hresp, henc⟩ := finish_setError (r := r₁) texts err (hid₁ ▸ hid)
  refine ⟨c.send texts m w, m, true, ?_, ?_, hid₁ ▸ hresp, fun _ => rfl⟩
  · rw [processRequest_of_finish hr₁, hm]
  · rw [Client.send_sent texts, if_pos henc]

/-- A request that is answered with a result gets a truthful answer exactly if it did not
fail and the payload has a text. -/
theorem answeredOnce_result_iff (hreg : registry r.method = some handler)
    (hr : r.response = .null ∧ r.isError = false) (hid : r.id ≠ 0)
    (hend : (handler r).ending = .returned ∨
      ∃ v, v ≠ exitSignal ∧ (handler r).ending = .panicked v) (c : Client) (w : WriteOutcome) :
    AnsweredOnce texts registry c r w ↔ (handler r).ending = .returned ∧
      ((handler r).payload.sanitizeJSONValue.marshal texts).isSome = true := by
  have hrun : processRequest texts registry c r w = .ok (c.send texts
      (.dict [("id", .number r.id), ("result", (handler r).payload)]) w) := by
    rw [processRequest_of_finish (handled_result hreg hr.1 hend), finish_result _ hid hr.2,
      ← payload_eq]
  have hsent := Client.send_sent (c := c) texts
    (.dict [("id", .number r.id), ("result", (handler r).payload)]) w
  rw [encode_result] at hsent
  constructor
  · rintro ⟨c', m, isError, hrun', hsent', ⟨payload, rfl⟩, htrue⟩
    rw [hrun] at hrun'
    cases hrun'
    rw [hsent] at hsent'
    by_cases henc : ((handler r).payload.sanitizeJSONValue.marshal texts).isSome = true
    · -- the message is a result, so the request may not have failed
      refine ⟨?_, henc⟩
      rcases hend with hret | ⟨v, -, hpanic⟩
      · exact hret
      · have herr : isError = true := htrue (by simp [Fails, hreg, hpanic])
        simp [henc, herr] at hsent'
    · simp [henc] at hsent'
  · rintro ⟨hret, henc⟩
    rw [if_pos henc] at hsent
    refine ⟨_, _, false, hrun, hsent, ⟨_, rfl⟩, fun hfails => ?_⟩
    simp [Fails, hreg, hret] at hfails

/-- **Which requests get exactly one truthful answer**: those with an id other than zero whose
handler does not panic, and does not return normally with a payload that has no text. -/
theorem answered_iff (hparse : parseRequest base = .ok r)
    (hexit : ∀ handler, registry r.method = some handler →
      (handler r).ending ≠ .panicked exitSignal) (c : Client) (w : WriteOutcome) :
    AnsweredOnce texts registry c r w ↔ Answerable texts registry r := by
  have hr := parseRequest_fresh hparse
  by_cases hid : r.id = 0
  · have hno : ¬ AnsweredOnce texts registry c r w :=
      not_answeredOnce_of_zero hr.1 hexit hid c w
    exact iff_of_false hno fun h => h.1 hid
  rcases failed_or_result hexit with hfail | ⟨handler, hreg, hend⟩
  · refine iff_of_true (answeredOnce_of_failed hr.1 hfail hid c w) ⟨hid, ?_⟩
    intro handler hreg
    obtain ⟨err, hend⟩ := hfail handler hreg
    rw [hend]
    trivial
  · rw [answeredOnce_result_iff hreg hr hid hend, Answerable]
    constructor
    · rintro ⟨hret, henc⟩
      refine ⟨hid, fun handler' hreg' => ?_⟩
      obtain rfl : handler = handler' := Option.some.inj (hreg.symm.trans hreg')
      rw [hret]
      exact henc
    · rintro ⟨-, h⟩
      have hcase := h handler hreg
      rcases hend with hret | ⟨v, -, hpanic⟩
      · rw [hret] at hcase
        exact ⟨hret, hcase⟩
      · rw [hpanic] at hcase
        exact hcase.elim

def infoRequest (id : ℚ) : Request := ⟨id, "info", [], .null, false⟩

/-- A request with the id zero gets no answer although its handler returns, and one whose
handler panics gets a result. -/
theorem zero_and_panic_not_answered :
    ¬ AnsweredOnce ⟨fun _ => [], fun _ => []⟩ (fun _ => some fun _ => ⟨[], .returned⟩)
        newClientConnection (infoRequest 0) ⟨0, none⟩ ∧
      ¬ AnsweredOnce ⟨fun _ => [], fun _ => []⟩ (fun _ => some fun _ => ⟨[], .panicked .other⟩)
        newClientConnection (infoRequest 1) ⟨0, none⟩ := by
  constructor
  · refine not_answeredOnce_of_zero rfl ?_ rfl _ _
    rintro handler ⟨⟩ h
    cases h
  · intro h
    have hiff := (answeredOnce_result_iff (r := infoRequest 1) rfl ⟨rfl, rfl⟩ (by decide)
      (.inr ⟨.other, by decide, rfl⟩) _ _).mp h
    cases hiff.1

theorem answered_info :
    parseRequest (.ok [("id", .number 1), ("method", .text "info")]) = .ok (infoRequest 1) ∧
      AnsweredOnce ⟨fun _ => [], fun _ => []⟩ (fun _ => some fun _ => ⟨[], .returned⟩)
        newClientConnection (infoRequest 1) ⟨0, none⟩ := by
  have hparse : parseRequest (.ok [("id", .number 1), ("method", .text "info")]) =
      .ok (infoRequest 1) := rfl
  refine ⟨hparse, (answered_iff hparse ?_ _ _).mpr ⟨by decide, ?_⟩⟩
  · rintro handler ⟨⟩ h
    cases h
  · rintro handler ⟨⟩
    rfl

/-! ### Receiving requests -/

structure SocketRead where
  bytes : Bytes
  ne_nil : bytes ≠ []
  le_buffer : bytes.length ≤ 4096

/-- The receive side of a connection: the begin of a request, the texts of the requests that
were complete, and the requests that were scheduled. -/
structure Receiver (R : Type*) where
  partialData : Bytes
  requestLog : List Bytes
  scheduled : List R

/-- The loop of `processReceived`, on one byte. -/
def takeByte (r : List Bytes × Bytes) (b : UInt8) : List Bytes × Bytes :=
  if b = 0x03 then (r.1 ++ [r.2], []) else (r.1, r.2 ++ [b])

variable {R : Type*} (requestFactory : Bytes → Option R)

/-- `processReceived`, after a read without error.  A text that makes no request is only
reported. -/
def processReceived (c : Receiver R) (read : SocketRead) : Receiver R :=
  let (requests, partialData) := read.bytes.foldl takeByte ([], c.partialData)
  ⟨partialData, c.requestLog ++ requests, c.scheduled ++ requests.filterMap requestFactory⟩

open Lines

theorem foldl_takeByte (bs : Bytes) (ls : List Bytes) {r : Bytes} (hr : 0x03 ∉ r) :
    ∃ ls' r', bs.foldl takeByte (ls, r) = (ls ++ ls', r') ∧ r ++ bs = unlines 0x03 ls' ++ r' ∧
      Proper 0x03 ls' ∧ 0x03 ∉ r' := by
  induction bs generalizing ls r with
  | nil => exact ⟨[], r, by simp, by simp, fun _ h => absurd h not_mem_nil, hr⟩
  | cons b bs ih =>
    rw [foldl_cons, takeByte]
    split_ifs with hb
    · obtain ⟨ls', r', hfold, hbytes, hls', hr'⟩ := ih (ls ++ [r]) (not_mem_nil)
      refine ⟨r :: ls', r', by rw [hfold, append_assoc]; rfl, ?_, hls'.cons hr, hr'⟩
      rw [hb, unlines_cons, append_assoc, cons_append, ← hbytes, nil_append]
    · obtain ⟨ls', r', hfold, hbytes, hls', hr'⟩ := ih ls (r := r ++ [b])
        (by simp [hr, Ne.symm hb])
      exact ⟨ls', r', hfold, by rw [← hbytes, append_assoc]; rfl, hls', hr'⟩

/-- The connection has received the bytes `x`. -/
def Receiver.Received (c : Receiver R) (x : Bytes) : Prop :=
  x = unlines 0x03 c.requestLog ++ c.partialData ∧ Proper 0x03 c.requestLog ∧
    0x03 ∉ c.partialData ∧ c.scheduled = c.requestLog.filterMap requestFactory

theorem received_processReceived {c : Receiver R} {x : Bytes} (h : c.Received requestFactory x)
    (read : SocketRead) :
    (processReceived requestFactory c read).Received requestFactory (x ++ read.bytes) := by
  obtain ⟨hx, hlog, hpartial, hscheduled⟩ := h
  obtain ⟨ls, r, hfold, hbytes, hls, hr⟩ := foldl_takeByte read.bytes [] hpartial
  rw [nil_append] at hfold
  unfold processReceived
  rw [hfold]
  refine ⟨?_, hlog.append hls, hr, ?_⟩
  · rw [hx, unlines_append, append_assoc, append_assoc, hbytes]
  · rw [hscheduled, filterMap_append]

theorem received_final {c : Receiver R} {x : Bytes} (h : c.Received requestFactory x)
    (reads : List SocketRead) :
    (Runs.final (processReceived requestFactory) c reads).Received requestFactory
      (x ++ reads.flatMap (·.bytes)) := by
  induction reads generalizing c x with
  | nil => simpa using h
  | cons read reads ih =>
    rw [flatMap_cons, ← append_assoc]
    exact ih (received_processReceived requestFactory h read)

/-- The requests of a stream are its pieces between two `0x03` bytes, and the rest is kept,
however the stream is cut into reads. -/
theorem requests_framed {reads reads' : List SocketRead}
    (hsame : reads.flatMap (·.bytes) = reads'.flatMap (·.bytes)) :
    let c := Runs.final (processReceived requestFactory) ⟨[], [], []⟩ reads
    c = Runs.final (processReceived requestFactory) ⟨[], [], []⟩ reads' ∧
      c.requestLog ++ [c.partialData] = (reads.flatMap (·.bytes)).splitOn 0x03 ∧
      c.scheduled = c.requestLog.filterMap requestFactory := by
  have hstart : Receiver.Received requestFactory ⟨[], [], []⟩ [] :=
    ⟨rfl, fun _ h => absurd h not_mem_nil, not_mem_nil, rfl⟩
  obtain ⟨hx, hlog, hpartial, hscheduled⟩ := received_final requestFactory hstart reads
  obtain ⟨hx', hlog', hpartial', hscheduled'⟩ := received_final requestFactory hstart reads'
  rw [nil_append] at hx hx'
  refine ⟨?_, by rw [hx, splitOn_unlines_append hlog hpartial], hscheduled⟩
  obtain ⟨hrequests, hrest⟩ := unlines_append_inj hlog hpartial hlog' hpartial'
    (hx.symm.trans (hsame.trans hx'))
  rw [Receiver.mk.injEq, hscheduled, hscheduled', hrequests]
  exact ⟨hrest, rfl, rfl⟩

theorem requests_framed_two : Runs.final (processReceived some) ⟨[], [], []⟩
        [⟨[0x61, 0x03], by decide, by decide⟩, ⟨[0x62], by decide, by decide⟩] =
      Runs.final (processReceived some) ⟨[], [], []⟩
        [⟨[0x61], by decide, by decide⟩, ⟨[0x03, 0x62], by decide, by decide⟩] :=
  (requests_framed some rfl).1

end Webhooks
