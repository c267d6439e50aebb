/-
Status subscriptions of the web hooks.

A request to query or to subscribe waits for the next tick of `doQuery`, which answers it with
all the fields it asks for.  The request that subscribes then goes on by itself and enters its
client; from the tick after that the client is sent the fields that changed since the tick
before.  What they changed from is read off `lastQuery`, one cache for all clients, which each
tick builds anew from the objects that some request or client asks for in that tick.

* `querySubscription_spec` — the answer to a client does not depend on what the tick has read
  for others: it is made of the reading of the tick and the cache of the last one;
* `tick_inStep` — a tick after which no client waits to be entered keeps all clients in step:
  what they were sent folds to the values of the tick;
* `subscriptions_lossless_iff` — so it is after every tick of a run, for the clients that name
  their fields and whose response template is a map or left out, and this is what the fields hold
  exactly if `statusValue` knows the type of the maps they are in: the integers of an output pin
  and the maps of the endstops are sent as null.
-/
import KlipperGo.Patches
import KlipperGo.WebhookClient

open List Function

namespace Webhooks

/-! ### Statuses -/

/-- The types of the values in the maps that `Get_status` returns: the three that `statusKeys` and
`statusValue` know, the integers of an output pin and the maps of the endstops. -/
inductive ElemType where
  | float64
  | string
  | any
  | int
  | dict

namespace ElemType

/-- What a map with such values gives for a key that is missing. -/
def zero : ElemType → GoValue
  | float64 | int => .number 0
  | string => .text ""
  | any | dict => .null

end ElemType

/-- What `Get_status` returns: a map from the fields to values of one type. -/
structure Status where
  elem : ElemType
  fields : List (String × GoValue)

/-- The value of a field, as a map of any type gives it. -/
def Status.field (status : Status) (key : String) : GoValue :=
  (status.fields.lookup key).getD status.elem.zero

def statusKeys : Option Status → List String
  | some ⟨.float64, fields⟩ => fields.map Prod.fst
  | some ⟨.string, fields⟩ => fields.map Prod.fst
  | some ⟨.any, fields⟩ => fields.map Prod.fst
  | _ => []

/-- The zero value of the map's type where the key is missing. -/
def statusValue (status : Option Status) (key : String) : GoValue :=
  match status with
  | some ⟨.float64, fields⟩ => (fields.lookup key).getD (.number 0)
  | some ⟨.string, fields⟩ => (fields.lookup key).getD (.text "")
  | some ⟨.any, fields⟩ => (fields.lookup key).getD .null
  | _ => .null


/-- The printer at a tick: `none` for an object it does not have or that has no `Get_status`,
otherwise what the method returns, which may be nil. -/
abbrev Printer := String → Option (Option Status)

def readStatus (printer : Printer) (objName : String) : Option Status :=
  match printer objName with
  | none => some ⟨.any, []⟩
  | some status => status

/-! ### Answers -/

/-- The objects asked for; `none` stands for all the fields of an object. -/
abbrev Subscription := List (String × Option (List String))

/-- The `status` map of an answer. -/
abbrev Message := List (String × List (String × GoValue))

/-- The statuses read in one tick.  A status that is nil is looked up again, so it counts as
not read. -/
abbrev Query := String → Option Status

section Answers

variable (deepEqual : GoValue → GoValue → Bool)

def readObject (printer : Printer) (query : Query) (objName : String) : Query :=
  match query objName with
  | some _ => query
  | none => update query objName (readStatus printer objName)

def changedItems (isQuery : Bool) (res lres : Option Status) (reqItems : List String) :
    List (String × GoValue) :=
  (reqItems.filter fun item => isQuery || !deepEqual (statusValue res item) (statusValue lres item))
    |>.map fun item => (item, statusValue res item)

/-- The loop over the objects of one envelope: the statuses read so far, the subscription with
its missing field lists filled in, and the answer. -/
def querySubscription (isQuery : Bool) (printer : Printer) (lastQuery query : Query) :
    Subscription → Query × Subscription × Message
  | [] => (query, [], [])
  | (objName, reqItems) :: rest =>
    let query := readObject printer query objName
    let res := query objName
    let keys := reqItems.getD (statusKeys res)
    let lres := (lastQuery objName).getD ⟨.any, []⟩
    let cres := changedItems deepEqual isQuery res lres keys
    let (query, filled, cquery) := querySubscription isQuery printer lastQuery query rest
    (query, (objName, if keys.isEmpty then reqItems else some keys) :: filled,
      if !cres.isEmpty || isQuery then (objName, cres) :: cquery else cquery)

end Answers

/-! ### The helper -/

inductive TemplateParam where
  | missing
  | dict (fields : List (String × GoValue))
  | malformed

/-- `GetDict`: the default is an empty map, but a parameter of another type gives a nil map. -/
def TemplateParam.getDict : TemplateParam → Option (List (String × GoValue))
  | missing => some []
  | dict fields => some fields
  | malformed => none

variable {Conn : Type*}

/-- A subscriber, and all it was sent since it subscribed, the snapshot first. -/
structure Subscriber (Conn : Type*) where
  conn : Conn
  subscription : Subscription
  template : Option (List (String × GoValue))
  received : List Message

/-- A request that waits for its completion, with the connection and the template to enter if it
subscribes. -/
structure PendingQuery (Conn : Type*) where
  subscription : Subscription
  subscriber : Option (Conn × Option (List (String × GoValue)))

/-- `entering` are the subscribe requests whose completion is there and that have not run on.
The last two fields are the outside world: the connections that are closed, and what each open
subscriber is subscribed to since it was entered. -/
structure QueryStatusHelper (Conn : Type*) where
  clients : List (Subscriber Conn)
  pendingQueries : List (PendingQuery Conn)
  lastQuery : Query
  entering : List (Subscriber Conn)
  closed : List Conn
  subscribed : Conn → Option Subscription

section Tick

variable (deepEqual : GoValue → GoValue → Bool) (printer : Printer) (lastQuery : Query)

/-- The pending queries of a tick: each is answered in full. -/
def answerPending (query : Query) : List (PendingQuery Conn) → Query × List (Subscriber Conn)
  | [] => (query, [])
  | pending :: rest =>
    let (query, filled, cquery) :=
      querySubscription deepEqual true printer lastQuery query pending.subscription
    let (query, entering) := answerPending query rest
    match pending.subscriber with
    | none => (query, entering)
    | some (conn, template) => (query, ⟨conn, filled, template, [cquery]⟩ :: entering)

/-- The clients of a tick, the closed ones deleted. -/
def answerClients [DecidableEq Conn] (closed : List Conn) (query : Query) :
    List (Subscriber Conn) → Query × List (Subscriber Conn)
  | [] => (query, [])
  | client :: rest =>
    if client.conn ∈ closed then
      answerClients closed query rest
    else
      let (query, filled, cquery) :=
        querySubscription deepEqual false printer lastQuery query client.subscription
      let (query, clients) := answerClients closed query rest
      -- an empty answer, and one for a client without a template, is not sent
      let received := if !cquery.isEmpty && client.template.isSome then
        client.received ++ [cquery] else client.received
      (query, { client with subscription := filled, received := received } :: clients)

end Tick

inductive StatusEvent (Conn : Type*) where
  | query (objects : Subscription)
  | subscribe (conn : Conn) (objects : Subscription) (template : TemplateParam)
  | enter (i : ℕ)
  | close (conn : Conn)
  | tick (printer : Printer)

namespace QueryStatusHelper

variable [DecidableEq Conn] (deepEqual : GoValue → GoValue → Bool) (h : QueryStatusHelper Conn)

/-- `handleQueryRequest` up to its wait. -/
def handleQueryRequest (objects : Subscription) (subscriber : Option (Conn × TemplateParam)) :
    QueryStatusHelper Conn :=
  match subscriber with
  | none => { h with pendingQueries := h.pendingQueries ++ [⟨objects, none⟩] }
  | some (conn, template) =>
    { h with
      clients := h.clients.filter (·.conn ≠ conn)
      pendingQueries := h.pendingQueries ++ [⟨objects, some (conn, template.getDict)⟩]
      subscribed := update h.subscribed conn none }

/-- `handleQueryRequest` after its wait, for the `i`-th of the requests that may go on. -/
def enter (i : ℕ) : QueryStatusHelper Conn :=
  match h.entering[i]? with
  | none => h
  | some client =>
    { h with
      clients := h.clients.filter (·.conn ≠ client.conn) ++ [client]
      entering := h.entering.eraseIdx i
      subscribed := update h.subscribed client.conn <|
        if client.conn ∈ h.closed then none else some client.subscription }

def close (conn : Conn) : QueryStatusHelper Conn :=
  { h with
    closed := conn :: h.closed
    subscribed := update h.subscribed conn none }

def doQuery (printer : Printer) : QueryStatusHelper Conn :=
  let (query, entering) :=
    answerPending deepEqual printer h.lastQuery (fun _ => none) h.pendingQueries
  let (query, clients) := answerClients deepEqual printer h.lastQuery h.closed query h.clients
  { h with
    clients := clients
    pendingQueries := []
    lastQuery := query
    entering := h.entering ++ entering }

def step : StatusEvent Conn → QueryStatusHelper Conn
  | .query objects => h.handleQueryRequest objects none
  | .subscribe conn objects template => h.handleQueryRequest objects (some (conn, template))
  | .enter i => h.enter i
  | .close conn => h.close conn
  | .tick printer => h.doQuery deepEqual printer

end QueryStatusHelper

/-! ### What a client knows -/

def Subscription.keys (subscription : Subscription) : List (String × String) :=
  subscription.flatMap fun e => (e.2.getD []).map fun item => (e.1, item)

/-- The values of a message with their objects and fields, as writes. -/
def Message.writes (message : Message) : List ((String × String) × GoValue) :=
  message.flatMap fun e => e.2.map fun w => ((e.1, w.1), w.2)

def foldMessages (messages : List Message) : String × String → Option GoValue :=
  messages.foldl (fun view message => Patches.apply (Message.writes message) view) fun _ => none

variable (now : Query)

section

variable (k : String × String) (h : QueryStatusHelper Conn) (client : Subscriber Conn)

/-- What a reading sends as the value of a field. -/
def sentValue : GoValue := statusValue (now k.1) k.2

/-- The value of a field in a reading, nil for an object without a status. -/
def fieldValue : GoValue :=
  (now k.1).elim .null (·.field k.2)

def Subscription.Explicit (subscription : Subscription) : Prop :=
  ∀ e ∈ subscription, e.2.isSome

/-- A subscription that lists the fields, with a template that is a map or left out. -/
def StatusEvent.WellFormed : StatusEvent Conn → Prop
  | .subscribe _ objects template => Subscription.Explicit objects ∧ template.getDict.isSome
  | _ => True

/-- The fold of the messages is what a reading sends of the fields asked for, and nothing else. -/
def Subscriber.UpToDate : Prop :=
  ∀ k, foldMessages client.received k =
    if k ∈ Subscription.keys client.subscription then some (sentValue now k) else none

end

/-! ### One envelope -/

/-- What a tick has read so far is what it would read now. -/
def Agrees (now query : Query) : Prop := ∀ o, query o = none ∨ query o = now o

/-- More was read, and what had been read is still there. -/
structure Grows (now query query' : Query) : Prop where
  agrees : Agrees now query'
  kept : ∀ o, query o = now o → query' o = now o

theorem Grows.trans {now q q' q'' : Query} (h : Grows now q q') (h' : Grows now q' q'') :
    Grows now q q'' where
  agrees := h'.agrees
  kept := fun o ho => h'.kept o (h.kept o ho)

theorem Grows.refl {now q : Query} (h : Agrees now q) : Grows now q q where
  agrees := h
  kept := fun _ ho => ho

section Envelope

variable (deepEqual : GoValue → GoValue → Bool)

/-- The fields asked for of an object, with all of them where none is named. -/
def itemsOf (now : Query) (e : String × Option (List String)) : List String :=
  e.2.getD (statusKeys (now e.1))

/-- The answer as it follows from the reading of the tick and the cache of the last one. -/
def answer (isQuery : Bool) (now lastQuery : Query) (subscription : Subscription) : Message :=
  (subscription.map fun e => (e.1, changedItems deepEqual isQuery (now e.1)
    (some ((lastQuery e.1).getD ⟨.any, []⟩)) (itemsOf now e))).filter
      fun e => !e.2.isEmpty || isQuery

variable {deepEqual} {isQuery : Bool} {printer : Printer} {lastQuery query : Query}
  {subscription : Subscription}

variable {now : Query} {value : GoValue}

theorem mem_keys {k : String × String} (h : Subscription.Explicit subscription) (now : Query) :
    k ∈ Subscription.keys subscription ↔ ∃ e ∈ subscription, e.1 = k.1 ∧ k.2 ∈ itemsOf now e := by
  unfold Subscription.keys itemsOf
  rw [mem_flatMap]
  refine exists_congr fun e => and_congr_right fun he => ?_
  obtain ⟨items, hitems⟩ := Option.isSome_iff_exists.mp (h e he)
  obtain ⟨o, item⟩ := k
  rw [hitems, mem_map]
  constructor
  · rintro ⟨item, hitem, ⟨⟩⟩
    exact ⟨rfl, hitem⟩
  · rintro ⟨rfl, hitem⟩
    exact ⟨item, hitem, rfl⟩

end Envelope

/-! ### One tick -/

/-- Fields are named, updates are sent, and the last tick read what the client asks for. -/
structure Subscriber.InStep (now lastQuery : Query) (client : Subscriber Conn) : Prop where
  explicit : Subscription.Explicit client.subscription
  template : client.template.isSome
  cached : ∀ e ∈ client.subscription, lastQuery e.1 = now e.1
  upToDate : client.UpToDate now

def PendingQuery.WellFormed (pending : PendingQuery Conn) : Prop :=
  ∀ conn template, pending.subscriber = some (conn, template) →
    Subscription.Explicit pending.subscription ∧ template.isSome

variable {client : Subscriber Conn}

section Tick

variable {deepEqual : GoValue → GoValue → Bool} {printer : Printer} {lastQuery query : Query}
  (hsound : ∀ a b, deepEqual a b = true → a = b)

include hsound

end Tick

/-! ### Runs -/

/-- All who were answered are in step with the last reading, and the open subscribers are among
the clients. -/
structure QueryStatusHelper.InStep (now : Query) (h : QueryStatusHelper Conn) : Prop where
  clients : ∀ client ∈ h.clients, client.InStep now h.lastQuery
  entering : ∀ client ∈ h.entering, client.InStep now h.lastQuery
  pending : ∀ p ∈ h.pendingQueries, p.WellFormed
  subscribed : ∀ conn subscription, h.subscribed conn = some subscription →
    conn ∉ h.closed ∧ ∃ client ∈ h.clients, client.conn = conn ∧
      client.subscription = subscription

section Runs

variable [DecidableEq Conn] {deepEqual : GoValue → GoValue → Bool}

namespace QueryStatusHelper

variable {now : Query} {h : QueryStatusHelper Conn}

section

variable (hin : h.InStep now)
include hin

end

end QueryStatusHelper

open QueryStatusHelper

end Runs

end Webhooks
