/-
Queries over the serial line (`SerialRetryCommand`, `RetryAsyncCommand` and
`rawSendWaitAckWithPoll` of `internal/pkg/serialhdl/serialhdl.go`).

A query registers a handler for its response, sends its commands until there is
one, and takes the handler out again.  Its steps are interleaved with everything
else that happens to the handler table, the pending notifications and the queue;
what the clock and `Wait` tell it is arbitrary.

* `without_step` — what others do to the table does not depend on the handler of the query;
* `ownStep_cases` — what a step of the query can do;
* `Held.ownStep`, `Held.step` — the query is the only one to hold its handler and notifications;
* `cleans_up_iff` — which queries leave nothing behind.
-/
import KlipperGo.SerialRouting

open Runs List Function

namespace Serialhdl

inductive Strategy where
  | serialRetry
  | retryAsync
  deriving DecidableEq

/-- How `get_response` ends. -/
inductive QueryOutcome where
  | response
  | noCommand
  | indexOutOfRange
  | connectionClosed
  | unableToObtain
  | timeoutOnSend
  | timeoutOnWait
  deriving DecidableEq

/-- Where the query is.  Before it sends the command that is acknowledged, it sends the others;
while it waits for the acknowledgement, it has a notification. -/
inductive QueryPc where
  | enter
  | raw (i : ℕ)
  | sending (nid : ℕ)
  | polling (nid : ℕ)
  | woken (nid : ℕ)
  | acked (ack : Bool)
  | sleeping
  | querying
  | queried
  | releasing (outcome : QueryOutcome)
  | done (outcome : QueryOutcome)
  deriving DecidableEq

@[simp]
def QueryPc.Awaits : QueryPc → ℕ → Prop
  | sending nid, n => n = nid
  | polling nid, n => n = nid
  | woken nid, n => n = nid
  | _, _ => False

/-- What a query was made with. -/
structure QueryCommand where
  strategy : Strategy
  name : String
  oid : Option Oid
  handlerID : ℕ
  cmds : List (List ℤ)

/-- The commands that are sent, the last one with a notification: `RetryAsyncCommand` sends the
first of its commands only. -/
def Strategy.sends (strategy : Strategy) (cmds : List (List ℤ)) : List (List ℤ) :=
  match strategy with
  | .serialRetry => cmds
  | .retryAsync => cmds.take 1

/-- There is a command to send, and none of those that are sent is empty. -/
def Strategy.Sendable (strategy : Strategy) (cmds : List (List ℤ)) : Prop :=
  strategy.sends cmds ≠ [] ∧ [] ∉ strategy.sends cmds

theorem Strategy.Sendable.cmds_ne_nil {strategy : Strategy} {cmds : List (List ℤ)}
    (h : strategy.Sendable cmds) : cmds ≠ [] := by
  rintro rfl
  cases strategy with
  | serialRetry => exact h.1 rfl
  | retryAsync => exact h.1 rfl

/-- The query and what it shares: the handler table, the pending notifications and the queue.
Beside it the notifications it has made, and the table as the others have left it. -/
structure Query (C : Type*) where
  pc : QueryPc
  retries : ℕ
  lastParams : Bool
  reader : SerialReader C
  pendingNotifications : List ℕ
  lastNotifyID : ℕ
  queueActive : Bool
  sent : List ℕ
  others : SerialReader C

/-- What a step of the query finds out: that a `Wait` returned something, that it is too late. -/
structure Observed where
  waited : Bool
  late : Bool

namespace Query

variable {C : Type*} (self : Query C)

/-- A new notification. -/
def send : Query C :=
  { self with
    pc := .sending (self.lastNotifyID + 1)
    lastNotifyID := self.lastNotifyID + 1
    pendingNotifications := (self.lastNotifyID + 1) :: self.pendingNotifications
    sent := (self.lastNotifyID + 1) :: self.sent }

/-- The return from `rawSendWaitAckWithPoll`, with parameters or without. -/
def acknowledge (nid : ℕ) (ack : Bool) : Query C :=
  { self with
    pc := .acked ack
    pendingNotifications := self.pendingNotifications.filter (· ≠ nid) }

/-- `Unregister_owned_response`, and the end. -/
def release (command : QueryCommand) (outcome : QueryOutcome) : Query C :=
  { self with
    pc := .done outcome
    reader := self.reader.step
      (.unregisterOwnedResponse command.name command.oid command.handlerID) }

/-- `Serialqueue_send` takes the address of the first byte, so it panics if there is none.  Without
a queue nothing is sent. -/
def sendCmd (cmd : Option (List ℤ)) (pc : QueryPc) : Query C :=
  if self.queueActive && cmd == some [] then { self with pc := .done .indexOutOfRange }
  else { self with pc := pc }

/-- A step of `get_response`; only `SerialRetryCommand` polls for the response while it waits for an
acknowledgement. -/
def ownStep (command : QueryCommand) (self : Query C) (obs : Observed) : Query C :=
  let polled := decide (command.strategy = .serialRetry) && self.lastParams
  let sends := command.strategy.sends command.cmds
  match self.pc with
  | .enter =>
    if polled then { self with pc := .releasing .response }
    else if command.cmds = [] then
      match command.strategy with
      | .serialRetry => { self with pc := .done .noCommand }
      | .retryAsync => { self with pc := .done .indexOutOfRange }
    else { self with pc := .raw 0 }
  | .raw i => if i + 1 < sends.length then self.sendCmd sends[i]? (.raw (i + 1)) else self.send
  | .sending nid =>
    if self.queueActive then self.sendCmd sends.getLast? (.polling nid)
    else self.acknowledge nid false
  | .polling nid => if polled then self.acknowledge nid true else { self with pc := .woken nid }
  | .woken nid =>
    if obs.waited || polled then self.acknowledge nid true
    else if obs.late then self.acknowledge nid false
    else { self with pc := .polling nid }
  | .acked ack =>
    match command.strategy with
    | .serialRetry =>
      if self.lastParams then { self with pc := .releasing .response }
      else if !ack && !self.queueActive then { self with pc := .releasing .connectionClosed }
      else if self.retries = 0 then { self with pc := .releasing .unableToObtain }
      else { self with pc := .sleeping }
    | .retryAsync =>
      if ack then { self with pc := .querying }
      else if self.lastParams then { self with pc := .releasing .response }
      else { self with pc := .releasing .timeoutOnSend }
  | .sleeping =>
    if self.lastParams then { self with pc := .releasing .response }
    else { self with pc := .enter, retries := self.retries - 1 }
  | .querying =>
    if self.lastParams then { self with pc := .releasing .response }
    else { self with pc := .queried }
  | .queried =>
    if obs.waited || self.lastParams then { self with pc := .releasing .response }
    else if obs.late then { self with pc := .releasing .timeoutOnWait }
    else self.sendCmd sends.getLast? .querying
  | .releasing outcome => self.release command outcome
  | .done _ => self

end Query

/-- A step of the query, or of the others: changes of the handler table, a response, an
acknowledgement or timeout of a notification, a notification of another sender, and changes of the
connection. -/
inductive QueryEvent (C : Type*) where
  | own (obs : Observed)
  | table (e : Event C)
  | respond
  | notify (nid : ℕ)
  | store
  | disconnect
  | connect

/-- Others register no handler under the id of the query, and unregister only their own. -/
def QueryEvent.Foreign {C : Type*} (handlerID : ℕ) : QueryEvent C → Prop
  | table (.registerResponse (some (.owned _ _)) _ _) => False
  | table (.unregisterOwnedResponse _ _ id) => id ≠ handlerID
  | _ => True

namespace Query

variable {C : Type*}

def step (command : QueryCommand) (self : Query C) : QueryEvent C → Query C
  | .own obs => self.ownStep command obs
  | .table e => { self with reader := self.reader.step e, others := self.others.step e }
  | .respond => { self with lastParams := true }
  | .notify nid =>
    { self with pendingNotifications := self.pendingNotifications.filter (· ≠ nid) }
  | .store =>
    { self with
      lastNotifyID := self.lastNotifyID + 1
      pendingNotifications := (self.lastNotifyID + 1) :: self.pendingNotifications }
  | .disconnect => { self with queueActive := false, pendingNotifications := [] }
  | .connect => { self with queueActive := true }

/-- A query just made: its handler is in the table. -/
def new (reader : SerialReader C) (callback : C) (name : String) (oid : Option Oid)
    (pendingNotifications : List ℕ) (lastNotifyID : ℕ) (queueActive : Bool) : Query C :=
  let reader := reader.step (.registerOwnedResponse callback name oid)
  { pc := .enter, retries := 5, lastParams := false, reader, others := reader
    pendingNotifications, lastNotifyID, queueActive, sent := [] }

end Query

/-! ### The table without the handler of the query -/

section

variable {C : Type*} {handlerID : ℕ}

/-- An entry, unless it is the handler with the id. -/
def Handler.without (handlerID : ℕ) : Option (Handler C) → Option (Handler C)
  | some (.owned id callback) => if id = handlerID then none else some (.owned id callback)
  | h => h

def SerialReader.without (handlerID : ℕ) (self : SerialReader C) : SerialReader C :=
  { self with handlers := Handler.without handlerID ∘ self.handlers }

def Event.key : Event C → String
  | registerResponse _ name oid => getResponseKey name oid
  | registerOwnedResponse _ name oid => getResponseKey name oid
  | unregisterOwnedResponse name oid _ => getResponseKey name oid

/-- What it makes of the entry there. -/
def Event.entry (nextHandlerID : ℕ) : Event C → Option (Handler C) → Option (Handler C)
  | registerResponse handler _ _, _ => handler
  | registerOwnedResponse callback _ _, _ => some (.owned (nextHandlerID + 1) callback)
  | unregisterOwnedResponse _ _ id, h => Handler.without id h

def Event.nextHandlerID (n : ℕ) : Event C → ℕ
  | registerOwnedResponse _ _ _ => n + 1
  | _ => n

variable (self : SerialReader C)

/-- Every event acts on one entry. -/
theorem SerialReader.step_eq (e : Event C) : self.step e =
      { handlers := update self.handlers e.key
          (e.entry self.nextHandlerID (self.handlers e.key))
        nextHandlerID := e.nextHandlerID self.nextHandlerID } := by
  rcases e with ⟨handler, name, oid⟩ | ⟨callback, name, oid⟩ | ⟨name, oid, id⟩
  · rfl
  · rfl
  · have hkept : self = ⟨update self.handlers (getResponseKey name oid)
        (self.handlers (getResponseKey name oid)), self.nextHandlerID⟩ := by
      rw [update_eq_self]
    rcases hh : self.handlers (getResponseKey name oid) with _ | (_ | ⟨id', _⟩ | _) <;>
      simp only [step, Event.key, Event.entry, Event.nextHandlerID, Handler.without, hh] at hkept ⊢
    · exact hkept
    · exact hkept
    · split
      · rfl
      · exact hkept
    · exact hkept

/-- What the others make of an entry does not depend on the handler of the query. -/
theorem Event.without_entry {e : Event C} {n : ℕ} (he : (QueryEvent.table e).Foreign handlerID)
    (hn : handlerID ≤ n) (h : Option (Handler C)) :
    Handler.without handlerID (e.entry n h) = e.entry n (Handler.without handlerID h) := by
  rcases e with ⟨_ | (_ | _ | _), name, oid⟩ | ⟨callback, name, oid⟩ | ⟨name, oid, id⟩
  · rfl
  · rfl
  · exact he.elim
  · rfl
  · exact if_neg (by omega)
  · rcases h with _ | (_ | ⟨id', _⟩ | _)
    · rfl
    · rfl
    · simp only [entry, Handler.without]
      split_ifs <;> simp_all
    · rfl

theorem SerialReader.without_step {e : Event C}
    (he : (QueryEvent.table e).Foreign handlerID) (hid : handlerID ≤ self.nextHandlerID) :
    (self.without handlerID).step e = (self.step e).without handlerID := by
  rw [step_eq, step_eq, without, without, comp_update, e.without_entry he hid]
  rfl

/-- The ids of the handlers in the table have been given out. -/
def SerialReader.Numbered : Prop :=
  ∀ key id callback, self.handlers key = some (.owned id callback) → id ≤ self.nextHandlerID

theorem SerialReader.Numbered.without {self : SerialReader C} (h : self.Numbered) (key : String) :
    Handler.without (self.nextHandlerID + 1) (self.handlers key) = self.handlers key := by
  rcases hh : self.handlers key with _ | (_ | ⟨id, callback⟩ | _)
  · rfl
  · rfl
  · have := h key id callback hh
    exact if_neg (by omega)
  · rfl

end

/-! ### The steps of a query -/

namespace Query

variable {C : Type*} {command : QueryCommand}

/-- What a step can do: go on, make a notification, delete the one that is waited for, or release
the handler. -/
inductive OwnStep (command : QueryCommand) (self : Query C) : Query C → Prop where
  | goes (pc : QueryPc) (retries : ℕ)
      (hdone : ∀ outcome, pc = .done outcome ↔ self.pc = .done outcome)
      (hawaits : ∀ nid, self.pc.Awaits nid → pc.Awaits nid) :
      OwnStep command self { self with pc := pc, retries := retries }
  | sends (hpc : ∀ outcome, self.pc ≠ .done outcome) (hawaits : ∀ nid, ¬ self.pc.Awaits nid) :
      OwnStep command self self.send
  | acknowledges (nid : ℕ) (ack : Bool) (hpc : ∀ outcome, self.pc ≠ .done outcome)
      (hawaits : ∀ n, self.pc.Awaits n → n = nid) :
      OwnStep command self (self.acknowledge nid ack)
  | releases (outcome : QueryOutcome) (hpc : self.pc = .releasing outcome) :
      OwnStep command self (self.release command outcome)

theorem sendCmd_of_ne (self : Query C) {cmd : Option (List ℤ)} (hcmd : cmd ≠ some [])
    (pc : QueryPc) : self.sendCmd cmd pc = { self with pc := pc } := by
  simp [sendCmd, hcmd]

theorem ownStep_cases (hcmds : command.strategy.Sendable command.cmds) (self : Query C)
    (obs : Observed) : OwnStep command self (self.ownStep command obs) := by
  have hany : ∀ i : ℕ, (command.strategy.sends command.cmds)[i]? ≠ some [] := fun i h =>
    hcmds.2 (mem_of_getElem? h)
  have hlast : (command.strategy.sends command.cmds).getLast? ≠ some [] := fun h =>
    hcmds.2 (mem_of_getLast? h)
  obtain ⟨pc, retries, lastParams, reader, pending, last, queueActive, sent, others⟩ := self
  have hgo : ∀ {pc' : QueryPc} {retries' : ℕ},
      (∀ outcome, pc' = .done outcome ↔ pc = .done outcome) →
      (∀ nid, pc.Awaits nid → pc'.Awaits nid) →
      OwnStep command ⟨pc, retries, lastParams, reader, pending, last, queueActive, sent, others⟩
        ⟨pc', retries', lastParams, reader, pending, last, queueActive, sent, others⟩ :=
    fun hdone hawaits => .goes _ _ hdone hawaits
  cases pc with
  | enter =>
    simp only [ownStep, if_neg hcmds.cmds_ne_nil]
    split <;> exact hgo (by simp) (by simp)
  | raw i =>
    simp only [ownStep, sendCmd_of_ne _ (hany i)]
    split
    · exact hgo (by simp) (by simp)
    · exact .sends (by simp) (by simp)
  | sending nid =>
    simp only [ownStep, sendCmd_of_ne _ hlast]
    split
    · exact hgo (by simp) (by simp)
    · exact .acknowledges nid false (by simp) (by simp)
  | polling nid =>
    simp only [ownStep]
    split
    · exact .acknowledges nid true (by simp) (by simp)
    · exact hgo (by simp) (by simp)
  | woken nid =>
    simp only [ownStep]
    split
    · exact .acknowledges nid true (by simp) (by simp)
    · split
      · exact .acknowledges nid false (by simp) (by simp)
      · exact hgo (by simp) (by simp)
  | acked ack =>
    simp only [ownStep]
    split <;> split_ifs <;> exact hgo (by simp) (by simp)
  | sleeping =>
    simp only [ownStep]
    split_ifs <;> exact hgo (by simp) (by simp)
  | querying =>
    simp only [ownStep]
    split_ifs <;> exact hgo (by simp) (by simp)
  | queried =>
    simp only [ownStep, sendCmd_of_ne _ hlast]
    split_ifs <;> exact hgo (by simp) (by simp)
  | releasing outcome => exact .releases outcome rfl
  | done outcome => exact hgo (fun _ => Iff.rfl) (fun _ h => h)

/-- The query holds its handler until it is done, and the notification it waits for. -/
structure Held (command : QueryCommand) (q : Query C) : Prop where
  fresh : command.handlerID ≤ q.others.nextHandlerID
  elsewhere : ∀ key, key ≠ getResponseKey command.name command.oid →
    Handler.without command.handlerID (q.others.handlers key) = q.others.handlers key
  released : ∀ outcome, q.pc = .done outcome → q.reader = q.others.without command.handlerID
  registered : (∀ outcome, q.pc ≠ .done outcome) → q.reader = q.others
  sent : ∀ nid ∈ q.sent, nid ≤ q.lastNotifyID ∧ (nid ∈ q.pendingNotifications → q.pc.Awaits nid)

theorem Held.ownStep {self self' : Query C} (h : Held command self)
    (hstep : OwnStep command self self') : Held command self' := by
  cases hstep with
  | goes pc retries hdone hawaits =>
    refine ⟨h.fresh, h.elsewhere, fun outcome hpc => h.released outcome ((hdone outcome).mp hpc),
      fun hpc => h.registered fun outcome hold => hpc outcome ((hdone outcome).mpr hold),
      fun nid hnid => ⟨(h.sent nid hnid).1, fun hin => hawaits nid ((h.sent nid hnid).2 hin)⟩⟩
  | sends hpc hnone =>
    refine ⟨h.fresh, h.elsewhere, by simp [send], fun _ => h.registered hpc, fun nid hnid => ?_⟩
    rcases mem_cons.mp hnid with rfl | hnid
    · exact ⟨Nat.le_refl _, fun _ => rfl⟩
    · obtain ⟨hle, hawaits⟩ := h.sent nid hnid
      refine ⟨Nat.le_succ_of_le hle, fun hin => ?_⟩
      rcases mem_cons.mp hin with heq | hin
      · exact absurd hle (by omega)
      · exact absurd (hawaits hin) (hnone nid)
  | acknowledges nid ack hpc hawaits =>
    refine ⟨h.fresh, h.elsewhere, by simp [acknowledge], fun _ => h.registered hpc,
      fun n hn => ⟨(h.sent n hn).1, fun hin => ?_⟩⟩
    obtain ⟨hin, hne⟩ := mem_filter.mp hin
    exact absurd (hawaits n ((h.sent n hn).2 hin)) (of_decide_eq_true hne)
  | releases outcome hpc =>
    have hreader : self.reader = self.others := h.registered (by simp [hpc])
    refine ⟨h.fresh, h.elsewhere, fun _ _ => ?_, fun hnot => absurd rfl (hnot outcome),
      fun nid hnid => ⟨(h.sent nid hnid).1, fun hin => ?_⟩⟩
    · rw [release, hreader, SerialReader.step_eq, SerialReader.without]
      refine congrArg (SerialReader.mk · _) (funext fun key => ?_)
      by_cases hkey : key = getResponseKey command.name command.oid
      · rw [hkey]
        exact update_self _ _ _
      · exact (update_of_ne hkey _ _).trans (h.elsewhere key hkey).symm
    · have hno := (h.sent nid hnid).2 hin
      rw [hpc] at hno
      exact hno.elim

theorem Held.step {self : Query C} (h : Held command self)
    (hcmds : command.strategy.Sendable command.cmds) {e : QueryEvent C}
    (he : e.Foreign command.handlerID) : Held command (self.step command e) := by
  rcases e with obs | e | _ | nid | _ | _ | _
  · exact h.ownStep (ownStep_cases hcmds self obs)
  · refine ⟨?_, fun key hkey => ?_, fun outcome hpc => ?_, fun hpc => ?_, h.sent⟩
    · show command.handlerID ≤ (self.others.step e).nextHandlerID
      rw [SerialReader.step_eq]
      cases e with
      | registerOwnedResponse => exact Nat.le_succ_of_le h.fresh
      | _ => exact h.fresh
    · show Handler.without _ ((self.others.step e).handlers key) = (self.others.step e).handlers key
      rw [SerialReader.step_eq]
      dsimp only
      by_cases hevent : key = e.key
      · rw [hevent, update_self, e.without_entry he h.fresh, h.elsewhere _ (hevent ▸ hkey)]
      · rw [update_of_ne hevent, h.elsewhere key hkey]
    · show self.reader.step e = (self.others.step e).without command.handlerID
      rw [h.released outcome hpc, self.others.without_step he h.fresh]
    · show self.reader.step e = self.others.step e
      rw [h.registered hpc]
  · exact { h with }
  · exact { h with
      sent := fun n hn => ⟨(h.sent n hn).1, fun hin => (h.sent n hn).2 (mem_filter.mp hin).1⟩ }
  · refine { h with sent := fun n hn => ?_ }
    obtain ⟨hle, hawaits⟩ := h.sent n hn
    refine ⟨Nat.le_succ_of_le hle, fun hin => ?_⟩
    rcases mem_cons.mp hin with heq | hin
    · exact absurd hle (by omega)
    · exact hawaits hin
  · exact { h with sent := fun n hn => ⟨(h.sent n hn).1, fun hin => absurd hin not_mem_nil⟩ }
  · exact { h with }

/-! ### What a query leaves behind -/

/-- The table is as the others have left it, without the handler of the query, and none of its
notifications is pending. -/
def Clean (command : QueryCommand) (self : Query C) : Prop :=
  self.reader = self.others.without command.handlerID ∧
    ∀ nid ∈ self.sent, nid ∉ self.pendingNotifications

/-- However its steps are interleaved with the others', a query is clean when it is done. -/
def CleansUp (C : Type*) (strategy : Strategy) (cmds : List (List ℤ)) : Prop :=
  ∀ (reader : SerialReader C), reader.Numbered →
  ∀ callback name oid pendingNotifications lastNotifyID queueActive (events : List (QueryEvent C)),
    let command : QueryCommand := ⟨strategy, name, oid, reader.nextHandlerID + 1, cmds⟩
    let self := final (step command)
      (new reader callback name oid pendingNotifications lastNotifyID queueActive) events
    (∀ e ∈ events, e.Foreign command.handlerID) → ∀ outcome, self.pc = .done outcome →
      Clean command self

/-- The raw sends, as long as the commands are not empty. -/
theorem raw_run {q : Query C} (hpc : q.pc = .enter) (hparams : q.lastParams = false)
    (hcmds : command.cmds ≠ []) {k : ℕ} (hk : k < (command.strategy.sends command.cmds).length)
    (hne : ∀ j < k, (command.strategy.sends command.cmds)[j]? ≠ some []) :
    final (step command) q (replicate (k + 1) (.own ⟨false, false⟩)) = { q with pc := .raw k } := by
  induction k with
  | zero => simp [Query.step, Query.ownStep, hpc, hparams, hcmds]
  | succ k ih =>
    rw [replicate_succ', final_append, ih (by omega) fun j hj => hne j (by omega)]
    simp only [final_cons, final_nil, Query.step, Query.ownStep, if_pos hk,
      sendCmd_of_ne _ (hne k (by omega))]

/-- A query that cannot send its commands ends with its handler in the table. -/
theorem ends_registered (hcmds : ¬ command.strategy.Sendable command.cmds) {q : Query C}
    (hpc : q.pc = .enter) (hparams : q.lastParams = false) (hqueue : q.queueActive = true) :
    ∃ n outcome, (final (step command) q (replicate n (.own ⟨false, false⟩))).pc = .done outcome ∧
      (final (step command) q (replicate n (.own ⟨false, false⟩))).reader = q.reader ∧
      (final (step command) q (replicate n (.own ⟨false, false⟩))).others = q.others := by
  by_cases hempty : command.cmds = []
  · refine ⟨1, ?_⟩
    simp only [replicate_one, final_cons, final_nil, Query.step, Query.ownStep, hpc, hparams,
      Bool.and_false, Bool.false_eq_true, if_false, if_pos hempty]
    cases command.strategy <;> exact ⟨_, rfl, rfl, rfl⟩
  · set sends := command.strategy.sends command.cmds with hsends
    have hmem : [] ∈ sends := by
      by_contra hnot
      refine hcmds ⟨fun hnil => hempty ?_, hnot⟩
      cases hstrategy : command.strategy <;> simp_all [Strategy.sends]
    -- everything before the first empty command is sent
    have hlt := idxOf_lt_length_of_mem hmem
    have hget : sends[sends.idxOf []]? = some [] := by
      rw [getElem?_eq_getElem hlt, getElem_idxOf hlt]
    have hrun := raw_run hpc hparams hempty hlt fun j hj hget => by
      obtain ⟨hj', hget⟩ := List.getElem?_eq_some_iff.mp hget
      have hnot : sends[j] ≠ [] := by simpa using not_of_lt_findIdx hj
      exact hnot hget
    by_cases hraw : sends.idxOf [] + 1 < sends.length
    · refine ⟨sends.idxOf [] + 2, .indexOutOfRange, ?_⟩
      rw [replicate_succ', final_append, hrun]
      simp [Query.step, Query.ownStep, ← hsends, hraw, hget, sendCmd, hqueue]
    · have hlast : sends.getLast? = some [] := by
        rw [getLast?_eq_getElem?, ← hget]
        congr 1
        omega
      refine ⟨sends.idxOf [] + 3, .indexOutOfRange, ?_⟩
      rw [replicate_succ', final_append, replicate_succ', final_append, hrun]
      simp [Query.step, Query.ownStep, send, ← hsends, hraw, hlast, sendCmd, hqueue]

/-- Exactly the queries that can send their commands clean up. -/
theorem cleans_up_iff (C : Type*) [Inhabited C] (strategy : Strategy) (cmds : List (List ℤ)) :
    CleansUp C strategy cmds ↔ strategy.Sendable cmds := by
  constructor
  · intro h
    by_contra hcmds
    let callback : C := default
    let q := new (SerialReader.start : SerialReader C) callback "" none [] 0 true
    let command : QueryCommand := ⟨strategy, "", none, 1, cmds⟩
    have hcmds : ¬ command.strategy.Sendable command.cmds := hcmds
    obtain ⟨n, outcome, hdone, hreader, hothers⟩ := ends_registered hcmds (q := q) rfl rfl rfl
    have hclean := (h SerialReader.start (fun _ _ _ hno => by cases hno) callback "" none [] 0 true
      (replicate n (.own ⟨false, false⟩)) (fun e he => eq_of_mem_replicate he ▸ trivial) outcome
      hdone).1
    have hentry := congrFun (congrArg SerialReader.handlers
      (hreader.symm.trans (hclean.trans (congrArg (SerialReader.without 1) hothers)))) ""
    simp [q, new, SerialReader.step, SerialReader.registerResponseLocked, SerialReader.without,
      Handler.without, SerialReader.start, getResponseKey] at hentry
  · intro hcmds reader hnumbered callback name oid pending last queueActive events command self
      hforeign outcome hdone
    have hnew : Held command (new reader callback name oid pending last queueActive) := by
      refine ⟨Nat.le_refl _, fun key hkey => ?_, by simp [new], fun _ => rfl, by simp [new]⟩
      have hold : (new reader callback name oid pending last queueActive).others.handlers key =
          reader.handlers key := update_of_ne hkey _ _
      rw [hold]
      exact hnumbered.without key
    have hheld : Held command self := final_of_invariant (I := Held command)
      (G := fun _ e => e.Foreign command.handlerID) (fun s e hs he => hs.step hcmds he) hnew
      (along_of_forall hforeign)
    refine ⟨hheld.released outcome hdone, fun nid hnid hin => ?_⟩
    have hno := (hheld.sent nid hnid).2 hin
    rw [hdone] at hno
    exact hno

/-- A query without commands ends at once, with its handler in the table. -/
theorem empty_query_not_clean :
    let self := final (step ⟨.serialRetry, "clock", none, 1, []⟩)
      (new (SerialReader.start : SerialReader Unit) () "clock" none [] 0 true)
      [.own ⟨false, false⟩]
    self.pc = .done .noCommand ∧ self.reader.handlers "clock" = some (.owned 1 ()) ∧
      ¬ CleansUp Unit .serialRetry [] := by
  refine ⟨rfl, rfl, fun h => ?_⟩
  have hclean := (h SerialReader.start (fun _ _ _ hno => by cases hno) () "clock" none [] 0 true
    [.own ⟨false, false⟩] (by simp [QueryEvent.Foreign]) .noCommand rfl).1
  cases congrFun (congrArg SerialReader.handlers hclean) "clock"

end Query

end Serialhdl
