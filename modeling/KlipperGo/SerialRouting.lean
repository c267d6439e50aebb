/-
The routing of received messages to their handlers
(`internal/pkg/serialhdl/serialhdl.go`).

Handlers are kept under a text: the name of the message, with the decimal
numeral of the object id behind it when there is one.  What the table is for is
a map from names and optional ids; it is kept beside, and the two are compared
along every run of registrations.

* `simulates_step` — the tables then stay in step.
-/
import KlipperGo.Decimal
import KlipperGo.Runs
import Mathlib.Algebra.Ring.Int.Defs

open Runs Function

namespace Serialhdl

/-- An object id: an `int` where a response is registered, an `int64` in a message. -/
abbrev Oid := { k : ℤ // -2 ^ 63 ≤ k ∧ k < 2 ^ 63 }

/-- The entries of the handler table: a plain callback, an `ownedResponseHandler`, or a value of a
type that the dispatcher does not know. -/
inductive Handler (C : Type*) where
  | plain (callback : C)
  | owned (id : ℕ) (callback : C)
  | unsupported

def Handler.callback {C : Type*} : Handler C → Option C
  | plain callback => some callback
  | owned _ callback => some callback
  | unsupported => none

structure SerialReader (C : Type*) where
  handlers : String → Option (Handler C)
  nextHandlerID : ℕ

/-- Calls that change the table; a response registered with no handler is taken out. -/
inductive Event (C : Type*) where
  | registerResponse (handler : Option (Handler C)) (name : String) (oid : Option Oid)
  | registerOwnedResponse (callback : C) (name : String) (oid : Option Oid)
  | unregisterOwnedResponse (name : String) (oid : Option Oid) (handlerID : ℕ)

def Event.name {C : Type*} : Event C → String
  | registerResponse _ name _ => name
  | registerOwnedResponse _ name _ => name
  | unregisterOwnedResponse name _ _ => name

variable (name : String) (oid : Option Oid)

/-- `getResponseKey`; `registerResponseLocked` builds its key in the same way. -/
def getResponseKey : String :=
  match oid with
  | some oid => if 0 ≤ oid.val then name ++ toString oid.val else name
  | none => name

/-- The key of a received message in `dispatchParsedParams`. -/
def messageKey : String :=
  match oid with
  | some oid => name ++ toString oid.val
  | none => name

namespace SerialReader

variable {C : Type*} (self : SerialReader C)

def registerResponseLocked (handler : Option (Handler C)) (name : String)
    (oid : Option Oid) : SerialReader C :=
  { self with handlers := update self.handlers (getResponseKey name oid) handler }

def step : Event C → SerialReader C
  | .registerResponse handler name oid => self.registerResponseLocked handler name oid
  | .registerOwnedResponse callback name oid =>
    let handlerID := self.nextHandlerID + 1
    { self.registerResponseLocked (some (.owned handlerID callback)) name oid with
      nextHandlerID := handlerID }
  | .unregisterOwnedResponse name oid handlerID =>
    match self.handlers (getResponseKey name oid) with
    | some (.owned id _) =>
      if id = handlerID then self.registerResponseLocked none name oid else self
    | _ => self

/-- `dispatchParsedParams`: the callback a message is delivered to. -/
def dispatchParsedParams (name : String) (oid : Option Oid) : Option C :=
  (self.handlers (messageKey name oid)).bind Handler.callback

def start : SerialReader C where
  handlers := fun _ => none
  nextHandlerID := 0

end SerialReader

/-! ### What the table is for -/

/-- What a response is registered for: a name, and an object id if there is one. -/
abbrev Target := String × Option Oid

/-- A negative id stands for none when a response is registered. -/
def registrationTarget : Target :=
  (name, oid.filter (0 ≤ ·.val))

structure RoutingTable (C : Type*) where
  handlers : Target → Option (Handler C)
  nextHandlerID : ℕ

namespace RoutingTable

variable {C : Type*} (self : RoutingTable C)

def register (handler : Option (Handler C)) (name : String) (oid : Option Oid) : RoutingTable C :=
  { self with handlers := update self.handlers (registrationTarget name oid) handler }

def step : Event C → RoutingTable C
  | .registerResponse handler name oid => self.register handler name oid
  | .registerOwnedResponse callback name oid =>
    let handlerID := self.nextHandlerID + 1
    { self.register (some (.owned handlerID callback)) name oid with nextHandlerID := handlerID }
  | .unregisterOwnedResponse name oid handlerID =>
    match self.handlers (registrationTarget name oid) with
    | some (.owned id _) => if id = handlerID then self.register none name oid else self
    | _ => self

/-- The callback a message is meant to be delivered to. -/
def route (name : String) (oid : Option Oid) : Option C :=
  (self.handlers (name, oid)).bind Handler.callback

def start : RoutingTable C where
  handlers := fun _ => none
  nextHandlerID := 0

end RoutingTable

/-! ### Keys -/

/-- No name is another one with an id or a sign behind it. -/
def NoClash (names : Set String) : Prop :=
  ∀ a ∈ names, ∀ b ∈ names, b ≠ a ++ "-" ∧ ∀ k : Oid, b ≠ a ++ toString k.val

def Target.key (t : Target) : String := messageKey t.1 t.2

theorem getResponseKey_eq : getResponseKey name oid = (registrationTarget name oid).key := by
  cases oid with
  | none => rfl
  | some oid =>
    by_cases h : 0 ≤ oid.val <;>
      simp [getResponseKey, registrationTarget, Target.key, messageKey, Option.filter, h]

/-- What lies between an id and zero is an id. -/
theorem oid_of_mem_uIcc {oid : Oid} {k : ℤ} (hk : k ∈ Set.uIcc 0 oid.val) :
    -2 ^ 63 ≤ k ∧ k < 2 ^ 63 := by
  rcases Set.mem_uIcc.mp hk with hk | hk <;> omega

/-- Without clashes, a key is the key of one target only. -/
theorem key_inj {names : Set String} (hclash : NoClash names) {t u : Target} (ht : t.1 ∈ names)
    (hu : u.1 ∈ names) (h : t.key = u.key) : t = u := by
  obtain ⟨a, oid⟩ := t
  obtain ⟨b, id⟩ := u
  have hforth := hclash a ht b hu
  have hback := hclash b hu a ht
  cases oid with
  | none =>
    cases id with
    | none =>
      obtain rfl : a = b := h
      rfl
    | some id => exact absurd h (hback.2 id)
  | some oid =>
    cases id with
    | none => exact absurd h.symm (hforth.2 oid)
    | some id =>
      rcases Decimal.append_toString_inj h with
        ⟨rfl, heq⟩ | (hsign | ⟨k, hk, hb⟩) | (hsign | ⟨k, hk, ha⟩)
      · rw [Subtype.ext heq]
      · exact absurd hsign hforth.1
      · exact absurd hb (hforth.2 ⟨k, oid_of_mem_uIcc hk⟩)
      · exact absurd hsign hback.1
      · exact absurd ha (hback.2 ⟨k, oid_of_mem_uIcc hk⟩)

/-! ### The table and what it is for -/

section Simulation

variable {C : Type*} {names : Set String}

/-- The table holds under the key of a target what is registered for it. -/
structure Simulates (names : Set String) (r : SerialReader C) (t : RoutingTable C) : Prop where
  nextHandlerID : r.nextHandlerID = t.nextHandlerID
  agree : ∀ u : Target, u.1 ∈ names → r.handlers u.key = t.handlers u

theorem simulates_start : Simulates names (SerialReader.start : SerialReader C)
    RoutingTable.start := ⟨rfl, fun _ _ => rfl⟩

theorem Simulates.register {r : SerialReader C} {t : RoutingTable C} (h : Simulates names r t)
    (hclash : NoClash names) {name : String} (hname : name ∈ names) (oid : Option Oid)
    (handler : Option (Handler C)) :
    Simulates names (r.registerResponseLocked handler name oid) (t.register handler name oid) where
  nextHandlerID := h.nextHandlerID
  agree := by
    intro u hu
    show update r.handlers (getResponseKey name oid) handler u.key =
      update t.handlers (registrationTarget name oid) handler u
    rw [getResponseKey_eq]
    by_cases heq : u = registrationTarget name oid
    · rw [heq, update_self, update_self]
    · have hkey : u.key ≠ (registrationTarget name oid).key := fun hkey =>
        heq (key_inj hclash hu hname hkey)
      rw [update_of_ne hkey, update_of_ne heq]
      exact h.agree u hu

theorem simulates_step (hclash : NoClash names) (r : SerialReader C) (t : RoutingTable C)
    (e : Event C) (h : Simulates names r t) (hname : e.name ∈ names) :
    Simulates names (r.step e) (t.step e) := by
  cases e with
  | registerResponse handler name oid => exact h.register hclash hname oid handler
  | registerOwnedResponse callback name oid =>
    simp only [SerialReader.step, RoutingTable.step, h.nextHandlerID]
    have hreg := h.register hclash hname oid (some (.owned (t.nextHandlerID + 1) callback))
    exact ⟨rfl, hreg.agree⟩
  | unregisterOwnedResponse name oid handlerID =>
    have hsame : r.handlers (getResponseKey name oid) =
        t.handlers (registrationTarget name oid) := by
      rw [getResponseKey_eq]
      exact h.agree _ hname
    simp only [SerialReader.step, RoutingTable.step, hsame]
    split
    · split
      · exact h.register hclash hname oid none
      · exact h
    · exact h

theorem Simulates.dispatch {r : SerialReader C} {t : RoutingTable C} (h : Simulates names r t)
    {name : String} (hname : name ∈ names) (oid : Option Oid) :
    r.dispatchParsedParams name oid = t.route name oid :=
  congrArg (·.bind Handler.callback) (h.agree (name, oid) hname)

end Simulation

/-! ### Exact routing -/

/-- Along every run of registrations under the given names, a message under one of them is
delivered to the handler registered for exactly its name and id, and to no other. -/
def RoutesExactly (C : Type*) (names : Set String) : Prop :=
  ∀ events : List (Event C), (∀ e ∈ events, e.name ∈ names) → ∀ name ∈ names, ∀ oid,
    (final SerialReader.step SerialReader.start events).dispatchParsedParams name oid =
      (final RoutingTable.step RoutingTable.start events).route name oid

/-- A single registration shows that a message with its key has to be meant for it. -/
theorem RoutesExactly.target_eq {C : Type*} [Inhabited C] {names : Set String}
    (h : RoutesExactly C names) {a b : String} (ha : a ∈ names) (hb : b ∈ names)
    {oid id : Option Oid} (hkey : messageKey a oid = getResponseKey b id) :
    (a, oid) = registrationTarget b id := by
  have hroute := h [.registerResponse (some (.plain default)) b id] (by simpa [Event.name] using hb)
    a ha oid
  change (update (fun _ => none) (getResponseKey b id) (some (Handler.plain default))
      (messageKey a oid)).bind Handler.callback =
    (update (fun _ => none) (registrationTarget b id) (some (Handler.plain default))
      (a, oid)).bind Handler.callback at hroute
  rw [hkey, update_self] at hroute
  by_contra hne
  rw [update_of_ne hne] at hroute
  cases hroute

/-- Messages are routed exactly under the sets of names without clashes. -/
theorem routes_exactly_iff {C : Type*} [Inhabited C] (names : Set String) :
    RoutesExactly C names ↔ NoClash names := by
  constructor
  · intro hroutes a ha b hb
    constructor
    · -- a registration for an id, and a message with its negative
      rintro rfl
      have hkey : messageKey a (some ⟨-1, by decide⟩) =
          getResponseKey (a ++ "-") (some ⟨1, by decide⟩) := by
        show a ++ "-1" = a ++ "-" ++ "1"
        rw [String.append_assoc]
        rfl
      have hid := congrArg Prod.snd (hroutes.target_eq ha hb hkey)
      simp [registrationTarget, Option.filter] at hid
    · rintro k rfl
      have hkey : messageKey a (some k) = getResponseKey (a ++ toString k.val) none := rfl
      cases congrArg Prod.snd (hroutes.target_eq ha hb hkey)
  · intro hclash events hevents name hname oid
    have hsim := final_of_simulation (simulates_step hclash) (simulates_start (C := C)) hevents
    exact hsim.dispatch hname oid

/-- A message of the first stepper reaches a handler registered under another name. -/
theorem routes_stepper1 : (final SerialReader.step SerialReader.start
      [.registerResponse (some (.plain 7)) "stepper1" none]).dispatchParsedParams
        "stepper" (some ⟨1, by decide⟩) = some 7 ∧
      (final RoutingTable.step RoutingTable.start
        [.registerResponse (some (.plain 7)) "stepper1" none]).route
          "stepper" (some ⟨1, by decide⟩) = (none : Option ℕ) := by
  decide

end Serialhdl
