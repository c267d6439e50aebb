/-
The timers of the reactors (`Register_timer`, `Update_timer`, `Unregister_timer` and
`_check_timers` of `SelectReactor`, `PollReactor` and `EPollReactor` in
`internal/pkg/reactor/reactor.go`).

A check goes through the slice of timers as it was at its begin and calls those that are due.  A
callback may register, update and unregister timers, and returns the next wake time of its own.
The reactors share some of the code and replace other parts of it: they build the slice of timers
anew or write into its array, and take for the next check the old or the new wake time of a timer
that was called.

A timer is known by the number of its registration.  Beyond the fields of the reactors the state
has which timers were unregistered, and the calls of the last check.

* `right_perform` — an operation leaves the right timers in the slice, unless it unregisters a
  timer of a poll reactor;
* `perform_untouched` — and it leaves the slice of a check that is going on as it is.
-/
import KlipperGo.ExactArith
import KlipperGo.GoSlice

open GoSlice List

namespace Reactor

inductive Kind
  | select
  | poll
  | epoll
  deriving DecidableEq

inductive TimerOp (K : Type*)
  | register (waketime : K)
  | update (timer : ℕ) (waketime : K)
  | unregister (timer : ℕ)

def TimerOp.timer {K : Type*} : TimerOp K → Option ℕ
  | .register _ => none
  | .update timer _ => some timer
  | .unregister timer => some timer

/-- What a callback does: operations on timers, and the wake time it returns. -/
structure Reply (K : Type*) where
  ops : List (TimerOp K)
  waketime : K

/-- Operations outside of checks, and checks; the callbacks reply by the positions of their timers
in the slice. -/
inductive TimerEvent (K : Type*)
  | op (op : TimerOp K)
  | check (eventtime : K) (busy : Bool) (replies : ℕ → Reply K)

/-- A call: its position in the slice, the timer and its wake time, and whether the timer was
unregistered before. -/
structure TimerCall (K : Type*) where
  position : ℕ
  timer : ℕ
  waketime : K
  unregistered : Bool

structure Timers (K : Type*) where
  heap : Heap ℕ
  timers : Slice
  nextTimer : K
  waketime : ℕ → K
  count : ℕ
  unregistered : ℕ → Bool
  calls : List (TimerCall K)

section Defs

variable {K : Type*} [Field K] [LinearOrder K]

def never : K := 9999999999999999

namespace Timers

variable (room : ℕ → ℕ) (s : Timers K)

def stored : List ℕ := s.heap.elements s.timers

def newReactor : Timers K where
  heap := { arrays := fun _ => [], capacity := fun _ => 0, fresh := 1 }
  timers := ⟨0, 0⟩
  nextTimer := never
  waketime := fun _ => never
  count := 0
  unregistered := fun _ => false
  calls := []

variable (kind : Kind) (s : Timers K)

/-- The slice with another timer: the select reactor copies its slice first. -/
def appended : Heap ℕ × Slice :=
  match kind with
  | .select => s.heap.alloc room (s.stored ++ [s.count])
  | .poll | .epoll => s.heap.append room s.timers s.count

variable (timer : ℕ) (waketime : K)

def registerTimer : Timers K :=
  { s with
    heap := (appended room kind s).1
    timers := (appended room kind s).2
    nextTimer := min s.nextTimer waketime
    waketime := Function.update s.waketime s.count waketime
    count := s.count + 1 }

/-- `Update_timer`; there is no handle of a timer that was not registered. -/
def updateTimer : Timers K :=
  if timer < s.count then
    { s with
      waketime := Function.update s.waketime timer waketime
      nextTimer := min s.nextTimer waketime }
  else s

/-- The slice without a timer.  The poll reactor means to copy what is behind the timer. -/
def removed : Heap ℕ × Slice :=
  match kind with
  | .select | .epoll => s.heap.alloc room (s.stored.filter (· ≠ timer))
  | .poll =>
    match s.stored.idxOf? timer with
    | none => (s.heap, s.timers)
    | some i => s.heap.copyDown s.timers i

def unregisterTimer : Timers K :=
  if timer < s.count then
    { s with
      heap := (removed room kind s timer).1
      timers := (removed room kind s timer).2
      waketime := Function.update s.waketime timer never
      unregistered := Function.update s.unregistered timer true }
  else s

def perform : TimerOp K → Timers K
  | .register waketime => s.registerTimer room kind waketime
  | .update timer waketime => s.updateTimer timer waketime
  | .unregister timer => s.unregisterTimer room kind timer

end Timers

/-- The wake time that `_check_timers` takes into account after a call.  The select reactor, and
the poll reactor with it, declares a new variable for the returned one. -/
def Kind.afterCall (kind : Kind) (waketime returned : K) : K :=
  match kind with
  | .select | .poll => waketime
  | .epoll => returned

namespace Timers

variable (room : ℕ → ℕ) (s : Timers K)

/-- A timer is called: it does not wake again, unless its callback says so. -/
def called (k t : ℕ) : Timers K :=
  { s with
    waketime := Function.update s.waketime t never
    calls := s.calls ++ [⟨k, t, s.waketime t, s.unregistered t⟩] }

/-- The callback has returned a wake time; the next check is at `time` or before. -/
def returned (t : ℕ) (waketime time : K) : Timers K :=
  { s with
    waketime := Function.update s.waketime t waketime
    nextTimer := min s.nextTimer time }

variable (kind : Kind) (s : Timers K) (eventtime : K) (replies : ℕ → Reply K)

/-- The body of the loop of `_check_timers`: the turn of a timer. -/
def turn (s : Timers K) (k t : ℕ) : Timers K :=
  if s.waketime t ≤ eventtime then
    ((replies k).ops.foldl (perform room kind) (s.called k t)).returned t (replies k).waketime
      (kind.afterCall (s.waketime t) (replies k).waketime)
  else { s with nextTimer := min s.nextTimer (s.waketime t) }

/-- The turn of the timer at a position of the array. -/
def visit (array : ℕ) (s : Timers K) (k : ℕ) : Timers K :=
  match (s.heap.arrays array)[k]? with
  | none => s
  | some t => s.turn room kind eventtime replies k t

/-- `_check_timers`, and the timeout it returns. -/
def checkTimers (busy : Bool) (replies : ℕ → Reply K) : Timers K × K :=
  if eventtime < s.nextTimer then
    ({ s with calls := [] },
      if busy then 0 else min 1 (max (1 / 1000) (s.nextTimer - eventtime)))
  else
    -- the slice is read once; its array may be written while the loop runs
    ((range s.timers.len).foldl (visit room kind eventtime replies s.timers.array)
      { s with nextTimer := never, calls := [] }, 0)

def step : TimerEvent K → Timers K
  | .op op => s.perform room kind op
  | .check eventtime busy replies => (s.checkTimers room kind eventtime busy replies).1

end Timers

end Defs

/-! ### One operation -/

variable {K : Type*} {room : ℕ → ℕ} {kind : Kind} {s : Timers K}

/-- The slice has the timers that were registered and not unregistered. -/
structure Right (s : Timers K) : Prop where
  stored_eq : s.stored = (range s.count).filter fun t => !s.unregistered t
  valid : s.heap.Valid s.timers
  known : ∀ t, s.unregistered t = true → t < s.count

theorem Right.mem_stored (h : Right s) {t : ℕ} :
    t ∈ s.stored ↔ t < s.count ∧ s.unregistered t = false := by
  simp [h.stored_eq]

/-- A slice that the operations of the reactor do not write to. -/
structure Untouched (s : Timers K) (slice : Slice) : Prop where
  valid : s.heap.Valid slice
  len_le : slice.array = s.timers.array → slice.len ≤ s.timers.len

/-- The operation does not unregister a timer of a poll reactor. -/
def Plain (kind : Kind) (count : ℕ) (op : TimerOp K) : Prop :=
  kind = .poll → ∀ t < count, op ≠ .unregister t

variable [Field K] [LinearOrder K]

theorem right_perform (h : Right s) {op : TimerOp K} (hop : Plain kind s.count op) :
    Right (s.perform room kind op) := by
  cases op with
  | register waketime =>
    obtain ⟨hvalid, helements⟩ : (s.appended room kind).1.Valid (s.appended room kind).2 ∧
        (s.appended room kind).1.elements (s.appended room kind).2 = s.stored ++ [s.count] := by
      cases kind with
      | select => exact ⟨valid_alloc _ _ _, elements_alloc _ _ _⟩
      | poll => exact elements_append h.valid room s.count
      | epoll => exact elements_append h.valid room s.count
    have hnew : s.unregistered s.count = false := by
      by_contra hcontra
      exact lt_irrefl _ (h.known _ (by simpa using hcontra))
    refine ⟨helements.trans ?_, hvalid, fun t ht => (h.known t ht).trans (Nat.lt_succ_self _)⟩
    show s.stored ++ [s.count] = (range (s.count + 1)).filter fun t => !s.unregistered t
    rw [range_succ, filter_append, h.stored_eq, filter_singleton, hnew]
    rfl
  | update t waketime =>
    rw [Timers.perform, Timers.updateTimer]
    split
    · exact { h with }
    · exact h
  | unregister t =>
    by_cases ht : t < s.count
    · obtain ⟨hvalid, helements⟩ : (s.removed room kind t).1.Valid (s.removed room kind t).2 ∧
          (s.removed room kind t).1.elements (s.removed room kind t).2 =
            s.stored.filter (· ≠ t) := by
        cases kind with
        | select => exact ⟨valid_alloc _ _ _, elements_alloc _ _ _⟩
        | poll => exact absurd rfl (hop rfl t ht)
        | epoll => exact ⟨valid_alloc _ _ _, elements_alloc _ _ _⟩
      rw [Timers.perform, Timers.unregisterTimer, if_pos ht]
      refine ⟨helements.trans ?_, hvalid, fun i hi => ?_⟩
      · rw [h.stored_eq, filter_filter]
        refine filter_congr fun i _ => ?_
        by_cases hi : i = t <;> simp [hi]
      · by_cases hit : i = t
        · rw [hit]
          exact ht
        · exact h.known i (by simpa [hit] using hi)
    · rw [Timers.perform, Timers.unregisterTimer, if_neg ht]
      exact h

theorem perform_untouched (room : ℕ → ℕ) {slice : Slice} (hs : s.heap.Valid s.timers)
    (h : Untouched s slice) {op : TimerOp K} (hop : Plain kind s.count op) :
    Untouched (s.perform room kind op) slice ∧
      (s.perform room kind op).heap.elements slice = s.heap.elements slice := by
  -- a new array is not the one of the slice
  have halloc : ∀ xs, (s.heap.alloc room xs).1.Valid slice ∧
      (s.heap.alloc room xs).1.elements slice = s.heap.elements slice ∧
      (slice.array = (s.heap.alloc room xs).2.array → slice.len ≤ (s.heap.alloc room xs).2.len) :=
    fun xs => ⟨(h.valid.elements_alloc room xs).1, (h.valid.elements_alloc room xs).2.1,
      fun heq => absurd heq (h.valid.elements_alloc room xs).2.2⟩
  cases op with
  | register waketime =>
    have happended : (s.appended room kind).1.Valid slice ∧
        (s.appended room kind).1.elements slice = s.heap.elements slice ∧
        (slice.array = (s.appended room kind).2.array →
          slice.len ≤ (s.appended room kind).2.len) := by
      cases kind with
      | select => exact halloc _
      | poll => exact h.valid.elements_append hs h.len_le room s.count
      | epoll => exact h.valid.elements_append hs h.len_le room s.count
    exact ⟨⟨happended.1, happended.2.2⟩, happended.2.1⟩
  | update t waketime =>
    rw [Timers.perform, Timers.updateTimer]
    split <;> exact ⟨⟨h.valid, h.len_le⟩, rfl⟩
  | unregister t =>
    rw [Timers.perform, Timers.unregisterTimer]
    split
    · next ht =>
      cases kind with
      | select => exact ⟨⟨(halloc _).1, (halloc _).2.2⟩, (halloc _).2.1⟩
      | poll => exact absurd rfl (hop rfl t ht)
      | epoll => exact ⟨⟨(halloc _).1, (halloc _).2.2⟩, (halloc _).2.1⟩
    · exact ⟨h, rfl⟩

end Reactor
