/-
The mutex of the reactor (`ReactorMutex` of `internal/pkg/reactor/reactor.go`).

A greenlet that finds the mutex locked queues up and sleeps.  An unlock with greenlets in the
queue does not clear the lock: it sets a flag and asks for the first of them to be woken, which
then takes the mutex over.  A greenlet may also be woken for another reason; then it looks at
the flag and at the queue, and goes to sleep again.

The greenlets' sections between two switches are the steps: `lock` is `__enter__` until it
returns or pauses, `wake` one pass of its loop, `unlock` is `__exit__`.  For the statements the
state also has who holds the mutex, who is asleep in `__enter__`, and three logs: who queued up,
to whom the mutex was handed over, and whose timers were set.

* `step_good` — the invariant, kept by every step;
* `pending_persists` — a pending hand-over waits for the first greenlet of the queue, whatever
  the others do.
-/
import KlipperGo.Runs

open List

namespace Reactor

structure ReactorMutex (G : Type*) where
  isLocked : Bool
  nextPending : Bool
  queue : List G
  holders : List G
  sleeping : List G
  queued : List G
  handedOver : List G
  timersSet : List G

inductive MutexEvent (G : Type*)
  | lock (g : G)
  | wake (g : G)
  | unlock (g : G)

section Defs

variable {G : Type*} [DecidableEq G]

/-- `NewReactorMutex`; a mutex that is locked from the start is held by its creator. -/
def newReactorMutex (creator : Option G) : ReactorMutex G where
  isLocked := creator.isSome
  nextPending := false
  queue := []
  holders := creator.toList
  sleeping := []
  queued := []
  handedOver := []
  timersSet := []

variable (self : ReactorMutex G) (g : G)

/-- `__enter__`, until it returns or pauses. -/
def ReactorMutex.lock : ReactorMutex G :=
  if self.isLocked = false then
    { self with isLocked := true, holders := self.holders ++ [g] }
  else
    { self with
      queue := self.queue ++ [g]
      sleeping := self.sleeping ++ [g]
      queued := self.queued ++ [g] }

/-- The pass of the loop in `__enter__` after a pause. -/
def ReactorMutex.wake : ReactorMutex G :=
  if self.nextPending = true ∧ self.queue.head? = some g then
    { self with
      nextPending := false
      queue := self.queue.tail
      holders := self.holders ++ [g]
      sleeping := self.sleeping.erase g
      handedOver := self.handedOver ++ [g] }
  else self

/-- `__exit__`. -/
def ReactorMutex.unlock : ReactorMutex G :=
  match self.queue with
  | [] => { self with isLocked := false, holders := self.holders.erase g }
  | first :: _ =>
    { self with
      nextPending := true
      holders := self.holders.erase g
      timersSet := self.timersSet ++ [first] }

def ReactorMutex.step : MutexEvent G → ReactorMutex G
  | .lock g => self.lock g
  | .wake g => self.wake g
  | .unlock g => self.unlock g

/-- A greenlet takes a step only while it runs: it does not lock or unlock while it sleeps in
`__enter__`, is woken only there, and unlocks only what it has locked. -/
def ReactorMutex.Allowed : MutexEvent G → Prop
  | .lock g => g ∉ self.sleeping
  | .wake g => g ∈ self.sleeping
  | .unlock g => g ∈ self.holders ∧ g ∉ self.sleeping

end Defs

/-! ### The invariant -/

section

variable {G : Type*} [DecidableEq G] {s : ReactorMutex G} {g : G}

/-- At most one greenlet holds the mutex; while a hand-over is pending none does, and somebody
waits for it; the queue is made up of those that sleep, and continues the hand-overs in the
order of arrival. -/
structure ReactorMutex.Good (s : ReactorMutex G) : Prop where
  holders_le : s.holders.length ≤ 1
  locked_iff : s.isLocked = true ↔ s.holders ≠ [] ∨ s.nextPending = true
  pending : s.nextPending = true → s.holders = [] ∧ s.queue ≠ []
  unlocked : s.isLocked = false → s.queue = []
  sleeping_eq : s.sleeping = s.queue
  queue_nodup : s.queue.Nodup
  order : s.handedOver ++ s.queue = s.queued

omit [DecidableEq G] in
theorem newReactorMutex_good (creator : Option G) : (newReactorMutex creator).Good where
  holders_le := by cases creator <;> simp [newReactorMutex]
  locked_iff := by cases creator <;> simp [newReactorMutex]
  pending := nofun
  unlocked _ := rfl
  sleeping_eq := rfl
  queue_nodup := nodup_nil
  order := rfl

omit [DecidableEq G] in
theorem ReactorMutex.Good.lock (h : s.Good) (hg : g ∉ s.sleeping) : (s.lock g).Good := by
  rw [ReactorMutex.lock]
  by_cases hlocked : s.isLocked = false
  · rw [if_pos hlocked]
    have hfree : ¬ (s.holders ≠ [] ∨ s.nextPending = true) := by
      rw [← h.locked_iff, hlocked]
      exact nofun
    obtain ⟨hholders, hpending⟩ := not_or.mp hfree
    rw [not_not] at hholders
    exact { h with
      holders_le := by simp [hholders]
      locked_iff := by simp
      pending := fun hp => absurd hp hpending
      unlocked := nofun }
  · rw [if_neg hlocked]
    exact { h with
      pending := fun hp => ⟨(h.pending hp).1, by simp⟩
      unlocked := fun hfalse => absurd hfalse hlocked
      sleeping_eq := by simp [h.sleeping_eq]
      queue_nodup := by
        rw [h.sleeping_eq] at hg
        refine nodup_append.mpr ⟨h.queue_nodup, by simp, ?_⟩
        intro a ha b hb
        rw [mem_singleton.mp hb]
        rintro rfl
        exact hg ha
      order := by simp [← h.order] }

/-- What a pass of the loop can do: the first of the queue takes a pending mutex over, anybody
else goes to sleep again. -/
theorem ReactorMutex.wake_cases (s : ReactorMutex G) (g : G) :
    (∃ rest, s.nextPending = true ∧ s.queue = g :: rest ∧ s.wake g = { s with
      nextPending := false, queue := rest, holders := s.holders ++ [g]
      sleeping := s.sleeping.erase g, handedOver := s.handedOver ++ [g] }) ∨
    (¬ (s.nextPending = true ∧ s.queue.head? = some g) ∧ s.wake g = s) := by
  rw [ReactorMutex.wake]
  by_cases hfirst : s.nextPending = true ∧ s.queue.head? = some g
  · obtain ⟨rest, hqueue⟩ := head?_eq_some_iff.mp hfirst.2
    refine .inl ⟨rest, hfirst.1, hqueue, ?_⟩
    rw [if_pos hfirst, hqueue]
    rfl
  · exact .inr ⟨hfirst, if_neg hfirst⟩

theorem ReactorMutex.Good.wake (h : s.Good) : (s.wake g).Good := by
  rcases s.wake_cases g with ⟨rest, hpending, hqueue, hwake⟩ | ⟨-, hwake⟩
  · have hnodup := h.queue_nodup
    rw [hqueue] at hnodup
    rw [hwake]
    exact {
      holders_le := by simp [(h.pending hpending).1]
      locked_iff := by simp [h.locked_iff.mpr (.inr hpending)]
      pending := nofun
      unlocked := fun hfalse => by
        have hnil := h.unlocked hfalse
        rw [hqueue] at hnil
        cases hnil
      sleeping_eq := by simp [h.sleeping_eq, hqueue]
      queue_nodup := (nodup_cons.mp hnodup).2
      order := by simp [← h.order, hqueue] }
  · rw [hwake]
    exact h

theorem ReactorMutex.Good.unlock (h : s.Good) (hg : g ∈ s.holders) : (s.unlock g).Good := by
  have hone : s.holders = [g] := by
    obtain ⟨a, ha⟩ := length_eq_one_iff.mp
      (Nat.le_antisymm h.holders_le (length_pos_of_mem hg))
    rw [ha] at hg ⊢
    rw [mem_singleton.mp hg]
  have hnone : s.holders.erase g = [] := by simp [hone]
  have hnotpending : ¬ s.nextPending = true := fun hp => by
    have hnil := (h.pending hp).1
    rw [hone] at hnil
    cases hnil
  rw [ReactorMutex.unlock]
  split
  · next hqueue =>
    exact { h with
      holders_le := by simp [hnone]
      locked_iff := by simp [hnone, hnotpending]
      pending := fun hp => absurd hp hnotpending
      unlocked := fun _ => hqueue }
  · next first rest hqueue =>
    have hlocked : s.isLocked = true := h.locked_iff.mpr (.inl (by simp [hone]))
    exact { h with
      holders_le := by simp [hnone]
      locked_iff := by simp [hlocked]
      pending := fun _ => ⟨hnone, by simp [hqueue]⟩
      unlocked := fun hfalse => by
        rw [show s.isLocked = false from hfalse] at hlocked
        cases hlocked }

theorem step_good (s : ReactorMutex G) (e : MutexEvent G) (h : s.Good) (he : s.Allowed e) :
    (s.step e).Good := by
  cases e with
  | lock g => exact h.lock he
  | wake g => exact h.wake
  | unlock g => exact h.unlock he.1

/-! ### Hand-over -/

/-- While a hand-over is pending, nothing but the waking of the first in the queue ends it: a
newcomer queues up, another greenlet that is woken sleeps on, and there is nobody to unlock. -/
theorem pending_step {w : G} (h : s.Good) (hpending : s.nextPending = true)
    (hfirst : s.queue.head? = some w) {e : MutexEvent G} (he : s.Allowed e) (hw : e ≠ .wake w) :
    (s.step e).nextPending = true ∧ (s.step e).queue.head? = some w := by
  cases e with
  | lock g =>
    have hlocked : s.isLocked = true := h.locked_iff.mpr (.inr hpending)
    obtain ⟨rest, hqueue⟩ := head?_eq_some_iff.mp hfirst
    simp [ReactorMutex.step, ReactorMutex.lock, hlocked, hpending, hqueue]
  | wake g =>
    rcases s.wake_cases g with ⟨rest, -, hqueue, -⟩ | ⟨-, hwake⟩
    · rw [hqueue] at hfirst
      exact absurd (congrArg MutexEvent.wake (Option.some.inj hfirst)) hw
    · rw [ReactorMutex.step, hwake]
      exact ⟨hpending, hfirst⟩
  | unlock g =>
    have hholds := he.1
    rw [(h.pending hpending).1] at hholds
    cases hholds

variable {es : List (MutexEvent G)}

theorem pending_persists {w : G} (h : s.Good) (hpending : s.nextPending = true)
    (hfirst : s.queue.head? = some w) (hes : Runs.Along ReactorMutex.step ReactorMutex.Allowed s es)
    (hw : MutexEvent.wake w ∉ es) :
    let s' := Runs.final ReactorMutex.step s es
    s'.Good ∧ s'.nextPending = true ∧ s'.queue.head? = some w := by
  induction es generalizing s with
  | nil => exact ⟨h, hpending, hfirst⟩
  | cons e es ih =>
    obtain ⟨hne, hw⟩ := not_or.mp (mem_cons.not.mp hw)
    obtain ⟨hpending', hfirst'⟩ := pending_step h hpending hfirst hes.1 (Ne.symm hne)
    exact ih (step_good s e h hes.1) hpending' hfirst' hes.2 hw

/-- A pending hand-over is taken by the first in the queue when it is woken. -/
theorem wake_takes {w : G} (h : s.Good) (hpending : s.nextPending = true)
    (hfirst : s.queue.head? = some w) :
    w ∈ s.sleeping ∧ (s.wake w).holders = [w] ∧ (s.wake w).nextPending = false := by
  refine ⟨?_, ?_⟩
  · rw [h.sleeping_eq]
    exact mem_of_head? hfirst
  · rcases s.wake_cases w with ⟨rest, -, -, hwake⟩ | ⟨hnot, -⟩
    · rw [hwake]
      exact ⟨by simp [(h.pending hpending).1], rfl⟩
    · exact absurd ⟨hpending, hfirst⟩ hnot

/-- An unlock with greenlets in the queue sets the timer of the first, and makes the hand-over
to it pending. -/
theorem unlock_pending {g w : G} {rest : List G} (hqueue : s.queue = w :: rest) :
    (s.unlock g).timersSet = s.timersSet ++ [w] ∧ (s.unlock g).nextPending = true ∧
      (s.unlock g).queue.head? = some w := by
  rw [ReactorMutex.unlock]
  split
  · next hnil =>
    rw [hqueue] at hnil
    cases hnil
  · next first more hcons =>
    obtain ⟨rfl, -⟩ := List.cons.inj (hqueue.symm.trans hcons)
    exact ⟨rfl, rfl, by simp [hqueue]⟩

/-- In every run of greenlets that unlock only what they have locked: at most one of them holds
the mutex; those that queue up get it in the order in which they did; an unlock with waiters
sets the timer of the first one, and from then on nobody holds the mutex until this greenlet is
woken, which then does; and while a hand-over is pending, or anybody waits, a newcomer does not
get the mutex but the last place in the queue. -/
theorem mutex_exclusive_fair (creator : Option G)
    (hes : Runs.Along ReactorMutex.step ReactorMutex.Allowed (newReactorMutex creator) es) :
    let s := Runs.final ReactorMutex.step (newReactorMutex creator) es
    s.holders.length ≤ 1 ∧
      s.handedOver ++ s.queue = s.queued ∧
      (∀ g w rest, s.Allowed (.unlock g) → s.queue = w :: rest →
        (s.unlock g).timersSet = s.timersSet ++ [w] ∧
        ∀ fs, Runs.Along ReactorMutex.step ReactorMutex.Allowed (s.unlock g) fs →
          MutexEvent.wake w ∉ fs →
          let s' := Runs.final ReactorMutex.step (s.unlock g) fs
          s'.holders = [] ∧ s'.Allowed (.wake w) ∧ (s'.wake w).holders = [w] ∧
            (s'.wake w).nextPending = false) ∧
      ∀ g, s.Allowed (.lock g) → s.nextPending = true ∨ s.queue ≠ [] →
        (s.lock g).holders = s.holders ∧ (s.lock g).queue = s.queue ++ [g] := by
  intro s
  have hgood : s.Good := Runs.final_of_invariant step_good (newReactorMutex_good creator) hes
  refine ⟨hgood.holders_le, hgood.order, ?_, ?_⟩
  · intro g w rest hunlock hqueue
    obtain ⟨htimer, hpending, hfirst⟩ := unlock_pending (g := g) hqueue
    refine ⟨htimer, fun fs hfs hw => ?_⟩
    obtain ⟨hgood', hpending', hfirst'⟩ :=
      pending_persists (hgood.unlock hunlock.1) hpending hfirst hfs hw
    exact ⟨(hgood'.pending hpending').1, wake_takes hgood' hpending' hfirst'⟩
  · intro g _ hbusy
    have hlocked : ¬ s.isLocked = false := by
      intro hfalse
      rcases hbusy with hpending | hqueue
      · rw [hgood.locked_iff.mpr (.inr hpending)] at hfalse
        cases hfalse
      · exact hqueue (hgood.unlocked hfalse)
    rw [ReactorMutex.lock, if_neg hlocked]
    exact ⟨rfl, rfl⟩

end

/-- Greenlet 1 waits for greenlet 0; while the hand-over is pending, greenlet 2 comes and greenlet
1 is woken. -/
theorem mutex_exclusive_fair_three :
    let es : List (MutexEvent ℕ) := [.lock 0, .lock 1, .unlock 0, .lock 2, .wake 1]
    let s := Runs.final ReactorMutex.step (newReactorMutex none) es
    Runs.Along ReactorMutex.step ReactorMutex.Allowed (newReactorMutex none) es ∧
      s.holders = [1] ∧ s.queue = [2] ∧ s.handedOver ++ s.queue = s.queued := by
  intro es s
  have hes : Runs.Along ReactorMutex.step ReactorMutex.Allowed (newReactorMutex none) es := by
    simp [es, ReactorMutex.Allowed, ReactorMutex.step, ReactorMutex.lock, ReactorMutex.unlock,
      newReactorMutex]
  exact ⟨hes, rfl, rfl, (mutex_exclusive_fair none hes).2.1⟩

end Reactor
