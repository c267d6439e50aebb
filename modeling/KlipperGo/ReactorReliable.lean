/-
How reliable the timers of the reactors are.

A reactor is reliable if it stores the timers that were registered and not unregistered, calls
only due timers and none that was unregistered, calls every due timer in the next check, and
knows when the next check has to come.

Of the three reactors none is reliable without a condition.  The poll reactor does not remove a
timer.  The select reactor, and the poll reactor with it, takes the old wake time of a called timer
for the next check.  And with all of them a callback can revive an unregistered timer whose turn
is still to come, or set a time that has passed and that is then taken back.  `GoodStep` rules these
out, operation by operation.

* `perform_inCheck`, `turn_inCheck` — what the loop of a check keeps;
* `check_reliable` — so a check does what it should.
-/
import KlipperGo.ReactorTimers
import KlipperGo.Runs

open GoSlice List Function Nat Runs

namespace Reactor

open Timers

section Defs

variable {K : Type*} [Field K] [LinearOrder K]

/-- What a check of the timers should do: call the due ones, and know the next time. -/
structure CheckReliable (s s' : Timers K) (eventtime : K) (replies : ℕ → Reply K) : Prop where
  calls_due : ∀ c ∈ s'.calls, c.waketime ≤ eventtime ∧ c.unregistered = false
  due_called : ∀ k t, s.stored[k]? = some t → s.waketime t ≤ eventtime →
    (∀ c ∈ s'.calls, c.position < k → ∀ op ∈ (replies c.position).ops, op.timer ≠ some t) →
      ∃ c ∈ s'.calls, c.timer = t
  next_le : ∀ t ∈ s'.stored, s'.nextTimer ≤ s'.waketime t
  not_early : eventtime ≤ s'.nextTimer ∨ ∃ t ∈ s'.stored, s'.waketime t ≤ s'.nextTimer

variable (room : ℕ → ℕ) (kind : Kind)

/-- A step of a reactor is reliable: it stores the right timers, and a check does what it
should. -/
def ReliableStep (s : Timers K) (event : TimerEvent K) : Prop :=
  (∀ t, t ∈ (s.step room kind event).stored ↔
    t < (s.step room kind event).count ∧ (s.step room kind event).unregistered t = false) ∧
  ∀ eventtime busy replies, event = .check eventtime busy replies →
    CheckReliable s (s.step room kind event) eventtime replies

/-! ### The condition -/

/-- What an operation of a callback may do in a check.  `coming` are the timers whose turn is not
over, the one of the callback among them.

No time that has passed is set for such a timer or for an unregistered one, and none of these that
is both becomes due again; a timer that has had its turn and is to wake at a time that has passed
is left alone; and a poll reactor is not asked to unregister a timer. -/
def GoodOp (eventtime : K) (coming : List ℕ) (s : Timers K) : TimerOp K → Prop
  | .register _ => True
  | .update t waketime => t < s.count →
    (t ∈ coming ∨ s.unregistered t = true → eventtime ≤ waketime) ∧
      (t ∈ coming → s.unregistered t = true → eventtime ≠ waketime) ∧
      (t ∉ coming → s.unregistered t = false → eventtime ≤ s.waketime t)
  | .unregister t => t < s.count →
    kind ≠ .poll ∧ (t ∉ coming → s.unregistered t = false → eventtime ≤ s.waketime t)

/-- The turn of the timer at a position of a check, if the timer is called: its callback does what
it may, it does not return a time that has passed for a timer that it has unregistered, and with
the select or poll reactor the wake time that it returns is the old one, or the old one is the
time of the check and the new one is not before it. -/
def GoodTurn (eventtime : K) (replies : ℕ → Reply K)
    (timers : List ℕ) (s : Timers K) (k : ℕ) : Prop :=
  ∀ t, timers[k]? = some t → s.waketime t ≤ eventtime →
    Along (perform room kind) (GoodOp kind eventtime (timers.drop k)) (s.called k t)
      (replies k).ops ∧
    ((replies k).waketime < eventtime → .unregister t ∉ (replies k).ops) ∧
    (kind ≠ .epoll → (replies k).waketime = s.waketime t ∨
      s.waketime t = eventtime ∧ eventtime ≤ (replies k).waketime)

/-- **The condition on a step**: an operation does not unregister a timer of a poll reactor, and a
check is made before the end of time and has good turns. -/
def GoodStep (s : Timers K) : TimerEvent K → Prop
  | .op op => Plain kind s.count op
  | .check eventtime _ replies => eventtime < never ∧
    Along (visit room kind eventtime replies s.timers.array)
      (GoodTurn room kind eventtime replies s.stored) { s with nextTimer := never, calls := [] }
      (range s.timers.len)

end Defs

section

variable {K : Type*} [Field K] [LinearOrder K] {room : ℕ → ℕ} {kind : Kind} {s : Timers K}
  {eventtime : K} {replies : ℕ → Reply K} {coming timers : List ℕ} {slice : Slice}

/-! ### Operations -/

/-- A step sets the wake time of one timer, which may be a new one, and the next check is not after
`time`. -/
structure Retimes (s s' : Timers K) (t : ℕ) (waketime time : K) : Prop where
  le : t ≤ s.count
  count : s'.count = max s.count (t + 1)
  wake : s'.waketime = update s.waketime t waketime
  next : s'.nextTimer = min s.nextTimer time
  others : ∀ i ≠ t, s'.unregistered i = s.unregistered i

/-- What an operation does beside the slice: nothing, or it sets a wake time, or it unregisters a
timer. -/
theorem perform_effect (room : ℕ → ℕ) (kind : Kind) (s : Timers K) (op : TimerOp K) :
    let s' := s.perform room kind op
    s'.calls = s.calls ∧ (s' = s ∨ ∃ t waketime time, Retimes s s' t waketime time ∧
      ((t < s.count → op = .update t waketime) ∧ time = waketime ∧
          s'.unregistered t = s.unregistered t ∨
        t < s.count ∧ op = .unregister t ∧ waketime = never ∧ time = s.nextTimer ∧
          s'.unregistered t = true)) := by
  cases op with
  | register waketime =>
    exact ⟨rfl, .inr ⟨s.count, waketime, waketime, ⟨le_rfl, (max_eq_right (le_succ _)).symm, rfl,
      rfl, fun _ _ => rfl⟩, .inl ⟨fun h => absurd h (lt_irrefl _), rfl, rfl⟩⟩⟩
  | update t waketime =>
    rw [perform, updateTimer]
    split
    · next ht =>
      exact ⟨rfl, .inr ⟨t, waketime, waketime, ⟨ht.le, (max_eq_left ht).symm, rfl, rfl,
        fun _ _ => rfl⟩, .inl ⟨fun _ => rfl, rfl, rfl⟩⟩⟩
    · exact ⟨rfl, .inl rfl⟩
  | unregister t =>
    rw [perform, unregisterTimer]
    split
    · next ht =>
      exact ⟨rfl, .inr ⟨t, never, s.nextTimer, ⟨ht.le, (max_eq_left ht).symm, rfl,
        (min_self _).symm, fun _ hi => update_of_ne hi _ _⟩,
        .inr ⟨ht, rfl, rfl, rfl, update_self ..⟩⟩⟩
    · exact ⟨rfl, .inl rfl⟩

/-- The next check is not after any timer but those to come. -/
def NextLe (coming : List ℕ) (s : Timers K) : Prop :=
  ∀ t ∈ s.stored, t ∉ coming → s.nextTimer ≤ s.waketime t

section

variable {s' : Timers K} {t : ℕ} {waketime time : K} {coming' : List ℕ}
  (hs : Retimes s s' t waketime time) (hright : Right s) (hright' : Right s')
include hs hright hright'
omit [Field K]

/-- The other timers stay stored. -/
theorem Retimes.mem_stored {i : ℕ} (hi : i ≠ t) : i ∈ s'.stored ↔ i ∈ s.stored := by
  have hle := hs.le
  have hcount := hs.count
  rw [hright.mem_stored, hright'.mem_stored, hs.others i hi]
  refine and_congr_left' ?_
  omega

theorem Retimes.nextLe (h : NextLe coming s) (hcoming : ∀ i ∈ coming, i ∉ coming' → i = t)
    (hle : t ∈ s'.stored → t ∉ coming' → time ≤ waketime) : NextLe coming' s' := by
  intro i hi hnot
  rw [hs.next, hs.wake]
  by_cases heq : i = t
  · rw [heq] at hi hnot ⊢
    rw [update_self]
    exact (min_le_right _ _).trans (hle hi hnot)
  · rw [update_of_ne heq]
    refine (min_le_left _ _).trans (h i ((hs.mem_stored hright hright' heq).mp hi) fun hmem => ?_)
    exact heq (hcoming i hmem hnot)

end

theorem nextLe_perform (hright : Right s) {op : TimerOp K} (hop : Plain kind s.count op)
    (h : NextLe coming s) : NextLe coming (s.perform room kind op) := by
  have hright' : Right (s.perform room kind op) := right_perform hright hop
  rcases (perform_effect room kind s op).2 with hsame | ⟨t, waketime, time, hs, heffect⟩
  · rwa [hsame]
  · refine hs.nextLe hright hright' h (fun i hi hnot => absurd hi hnot) fun ht _ => ?_
    rcases heffect with ⟨-, rfl, -⟩ | ⟨-, -, -, -, hun⟩
    · exact le_rfl
    · rw [(hright'.mem_stored.mp ht).2] at hun
      cases hun

/-- A check is going on, and the turns of the timers `coming` are not over: the next check is not
after the other timers, and if it is to be before the time of this one, then for the sake of one of
them; an unregistered timer to come is not due. -/
structure InCheck (eventtime : K) (slice : Slice) (timers coming : List ℕ) (s : Timers K) :
    Prop where
  right : Right s
  untouched : Untouched s slice
  elements_eq : s.heap.elements slice = timers
  coming_lt : ∀ t ∈ coming, t < s.count
  nextLe : NextLe coming s
  held : s.nextTimer < eventtime → ∃ t ∈ s.stored, t ∉ coming ∧ s.waketime t ≤ s.nextTimer
  asleep : ∀ t ∈ coming, s.unregistered t = true → eventtime < s.waketime t
  calls_due : ∀ c ∈ s.calls, c.waketime ≤ eventtime ∧ c.unregistered = false

omit [Field K] in
/-- What setting a wake time has to meet: the time that is taken into account is not after the new
one, and if it has passed it is the new one, of a timer that is stored and not to come; the timer
was not the one that the next check is for; and if it is to come and unregistered, it is not due. -/
theorem InCheck.retime {s' : Timers K} {t : ℕ} {waketime time : K} {coming' : List ℕ}
    (h : InCheck eventtime slice timers coming s) (hs : Retimes s s' t waketime time)
    (hright' : Right s') (huntouched : Untouched s' slice)
    (helements : s'.heap.elements slice = s.heap.elements slice)
    (hcalls : ∀ c ∈ s'.calls, c.waketime ≤ eventtime ∧ c.unregistered = false)
    (hsub : ∀ i ∈ coming', i ∈ coming) (hcoming : ∀ i ∈ coming, i ∉ coming' → i = t)
    (hle : t ∈ s'.stored → t ∉ coming' → time ≤ waketime)
    (hheld : time < eventtime → time < s.nextTimer →
      t ∈ s'.stored ∧ t ∉ coming' ∧ waketime ≤ time)
    (hold : t ∈ s.stored → t ∉ coming → eventtime ≤ s.waketime t)
    (hasleep : t ∈ coming' → s'.unregistered t = true → eventtime < waketime) :
    InCheck eventtime slice timers coming' s' where
  right := hright'
  untouched := huntouched
  elements_eq := helements.trans h.elements_eq
  coming_lt := fun i hi => by
    rw [hs.count]
    exact (h.coming_lt i (hsub i hi)).trans_le (le_max_left _ _)
  nextLe := hs.nextLe h.right hright' h.nextLe hcoming hle
  held := fun hearly => by
    rw [hs.next] at hearly
    rw [hs.next, hs.wake]
    by_cases hnew : time < s.nextTimer
    · rw [min_eq_right hnew.le] at hearly ⊢
      obtain ⟨hstored, hnot, hwakes⟩ := hheld hearly hnew
      exact ⟨t, hstored, hnot, by rwa [update_self]⟩
    · rw [min_eq_left (not_lt.mp hnew)] at hearly ⊢
      obtain ⟨i, hi, hnot, hwakes⟩ := h.held hearly
      have hne : i ≠ t := by
        rintro rfl
        exact absurd (hold hi hnot) (not_le.mpr (hwakes.trans_lt hearly))
      exact ⟨i, (hs.mem_stored h.right hright' hne).mpr hi, fun hm => hnot (hsub i hm),
        by rwa [update_of_ne hne]⟩
  asleep := fun i hi hun => by
    rw [hs.wake]
    by_cases heq : i = t
    · rw [heq] at hi hun ⊢
      rw [update_self]
      exact hasleep hi hun
    · rw [update_of_ne heq]
      exact h.asleep i (hsub i hi) (hs.others i heq ▸ hun)
  calls_due := hcalls

theorem perform_inCheck (hever : eventtime < never) {op : TimerOp K}
    (h : InCheck eventtime slice timers coming s) (hop : GoodOp kind eventtime coming s op) :
    InCheck eventtime slice timers coming (s.perform room kind op) := by
  have hplain : Plain kind s.count op := by
    rintro hpoll t ht rfl
    exact (hop ht).1 hpoll
  have hright : Right (s.perform room kind op) := right_perform h.right hplain
  obtain ⟨huntouched, helements⟩ := perform_untouched room h.right.valid h.untouched hplain
  obtain ⟨hcalls, hsame | ⟨t, waketime, time, hs, heffect⟩⟩ := perform_effect room kind s op
  · rwa [hsame]
  refine h.retime hs hright huntouched helements (hcalls ▸ h.calls_due) (fun _ hi => hi)
    (fun i hi hnot => absurd hi hnot) ?_ ?_ ?_ ?_
  all_goals rcases heffect with ⟨hupdate, rfl, hun⟩ | ⟨ht, rfl, rfl, rfl, hun⟩
  · exact fun _ _ => le_rfl
  · intro hstored
    rw [(hright.mem_stored.mp hstored).2] at hun
    cases hun
  · intro hearly _
    rw [hright.mem_stored, hun]
    rcases Nat.lt_or_eq_of_le hs.le with hlt | rfl
    · have hgood := (hupdate hlt ▸ hop : GoodOp kind eventtime coming s (.update t time))
      have hnot : ¬ (t ∈ coming ∨ s.unregistered t = true) := fun hbad =>
        absurd ((hgood hlt).1 hbad) (not_le.mpr hearly)
      exact ⟨⟨by rw [hs.count]; omega, by simpa using fun hm => hnot (.inr hm)⟩,
        fun hm => hnot (.inl hm), le_rfl⟩
    · refine ⟨⟨by rw [hs.count]; omega, ?_⟩, fun hm => lt_irrefl _ (h.coming_lt _ hm), le_rfl⟩
      by_contra hcontra
      exact lt_irrefl _ (h.right.known _ (by simpa using hcontra))
  · exact fun _ hnew => absurd hnew (lt_irrefl _)
  · intro hstored hnot
    obtain ⟨hlt, hlive⟩ := h.right.mem_stored.mp hstored
    have hgood := (hupdate hlt ▸ hop : GoodOp kind eventtime coming s (.update t time))
    exact (hgood hlt).2.2 hnot hlive
  · exact fun hstored hnot => (hop ht).2 hnot (h.right.mem_stored.mp hstored).2
  · intro hmem hunregistered
    have hlt := h.coming_lt t hmem
    have hgood := (hupdate hlt ▸ hop : GoodOp kind eventtime coming s (.update t time))
    exact lt_of_le_of_ne ((hgood hlt).1 (.inl hmem)) ((hgood hlt).2.1 hmem (hun ▸ hunregistered))
  · exact fun _ _ => hever

section

variable (room : ℕ → ℕ) (kind : Kind)

theorem calls_performAll (s : Timers K) (ops : List (TimerOp K)) :
    (ops.foldl (perform room kind) s).calls = s.calls := by
  induction ops generalizing s with
  | nil => rfl
  | cons op ops ih => exact (ih _).trans (perform_effect room kind s op).1

/-- Operations on other timers leave a timer as it is. -/
theorem performAll_other {t : ℕ} {ops : List (TimerOp K)}
    (ht : t < s.count) (hops : ∀ op ∈ ops, op.timer ≠ some t) :
    (ops.foldl (perform room kind) s).waketime t = s.waketime t := by
  induction ops generalizing s with
  | nil => rfl
  | cons op ops ih =>
    obtain ⟨hop, hrest⟩ := forall_mem_cons.mp hops
    rw [foldl_cons]
    rcases (perform_effect room kind s op).2 with hsame | ⟨t', waketime, time, hs, heffect⟩
    · rw [hsame]
      exact ih ht hrest
    · have hne : t ≠ t' := by
        rintro rfl
        rcases heffect with ⟨hupdate, -⟩ | ⟨-, rfl, -⟩
        · exact hop (hupdate ht ▸ rfl)
        · exact hop rfl
      have hcount := hs.count
      rw [ih (by omega) hrest, hs.wake, update_of_ne hne]

theorem performAll_live {t : ℕ} {ops : List (TimerOp K)}
    (ht : s.unregistered t = false) (hops : .unregister t ∉ ops) :
    (ops.foldl (perform room kind) s).unregistered t = false := by
  induction ops generalizing s with
  | nil => exact ht
  | cons op ops ih =>
    obtain ⟨hop, hops⟩ := not_or.mp (mem_cons.not.mp hops)
    refine ih ?_ hops
    rcases (perform_effect room kind s op).2 with hsame | ⟨t', waketime, time, hs, heffect⟩
    · rwa [hsame]
    · by_cases heq : t = t'
      · subst heq
        rcases heffect with ⟨-, -, hun⟩ | ⟨-, rfl, -⟩
        · rwa [hun]
        · exact absurd rfl hop
      · rwa [hs.others t heq]

end

/-! ### Turns -/

omit [Field K] in
/-- The time taken into account after a call is not after the new one, and is that one if it has
passed. -/
theorem afterCall_spec {old new : K}
    (h : kind ≠ .epoll → new = old ∨ old = eventtime ∧ eventtime ≤ new) :
    kind.afterCall old new ≤ new ∧
      (kind.afterCall old new < eventtime → kind.afterCall old new = new) := by
  rcases eq_or_ne kind .epoll with rfl | hne
  · exact ⟨le_rfl, fun _ => rfl⟩
  · have hold : kind.afterCall old new = old := by
      cases kind with
      | select => rfl
      | poll => rfl
      | epoll => exact absurd rfl hne
    rw [hold]
    rcases h hne with heq | ⟨heq, hle⟩
    · exact ⟨heq.ge, fun _ => heq.symm⟩
    · exact ⟨heq.trans_le hle, fun hpassed => absurd heq hpassed.ne⟩

/-- A timer to come that is due is registered, and can be called. -/
theorem called_inCheck (h : InCheck eventtime slice timers coming s) {t : ℕ} (hmem : t ∈ coming)
    (hdue : s.waketime t ≤ eventtime) (k : ℕ) :
    s.unregistered t = false ∧ InCheck eventtime slice timers coming (s.called k t) := by
  have hlt := h.coming_lt t hmem
  have hlive : s.unregistered t = false := by
    by_contra hcontra
    exact absurd (h.asleep t hmem (by simpa using hcontra)) (not_lt.mpr hdue)
  refine ⟨hlive, h.retime ⟨hlt.le, (max_eq_left hlt).symm, rfl, (min_self _).symm, fun _ _ => rfl⟩
    { h.right with } { h.untouched with } rfl ?_ (fun _ hi => hi)
    (fun i hi hnot => absurd hi hnot) (fun _ hnot => absurd hmem hnot)
    (fun _ hnew => absurd hnew (lt_irrefl _)) (fun _ hnot => absurd hmem hnot)
    fun _ hun => absurd (hun.symm.trans hlive) Bool.noConfusion⟩
  exact forall_mem_append.mpr ⟨h.calls_due, forall_mem_singleton.mpr ⟨hdue, hlive⟩⟩

section

variable {k t : ℕ} (hever : eventtime < never) (hk : timers[k]? = some t)
include hk

theorem drop_of_getElem? : timers.drop k = t :: timers.drop (k + 1) := by
  obtain ⟨hlt, rfl⟩ := List.getElem?_eq_some_iff.mp hk
  exact drop_eq_getElem_cons hlt

variable (hnodup : timers.Nodup)
include hnodup

theorem notMem_drop : t ∉ timers.drop (k + 1) := by
  have h := hnodup.sublist (drop_sublist k timers)
  rw [drop_of_getElem? hk] at h
  exact (nodup_cons.mp h).1

include hever

/-- A good turn keeps what the loop relies on. -/
theorem turn_inCheck (h : InCheck eventtime slice timers (timers.drop k) s)
    (hgood : GoodTurn room kind eventtime replies timers s k) :
    InCheck eventtime slice timers (timers.drop (k + 1))
      (s.turn room kind eventtime replies k t) := by
  have hdrop := drop_of_getElem? hk
  have hmem : t ∈ timers.drop k := hdrop ▸ mem_cons_self
  have hsub : ∀ i ∈ timers.drop (k + 1), i ∈ timers.drop k := fun i hi =>
    hdrop ▸ mem_cons_of_mem _ hi
  have hcoming : ∀ i ∈ timers.drop k, i ∉ timers.drop (k + 1) → i = t := fun i hi hnot =>
    (mem_cons.mp (hdrop ▸ hi)).resolve_right hnot
  have hown := notMem_drop hk hnodup
  have hlt := h.coming_lt t hmem
  rw [Timers.turn]
  split
  · next hdue =>
    obtain ⟨hops, hreturn, hkind⟩ := hgood t hk hdue
    obtain ⟨hlive, hcalled⟩ := called_inCheck h hmem hdue k
    have hdone := final_of_invariant (fun _ _ => perform_inCheck hever) hcalled hops
    have hlive' : (replies k).waketime < eventtime →
        (final (perform room kind) (s.called k t) (replies k).ops).unregistered t = false :=
      fun hpassed => performAll_live room kind hlive (hreturn hpassed)
    have htime := afterCall_spec hkind
    generalize kind.afterCall (s.waketime t) (replies k).waketime = time at htime ⊢
    change InCheck eventtime slice timers _
      ((final (perform room kind) (s.called k t) (replies k).ops).returned t (replies k).waketime
        time)
    generalize final (perform room kind) (s.called k t) (replies k).ops = s₁ at hdone hlive' ⊢
    have hlt₁ := hdone.coming_lt t hmem
    refine hdone.retime ⟨hlt₁.le, (max_eq_left hlt₁).symm, rfl, rfl, fun _ _ => rfl⟩
      { hdone.right with } { hdone.untouched with } rfl hdone.calls_due hsub hcoming
      (fun _ _ => htime.1) (fun hearly _ => ?_) (fun _ hnot => absurd hmem hnot)
      fun hm => absurd hm hown
    have hsame := htime.2 hearly
    exact ⟨hdone.right.mem_stored.mpr ⟨hlt₁, hlive' (hsame ▸ hearly)⟩, hown, hsame.ge⟩
  · next hdue =>
    exact h.retime ⟨hlt.le, (max_eq_left hlt).symm, (update_eq_self t s.waketime).symm, rfl,
      fun _ _ => rfl⟩ { h.right with } { h.untouched with } rfl h.calls_due hsub hcoming
      (fun _ _ => le_rfl) (fun hearly => absurd hearly.le hdue) (fun _ hnot => absurd hmem hnot)
      fun hm => absurd hm hown

end

theorem calls_turn (room : ℕ → ℕ) (kind : Kind) (eventtime : K) (replies : ℕ → Reply K)
    (s : Timers K) (k t : ℕ) : (s.turn room kind eventtime replies k t).calls = s.calls ++
      if s.waketime t ≤ eventtime then [⟨k, t, s.waketime t, s.unregistered t⟩] else [] := by
  rw [Timers.turn]
  split
  · exact calls_performAll room kind (s.called k t) (replies k).ops
  · exact (append_nil _).symm

/-- The timer at the position `j` was called, or an earlier callback operated on it, or its turn is
still to come and its wake time is that of the begin of the check. -/
def Noticed (replies : ℕ → Reply K) (waketime : K) (j t k : ℕ) (s : Timers K) : Prop :=
  (∃ c ∈ s.calls, c.timer = t) ∨
    (∃ c ∈ s.calls, c.position < j ∧ ∃ op ∈ (replies c.position).ops, op.timer = some t) ∨
    k ≤ j ∧ s.waketime t = waketime

theorem noticed_turn {waketime : K} {j t k t' : ℕ} (hj : timers[j]? = some t)
    (hk : timers[k]? = some t') (ht : k ≤ j → t < s.count)
    (hdue : waketime ≤ eventtime) (h : Noticed replies waketime j t k s) :
    Noticed replies waketime j t (k + 1) (s.turn room kind eventtime replies k t') := by
  have hcalls := calls_turn room kind eventtime replies s k t'
  have hgrows : ∀ c ∈ s.calls, c ∈ (s.turn room kind eventtime replies k t').calls := fun c hc =>
    hcalls ▸ mem_append_left _ hc
  have hnew : s.waketime t' ≤ eventtime → ⟨k, t', s.waketime t', s.unregistered t'⟩ ∈
      (s.turn room kind eventtime replies k t').calls := by
    intro hdue'
    rw [hcalls, if_pos hdue']
    exact mem_append_right _ (mem_singleton_self _)
  rcases h with ⟨c, hc, hcalled⟩ | ⟨c, hc, htouched⟩ | ⟨hle, hwake⟩
  · exact .inl ⟨c, hgrows c hc, hcalled⟩
  · exact .inr (.inl ⟨c, hgrows c hc, htouched⟩)
  · by_cases heq : t' = t
    · subst heq
      exact .inl ⟨_, hnew (hwake ▸ hdue), rfl⟩
    · have hlt : k < j := by
        refine lt_of_le_of_ne hle ?_
        rintro rfl
        exact heq (Option.some.inj (hk.symm.trans hj))
      by_cases hdue' : s.waketime t' ≤ eventtime
      · by_cases htouched : ∃ op ∈ (replies k).ops, op.timer = some t
        · exact .inr (.inl ⟨_, hnew hdue', hlt, htouched⟩)
        · have hother := performAll_other room kind (s := s.called k t') (ht hle) fun op hop hop' =>
            htouched ⟨op, hop, hop'⟩
          refine .inr (.inr ⟨hlt, ?_⟩)
          rw [Timers.turn, if_pos hdue']
          refine (update_of_ne (Ne.symm heq) _ _).trans (hother.trans ?_)
          exact (update_of_ne (Ne.symm heq) _ _).trans hwake
      · rw [Timers.turn, if_neg hdue']
        exact .inr (.inr ⟨hlt, hwake⟩)

/-! ### Checks -/

/-- The loop of a check, from a position on. -/
theorem loop_inCheck (hever : eventtime < never) (hnodup : timers.Nodup)
    (hlen : timers.length = slice.len) (n : ℕ) : ∀ (k : ℕ) (s : Timers K), k + n = slice.len →
    InCheck eventtime slice timers (timers.drop k) s →
    Along (visit room kind eventtime replies slice.array)
      (GoodTurn room kind eventtime replies timers) s (range' k n) →
    InCheck eventtime slice timers []
        (final (visit room kind eventtime replies slice.array) s (range' k n)) ∧
      ∀ (waketime : K) (j t : ℕ), timers[j]? = some t → waketime ≤ eventtime →
        Noticed replies waketime j t k s →
        Noticed replies waketime j t slice.len
          (final (visit room kind eventtime replies slice.array) s (range' k n)) := by
  induction n with
  | zero =>
    intro k s hk h _
    obtain rfl : k = slice.len := hk
    rw [drop_of_length_le hlen.le] at h
    exact ⟨h, fun _ _ _ _ _ hnoticed => hnoticed⟩
  | succ n ih =>
    intro k s hk h hgood
    have hlt : k < slice.len := by omega
    obtain ⟨t, ht⟩ : ∃ t, timers[k]? = some t := ⟨_, getElem?_eq_getElem (hlen.symm ▸ hlt)⟩
    have hvisit : s.visit room kind eventtime replies slice.array k =
        s.turn room kind eventtime replies k t := by
      rw [visit, getElem?_array s.heap hlt, h.elements_eq, ht]
    have hturn := turn_inCheck hever ht hnodup h hgood.1
    rw [← hvisit] at hturn
    obtain ⟨hcheck, hnoticed⟩ := ih (k + 1) _ (by omega) hturn hgood.2
    refine ⟨hcheck, fun waketime j i hj hdue hi => hnoticed waketime j i hj hdue ?_⟩
    rw [hvisit]
    refine noticed_turn hj ht (fun hle => h.coming_lt i ?_) hdue hi
    rw [← Nat.add_sub_cancel' hle, ← getElem?_drop] at hj
    exact mem_of_getElem? hj

/-- The check is reliable, and after it the next one is not after any timer. -/
theorem check_reliable {busy : Bool} (hright : Right s) (hnext : NextLe [] s)
    (hgood : GoodStep room kind s (.check eventtime busy replies)) :
    let s' := (s.checkTimers room kind eventtime busy replies).1
    Right s' ∧ NextLe [] s' ∧ CheckReliable s s' eventtime replies := by
  obtain ⟨hever, hgood⟩ := hgood
  rw [checkTimers]
  split
  · next hearly =>
    -- no timer is due, and nothing is done
    refine ⟨{ hright with }, hnext, by simp, fun k t hk hdue _ => ?_,
      fun t ht => hnext t ht not_mem_nil, .inl hearly.le⟩
    exact absurd (hearly.trans_le (hnext t (mem_of_getElem? hk) not_mem_nil)) (not_lt.mpr hdue)
  · have hlen : s.stored.length = s.timers.len := hright.valid.length_elements
    have hnodup : s.stored.Nodup := hright.stored_eq ▸ nodup_range.filter _
    have hstart : InCheck eventtime s.timers s.stored (s.stored.drop 0)
        { s with nextTimer := never, calls := [] } :=
      ⟨{ hright with }, ⟨hright.valid, fun _ => le_rfl⟩, rfl,
        fun t ht => (hright.mem_stored.mp ht).1, fun t ht hnot => absurd ht hnot,
        fun hearly => absurd hearly hever.not_gt,
        fun t ht hun => absurd (hun.symm.trans (hright.mem_stored.mp ht).2) Bool.noConfusion,
        by simp⟩
    rw [range_eq_range'] at hgood ⊢
    obtain ⟨hdone, hnoticed⟩ := loop_inCheck hever hnodup hlen s.timers.len 0 _
      (Nat.zero_add _) hstart hgood
    refine ⟨hdone.right, hdone.nextLe, hdone.calls_due, fun k t hk hdue hearlier => ?_,
      fun t ht => hdone.nextLe t ht not_mem_nil, ?_⟩
    · rcases hnoticed (s.waketime t) k t hk hdue (.inr (.inr ⟨Nat.zero_le _, rfl⟩)) with
        hcalled | ⟨c, hc, hlt, op, hop, htouched⟩ | ⟨hle, -⟩
      · exact hcalled
      · exact absurd htouched (hearlier c hc hlt op hop)
      · have hlt := (List.getElem?_eq_some_iff.mp hk).1
        omega
    · rcases le_or_gt eventtime _ with hlate | hearly
      · exact .inl hlate
      · obtain ⟨t, ht, -, hwakes⟩ := hdone.held hearly
        exact .inr ⟨t, ht, hwakes⟩

/-- **The timers of the reactors are reliable** in every run whose steps meet the condition. -/
theorem reactor_reliable (room : ℕ → ℕ) (kind : Kind) (events : List (TimerEvent K))
    (hgood : Along (step room kind) (GoodStep room kind) newReactor events) :
    Along (step room kind) (ReliableStep room kind) newReactor events := by
  refine along_of_along (I := fun s => Right s ∧ NextLe [] s) (fun s event hs hgood => ?_)
    ⟨⟨rfl, ⟨Nat.one_pos, Nat.zero_le _⟩, nofun⟩, fun t ht => absurd ht not_mem_nil⟩ hgood
  obtain ⟨hright, hnext⟩ := hs
  cases event with
  | op op =>
    have hright' : Right (s.perform room kind op) := right_perform hright hgood
    exact ⟨⟨fun t => hright'.mem_stored, nofun⟩, hright', nextLe_perform hright hgood hnext⟩
  | check eventtime busy replies =>
    obtain ⟨hright', hnext', hreliable⟩ := check_reliable hright hnext hgood
    refine ⟨⟨fun t => hright'.mem_stored, ?_⟩, hright', hnext'⟩
    rintro _ _ _ ⟨⟩
    exact hreliable

end

/-- A callback that only asks for the next time. -/
def again (waketime : ℚ) : Reply ℚ := ⟨[], waketime⟩

/-- A timer that is called late. -/
def lateCall : List (TimerEvent ℚ) := [.op (.register 5), .check 7 false fun _ => again 20]

theorem epoll_reliable_lateCall :
    Along (step id .epoll) (ReliableStep id .epoll) newReactor lateCall := by
  refine reactor_reliable id .epoll lateCall ⟨nofun, ⟨by decide +kernel, ?_, trivial⟩, trivial⟩
  intro t _ _
  exact ⟨trivial, nofun, fun h => absurd rfl h⟩

/-- The second of two timers is unregistered. -/
def unregisterSecond : List (TimerEvent ℚ) :=
  [.op (.register 5), .op (.register 6), .op (.unregister 1)]

/-- The first of two callbacks returns a time that has passed, and the second one updates that
timer. -/
def takenBack : List (TimerEvent ℚ) :=
  [.op (.register 5), .op (.register 6),
    .check 7 false fun k => if k = 0 then again 1 else ⟨[.update 0 20], 20⟩]

/-- No reactor is reliable: the poll reactor keeps the timer that was unregistered, and the other
two go on with a time that has passed and is no timer's any more. -/
theorem reactors_not_reliable :
    let room : ℕ → ℕ := fun _ => 0
    ¬ Along (step room .poll) (ReliableStep room .poll) newReactor
        unregisterSecond ∧
      ¬ Along (step room .select) (ReliableStep room .select) newReactor
        lateCall ∧
      ¬ Along (step room .epoll) (ReliableStep room .epoll) newReactor
        takenBack := by
  refine ⟨?_, ?_, ?_⟩
  · rintro ⟨-, -, ⟨hstored, -⟩, -⟩
    have hmem := (hstored 1).mp (by decide +kernel)
    exact absurd hmem.2 (by decide +kernel)
  · rintro ⟨-, ⟨-, hcheck⟩, -⟩
    have hearly := (hcheck 7 false _ rfl).not_early
    revert hearly
    decide +kernel
  · rintro ⟨-, -, ⟨-, hcheck⟩, -⟩
    have hearly := (hcheck 7 false _ rfl).not_early
    revert hearly
    decide +kernel

end Reactor
