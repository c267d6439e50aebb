/-
Waiting for several endstops (`MultiComplete` of
`internal/pkg/motion/homing/interfaces.go`, with `TrsyncRuntimeState` of
`internal/pkg/mcu/trsync.go` and `ReactorCompletion` of
`internal/pkg/reactor/reactor.go`).

Every endstop has a completion, which the state responses of its trsyncs complete.
`MultiComplete` registers a callback that waits for all of them, and for each of
them a callback that completes the result early.  The reactor runs these callbacks
in any order between the responses, so a run is an interleaving of `EndstopEvent`s
and `CallbackEvent`s.

The callback of one endstop tests whether the value it waited for is `nil`, but
`HandleState` completes with a map whatever the reason was (`handleState_ne_nil`), so
the first endstop to be completed ends the wait (`combined_after_watch`).
-/
import Mathlib.Data.List.TakeWhile
import KlipperGo.ExactArith
import KlipperGo.Runs

open Runs List

namespace Motion

/-- A value that a completion is completed with.  `aa` is the map of `HandleState`. -/
inductive CompletionResult
  | nil
  | bool (value : Bool)
  | int (value : ℤ)
  | aa (timeout : Bool)
deriving DecidableEq, Repr

def reasonCommsTimeout : ℤ := 4

/-! ### The endstops -/

structure TrsyncRuntimeState where
  /-- Whether `TriggerCompletion` is set. -/
  triggerCompletion : Bool
  homeEndClock : Option ℤ
deriving DecidableEq

/-- A `trsync_state` response. -/
structure TrsyncStateParams where
  canTrigger : Option ℤ
  triggerReason : Option ℤ
  clock : ℤ

structure HandleStateResult where
  state : TrsyncRuntimeState
  asyncComplete : Option CompletionResult
  triggerPastEnd : Bool
  handled : Bool

variable (self : TrsyncRuntimeState) (params : TrsyncStateParams)

def TrsyncRuntimeState.handleState (clock32ToClock64 : ℤ → ℤ) : HandleStateResult :=
  if params.canTrigger.any (· ≠ 1) then
    if self.triggerCompletion then
      { state := { self with triggerCompletion := false }
        asyncComplete := some (.aa (reasonCommsTimeout ≤ params.triggerReason.getD 0))
        triggerPastEnd := false, handled := true }
    else { state := self, asyncComplete := none, triggerPastEnd := false, handled := true }
  else
    match self.homeEndClock with
    | none => { state := self, asyncComplete := none, triggerPastEnd := false, handled := false }
    | some homeEndClock =>
      if clock32ToClock64 params.clock < homeEndClock then
        { state := self, asyncComplete := none, triggerPastEnd := false, handled := false }
      else
        { state := { self with homeEndClock := none }
          asyncComplete := none, triggerPastEnd := true, handled := true }

/-- The endstops of a homing move: the trsyncs of each, all with its completion, the
queue of `Async_complete`, the results, and a log of the completions made. -/
structure Endstops (n : ℕ) where
  trsyncs : Fin n → List TrsyncRuntimeState
  asyncQueue : List (Fin n × CompletionResult)
  completions : Fin n → Option CompletionResult
  completed : List (Fin n × CompletionResult)

/-- What happens to an endstop: a response for one of its trsyncs, a shutdown of the
printer, the end of `HomeWait`, and the reactor looking at its queue. -/
inductive EndstopEvent (n : ℕ)
  | trsyncState (i : Fin n) (k : ℕ) (params : TrsyncStateParams)
  | shutdown (i : Fin n) (k : ℕ)
  | stop (i : Fin n) (k : ℕ)
  | pipeSignal

section Defs

variable {n : ℕ}

def Endstops.start (trsyncs : Fin n → List TrsyncRuntimeState) : Endstops n where
  trsyncs := trsyncs
  asyncQueue := []
  completions := fun _ => none
  completed := []

def Endstops.complete (self : Endstops n) (c : Fin n × CompletionResult) : Endstops n :=
  { self with
    completions := Function.update self.completions c.1 (some c.2)
    completed := self.completed ++ [c] }

def Endstops.setTrsync (self : Endstops n) (i : Fin n) (k : ℕ) (trsync : TrsyncRuntimeState) :
    Endstops n :=
  { self with trsyncs := Function.update self.trsyncs i ((self.trsyncs i).set k trsync) }

def Endstops.step (clock32ToClock64 : ℤ → ℤ) (self : Endstops n) : EndstopEvent n → Endstops n
  -- `ManagedTrsync.Handle_trsync_state`
  | .trsyncState i k params =>
    match (self.trsyncs i)[k]? with
    | none => self
    | some trsync =>
      let out := trsync.handleState params clock32ToClock64
      { self.setTrsync i k out.state with
        asyncQueue := self.asyncQueue ++ out.asyncComplete.toList.map fun result => (i, result) }
  -- `TrsyncRuntimeState.Shutdown`
  | .shutdown i k =>
    match (self.trsyncs i)[k]? with
    | none => self
    | some trsync =>
      if trsync.triggerCompletion then
        (self.setTrsync i k { trsync with triggerCompletion := false }).complete (i, .bool false)
      else self
  -- `TrsyncController.Stop`
  | .stop i k =>
    match (self.trsyncs i)[k]? with
    | none => self
    | some trsync => self.setTrsync i k { trsync with triggerCompletion := false }
  -- `_got_pipe_signal` takes everything that is queued
  | .pipeSignal => self.asyncQueue.foldl Endstops.complete { self with asyncQueue := [] }

end Defs

/-! ### The callbacks -/

/-- What `MultiComplete` returns: the only completion there is, or that of a callback
that waits for all of them. -/
inductive Combined (ω : Type*)
  | only (completion : ω)
  | callback (completions : List ω)

def multiComplete {ω : Type*} : List ω → Combined ω
  | [completion] => .only completion
  | completions => .callback completions

/-- The callbacks of `MultiComplete`: the completions that the first one still has to
wait for, unless it has returned; which of the others have not returned; and the
completion of the first. -/
structure Callbacks (n : ℕ) where
  waitAll : Option (List (Fin n))
  watching : Fin n → Bool
  cp : Option CompletionResult

/-- The reactor runs a callback until it waits or returns. -/
inductive CallbackEvent (n : ℕ)
  | waitAll
  | watch (i : Fin n)

section Defs

variable {n : ℕ}

def Combined.register : Combined (Fin n) → Callbacks n
  | .only _ => { waitAll := none, watching := fun _ => false, cp := none }
  | .callback completions =>
    { waitAll := some completions, watching := fun i => i ∈ completions, cp := none }

def Callbacks.step (completions : Fin n → Option CompletionResult) (self : Callbacks n) :
    CallbackEvent n → Callbacks n
  | .waitAll =>
    match self.waitAll with
    | none => self
    | some waiting =>
      match waiting.dropWhile fun i => (completions i).isSome with
      -- the callback returns `nil`, and its completion is completed with that
      | [] => { self with waitAll := none, cp := some .nil }
      | waiting => { self with waitAll := some waiting }
  | .watch i =>
    match self.watching i, completions i with
    | true, some result =>
      { self with
        watching := Function.update self.watching i false
        cp := if result ≠ .nil then some (.int 1) else self.cp }
    | _, _ => self

end Defs

/-! ### Homing with several endstops -/

structure HomingWait (n : ℕ) where
  endstops : Endstops n
  callbacks : Callbacks n

abbrev HomingEvent (n : ℕ) := EndstopEvent n ⊕ CallbackEvent n

section Defs

variable {n : ℕ}

def HomingWait.start (trsyncs : Fin n → List TrsyncRuntimeState) : HomingWait n where
  endstops := Endstops.start trsyncs
  callbacks := (multiComplete (finRange n)).register

def HomingWait.step (clock32ToClock64 : ℤ → ℤ) (self : HomingWait n) : HomingEvent n → HomingWait n
  | .inl e => { self with endstops := self.endstops.step clock32ToClock64 e }
  | .inr e => { self with callbacks := self.callbacks.step self.endstops.completions e }

/-- The result of the completion that `MultiComplete` returned. -/
def HomingWait.combined (self : HomingWait n) : Option CompletionResult :=
  match multiComplete (finRange n) with
  | .only i => self.endstops.completions i
  | .callback _ => self.callbacks.cp

/-- All endstops have completed, or one of them with a communication timeout or worse. -/
def Endstops.MayStop (self : Endstops n) : Prop :=
  (∀ i, (self.completions i).isSome = true) ∨ ∃ i, (i, .aa true) ∈ self.completed

instance (self : Endstops n) : Decidable self.MayStop :=
  inferInstanceAs (Decidable (_ ∨ _))

/-- The move is stopped for a right reason, if at all. -/
def HomingWait.StopsRight (self : HomingWait n) : Prop :=
  self.combined.isSome = true → self.endstops.MayStop

instance (self : HomingWait n) : Decidable self.StopsRight :=
  inferInstanceAs (Decidable (_ → _))

end Defs

variable {n : ℕ} {clock32ToClock64 : ℤ → ℤ}

/-! ### What completes an endstop -/

structure Endstops.NonNil (s : Endstops n) : Prop where
  queue : ∀ c ∈ s.asyncQueue, c.2 ≠ .nil
  result : ∀ i, s.completions i ≠ some .nil

theorem handleState_ne_nil :
    (self.handleState params clock32ToClock64).asyncComplete ≠ some .nil := by
  unfold TrsyncRuntimeState.handleState
  split
  · split <;> simp
  · split
    · simp
    · split <;> simp

variable {self : Endstops n} (trsyncs : Fin n → List TrsyncRuntimeState) (p : List (EndstopEvent n))
  {i : Fin n}

theorem setTrsync_nonNil (h : self.NonNil) (i : Fin n) (k : ℕ) (trsync : TrsyncRuntimeState) :
    (self.setTrsync i k trsync).NonNil :=
  ⟨h.queue, h.result⟩

theorem complete_nonNil (h : self.NonNil) {c : Fin n × CompletionResult} (hc : c.2 ≠ .nil) :
    (self.complete c).NonNil where
  queue := h.queue
  result := by
    intro i
    by_cases hi : i = c.1
    · subst hi
      simpa [Endstops.complete] using hc
    · simpa [Endstops.complete, hi] using h.result i

theorem foldl_complete_nonNil (h : self.NonNil) {cs : List (Fin n × CompletionResult)}
    (hcs : ∀ c ∈ cs, c.2 ≠ .nil) : (cs.foldl Endstops.complete self).NonNil := by
  induction cs generalizing self with
  | nil => exact h
  | cons c cs ih =>
    refine ih (complete_nonNil h (hcs c (by simp))) fun d hd => hcs d (by simp [hd])

theorem step_nonNil (h : self.NonNil) (e : EndstopEvent n) :
    (self.step clock32ToClock64 e).NonNil := by
  cases e with
  | trsyncState i k params =>
    rw [Endstops.step]
    split
    · exact h
    · rename_i trsync _
      refine ⟨?_, h.result⟩
      intro c hc
      simp only [mem_append, mem_map, Option.mem_toList] at hc
      rcases hc with hc | ⟨result, hresult, rfl⟩
      · exact h.queue c hc
      · rintro rfl
        exact handleState_ne_nil trsync params hresult
  | shutdown i k =>
    rw [Endstops.step]
    split
    · exact h
    · split
      · exact complete_nonNil (setTrsync_nonNil h i k _) (by simp)
      · exact h
  | stop i k =>
    rw [Endstops.step]
    split
    · exact h
    · exact setTrsync_nonNil h i k _
  | pipeSignal =>
    have hempty : ({ self with asyncQueue := [] } : Endstops n).NonNil :=
      ⟨fun _ hc => absurd hc not_mem_nil, h.result⟩
    exact foldl_complete_nonNil hempty h.queue

section

variable (h : (self.completions i).isSome = true)
include h

/-- What is complete stays complete. -/
theorem complete_isSome (c : Fin n × CompletionResult) :
    ((self.complete c).completions i).isSome = true := by
  by_cases hi : i = c.1
  · subst hi
    simp [Endstops.complete]
  · simpa [Endstops.complete, hi] using h

theorem foldl_complete_isSome (cs : List (Fin n × CompletionResult)) :
    ((cs.foldl Endstops.complete self).completions i).isSome = true := by
  induction cs generalizing self with
  | nil => exact h
  | cons c cs ih => exact ih (complete_isSome h c)

theorem step_isSome (e : EndstopEvent n) :
    ((self.step clock32ToClock64 e).completions i).isSome = true := by
  cases e with
  | trsyncState j k params =>
    rw [Endstops.step]
    split <;> exact h
  | shutdown j k =>
    rw [Endstops.step]
    split
    · exact h
    · split
      · exact complete_isSome h _
      · exact h
  | stop j k =>
    rw [Endstops.step]
    split <;> exact h
  | pipeSignal =>
    have hempty : (({ self with asyncQueue := [] } : Endstops n).completions i).isSome = true := h
    exact foldl_complete_isSome hempty _

end

/-! ### What the callbacks see -/

theorem multiComplete_only {ω : Type*} {l : List ω} {a : ω} (h : multiComplete l = .only a) :
    l = [a] := by
  rw [multiComplete.eq_def] at h
  split at h
  · cases h
    rfl
  · cases h

theorem multiComplete_callback {ω : Type*} {l waiting : List ω}
    (h : multiComplete l = .callback waiting) : waiting = l := by
  rw [multiComplete.eq_def] at h
  split at h
  · cases h
  · cases h
    rfl

/-- The callback that waits for all has passed completed endstops only, and nothing
is complete before an endstop is. -/
structure HomingWait.Inv (s : HomingWait n) : Prop where
  waitAll : ∀ waiting, s.callbacks.waitAll = some waiting →
    ∀ i, i ∈ waiting ∨ (s.endstops.completions i).isSome = true
  cp : s.callbacks.cp.isSome = true →
    (∀ i, (s.endstops.completions i).isSome = true) ∨
      ∃ i, (s.endstops.completions i).isSome = true

theorem start_inv : (HomingWait.start trsyncs).Inv := by
  rw [HomingWait.start]
  rcases hm : multiComplete (finRange n) with i | waiting
  · exact ⟨by simp [Combined.register], by simp [Combined.register]⟩
  · rw [multiComplete_callback hm]
    exact ⟨by simp [Combined.register], by simp [Combined.register]⟩

theorem mem_of_dropWhile {α : Type*} {p : α → Bool} {l : List α} {a : α} (ha : a ∈ l) :
    a ∈ l.dropWhile p ∨ p a = true := by
  rw [← takeWhile_append_dropWhile (p := p) (l := l), mem_append] at ha
  exact ha.symm.imp_right mem_takeWhile_imp

theorem step_inv {self : HomingWait n} (h : self.Inv) (e : HomingEvent n) :
    (self.step clock32ToClock64 e).Inv := by
  rcases e with e | e
  · refine ⟨fun waiting hw i => ?_, fun hcp => ?_⟩
    · exact (h.waitAll waiting hw i).imp_right fun hi => step_isSome hi e
    · rcases h.cp hcp with hall | ⟨i, hi⟩
      · exact .inl fun i => step_isSome (hall i) e
      · exact .inr ⟨i, step_isSome hi e⟩
  · cases e with
    | waitAll =>
      simp only [HomingWait.step, Callbacks.step]
      split
      · exact h
      · rename_i waiting hwaiting
        have hpassed : ∀ i, i ∈ waiting.dropWhile (fun i => (self.endstops.completions i).isSome) ∨
            (self.endstops.completions i).isSome = true := fun i =>
          (h.waitAll waiting hwaiting i).elim mem_of_dropWhile .inr
        split
        · rename_i hnil
          rw [hnil] at hpassed
          exact ⟨by simp, fun _ => .inl fun i => (hpassed i).resolve_left not_mem_nil⟩
        · refine ⟨?_, h.cp⟩
          rintro _ ⟨⟩
          exact hpassed
    | watch i =>
      simp only [HomingWait.step, Callbacks.step]
      split
      · rename_i result _ hresult
        exact ⟨h.waitAll, fun _ => .inr ⟨i, by rw [hresult]; rfl⟩⟩
      · exact h

/-! ### Runs -/

variable (self : HomingWait n) (run : List (HomingEvent n))

def endstopEvents : List (EndstopEvent n) :=
  run.filterMap Sum.getLeft?

theorem final_endstops :
    (final (HomingWait.step clock32ToClock64) self run).endstops =
      final (Endstops.step clock32ToClock64) self.endstops (endstopEvents run) := by
  induction run generalizing self with
  | nil => rfl
  | cons e run ih =>
    rw [final_cons, ih]
    rcases e with e | e <;> rfl

theorem final_inv : (final (HomingWait.step clock32ToClock64) (HomingWait.start trsyncs) run).Inv :=
  final_of_kept (I := HomingWait.Inv) (fun _ e h => step_inv h e) (start_inv trsyncs) run

theorem final_nonNil : (final (Endstops.step clock32ToClock64) (Endstops.start trsyncs) p).NonNil :=
  final_of_kept (I := Endstops.NonNil) (fun _ e h => step_nonNil h e)
    ⟨by simp [Endstops.start], by simp [Endstops.start]⟩ p

/-- As long as no callback runs, only the endstops change. -/
theorem final_inl (p : List (EndstopEvent n)) :
    final (HomingWait.step clock32ToClock64) self (p.map Sum.inl) =
      { self with endstops := final (Endstops.step clock32ToClock64) self.endstops p } := by
  induction p generalizing self with
  | nil => rfl
  | cons e p ih =>
    rw [map_cons, final_cons, ih]
    rfl

/-- What is waited for is complete only if an endstop is, or if there is none. -/
theorem combined_isSome {self : HomingWait n} (h : self.Inv)
    (hcombined : self.combined.isSome = true) :
    (∀ i, (self.endstops.completions i).isSome = true) ∨
      ∃ i, (self.endstops.completions i).isSome = true := by
  rw [HomingWait.combined] at hcombined
  split at hcombined
  · exact .inr ⟨_, hcombined⟩
  · exact h.cp hcombined

/-- After the events `p` of the endstops, the reactor runs the callback of endstop `i`. -/
theorem combined_after_watch
    (hi : ((final (Endstops.step clock32ToClock64) (Endstops.start trsyncs) p).completions
      i).isSome = true) :
    (final (HomingWait.step clock32ToClock64) (HomingWait.start trsyncs)
      (p.map Sum.inl ++ [Sum.inr (.watch i)])).combined.isSome = true := by
  obtain ⟨result, hresult⟩ := Option.isSome_iff_exists.mp hi
  have hnil : result ≠ .nil := by
    rintro rfl
    exact (final_nonNil trsyncs p).result i hresult
  rw [final_append, final_inl, final_cons, final_nil, HomingWait.combined]
  rcases hm : multiComplete (finRange n) with j | waiting
  · have hij : i = j := by
      have hmem := mem_finRange i
      rwa [multiComplete_only hm, mem_singleton] at hmem
    subst hij
    exact hi
  · have hwatching : i ∈ waiting := by
      rw [multiComplete_callback hm]
      exact mem_finRange i
    simp [HomingWait.step, HomingWait.start, Callbacks.step, Combined.register, hm, hresult,
      hwatching, hnil]

/-- Whatever the reactor runs in between, the move is stopped for a right reason,
exactly when the endstops never have one of them completed before the others without
a communication timeout. -/
theorem combined_stops_iff (clock32ToClock64 : ℤ → ℤ)
    (trsyncs : Fin n → List TrsyncRuntimeState) (events : List (EndstopEvent n)) :
    (∀ run : List (HomingEvent n), endstopEvents run <+: events →
      (final (HomingWait.step clock32ToClock64) (HomingWait.start trsyncs) run).StopsRight) ↔
    ∀ p, p <+: events → ∀ i,
      ((final (Endstops.step clock32ToClock64) (Endstops.start trsyncs) p).completions
        i).isSome = true →
      (final (Endstops.step clock32ToClock64) (Endstops.start trsyncs) p).MayStop := by
  constructor
  · intro hright p hp i hi
    have hrun : endstopEvents (p.map Sum.inl ++ [Sum.inr (.watch i)]) = p := by
      rw [endstopEvents, filterMap_append, filterMap_map]
      simp [Function.comp_def]
    have hstop := hright (p.map Sum.inl ++ [Sum.inr (.watch i)]) (by rw [hrun]; exact hp)
      (combined_after_watch trsyncs p hi)
    rw [final_endstops, hrun] at hstop
    exact hstop
  · intro horder run hrun hcombined
    rcases combined_isSome (final_inv trsyncs run) hcombined with hall | ⟨i, hi⟩
    · exact .inl hall
    · rw [final_endstops] at hi ⊢
      exact horder _ hrun i hi

/-- Two endstops: the first is hit, and its callback stops the move while the second
has seen nothing. -/
theorem combined_first_hit : ¬ (final (HomingWait.step (n := 2) id)
      (HomingWait.start fun _ => [{ triggerCompletion := true, homeEndClock := none }])
      [.inl (.trsyncState 0 0 { canTrigger := some 0, triggerReason := some 1, clock := 0 }),
        .inl .pipeSignal, .inr (.watch 0)]).StopsRight := by
  decide

end Motion
