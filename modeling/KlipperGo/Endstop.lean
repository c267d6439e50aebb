/-
The trigger synchronisation of endstops (`internal/pkg/mcu/trsync.go`,
`trsync_controller.go`, `endstop_registry.go` and `endstop_controller.go`).

A trsync stops the steppers of one micro-controller together and tells the host
when it was triggered.  An endstop keeps one trsync for each micro-controller on
which it has steppers.

* `completed_sublist`, `triggers_pay` — each report uses up what the next one would need;
* `Grouped.findIdx?`, `conflict_iff` — which trsync a stepper goes to, and when it is in conflict.
-/
import KlipperGo.Runs
import Mathlib.Data.List.Nodup

open Runs List

namespace Mcu

/-! ### Reports of one trsync -/

def reasonCommsTimeout : Int64 := 4

/-- The parameters of a `trsync_state` message; a value of another type is as good as none. -/
structure TrsyncParams where
  canTrigger : Option Int64
  triggerReason : Option Int64
  clock : Option Int64

inductive TriggerResult where
  | shutdown
  | triggered (commsTimeout : Bool)
  deriving DecidableEq

inductive TrsyncEffect (C : Type*) where
  | complete (completion : C) (result : TriggerResult)
  | triggerPastEnd
  deriving DecidableEq

structure TrsyncRuntimeState (C : Type*) where
  triggerCompletion : Option C
  homeEndClock : Option Int64

namespace TrsyncRuntimeState

variable {C : Type*}

def shutdown (self : TrsyncRuntimeState C) : TrsyncRuntimeState C × List (TrsyncEffect C) :=
  match self.triggerCompletion with
  | none => (self, [])
  | some completion => ({ self with triggerCompletion := none }, [.complete completion .shutdown])

/-- `HandleState`, with whether the message was handled; a message without a clock panics where
the clock is read. -/
def handleState (self : TrsyncRuntimeState C) (params : TrsyncParams)
    (clock32ToClock64 : Int64 → Int64) :
    Option (Bool × TrsyncRuntimeState C × List (TrsyncEffect C)) :=
  if params.canTrigger.any (· ≠ 1) then
    match self.triggerCompletion with
    | none => some (true, self, [])
    | some completion =>
      let reason := params.triggerReason.getD 0
      some (true, { self with triggerCompletion := none },
        [.complete completion (.triggered (reasonCommsTimeout ≤ reason))])
  else
    match self.homeEndClock, params.clock with
    | none, _ => some (false, self, [])
    | some _, none => none
    | some homeEndClock, some clock =>
      if clock32ToClock64 clock < homeEndClock then some (false, self, [])
      else some (true, { self with homeEndClock := none }, [.triggerPastEnd])

end TrsyncRuntimeState

/-- Calls of the host, and the messages of the micro-controller; the clock of the end time comes
converted. -/
inductive TrsyncEvent (C : Type*) where
  | start (triggerCompletion : Option C)
  | handleState (params : TrsyncParams) (clock32ToClock64 : Int64 → Int64)
  | setHomeEndTime (homeEndClock : Int64)
  | stop
  | shutdown

namespace TrsyncRuntimeState

variable {C : Type*} (self : TrsyncRuntimeState C) {e : TrsyncEvent C}

/-- The state after an event, and what was done. -/
def react :
    TrsyncEvent C → TrsyncRuntimeState C × List (TrsyncEffect C)
  | .start triggerCompletion => (⟨triggerCompletion, none⟩, [])
  | .handleState params clock32ToClock64 =>
    match self.handleState params clock32ToClock64 with
    | some (_, self', effects) => (self', effects)
    | none => (self, [])
  | .setHomeEndTime homeEndClock => ({ self with homeEndClock := some homeEndClock }, [])
  | .stop => ({ self with triggerCompletion := none }, [])
  | .shutdown => self.shutdown

def step (e : TrsyncEvent C) : TrsyncRuntimeState C :=
  (self.react e).1

def completed (e : TrsyncEvent C) : List C :=
  (self.react e).2.filterMap fun
    | .complete completion _ => some completion
    | .triggerPastEnd => none

/-- How often an event sends the trigger for the end time. -/
def triggers (e : TrsyncEvent C) : ℕ :=
  ((self.react e).2.filter fun
    | .complete _ _ => false
    | .triggerPastEnd => true).length

/-- What a message or a shutdown can do: nothing, complete the completion, or send the trigger. -/
def Reports (r : TrsyncRuntimeState C × List (TrsyncEffect C)) : Prop :=
  r = (self, []) ∨
    (∃ completion result, self.triggerCompletion = some completion ∧
      r = ({ self with triggerCompletion := none }, [.complete completion result])) ∨
    ∃ homeEndClock, self.homeEndClock = some homeEndClock ∧
      r = ({ self with homeEndClock := none }, [.triggerPastEnd])

theorem reports_handleState (params : TrsyncParams) (clock32ToClock64 : Int64 → Int64) :
    Reports self (self.react (.handleState params clock32ToClock64)) := by
  simp only [react, handleState]
  split
  · next h =>
    split at h
    · split at h
      · cases h
        exact .inl rfl
      · next completion hc =>
        cases h
        exact .inr (.inl ⟨completion, _, hc, rfl⟩)
    · split at h
      · cases h
        exact .inl rfl
      · cases h
      · next clock _ hclock _ =>
        split at h
        · cases h
          exact .inl rfl
        · cases h
          exact .inr (.inr ⟨clock, hclock, rfl⟩)
  · exact .inl rfl

theorem reports_shutdown : Reports self (self.react .shutdown) := by
  rw [react, shutdown]
  split
  · exact .inl rfl
  · next completion hc => exact .inr (.inl ⟨completion, .shutdown, hc, rfl⟩)

def pending : List C := self.triggerCompletion.toList

theorem Reports.completed_append {self : TrsyncRuntimeState C} (h : Reports self (self.react e)) :
    self.completed e ++ (self.step e).pending = self.pending := by
  rcases h with h | ⟨completion, result, hc, h⟩ | ⟨clock, -, h⟩
  · simp [completed, step, pending, h]
  · simp [completed, step, pending, h, hc]
  · simp [completed, step, pending, h]

theorem Reports.triggers_le {self : TrsyncRuntimeState C} (h : Reports self (self.react e)) :
    self.triggers e + (self.step e).homeEndClock.toList.length ≤
      self.homeEndClock.toList.length := by
  rcases h with h | ⟨completion, result, -, h⟩ | ⟨clock, hclock, h⟩
  · simp [triggers, step, h]
  · simp [triggers, step, h]
  · simp [triggers, step, h, hclock]

/-- Only a start gives a trsync something to complete. -/
theorem completed_sublist (he : ∀ completion, e ≠ .start completion) (self : TrsyncRuntimeState C) :
    (self.completed e ++ (self.step e).pending).Sublist self.pending := by
  rcases e with completion | ⟨params, clock32ToClock64⟩ | clock | _ | _
  · exact absurd rfl (he completion)
  · exact (reports_handleState self params clock32ToClock64).completed_append ▸ Sublist.refl _
  · exact Sublist.refl _
  · exact nil_sublist _
  · exact (reports_shutdown self).completed_append ▸ Sublist.refl _

/-- Only an end time gives it something to trigger for. -/
theorem triggers_pay (he : ∀ clock, e ≠ .setHomeEndTime clock) (self : TrsyncRuntimeState C) :
    self.triggers e + (self.step e).homeEndClock.toList.length ≤
      self.homeEndClock.toList.length := by
  rcases e with completion | ⟨params, clock32ToClock64⟩ | clock | _ | _
  · exact Nat.zero_le _
  · exact (reports_handleState self params clock32ToClock64).triggers_le
  · exact absurd rfl (he clock)
  · exact Nat.le_of_eq (Nat.zero_add _)
  · exact (reports_shutdown self).triggers_le

def completedAlong : TrsyncRuntimeState C → List (TrsyncEvent C) → List C
  | _, [] => []
  | self, e :: events => self.completed e ++ completedAlong (self.step e) events

/-- Until the next start, a run completes at most what there is to complete. -/
theorem completedAlong_sublist {events : List (TrsyncEvent C)}
    (h : ∀ completion, .start completion ∉ events) (self : TrsyncRuntimeState C) :
    (self.completedAlong events).Sublist self.pending := by
  induction events generalizing self with
  | nil => exact nil_sublist _
  | cons e events ih =>
    have hrest := ih (fun completion hmem => h completion (mem_cons_of_mem e hmem))
      (self.step e)
    have he : ∀ completion, e ≠ .start completion := fun completion heq =>
      h completion (heq ▸ mem_cons_self)
    exact (hrest.append_left _).trans (completed_sublist he self)

/-- From any state: after a start its completion is completed at most once and no other one is,
after a stop none is, and after an end time is set its trigger is sent at most once. -/
theorem trigger_reported_once (events : List (TrsyncEvent C)) :
    ((∀ completion, .start completion ∉ events) →
      (∀ triggerCompletion, ((self.step (.start triggerCompletion)).completedAlong events).Sublist
          triggerCompletion.toList) ∧
        (self.step .stop).completedAlong events = []) ∧
    ((∀ clock, .setHomeEndTime clock ∉ events) →
      ∀ homeEndClock,
        total step triggers (self.step (.setHomeEndTime homeEndClock)) events ≤ 1) := by
  refine ⟨fun hstart => ⟨fun completion => ?_, ?_⟩, fun hset clock => ?_⟩
  · exact completedAlong_sublist hstart (self.step (.start completion))
  · exact sublist_nil.mp (completedAlong_sublist hstart (self.step .stop))
  · refine total_le_of_budget (B := fun s : TrsyncRuntimeState C => s.homeEndClock.toList.length)
      (G := fun e => ∀ clock, e ≠ TrsyncEvent.setHomeEndTime clock)
      (fun s e he => triggers_pay he s) ?_
    rintro e he clock rfl
    exact hset clock he

end TrsyncRuntimeState

/-! ### The trsyncs of an endstop -/

/-- A trsync as the registry sees it. -/
structure Trsync (M S : Type*) where
  mcuKey : M
  steppers : List S

def Trsync.addStepper {M S : Type*} [DecidableEq S] (self : Trsync M S) (stepper : S) :
    Trsync M S :=
  if stepper ∈ self.steppers then self else { self with steppers := self.steppers ++ [stepper] }

structure EndstopAddStepperPlan where
  trsyncIndex : ℕ
  needsNewTrsync : Bool
  sharedAxisConflict : Bool
  deriving DecidableEq

def stepperBytes : List UInt8 := [115, 116, 101, 112, 112, 101, 114, 95]

section

variable {M S : Type*} [DecidableEq M] [DecidableEq S] (mcuKey : S → M) (name : S → List UInt8)

/-- `BuildEndstopAddStepperPlan`; a name that is too short to have an axis panics. -/
def buildEndstopAddStepperPlan (trsyncs : List (Trsync M S)) (stepper : S) :
    Option EndstopAddStepperPlan :=
  let found := trsyncs.findIdx? fun trsync => trsync.mcuKey = mcuKey stepper
  let plan := ⟨found.getD trsyncs.length, found.isNone, false⟩
  let sname := name stepper
  if ¬ stepperBytes <+: sname then some plan
  else if sname.length < 9 then none
  else
    let axisPrefix := sname.take 9
    some { plan with
      sharedAxisConflict := trsyncs.zipIdx.any fun (trsync, i) =>
        found ≠ some i ∧ ∃ other ∈ trsync.steppers, axisPrefix <+: name other }

def collectEndstopSteppers (trsyncs : List (Trsync M S)) : List S :=
  trsyncs.flatMap Trsync.steppers

/-- A call of `AddStepper`, with the micro-controller of the trsync that `newTrsync` would create,
if it would create one. -/
structure AddCall (M S : Type*) where
  stepper : S
  newTrsync : Option M

/-- The trsyncs of an `EndstopController`, and the steppers that were handed to one of them. -/
structure EndstopController (M S : Type*) where
  trsyncs : List (Trsync M S)
  added : List S

namespace EndstopController

def newEndstopController (initialTrsync : Option M) : EndstopController M S :=
  ⟨initialTrsync.toList.map (⟨·, []⟩), []⟩

def addStepper (self : EndstopController M S) (call : AddCall M S) :
    Option (EndstopController M S × EndstopAddStepperPlan) :=
  (buildEndstopAddStepperPlan mcuKey name self.trsyncs call.stepper).map fun plan =>
    let created := if plan.needsNewTrsync then call.newTrsync else none
    let trsyncs := self.trsyncs ++ created.toList.map (⟨·, []⟩)
    let trsyncIndex := if created.isSome then trsyncs.length - 1 else plan.trsyncIndex
    if trsyncIndex < trsyncs.length then
      (⟨trsyncs.modify trsyncIndex (·.addStepper call.stepper), call.stepper :: self.added⟩, plan)
    else (⟨trsyncs, self.added⟩, plan)

/-- The controller after a call; a call that panics has changed nothing. -/
def step (self : EndstopController M S) (call : AddCall M S) : EndstopController M S :=
  ((self.addStepper mcuKey name call).map Prod.fst).getD self

end EndstopController

variable {mcuKey name} {trsyncs pre post : List (Trsync M S)} {added : List S} {t : Trsync M S}
  {x : S}

/-- The trsyncs are of different micro-controllers, and hold the added steppers, each once and
each with its own micro-controller. -/
structure Grouped (mcuKey : S → M) (trsyncs : List (Trsync M S)) (added : List S) : Prop where
  distinct : (trsyncs.map Trsync.mcuKey).Nodup
  own : ∀ t ∈ trsyncs, ∀ x ∈ t.steppers, mcuKey x = t.mcuKey
  once : (collectEndstopSteppers trsyncs).Nodup
  placed : ∀ x, x ∈ added ↔ x ∈ collectEndstopSteppers trsyncs

section

variable (h : Grouped mcuKey trsyncs added)
include h

omit [DecidableEq S] in
theorem Grouped.findIdx? {i : ℕ} (ht : trsyncs[i]? = some t) (key : M) :
    trsyncs.findIdx? (fun trsync => trsync.mcuKey = key) = some i ↔ t.mcuKey = key := by
  obtain ⟨hi, rfl⟩ := List.getElem?_eq_some_iff.mp ht
  rw [findIdx?_eq_some_iff_getElem]
  constructor
  · rintro ⟨_, hkey, -⟩
    simpa using hkey
  · intro hkey
    refine ⟨hi, by simpa using hkey, fun j hj hkey' => ?_⟩
    have hsame : (trsyncs.map Trsync.mcuKey)[i]? = (trsyncs.map Trsync.mcuKey)[j]? := by
      rw [getElem?_map, getElem?_map, getElem?_eq_getElem hi,
        getElem?_eq_getElem (Nat.lt_trans hj hi), Option.map_some, Option.map_some, hkey,
        of_decide_eq_true hkey']
    have := (getElem?_inj (by simpa using hi) h.distinct).mp hsame
    omega

omit [DecidableEq S] in
/-- A stepper is in conflict with the added ones of its axis on other micro-controllers. -/
theorem Grouped.conflict_iff (axisPrefix : List UInt8) (stepper : S) :
    (trsyncs.zipIdx.any fun (trsync, i) =>
        trsyncs.findIdx? (fun trsync => trsync.mcuKey = mcuKey stepper) ≠ some i ∧
          ∃ other ∈ trsync.steppers, axisPrefix <+: name other) = true ↔
      ∃ other ∈ added, axisPrefix <+: name other ∧ mcuKey other ≠ mcuKey stepper := by
  simp only [any_eq_true, decide_eq_true_iff]
  constructor
  · rintro ⟨⟨t, i⟩, hmem, hne, other, hother, hprefix⟩
    have ht := mk_mem_zipIdx_iff_getElem?.mp hmem
    have hin := mem_of_getElem? ht
    refine ⟨other, (h.placed other).mpr (mem_flatMap.mpr ⟨t, hin, hother⟩), hprefix, ?_⟩
    rw [h.own t hin other hother]
    exact fun hkey => hne ((h.findIdx? ht _).mpr hkey)
  · rintro ⟨other, hadded, hprefix, hkey⟩
    obtain ⟨t, hin, hother⟩ := mem_flatMap.mp ((h.placed other).mp hadded)
    obtain ⟨i, ht⟩ := mem_iff_getElem?.mp hin
    refine ⟨(t, i), mk_mem_zipIdx_iff_getElem?.mpr ht, fun hfound => hkey ?_, other, hother,
      hprefix⟩
    rw [h.own t hin other hother]
    exact (h.findIdx? ht _).mp hfound

omit [DecidableEq M] [DecidableEq S] in
/-- A new trsync for a micro-controller that has none. -/
theorem Grouped.create {key : M}
    (hkey : ∀ t ∈ trsyncs, t.mcuKey ≠ key) : Grouped mcuKey (trsyncs ++ [⟨key, []⟩]) added where
  distinct := by
    rw [map_append, nodup_append_comm, map_singleton, singleton_append, nodup_cons]
    refine ⟨fun hmem => ?_, h.distinct⟩
    obtain ⟨t, ht, heq⟩ := mem_map.mp hmem
    exact hkey t ht heq
  own := by
    intro t ht x hx
    rcases mem_append.mp ht with ht | ht
    · exact h.own t ht x hx
    · rw [mem_singleton.mp ht] at hx
      cases hx
  once := by simpa [collectEndstopSteppers] using h.once
  placed := by simpa [collectEndstopSteppers] using h.placed

end

omit [DecidableEq M] in
/-- A stepper is added to the trsync of its micro-controller. -/
theorem Grouped.place (h : Grouped mcuKey (pre ++ t :: post) added) (hx : mcuKey x = t.mcuKey) :
    Grouped mcuKey (pre ++ t.addStepper x :: post) (x :: added) := by
  rw [Trsync.addStepper]
  by_cases hmem : x ∈ t.steppers
  · -- it is there already
    rw [if_pos hmem]
    refine { h with placed := fun y => ?_ }
    rw [mem_cons, h.placed]
    refine or_iff_right_of_imp ?_
    rintro rfl
    exact mem_flatMap.mpr ⟨t, by simp, hmem⟩
  · rw [if_neg hmem]
    have hperm : (collectEndstopSteppers
        (pre ++ { t with steppers := t.steppers ++ [x] } :: post)).Perm
          (x :: collectEndstopSteppers (pre ++ t :: post)) := by
      simp only [collectEndstopSteppers, flatMap_append, flatMap_cons]
      rw [append_assoc, singleton_append]
      exact (perm_middle.append_left _).trans perm_middle
    have hnew : x ∉ collectEndstopSteppers (pre ++ t :: post) := by
      intro hin
      obtain ⟨t', ht', hxt'⟩ := mem_flatMap.mp hin
      have heq := inj_on_of_nodup_map h.distinct ht' (show t ∈ pre ++ t :: post by simp)
        ((h.own t' ht' x hxt').symm.trans hx)
      exact hmem (heq ▸ hxt')
    refine ⟨by simpa using h.distinct, fun t' ht' y hy => ?_,
      hperm.nodup_iff.mpr (nodup_cons.mpr ⟨hnew, h.once⟩), fun y => ?_⟩
    · rcases mem_append.mp ht' with ht' | ht'
      · exact h.own t' (by simp [ht']) y hy
      · rcases mem_cons.mp ht' with rfl | ht'
        · rcases mem_append.mp hy with hy | hy
          · exact h.own t (by simp) y hy
          · rw [mem_singleton.mp hy]
            exact hx
        · exact h.own t' (by simp [ht']) y hy
    · rw [hperm.mem_iff, mem_cons, mem_cons, h.placed]

omit [DecidableEq S] in
theorem Grouped.buildEndstopAddStepperPlan_eq (h : Grouped mcuKey trsyncs added) {stepper : S}
    (hname : stepperBytes <+: name stepper → 9 ≤ (name stepper).length) :
    ∃ plan, buildEndstopAddStepperPlan mcuKey name trsyncs stepper = some plan ∧
      plan.trsyncIndex =
        (trsyncs.findIdx? fun trsync => trsync.mcuKey = mcuKey stepper).getD trsyncs.length ∧
      plan.needsNewTrsync =
        (trsyncs.findIdx? fun trsync => trsync.mcuKey = mcuKey stepper).isNone ∧
      (plan.sharedAxisConflict = true ↔ stepperBytes <+: name stepper ∧ ∃ other ∈ added,
        (name stepper).take 9 <+: name other ∧ mcuKey other ≠ mcuKey stepper) := by
  by_cases hstepper : stepperBytes <+: name stepper
  · rw [buildEndstopAddStepperPlan, if_neg (not_not_intro hstepper),
      if_neg (Nat.not_lt.mpr (hname hstepper))]
    exact ⟨_, rfl, rfl, rfl, (h.conflict_iff _ stepper).trans (iff_and_self.mpr fun _ => hstepper)⟩
  · rw [buildEndstopAddStepperPlan, if_pos hstepper]
    exact ⟨_, rfl, rfl, rfl, by simp [hstepper]⟩

/-- What a call does: the steppers stay grouped, the new one with them if there is a trsync for
it, and a conflict is flagged if an added stepper of the axis is on another micro-controller. -/
structure Adds (mcuKey : S → M) (name : S → List UInt8) (before : EndstopController M S)
    (call : AddCall M S) (after : EndstopController M S) (plan : EndstopAddStepperPlan) : Prop where
  result : before.addStepper mcuKey name call = some (after, plan)
  grouped : Grouped mcuKey after.trsyncs after.added
  added : after.added = call.stepper :: before.added ∨ after.added = before.added ∧
    call.newTrsync = none ∧ ∀ t ∈ before.trsyncs, t.mcuKey ≠ mcuKey call.stepper
  conflict : plan.sharedAxisConflict = true ↔ stepperBytes <+: name call.stepper ∧
    ∃ other ∈ before.added, (name call.stepper).take 9 <+: name other ∧
      mcuKey other ≠ mcuKey call.stepper

theorem Grouped.addStepper {self : EndstopController M S} {call : AddCall M S}
    (h : Grouped mcuKey self.trsyncs self.added)
    (hnew : ∀ key ∈ call.newTrsync, key = mcuKey call.stepper)
    (hname : stepperBytes <+: name call.stepper → 9 ≤ (name call.stepper).length) :
    ∃ self' plan, Adds mcuKey name self call self' plan := by
  obtain ⟨plan, hplan, hindex, hneeds, hconflict⟩ := h.buildEndstopAddStepperPlan_eq hname
  rcases hfound : self.trsyncs.findIdx? (fun trsync => trsync.mcuKey = mcuKey call.stepper) with
    _ | i
  · have hkey : ∀ t ∈ self.trsyncs, t.mcuKey ≠ mcuKey call.stepper := by
      simpa using findIdx?_eq_none_iff.mp hfound
    rcases hcreated : call.newTrsync with _ | key
    · refine ⟨self, plan, ⟨?_, h, .inr ⟨rfl, hcreated, hkey⟩, hconflict⟩⟩
      simp [EndstopController.addStepper, hplan, hindex, hfound, hcreated]
    · -- the new trsync is the last one
      obtain rfl := hnew key hcreated
      refine ⟨⟨self.trsyncs ++ [Trsync.addStepper ⟨mcuKey call.stepper, []⟩ call.stepper],
        call.stepper :: self.added⟩, plan,
        ⟨?_, (h.create hkey).place rfl, .inl rfl, hconflict⟩⟩
      simp [EndstopController.addStepper, hplan, hneeds, hfound, hcreated, modify_eq_take_cons_drop]
  · obtain ⟨hi, hkey, -⟩ := findIdx?_eq_some_iff_getElem.mp hfound
    have hsplit : self.trsyncs =
        self.trsyncs.take i ++ self.trsyncs[i] :: self.trsyncs.drop (i + 1) := by
      rw [← drop_eq_getElem_cons hi, take_append_drop]
    have hplaced := (hsplit ▸ h).place (of_decide_eq_true hkey).symm
    refine ⟨⟨_, call.stepper :: self.added⟩, plan, ⟨?_, hplaced, .inl rfl, hconflict⟩⟩
    simp [EndstopController.addStepper, hplan, hindex, hneeds, hfound, hi, modify_eq_take_cons_drop]

/-- Along every run of calls the steppers are grouped by their micro-controllers. -/
theorem endstop_grouped (mcuKey : S → M) (name : S → List UInt8) (initialTrsync : Option M)
    (calls : List (AddCall M S))
    (hnew : ∀ call ∈ calls, ∀ key ∈ call.newTrsync, key = mcuKey call.stepper)
    (hname : ∀ call ∈ calls,
      stepperBytes <+: name call.stepper → 9 ≤ (name call.stepper).length) :
    Along (EndstopController.step mcuKey name)
      (fun self call => Grouped mcuKey self.trsyncs self.added ∧
        ∃ self' plan, Adds mcuKey name self call self' plan)
      (EndstopController.newEndstopController initialTrsync) calls := by
  have hstart : Grouped mcuKey
      (EndstopController.newEndstopController (S := S) initialTrsync).trsyncs [] := by
    rcases initialTrsync with _ | key
    · exact ⟨nodup_nil, by simp [EndstopController.newEndstopController], nodup_nil,
        fun _ => Iff.rfl⟩
    · exact ⟨nodup_singleton _, by simp [EndstopController.newEndstopController],
        nodup_nil, fun _ => Iff.rfl⟩
  -- the controller stays grouped, so every call does what it should
  refine along_of_invariant
    (I := fun self : EndstopController M S => Grouped mcuKey self.trsyncs self.added)
    (G := fun call : AddCall M S => (∀ key ∈ call.newTrsync, key = mcuKey call.stepper) ∧
      (stepperBytes <+: name call.stepper → 9 ≤ (name call.stepper).length))
    ?_ ?_ hstart fun call hcall => ⟨hnew call hcall, hname call hcall⟩
  · rintro self call h ⟨hn, hl⟩
    obtain ⟨self', plan, hadds⟩ := h.addStepper hn hl
    rw [EndstopController.step, hadds.result]
    exact hadds.grouped
  · rintro self call h ⟨hn, hl⟩
    exact ⟨h, h.addStepper hn hl⟩

end

def sharedAxisName (stepper : Bool) : List UInt8 :=
  stepperBytes ++ if stepper then [120, 49] else [120]

theorem endstop_grouped_shared_axis :
    ((((EndstopController.newEndstopController (some false)).step id sharedAxisName
        ⟨false, none⟩).addStepper id sharedAxisName ⟨true, some true⟩).map
          fun r => r.2.sharedAxisConflict) = some true ∧
      Along (EndstopController.step id sharedAxisName)
        (fun self call => Grouped id self.trsyncs self.added ∧
          ∃ self' plan, Adds id sharedAxisName self call self' plan)
        (EndstopController.newEndstopController (some false))
        [⟨false, none⟩, ⟨true, some true⟩] :=
  ⟨by decide, endstop_grouped id sharedAxisName (some false) [⟨false, none⟩, ⟨true, some true⟩]
    (by simp) (by decide)⟩

end Mcu
