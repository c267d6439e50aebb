/-
The enable lines of the stepper motors (`internal/pkg/mcu/stepper_enable.go`, and
the active callbacks of `timing.go` and `legacy_stepper.go`).

Steppers may share an enable pin, which counts how many of them want it.  Every
stepper has a tracker; while the stepper is disabled, the tracker has left a
callback with it that runs when the stepper is first found active, before steps
are generated.  Events are not nested: the callbacks of other modules are only
recorded.

* `pinStep_setEnable`, `pinStep_setDisable` — switching a stepper writes its pin when the line
  changes;
* `step_pinStep`, `Pending.step` — what an event does to the pins and to the callbacks.
-/
import KlipperGo.Runs
import Mathlib.Algebra.Ring.Int.Defs
import Mathlib.Data.Fintype.Card

open Runs

namespace Mcu

/-- `StepperEnablePin`, with the values written to it so far. -/
structure StepperEnablePin (K : Type*) where
  /-- Whether there is a digital output behind the pin. -/
  digitalOut : Bool
  enableCount : ℤ
  writes : List (K × ℤ)

namespace StepperEnablePin

variable {K : Type*} (self : StepperEnablePin K)

def setEnable (printTime : K) : StepperEnablePin K :=
  { self with
    writes := if self.enableCount = 0 ∧ self.digitalOut then self.writes ++ [(printTime, 1)]
      else self.writes
    enableCount := self.enableCount + 1 }

def setDisable (printTime : K) : StepperEnablePin K :=
  { self with
    writes := if self.enableCount - 1 = 0 ∧ self.digitalOut then self.writes ++ [(printTime, 0)]
      else self.writes
    enableCount := self.enableCount - 1 }

/-- The value of the pin: low until something else is written. -/
def level : ℤ := (self.writes.getLast?.map Prod.snd).getD 0

end StepperEnablePin

/-- `EnableTracking`; its callbacks are told of every change. -/
structure EnableTracking (C : Type*) where
  callbacks : List C
  isEnabled : Bool

/-- A callback left with a stepper: `MotorEnable` of its tracker, or another module's. -/
inductive ActiveCallback (C : Type*) where
  | motorEnable
  | other (callback : C)
  deriving DecidableEq

inductive Called (S C K : Type*) where
  | state (stepper : S) (callback : C) (printTime : K) (enabled : Bool)
  | active (stepper : S) (callback : C) (printTime : K)

/-- The pins, the trackers, and the callbacks left with the steppers. -/
structure EnableLines (S P C K : Type*) where
  pins : P → StepperEnablePin K
  trackers : S → EnableTracking C
  activeCallbacks : S → List (ActiveCallback C)
  called : List (Called S C K)

/-- Calls from outside; `generateSteps` comes with what `CheckActive` finds. -/
inductive EnableEvent (S C K : Type*) where
  | motorEnable (stepper : S) (printTime : K)
  | motorDisable (stepper : S) (printTime : K)
  | addActiveCallback (stepper : S) (callback : C)
  | generateSteps (stepper : S) (activeTime : K)

namespace EnableLines

variable {S P C K : Type*} [DecidableEq S] [DecidableEq P] (enable : S → P)
  (self : EnableLines S P C K) (stepper : S)

/-- `MotorEnable` of the stepper's tracker. -/
def motorEnable (printTime : K) : EnableLines S P C K :=
  let tracker := self.trackers stepper
  if tracker.isEnabled then self
  else
    { self with
      pins := Function.update self.pins (enable stepper)
        ((self.pins (enable stepper)).setEnable printTime)
      trackers := Function.update self.trackers stepper { tracker with isEnabled := true }
      called := self.called ++ tracker.callbacks.map (.state stepper · printTime true) }

/-- `MotorDisable` of the stepper's tracker. -/
def motorDisable (printTime : K) : EnableLines S P C K :=
  let tracker := self.trackers stepper
  if tracker.isEnabled then
    { self with
      called := self.called ++ tracker.callbacks.map (.state stepper · printTime false)
      pins := Function.update self.pins (enable stepper)
        ((self.pins (enable stepper)).setDisable printTime)
      trackers := Function.update self.trackers stepper { tracker with isEnabled := false }
      activeCallbacks := Function.update self.activeCallbacks stepper
        (self.activeCallbacks stepper ++ [.motorEnable]) }
  else self

def runCallback (activeTime : K) :
    ActiveCallback C → EnableLines S P C K
  | .motorEnable => self.motorEnable enable stepper activeTime
  | .other callback => { self with called := self.called ++ [.active stepper callback activeTime] }

def runCallbacks (activeTime : K) (callbacks : List (ActiveCallback C)) : EnableLines S P C K :=
  callbacks.foldl (fun self callback => self.runCallback enable stepper activeTime callback) self

variable [Zero K] [LinearOrder K]

/-- `Generate_steps` up to where the steps are generated: the list of callbacks is taken out, run
and put back empty. -/
def generateSteps (self : EnableLines S P C K) (stepper : S) (activeTime : K) :
    EnableLines S P C K :=
  if self.activeCallbacks stepper ≠ [] ∧ 0 < activeTime then
    let self := self.runCallbacks enable stepper activeTime (self.activeCallbacks stepper)
    { self with activeCallbacks := Function.update self.activeCallbacks stepper [] }
  else self

def step (self : EnableLines S P C K) : EnableEvent S C K → EnableLines S P C K
  | .motorEnable stepper printTime => self.motorEnable enable stepper printTime
  | .motorDisable stepper printTime => self.motorDisable enable stepper printTime
  | .addActiveCallback stepper callback =>
    { self with
      activeCallbacks := Function.update self.activeCallbacks stepper
        (self.activeCallbacks stepper ++ [.other callback]) }
  | .generateSteps stepper activeTime => self.generateSteps enable stepper activeTime

end EnableLines

def EnableEvent.time {S C K : Type*} [Zero K] : EnableEvent S C K → K
  | motorEnable _ printTime => printTime
  | motorDisable _ printTime => printTime
  | addActiveCallback _ _ => 0
  | generateSteps _ activeTime => activeTime

/-! ### The lines -/

namespace EnableLines

variable {S P C K : Type*} {enable : S → P} {self self' : EnableLines S P C K} {stepper : S}
  {p : P} {t : K}

variable (enable) in
/-- Some stepper on the pin is enabled. -/
def Energized (self : EnableLines S P C K) (p : P) : Prop :=
  ∃ s, enable s = p ∧ (self.trackers s).isEnabled = true

variable (enable) in
/-- From `self` to `self'` the pin is written once, with the new value, if its line changes, and
not at all otherwise. -/
def WritesChange (self self' : EnableLines S P C K) (p : P) (t : K) : Prop :=
  ((self'.Energized enable p ↔ self.Energized enable p) ∧
    (self'.pins p).writes = (self.pins p).writes) ∨
  (¬ self.Energized enable p ∧ self'.Energized enable p ∧
    (self'.pins p).writes = (self.pins p).writes ++ [(t, 1)]) ∨
  (self.Energized enable p ∧ ¬ self'.Energized enable p ∧
    (self'.pins p).writes = (self.pins p).writes ++ [(t, 0)])

variable (enable) in
/-- The last value written to the pin is high exactly when the line is to be. -/
def LevelCorrect (self : EnableLines S P C K) (p : P) : Prop :=
  (self.Energized enable p → (self.pins p).level = 1) ∧
    (¬ self.Energized enable p → (self.pins p).level = 0)

theorem WritesChange.level (h : WritesChange enable self self' p t)
    (hlevel : self.LevelCorrect enable p) : self'.LevelCorrect enable p := by
  unfold LevelCorrect StepperEnablePin.level at *
  rcases h with ⟨hiff, hw⟩ | ⟨-, hon, hw⟩ | ⟨-, hoff, hw⟩
  · rw [hw, hiff]
    exact hlevel
  · rw [hw]
    exact ⟨fun _ => by simp, fun h => absurd hon h⟩
  · rw [hw]
    exact ⟨fun h => absurd h hoff, fun _ => by simp⟩

/-! ### The events -/

variable (enable) in
/-- From `lines` to `lines'` the stepper is switched, and only its pin may have changed. -/
structure Switched (lines lines' : EnableLines S P C K) (stepper : S) (enabled : Bool) : Prop where
  isEnabled_before : (lines.trackers stepper).isEnabled = !enabled
  isEnabled : (lines'.trackers stepper).isEnabled = enabled
  trackers : ∀ s, s ≠ stepper → lines'.trackers s = lines.trackers s
  pins : ∀ p, p ≠ enable stepper → lines'.pins p = lines.pins p

section

variable [DecidableEq S] [DecidableEq P] {callbacks : List (ActiveCallback C)}

section

variable (enable : S → P) (self : EnableLines S P C K) (stepper : S) (t : K)

theorem motorEnable_cases :
    ((self.trackers stepper).isEnabled = true ∧ self.motorEnable enable stepper t = self) ∨
    (Switched enable self (self.motorEnable enable stepper t) stepper true ∧
      (self.motorEnable enable stepper t).pins (enable stepper) =
        (self.pins (enable stepper)).setEnable t) := by
  cases h : (self.trackers stepper).isEnabled with
  | true => exact .inl ⟨rfl, by simp [motorEnable, h]⟩
  | false =>
    refine .inr ⟨⟨h, ?_, fun s hs => ?_, fun p hp => ?_⟩, ?_⟩ <;> simp [motorEnable, *]

theorem motorDisable_cases :
    ((self.trackers stepper).isEnabled = false ∧ self.motorDisable enable stepper t = self) ∨
    (Switched enable self (self.motorDisable enable stepper t) stepper false ∧
      (self.motorDisable enable stepper t).pins (enable stepper) =
        (self.pins (enable stepper)).setDisable t ∧
      (self.motorDisable enable stepper t).activeCallbacks =
        Function.update self.activeCallbacks stepper
          (self.activeCallbacks stepper ++ [.motorEnable])) := by
  cases h : (self.trackers stepper).isEnabled with
  | true =>
    refine .inr ⟨⟨h, ?_, fun s hs => ?_, fun p hp => ?_⟩, ?_, ?_⟩ <;> simp [motorDisable, *]
  | false => exact .inl ⟨rfl, by simp [motorDisable, h]⟩

end

theorem motorEnable_activeCallbacks :
    (self.motorEnable enable stepper t).activeCallbacks = self.activeCallbacks := by
  unfold motorEnable
  dsimp only
  split <;> rfl

/-- The callbacks enable the stepper at most once: the tracker's does nothing when it comes
again. -/
theorem runCallbacks_cases (enable : S → P) (callbacks : List (ActiveCallback C))
    (self : EnableLines S P C K) (stepper : S) (t : K) :
    (((self.trackers stepper).isEnabled = true ∨ .motorEnable ∉ callbacks) ∧
      (self.runCallbacks enable stepper t callbacks).pins = self.pins ∧
      (self.runCallbacks enable stepper t callbacks).trackers = self.trackers) ∨
    (Switched enable self (self.runCallbacks enable stepper t callbacks) stepper true ∧
      (self.runCallbacks enable stepper t callbacks).pins (enable stepper) =
        (self.pins (enable stepper)).setEnable t) := by
  induction callbacks generalizing self with
  | nil => exact .inl ⟨.inr (by simp), rfl, rfl⟩
  | cons callback callbacks ih =>
    cases callback with
    | motorEnable =>
      have ih := ih (self.motorEnable enable stepper t)
      have hcons : self.runCallbacks enable stepper t (.motorEnable :: callbacks) =
          (self.motorEnable enable stepper t).runCallbacks enable stepper t callbacks := rfl
      rw [hcons]
      rcases motorEnable_cases enable self stepper t with ⟨hon, heq⟩ | ⟨h, hpin⟩
      · rw [heq] at ih ⊢
        rcases ih with ⟨-, hsame⟩ | hswitched
        · exact .inl ⟨.inl hon, hsame⟩
        · exact .inr hswitched
      · -- enabled now, and the rest of the callbacks cannot enable it once more
        rcases ih with ⟨-, hpins, htrackers⟩ | ⟨h', -⟩
        · refine .inr ⟨⟨h.isEnabled_before, ?_, ?_, ?_⟩, ?_⟩
          · rw [htrackers]
            exact h.isEnabled
          · rw [htrackers]
            exact h.trackers
          · rw [hpins]
            exact h.pins
          · exact (congrFun hpins _).trans hpin
        · exact absurd (h.isEnabled.symm.trans h'.isEnabled_before) (by simp)
    | other callback =>
      rcases ih (self.runCallback enable stepper t (.other callback)) with
        ⟨hor, hsame⟩ | ⟨h, hpin⟩
      · exact .inl ⟨hor.imp id fun hnot => by simpa using hnot, hsame⟩
      · exact .inr ⟨{ h with }, hpin⟩

theorem runCallbacks_activeCallbacks (self : EnableLines S P C K) :
    (self.runCallbacks enable stepper t callbacks).activeCallbacks = self.activeCallbacks := by
  induction callbacks generalizing self with
  | nil => rfl
  | cons callback callbacks ih =>
    refine (ih (self.runCallback enable stepper t callback)).trans ?_
    cases callback with
    | motorEnable => exact motorEnable_activeCallbacks
    | other callback => rfl

theorem runCallbacks_trackers_of_ne {s : S} (hs : s ≠ stepper) :
    (self.runCallbacks enable stepper t callbacks).trackers s = self.trackers s := by
  rcases runCallbacks_cases enable callbacks self stepper t with ⟨-, -, htrackers⟩ | ⟨h, -⟩
  · rw [htrackers]
  · exact h.trackers s hs

variable (enable t) in
theorem runCallbacks_isEnabled
    (h : (self.trackers stepper).isEnabled = false → .motorEnable ∈ callbacks) :
    ((self.runCallbacks enable stepper t callbacks).trackers stepper).isEnabled = true := by
  rcases runCallbacks_cases enable callbacks self stepper t with ⟨hor, -, htrackers⟩ | ⟨h', -⟩
  · rw [htrackers]
    rcases hor with hon | hnot
    · exact hon
    · exact Bool.eq_true_of_not_eq_false fun hoff => hnot (h hoff)
  · exact h'.isEnabled

/-! ### Pending callbacks -/

def Pending (self : EnableLines S P C K) : Prop :=
  ∀ s, (self.trackers s).isEnabled = false → .motorEnable ∈ self.activeCallbacks s

variable (h : self.Pending)
include h

theorem Pending.motorEnable : (self.motorEnable enable stepper t).Pending := by
  intro s hoff
  rw [motorEnable_activeCallbacks]
  rcases motorEnable_cases enable self stepper t with ⟨-, heq⟩ | ⟨h', -⟩
  · rw [heq] at hoff
    exact h s hoff
  · by_cases hs : s = stepper
    · subst hs
      exact absurd (h'.isEnabled.symm.trans hoff) (by simp)
    · rw [h'.trackers s hs] at hoff
      exact h s hoff

theorem Pending.motorDisable : (self.motorDisable enable stepper t).Pending := by
  intro s hoff
  rcases motorDisable_cases enable self stepper t with ⟨-, heq⟩ | ⟨h', -, hactive⟩
  · rw [heq] at hoff ⊢
    exact h s hoff
  · rw [hactive]
    by_cases hs : s = stepper
    · subst hs
      simp
    · rw [Function.update_of_ne hs]
      rw [h'.trackers s hs] at hoff
      exact h s hoff

variable [Zero K] [LinearOrder K]

theorem Pending.generateSteps : (self.generateSteps enable stepper t).Pending := by
  unfold EnableLines.generateSteps
  split
  · intro s hoff
    by_cases hs : s = stepper
    · -- its callback was among those that ran
      subst hs
      exact absurd ((runCallbacks_isEnabled enable t (h s)).symm.trans hoff) (by simp)
    · dsimp only at hoff ⊢
      rw [runCallbacks_trackers_of_ne hs] at hoff
      rw [Function.update_of_ne hs, runCallbacks_activeCallbacks]
      exact h s hoff
  · exact h

theorem Pending.step (e : EnableEvent S C K) : (self.step enable e).Pending := by
  cases e with
  | motorEnable stepper t => exact h.motorEnable
  | motorDisable stepper t => exact h.motorDisable
  | addActiveCallback stepper callback =>
    intro s hoff
    change .motorEnable ∈ Function.update self.activeCallbacks stepper
      (self.activeCallbacks stepper ++ [ActiveCallback.other callback]) s
    by_cases hs : s = stepper
    · subst hs
      simpa using h s hoff
    · rw [Function.update_of_ne hs]
      exact h s hoff
  | generateSteps stepper t => exact h.generateSteps

/-- A stepper found active is enabled when its steps are generated. -/
theorem generateSteps_isEnabled (ht : 0 < t) :
    ((self.generateSteps enable stepper t).trackers stepper).isEnabled = true := by
  unfold EnableLines.generateSteps
  by_cases hempty : self.activeCallbacks stepper = []
  · -- nothing waits for the stepper, so it is not disabled
    rw [if_neg fun hrun => hrun.1 hempty]
    refine Bool.eq_true_of_not_eq_false fun hoff => ?_
    have hmem := h stepper hoff
    rw [hempty] at hmem
    simp at hmem
  · rw [if_pos ⟨hempty, ht⟩]
    exact runCallbacks_isEnabled enable t (h stepper)

end

/-! ### The count of a pin -/

variable [DecidableEq P] [Fintype S]

variable (enable) in
def enabledOn (self : EnableLines S P C K) (p : P) : Finset S :=
  {s | enable s = p ∧ (self.trackers s).isEnabled = true}

variable (enable) in
/-- The count of the pin is the number of its enabled steppers. -/
structure Counted (lines : EnableLines S P C K) (p : P) : Prop where
  digitalOut : (lines.pins p).digitalOut = true
  enableCount : (lines.pins p).enableCount = ((lines.enabledOn enable p).card : ℤ)

variable (enable) in
/-- What an event may do to the pins. -/
def PinStep (self self' : EnableLines S P C K) (t : K) : Prop :=
  ∀ p, self.Counted enable p → self'.Counted enable p ∧ WritesChange enable self self' p t

theorem mem_enabledOn {s : S} :
    s ∈ self.enabledOn enable p ↔ enable s = p ∧ (self.trackers s).isEnabled = true := by
  simp [enabledOn]

theorem Counted.energized_iff (h : self.Counted enable p) :
    self.Energized enable p ↔ (self.pins p).enableCount ≠ 0 := by
  rw [h.enableCount, Ne, Int.natCast_eq_zero, ← Ne, Finset.card_ne_zero]
  exact exists_congr fun s => mem_enabledOn.symm

/-- A pin none of whose steppers was touched. -/
theorem Counted.kept (h : self.Counted enable p) (hpins : self'.pins p = self.pins p)
    (htrackers : ∀ s, enable s = p → self'.trackers s = self.trackers s) :
    self'.Counted enable p ∧ WritesChange enable self self' p t := by
  have hset : self'.enabledOn enable p = self.enabledOn enable p := by
    ext s
    rw [mem_enabledOn, mem_enabledOn]
    exact and_congr_right fun hs => by rw [htrackers s hs]
  have hcounted : self'.Counted enable p :=
    ⟨by rw [hpins]; exact h.digitalOut, by rw [hpins, hset]; exact h.enableCount⟩
  refine ⟨hcounted, .inl ⟨?_, by rw [hpins]⟩⟩
  rw [hcounted.energized_iff, h.energized_iff, hpins]

theorem pinStep_of_eq (hpins : self'.pins = self.pins)
    (htrackers : self'.trackers = self.trackers) : PinStep enable self self' t :=
  fun _ h => h.kept (by rw [hpins]) fun _ _ => by rw [htrackers]

theorem Switched.kept {enabled : Bool} (h : Switched enable self self' stepper enabled)
    (hp : p ≠ enable stepper) (hcounted : self.Counted enable p) :
    self'.Counted enable p ∧ WritesChange enable self self' p t := by
  refine hcounted.kept (h.pins p hp) fun s hs => h.trackers s ?_
  rintro rfl
  exact hp hs.symm

variable [DecidableEq S]

theorem Switched.enabledOn_true (h : Switched enable self self' stepper true) :
    self'.enabledOn enable (enable stepper) =
      insert stepper (self.enabledOn enable (enable stepper)) := by
  ext s
  rw [Finset.mem_insert, mem_enabledOn, mem_enabledOn]
  by_cases hs : s = stepper
  · subst hs
    simp [h.isEnabled]
  · simp [hs, h.trackers s hs]

theorem Switched.enabledOn_false (h : Switched enable self self' stepper false) :
    self'.enabledOn enable (enable stepper) =
      (self.enabledOn enable (enable stepper)).erase stepper := by
  ext s
  rw [Finset.mem_erase, mem_enabledOn, mem_enabledOn]
  by_cases hs : s = stepper
  · subst hs
    simp [h.isEnabled]
  · simp [hs, h.trackers s hs]

theorem pinStep_setEnable (h : Switched enable self self' stepper true)
    (hpin : self'.pins (enable stepper) = (self.pins (enable stepper)).setEnable t) :
    PinStep enable self self' t := by
  intro p hcounted
  by_cases hp : p = enable stepper
  · subst hp
    have hnot : stepper ∉ self.enabledOn enable (enable stepper) := by
      simp [mem_enabledOn, h.isEnabled_before]
    have hcounted' : self'.Counted enable (enable stepper) := by
      refine ⟨by rw [hpin]; exact hcounted.digitalOut, ?_⟩
      rw [hpin, h.enabledOn_true, Finset.card_insert_of_notMem hnot]
      simp [StepperEnablePin.setEnable, hcounted.enableCount]
    have hon : self'.Energized enable (enable stepper) := ⟨stepper, rfl, h.isEnabled⟩
    refine ⟨hcounted', ?_⟩
    -- only the first stepper on the pin writes it
    by_cases hzero : (self.pins (enable stepper)).enableCount = 0
    · refine .inr (.inl ⟨fun he => hcounted.energized_iff.mp he hzero, hon, ?_⟩)
      rw [hpin]
      simp [StepperEnablePin.setEnable, hzero, hcounted.digitalOut]
    · refine .inl ⟨iff_of_true hon (hcounted.energized_iff.mpr hzero), ?_⟩
      rw [hpin]
      simp [StepperEnablePin.setEnable, hzero]
  · exact h.kept hp hcounted

theorem pinStep_setDisable (h : Switched enable self self' stepper false)
    (hpin : self'.pins (enable stepper) = (self.pins (enable stepper)).setDisable t) :
    PinStep enable self self' t := by
  intro p hcounted
  by_cases hp : p = enable stepper
  · subst hp
    have hmem : stepper ∈ self.enabledOn enable (enable stepper) := by
      simp [mem_enabledOn, h.isEnabled_before]
    have hcard := Finset.card_erase_add_one hmem
    have hcounted' : self'.Counted enable (enable stepper) := by
      refine ⟨by rw [hpin]; exact hcounted.digitalOut, ?_⟩
      rw [hpin, h.enabledOn_false]
      simp only [StepperEnablePin.setDisable, hcounted.enableCount]
      omega
    have hon : self.Energized enable (enable stepper) := ⟨stepper, rfl, h.isEnabled_before⟩
    have hcount : (self'.pins (enable stepper)).enableCount =
        (self.pins (enable stepper)).enableCount - 1 := by
      rw [hpin]
      rfl
    refine ⟨hcounted', ?_⟩
    -- and only the last one to go
    by_cases hzero : (self.pins (enable stepper)).enableCount - 1 = 0
    · refine .inr (.inr ⟨hon, fun he => hcounted'.energized_iff.mp he (hcount.trans hzero), ?_⟩)
      rw [hpin]
      simp [StepperEnablePin.setDisable, hzero, hcounted.digitalOut]
    · have henergized := hcounted'.energized_iff.mpr (by rw [hcount]; exact hzero)
      refine .inl ⟨iff_of_true henergized hon, ?_⟩
      rw [hpin]
      simp [StepperEnablePin.setDisable, hzero]
  · exact h.kept hp hcounted

theorem motorEnable_pinStep : PinStep enable self (self.motorEnable enable stepper t) t := by
  rcases motorEnable_cases enable self stepper t with ⟨-, heq⟩ | ⟨h, hpin⟩
  · rw [heq]
    exact pinStep_of_eq rfl rfl
  · exact pinStep_setEnable h hpin

theorem motorDisable_pinStep : PinStep enable self (self.motorDisable enable stepper t) t := by
  rcases motorDisable_cases enable self stepper t with ⟨-, heq⟩ | ⟨h, hpin, -⟩
  · rw [heq]
    exact pinStep_of_eq rfl rfl
  · exact pinStep_setDisable h hpin

variable {callbacks : List (ActiveCallback C)}

theorem runCallbacks_pinStep :
    PinStep enable self (self.runCallbacks enable stepper t callbacks) t := by
  rcases runCallbacks_cases enable callbacks self stepper t with ⟨-, hpins, htrackers⟩ | ⟨h, hpin⟩
  · exact pinStep_of_eq hpins htrackers
  · exact pinStep_setEnable h hpin

variable [Zero K] [LinearOrder K]

theorem step_pinStep (e : EnableEvent S C K) : PinStep enable self (self.step enable e) e.time := by
  cases e with
  | motorEnable stepper t => exact motorEnable_pinStep
  | motorDisable stepper t => exact motorDisable_pinStep
  | addActiveCallback stepper callback => exact pinStep_of_eq rfl rfl
  | generateSteps stepper t =>
    change PinStep enable self (self.generateSteps enable stepper t) t
    unfold EnableLines.generateSteps
    split
    · intro p hcounted
      have hrun : PinStep enable self
          (self.runCallbacks enable stepper t (self.activeCallbacks stepper)) t :=
        runCallbacks_pinStep
      obtain ⟨hc, hw⟩ := hrun p hcounted
      exact ⟨⟨hc.digitalOut, hc.enableCount⟩, hw⟩
    · exact pinStep_of_eq rfl rfl

/-! ### Runs -/

/-- As the steppers are left by their registration: disabled, with a callback each. -/
structure Registered (lines : EnableLines S P C K) : Prop where
  disabled : ∀ s, (lines.trackers s).isEnabled = false
  pending : ∀ s, .motorEnable ∈ lines.activeCallbacks s

/-- The enable lines are right along every run of events that are not nested. -/
theorem enable_lines_correct (enable : S → P) (self : EnableLines S P C K)
    (hself : self.Registered) (p : P) (hdigital : (self.pins p).digitalOut = true)
    (hcount : (self.pins p).enableCount = 0) (hlow : (self.pins p).level = 0)
    (events : List (EnableEvent S C K)) :
    (final (step enable) self events).LevelCorrect enable p ∧
    Along (step enable) (fun s e => WritesChange enable s (s.step enable e) p e.time) self events ∧
    (final (step enable) self events).Pending ∧
    Along (step enable) (fun s e => ∀ stepper t, e = .generateSteps stepper t → 0 < t →
      ((s.step enable e).trackers stepper).isEnabled = true) self events := by
  have hpending : self.Pending := fun s _ => hself.pending s
  have hnone : self.enabledOn enable p = ∅ := by
    ext s
    simp [mem_enabledOn, hself.disabled s]
  have hcounted : self.Counted enable p := ⟨hdigital, by rw [hcount, hnone]; rfl⟩
  have hlevel : self.LevelCorrect enable p :=
    ⟨fun hon => absurd hcount (hcounted.energized_iff.mp hon), fun _ => hlow⟩
  refine ⟨?_, ?_, ?_, ?_⟩
  · refine (final_of_kept (I := fun s : EnableLines S P C K =>
      s.Counted enable p ∧ s.LevelCorrect enable p) ?_ ⟨hcounted, hlevel⟩ events).2
    rintro s e ⟨hc, hl⟩
    obtain ⟨hc', hw⟩ := step_pinStep e p hc
    exact ⟨hc', hw.level hl⟩
  · exact along_of_kept (I := fun s : EnableLines S P C K => s.Counted enable p)
      (fun s e hs => (step_pinStep e p hs).1) (fun s e hs => (step_pinStep e p hs).2)
      hcounted events
  · exact final_of_kept (fun s e hs => hs.step e) hpending events
  · refine along_of_kept (fun s e hs => hs.step e) ?_ hpending events
    rintro s _ hs stepper t rfl ht
    exact generateSteps_isEnabled hs ht

def sharedPin : EnableLines Bool Unit Unit ℤ where
  pins _ := { digitalOut := true, enableCount := 0, writes := [] }
  trackers _ := { callbacks := [], isEnabled := false }
  activeCallbacks _ := [.motorEnable]
  called := []

theorem enable_lines_correct_shared :
    (final (step fun _ => ()) sharedPin [.generateSteps true 5, .motorEnable false 6,
      .motorDisable true 7]).LevelCorrect (fun _ => ()) () :=
  (enable_lines_correct (fun _ => ()) sharedPin ⟨fun _ => rfl, fun _ => by simp [sharedPin]⟩ ()
    rfl rfl rfl _).1

end EnableLines

end Mcu
