/-
Sensorless homing with a TMC driver (`internal/pkg/tmc/virtual_pin_core.go`).

Before a homing move the virtual pin changes some fields of the driver, and after it the
saved values are put back.  Changes go to the shadow registers first; the registers that
were changed are dirty until all of them have been written, and a write may fail, applied
or not.

* `queueField_saved` — to queue a field keeps the invariant `Saved`: dirty registers hold
  the shadow values, all others are on the chip as in the shadow, and every bit that
  differs from the original belongs to a saved field;
* `sendQueuedFields_saved` — so does sending, whether it fails or not;
* `endHoming_restores` — a sequence that ends with a successful `EndHoming` has restored
  the driver.
-/
import KlipperGo.Runs
import KlipperGo.TmcFields

open Function BitVec

namespace Tmc

open FieldTable BitField

inductive RegisterWrite where
  | done
  | failed (err : String) (applied : Bool)

/-- The fate of the register write with a given number. -/
abbrev RegisterBus := ℕ → RegisterWrite

/-- The state of a `VirtualPinHelperCore`, with the shadow registers, the registers of the
chip and the number of the next register write. -/
structure PinState where
  shadow : Registers
  chip : Registers
  dirtyRegs : String → Option Word
  dirtyOrder : List String
  prevFields : String → Option Word
  prevOrder : List String
  writes : ℕ

/-- A new helper, on a chip with the registers of the shadow. -/
def newVirtualPin (shadow : Registers) : PinState where
  shadow := shadow
  chip := shadow
  dirtyRegs := fun _ => none
  dirtyOrder := []
  prevFields := fun _ => none
  prevOrder := []
  writes := 0

/-- `NewVirtualPinHelperCore`: the field of the pin that the driver signals a stall on. -/
def diagPinFieldOf (t : FieldTable) (hasDiag0Pin : Bool) : Option String :=
  if (t.lookupRegister "diag0_stall").isSome then
    if hasDiag0Pin then some "diag0_stall" else some "diag1_stall"
  else none

section Code

variable (t : FieldTable) (diagPinField : Option String) (bus : RegisterBus) (s : PinState)

/-- The begin of `queueField`: the value of the field is saved, if it was not before. -/
def saveField (fieldName : String) : PinState :=
  if (s.prevFields fieldName).isSome then s
  else
    { s with
      prevFields := update s.prevFields fieldName
        (some (t.getField s.shadow fieldName none))
      prevOrder := s.prevOrder ++ [fieldName] }

def queueField (fieldName : String) (fieldValue : Word) : PinState :=
  match t.lookupRegister fieldName with
  | none => s
  | some regName =>
    let s := saveField t s fieldName
    let (regValue, shadow) := t.setField s.shadow fieldName fieldValue
    { s with
      shadow := shadow
      dirtyOrder := if (s.dirtyRegs regName).isSome then s.dirtyOrder else s.dirtyOrder ++ [regName]
      dirtyRegs := update s.dirtyRegs regName (some regValue) }

/-- `Set_register`: the text of an error, if it fails. -/
def setRegister (regName : String) (val : Word) : Option String × PinState :=
  let written := { s with chip := update s.chip regName val, writes := s.writes + 1 }
  match bus s.writes with
  | .done => (none, written)
  | .failed err true => (some err, written)
  | .failed err false => (some err, { s with writes := s.writes + 1 })

/-- The loop of `sendQueuedFields`, and what follows it. -/
def sendRegisters : List String → PinState → Option String × PinState
  | [], s => (none, { s with dirtyRegs := fun _ => none, dirtyOrder := [] })
  | regName :: regNames, s =>
    match setRegister bus s regName ((s.dirtyRegs regName).getD 0) with
    -- all registers stay dirty, those that were written before this one too
    | (some err, s') => (some err, s')
    | (none, s') => sendRegisters regNames s'

def sendQueuedFields : Option String × PinState :=
  sendRegisters bus s.dirtyOrder s

def queueDiagPin : PinState :=
  match diagPinField with
  | some field => queueField t s field 1
  | none => s

/-- The part of `BeginHoming` that depends on the stealth mode of the driver. -/
def queueMode : PinState :=
  let sg4Thrs :=
    if (t.lookupRegister "sg4_thrs").isSome then t.getField s.shadow "sg4_thrs" none else 0
  match t.lookupRegister "en_pwm_mode" with
  | none => queueField t (queueField t s "tpwmthrs" 0) "en_spreadcycle" 0
  | some _ =>
    if sg4Thrs ≠ 0 then
      queueDiagPin t diagPinField (queueField t (queueField t s "en_pwm_mode" 1) "tpwmthrs" 0)
    else queueDiagPin t diagPinField (queueField t s "en_pwm_mode" 0)

/-- The fields that `BeginHoming` queues. -/
def queueHoming (tcoolthrsIfZero : Word) : PinState :=
  let s := queueMode t diagPinField s
  let s :=
    if t.getField s.shadow "tcoolthrs" none = 0 then queueField t s "tcoolthrs" tcoolthrsIfZero
    else s
  if (t.lookupRegister "thigh").isSome then queueField t s "thigh" 0 else s

def beginHoming (tcoolthrsIfZero : Word) (s : PinState) : Option String × PinState :=
  sendQueuedFields bus (queueHoming t diagPinField s tcoolthrsIfZero)

def beginMoveHoming : Option String × PinState :=
  match sendQueuedFields bus (queueField t s "tcoolthrs" 0) with
  | (some err, s') => (some err, s')
  | (none, s') => beginHoming t diagPinField bus 500 s'

/-- The loop of `EndHoming` over the saved fields. -/
def queueSaved (fields : List String) (s : PinState) : PinState :=
  fields.foldl (fun s field => queueField t s field ((s.prevFields field).getD 0)) s

def endHoming : Option String × PinState :=
  match sendQueuedFields bus (queueSaved t s.prevOrder s) with
  -- the saved values are kept for another try
  | (some err, s') => (some err, s')
  | (none, s') => (none, { s' with prevFields := fun _ => none, prevOrder := [] })

inductive PinCall where
  | beginHoming (tcoolthrsIfZero : Word)
  | beginMoveHoming
  | endHoming

def PinState.call : PinCall → Option String × PinState
  | .beginHoming tcoolthrsIfZero => Tmc.beginHoming t diagPinField bus tcoolthrsIfZero s
  | .beginMoveHoming => Tmc.beginMoveHoming t diagPinField bus s
  | .endHoming => Tmc.endHoming t bus s

/-- The state after a call, whether it fails or not. -/
def PinState.step (c : PinCall) : PinState := (s.call t diagPinField bus c).2

end Code

/-! ### Tables that can be restored -/

def homingFields : List String :=
  ["tpwmthrs", "en_spreadcycle", "en_pwm_mode", "diag0_stall", "diag1_stall", "tcoolthrs", "thigh"]

/-- The fields that are changed are unsigned, and no two of them share a bit. -/
structure HomingTable (t : FieldTable) : Prop where
  unsigned : ∀ f ∈ homingFields, f ∉ t.signedFields
  disjoint : ∀ f ∈ homingFields, ∀ g ∈ homingFields, f ≠ g →
    t.registerOf f = t.registerOf g → t.maskOf f &&& t.maskOf g = 0#64

inductive HomingChip where
  | tmc2130
  | tmc2209
  | tmc2240
  | tmc5160

def HomingChip.fields : HomingChip → FieldTable
  | tmc2130 => tmc2130Fields
  | tmc2209 => tmc2209Fields
  | tmc2240 => tmc2240Fields
  | tmc5160 => tmc5160Fields

theorem HomingChip.homingTable (chip : HomingChip) : HomingTable chip.fields := by
  cases chip <;> exact ⟨by decide +kernel, by decide +kernel⟩

/-! ### The invariant -/

/-- What holds between calls, for the registers `orig` from before the first one. -/
structure Saved (t : FieldTable) (orig : Registers) (s : PinState) : Prop where
  /-- a dirty register is to be written with its shadow value -/
  dirty : ∀ r ∈ s.dirtyOrder, s.dirtyRegs r = some (s.shadow r)
  /-- any other register is on the chip as in the shadow -/
  clean : ∀ r, r ∉ s.dirtyOrder → s.dirtyRegs r = none ∧ s.chip r = s.shadow r
  /-- the saved values are the original ones -/
  saved : ∀ f ∈ s.prevOrder, f ∈ homingFields ∧ t.lookupRegister f ≠ none ∧
    s.prevFields f = some (t.getField orig f none)
  unsaved : ∀ f, f ∉ s.prevOrder → s.prevFields f = none
  /-- a bit that differs from the original belongs to a saved field -/
  covered : ∀ r i, (s.shadow r).getLsbD i ≠ (orig r).getLsbD i →
    ∃ f ∈ s.prevOrder, t.registerOf f = r ∧ (t.maskOf f).getLsbD i = true

theorem newVirtualPin_saved (t : FieldTable) (orig : Registers) :
    Saved t orig (newVirtualPin orig) where
  dirty := by simp [newVirtualPin]
  clean := fun _ _ => ⟨rfl, rfl⟩
  saved := by simp [newVirtualPin]
  unsaved := fun _ _ => rfl
  covered := fun _ _ h => absurd rfl h

section Steps

variable {t : FieldTable} {bus : RegisterBus} {orig : Registers} {s s' : PinState} {f : String}

/-- The bits of a field that is not saved yet are the original ones. -/
theorem Saved.getField_eq (ht : HomingTable t) (hs : Saved t orig s) (hf : f ∈ homingFields)
    (hnew : f ∉ s.prevOrder) : t.getField s.shadow f none = t.getField orig f none := by
  have hunsigned := ht.unsigned f hf
  rw [getField_unsigned hunsigned, getField_unsigned hunsigned]
  refine extract_congr (eq_of_getLsbD_eq fun i _ => ?_)
  rw [getLsbD_and, getLsbD_and]
  by_cases hbit : (t.maskOf f).getLsbD i = true
  · -- a changed bit would belong to another field of the register
    have hsame : (s.shadow (t.registerOf f)).getLsbD i = (orig (t.registerOf f)).getLsbD i := by
      by_contra hne
      obtain ⟨g, hg, hreg, hgbit⟩ := hs.covered _ _ hne
      have hgf : g ≠ f := fun h => hnew (h ▸ hg)
      have hdisjoint := ht.disjoint g (hs.saved g hg).1 f hf hgf hreg
      have hzero : (t.maskOf g &&& t.maskOf f).getLsbD i = false := by
        rw [hdisjoint, getLsbD_zero]
      rw [getLsbD_and, hgbit, hbit] at hzero
      cases hzero
    rw [hsame]
  · simp [hbit]

theorem saveField_saved (ht : HomingTable t) (hs : Saved t orig s) (hf : f ∈ homingFields)
    (hlook : t.lookupRegister f ≠ none) :
    Saved t orig (saveField t s f) ∧ f ∈ (saveField t s f).prevOrder := by
  unfold saveField
  by_cases hold : f ∈ s.prevOrder
  · have hsome : (s.prevFields f).isSome = true := by rw [(hs.saved f hold).2.2]; rfl
    rw [if_pos hsome]
    exact ⟨hs, hold⟩
  · have hnone : ¬ (s.prevFields f).isSome = true := by rw [hs.unsaved f hold]; simp
    rw [if_neg hnone, hs.getField_eq ht hf hold]
    refine ⟨⟨hs.dirty, hs.clean, ?_, ?_, ?_⟩, by simp⟩
    · intro g hg
      by_cases hgf : g = f
      · subst hgf
        exact ⟨hf, hlook, update_self ..⟩
      · have hgold : g ∈ s.prevOrder := by simpa [hgf] using hg
        obtain ⟨hhoming, hglook, hvalue⟩ := hs.saved g hgold
        exact ⟨hhoming, hglook, (update_of_ne hgf _ _).trans hvalue⟩
    · intro g hg
      obtain ⟨hgold, hgf⟩ : g ∉ s.prevOrder ∧ g ≠ f := by simpa using hg
      exact (update_of_ne hgf _ _).trans (hs.unsaved g hgold)
    · intro r i hne
      obtain ⟨g, hg, hrest⟩ := hs.covered r i hne
      exact ⟨g, List.mem_append_left _ hg, hrest⟩

theorem queueField_eq {f r : String} (hlook : t.lookupRegister f = some r) (x : Word) :
    queueField t s f x =
      let s₁ := saveField t s f
      { s₁ with
        shadow := update s₁.shadow r (insert (s₁.shadow r) (t.maskOf f) x)
        dirtyOrder := if (s₁.dirtyRegs r).isSome then s₁.dirtyOrder else s₁.dirtyOrder ++ [r]
        dirtyRegs := update s₁.dirtyRegs r
          (some (insert (s₁.shadow r) (t.maskOf f) x)) } := by
  have hreg : t.registerOf f = r := by rw [registerOf, hlook]; rfl
  unfold queueField setField
  rw [hlook, hreg]

/-- A register that is queued is dirty once. -/
theorem Saved.mem_queued (hs : Saved t orig s) (r q : String) :
    (q ∈ if (s.dirtyRegs r).isSome then s.dirtyOrder else s.dirtyOrder ++ [r]) ↔
      q ∈ s.dirtyOrder ∨ q = r := by
  by_cases hr : r ∈ s.dirtyOrder
  · rw [if_pos (by rw [hs.dirty r hr]; rfl)]
    constructor
    · exact .inl
    · rintro (h | rfl)
      · exact h
      · exact hr
  · rw [if_neg (by rw [(hs.clean r hr).1]; simp)]
    simp

/-- To queue a field keeps the invariant, whatever the value. -/
theorem queueField_saved (ht : HomingTable t) (hs : Saved t orig s) (hf : f ∈ homingFields)
    (x : Word) : Saved t orig (queueField t s f x) := by
  cases hlook : t.lookupRegister f with
  | none =>
    unfold queueField
    rw [hlook]
    exact hs
  | some r =>
    obtain ⟨hs₁, hmem⟩ := saveField_saved ht hs hf (by rw [hlook]; nofun)
    have hreg : t.registerOf f = r := by rw [registerOf, hlook]; rfl
    rw [queueField_eq hlook]
    generalize saveField t s f = s₁ at hs₁ hmem
    constructor
    · intro q hq
      by_cases hqr : q = r
      · subst hqr
        simp
      · have hqold : q ∈ s₁.dirtyOrder := ((hs₁.mem_queued r q).mp hq).resolve_right hqr
        simp only [update_of_ne hqr]
        exact hs₁.dirty q hqold
    · intro q hq
      obtain ⟨hqold, hqr⟩ := not_or.mp (mt (hs₁.mem_queued r q).mpr hq)
      simp only [update_of_ne hqr]
      exact hs₁.clean q hqold
    · exact hs₁.saved
    · exact hs₁.unsaved
    · intro q i hne
      by_cases hbit : q = r ∧ (t.maskOf f).getLsbD i = true
      · exact ⟨f, hmem, hreg.trans hbit.1.symm, hbit.2⟩
      · -- the bit is as before
        refine hs₁.covered q i ?_
        by_cases hqr : q = r
        · subst hqr
          simp only [update_self, getLsbD_insert] at hne
          rwa [if_neg fun h => hbit ⟨rfl, h⟩] at hne
        · simpa only [update_of_ne hqr] using hne

/-- What a register write can do. -/
theorem setRegister_cases (bus : RegisterBus) (s : PinState) (r : String) (val : Word) :
    (∃ err, setRegister bus s r val = (some err, { s with writes := s.writes + 1 })) ∨
    ∃ err, setRegister bus s r val =
      (err, { s with chip := update s.chip r val, writes := s.writes + 1 }) := by
  unfold setRegister
  cases bus s.writes with
  | done => exact .inr ⟨none, rfl⟩
  | failed err applied =>
    cases applied with
    | true => exact .inr ⟨some err, rfl⟩
    | false => exact .inl ⟨err, rfl⟩

/-- A write of a dirty register keeps the invariant. -/
theorem Saved.written (hs : Saved t orig s) {r : String} (hr : r ∈ s.dirtyOrder) (n : ℕ) :
    Saved t orig { s with chip := update s.chip r (s.shadow r), writes := n } where
  __ := hs
  clean := by
    intro q hq
    have hqr : q ≠ r := fun h => hq (h ▸ hr)
    exact ⟨(hs.clean q hq).1, (update_of_ne hqr _ _).trans (hs.clean q hq).2⟩

/-- The loop over the dirty registers that are still to be written: the others are on the
chip already. -/
theorem sendRegisters_saved (bus : RegisterBus) {regNames : List String} :
    ∀ {s : PinState}, Saved t orig s → (∀ r ∈ regNames, r ∈ s.dirtyOrder) →
      (∀ r ∈ s.dirtyOrder, r ∉ regNames → s.chip r = s.shadow r) →
      Saved t orig (sendRegisters bus regNames s).2 ∧
      (sendRegisters bus regNames s).2.shadow = s.shadow ∧
      (sendRegisters bus regNames s).2.prevOrder = s.prevOrder ∧
      ((sendRegisters bus regNames s).1 = none →
        (sendRegisters bus regNames s).2.dirtyOrder = []) := by
  induction regNames with
  | nil =>
    intro s hs _ hdone
    refine ⟨⟨by simp [sendRegisters], ?_, hs.saved, hs.unsaved, hs.covered⟩, rfl, rfl, fun _ => rfl⟩
    intro r _
    refine ⟨rfl, ?_⟩
    by_cases hr : r ∈ s.dirtyOrder
    · exact hdone r hr (by simp)
    · exact (hs.clean r hr).2
  | cons r regNames ih =>
    intro s hs hsub hdone
    have hr : r ∈ s.dirtyOrder := hsub r (by simp)
    have hvalue : (s.dirtyRegs r).getD 0 = s.shadow r := by rw [hs.dirty r hr]; rfl
    unfold sendRegisters
    rw [hvalue]
    rcases setRegister_cases bus s r (s.shadow r) with ⟨err, h⟩ | ⟨err, h⟩
    · rw [h]
      exact ⟨({ hs with }), rfl, rfl, nofun⟩
    · rw [h]
      have hs' := hs.written hr (s.writes + 1)
      cases err with
      | some err => exact ⟨hs', rfl, rfl, nofun⟩
      | none =>
        refine ih hs' (fun q hq => hsub q (by simp [hq])) fun q hq hnot => ?_
        by_cases hqr : q = r
        · subst hqr
          exact update_self ..
        · exact (update_of_ne hqr _ _).trans (hdone q hq (by simp [hqr, hnot]))

theorem sendQueuedFields_saved (bus : RegisterBus) (hs : Saved t orig s) :
    Saved t orig (sendQueuedFields bus s).2 ∧
    (sendQueuedFields bus s).2.shadow = s.shadow ∧
    (sendQueuedFields bus s).2.prevOrder = s.prevOrder ∧
    ((sendQueuedFields bus s).1 = none → (sendQueuedFields bus s).2.dirtyOrder = []) :=
  sendRegisters_saved bus hs (fun _ h => h) fun _ h hnot => absurd h hnot

theorem Saved.ite {c : Prop} [Decidable c] {s' : PinState} (hs : Saved t orig s)
    (hs' : Saved t orig s') : Saved t orig (if c then s else s') := by
  split_ifs
  · exact hs
  · exact hs'

section

variable (ht : HomingTable t) (hs : Saved t orig s) (hasDiag0Pin : Bool)
include ht hs hasDiag0Pin

theorem queueDiagPin_saved : Saved t orig (queueDiagPin t (diagPinFieldOf t hasDiag0Pin) s) := by
  unfold diagPinFieldOf
  split_ifs
  · exact queueField_saved ht hs (by simp [homingFields]) 1
  · exact queueField_saved ht hs (by simp [homingFields]) 1
  · exact hs

theorem queueMode_saved : Saved t orig (queueMode t (diagPinFieldOf t hasDiag0Pin) s) := by
  unfold queueMode
  have hfields : "tpwmthrs" ∈ homingFields ∧ "en_spreadcycle" ∈ homingFields ∧
      "en_pwm_mode" ∈ homingFields := by simp [homingFields]
  obtain ⟨htpwm, hspread, hpwm⟩ := hfields
  cases t.lookupRegister "en_pwm_mode" with
  | none => exact queueField_saved ht (queueField_saved ht hs htpwm 0) hspread 0
  | some _ =>
    refine Saved.ite ?_ ?_
    · have h := queueField_saved ht (queueField_saved ht hs hpwm 1) htpwm 0
      exact queueDiagPin_saved ht h hasDiag0Pin
    · exact queueDiagPin_saved ht (queueField_saved ht hs hpwm 0) hasDiag0Pin

theorem queueHoming_saved
    (x : Word) : Saved t orig (queueHoming t (diagPinFieldOf t hasDiag0Pin) s x) := by
  have hmode := queueMode_saved ht hs hasDiag0Pin
  have hcool := Saved.ite (c := t.getField (queueMode t (diagPinFieldOf t hasDiag0Pin) s).shadow
    "tcoolthrs" none = 0) (queueField_saved ht hmode (f := "tcoolthrs") (by simp [homingFields]) x)
    hmode
  exact Saved.ite (queueField_saved ht hcool (by simp [homingFields]) 0) hcool

theorem beginHoming_saved (bus : RegisterBus) (x : Word) :
    Saved t orig (beginHoming t (diagPinFieldOf t hasDiag0Pin) bus x s).2 :=
  (sendQueuedFields_saved bus (queueHoming_saved ht hs hasDiag0Pin x)).1

theorem beginMoveHoming_saved (bus : RegisterBus) :
    Saved t orig (beginMoveHoming t (diagPinFieldOf t hasDiag0Pin) bus s).2 := by
  have hcool := queueField_saved ht hs (f := "tcoolthrs") (by simp [homingFields]) 0
  have hsent := (sendQueuedFields_saved bus hcool).1
  unfold beginMoveHoming
  generalize sendQueuedFields bus (queueField t s "tcoolthrs" 0) = sent at hsent ⊢
  rcases sent with ⟨err | err, s'⟩
  · exact beginHoming_saved ht hsent hasDiag0Pin bus 500
  · exact hsent

end

/-! ### The saved values are put back -/

theorem saveField_of_mem (hs : Saved t orig s) (hf : f ∈ s.prevOrder) : saveField t s f = s := by
  unfold saveField
  rw [(hs.saved f hf).2.2]
  rfl

theorem queueField_of_mem (hs : Saved t orig s) (hf : f ∈ s.prevOrder) (x : Word) :
    (queueField t s f x).prevOrder = s.prevOrder ∧
    (queueField t s f x).shadow = update s.shadow (t.registerOf f)
      (insert (s.shadow (t.registerOf f)) (t.maskOf f) x) := by
  obtain ⟨r, hlook⟩ := Option.ne_none_iff_exists'.mp (hs.saved f hf).2.1
  have hreg : t.registerOf f = r := by rw [registerOf, hlook]; rfl
  rw [queueField_eq hlook, saveField_of_mem hs hf, hreg]
  exact ⟨rfl, rfl⟩

/-- A bit is as it was before the first call. -/
def IsRestored (orig : Registers) (s : PinState) (r : String) (i : ℕ) : Prop :=
  (s.shadow r).getLsbD i = (orig r).getLsbD i

variable (ht : HomingTable t)
include ht

/-- To queue the saved value of a field restores the bits of the field and changes no
other. -/
theorem queueField_restores (hs : Saved t orig s) (hf : f ∈ s.prevOrder) {r : String} {i : ℕ}
    (h : IsRestored orig s r i ∨ t.registerOf f = r ∧ (t.maskOf f).getLsbD i = true) :
    IsRestored orig (queueField t s f ((s.prevFields f).getD 0)) r i := by
  obtain ⟨hhoming, -, hvalue⟩ := hs.saved f hf
  have hvalue' : (s.prevFields f).getD 0 =
      extract (orig (t.registerOf f)) (t.maskOf f) := by
    rw [hvalue]
    exact getField_unsigned (ht.unsigned f hhoming) orig
  unfold IsRestored
  rw [(queueField_of_mem hs hf _).2, hvalue']
  by_cases hr : r = t.registerOf f
  · subst hr
    rw [update_self, getLsbD_insert_extract]
    split_ifs with hi
    · rfl
    · exact h.resolve_right fun h' => hi h'.2
  · rw [update_of_ne hr]
    exact h.resolve_right fun h' => hr h'.1.symm

/-- The loop of `EndHoming`: what the fields that are still to come do not cover is
restored. -/
theorem queueSaved_restores {fields : List String} :
    ∀ {s : PinState}, Saved t orig s → (∀ f ∈ fields, f ∈ s.prevOrder) →
      (∀ r i, IsRestored orig s r i ∨
        ∃ f ∈ fields, t.registerOf f = r ∧ (t.maskOf f).getLsbD i = true) →
      Saved t orig (queueSaved t fields s) ∧
        ∀ r i, IsRestored orig (queueSaved t fields s) r i := by
  induction fields with
  | nil =>
    intro s hs _ h
    exact ⟨hs, fun r i => (h r i).resolve_right (by simp)⟩
  | cons f fields ih =>
    intro s hs hsub h
    have hf : f ∈ s.prevOrder := hsub f (by simp)
    refine ih (queueField_saved ht hs (hs.saved f hf).1 _) (fun g hg => ?_) fun r i => ?_
    · rw [(queueField_of_mem hs hf _).1]
      exact hsub g (by simp [hg])
    · rcases h r i with hdone | ⟨g, hg, hbit⟩
      · exact .inl (queueField_restores ht hs hf (.inl hdone))
      · rcases List.mem_cons.mp hg with rfl | hg
        · exact .inl (queueField_restores ht hs hf (.inr hbit))
        · exact .inr ⟨g, hg, hbit⟩

/-- To queue all the saved values gives back the original registers. -/
theorem restore_shadow (hs : Saved t orig s) :
    Saved t orig (queueSaved t s.prevOrder s) ∧ (queueSaved t s.prevOrder s).shadow = orig := by
  obtain ⟨hsaved, hrestored⟩ := queueSaved_restores ht hs (fun _ h => h) fun r i => by
    by_cases h : (s.shadow r).getLsbD i = (orig r).getLsbD i
    · exact .inl h
    · exact .inr (hs.covered r i h)
  refine ⟨hsaved, funext fun r => eq_of_getLsbD_eq fun i _ => hrestored r i⟩

/-- `EndHoming` keeps the invariant, and where it succeeds the driver is as before. -/
theorem endHoming_saved (hs : Saved t orig s) (bus : RegisterBus) :
    Saved t orig (endHoming t bus s).2 ∧
    ((endHoming t bus s).1 = none →
      (endHoming t bus s).2.shadow = orig ∧ (endHoming t bus s).2.chip = orig) := by
  obtain ⟨hqueued, hshadow⟩ := restore_shadow ht hs
  obtain ⟨hsent, hsame, -, hclean⟩ := sendQueuedFields_saved bus hqueued
  unfold endHoming
  rw [hshadow] at hsame
  generalize sendQueuedFields bus (queueSaved t s.prevOrder s) = sent at hsent hsame hclean ⊢
  rcases sent with ⟨err | err, s'⟩
  · have hnone : s'.dirtyOrder = [] := hclean rfl
    have hs' : s'.shadow = orig := hsame
    have hchip : s'.chip = orig := by
      funext r
      rw [(hsent.clean r (by rw [hnone]; simp)).2, hs']
    refine ⟨⟨hsent.dirty, hsent.clean, by simp, fun _ _ => rfl, fun r i hne => ?_⟩,
      fun _ => ⟨hs', hchip⟩⟩
    exact absurd (by rw [hs']) hne
  · exact ⟨hsent, nofun⟩

theorem step_saved (hasDiag0Pin : Bool) (bus : RegisterBus) (hs : Saved t orig s) (c : PinCall) :
    Saved t orig (s.step t (diagPinFieldOf t hasDiag0Pin) bus c) := by
  cases c with
  | beginHoming x => exact beginHoming_saved ht hs hasDiag0Pin bus x
  | beginMoveHoming => exact beginMoveHoming_saved ht hs hasDiag0Pin bus
  | endHoming => exact (endHoming_saved ht hs bus).1

end Steps

/-- Whatever calls were made before, and whichever writes failed, after an `EndHoming` that
succeeds the shadow registers are those from before the first call, and so are the registers
of the chip. -/
theorem endHoming_restores (chip : HomingChip) (hasDiag0Pin : Bool) (bus : RegisterBus)
    (shadow : Registers) (calls : List PinCall) (s' : PinState)
    (hend : (Runs.final (PinState.step chip.fields (diagPinFieldOf chip.fields hasDiag0Pin) bus)
        (newVirtualPin shadow) calls).call chip.fields (diagPinFieldOf chip.fields hasDiag0Pin) bus
        .endHoming = (none, s')) :
    s'.shadow = shadow ∧ s'.chip = s'.shadow := by
  have hsaved := Runs.final_of_kept (I := Saved chip.fields shadow)
    (fun s c hs => step_saved chip.homingTable hasDiag0Pin bus hs c)
    (newVirtualPin_saved chip.fields shadow) calls
  obtain ⟨-, hrestored⟩ := endHoming_saved chip.homingTable hsaved bus
  unfold PinState.call at hend
  dsimp only at hend
  rw [hend] at hrestored
  obtain ⟨hshadow, hchip⟩ := hrestored rfl
  exact ⟨hshadow, hchip.trans hshadow.symm⟩

/-- A TMC2130 whose second write fails after it was applied: the `BeginHoming` fails, and the
`EndHoming` after it succeeds. -/
def flakyBus : RegisterBus := fun n => if n = 1 then .failed "Unable to write" true else .done

def flakyHoming : PinState :=
  Runs.final (PinState.step tmc2130Fields (diagPinFieldOf tmc2130Fields false) flakyBus)
    (newVirtualPin fun _ => 4#64) [.beginHoming 0xfffff]

theorem flakyHoming_restored :
    (endHoming tmc2130Fields flakyBus flakyHoming).2.shadow = (fun _ => 4#64) ∧
    (endHoming tmc2130Fields flakyBus flakyHoming).2.chip =
      (endHoming tmc2130Fields flakyBus flakyHoming).2.shadow :=
  endHoming_restores .tmc2130 false flakyBus (fun _ => 4#64) [.beginHoming 0xfffff] _
    (Prod.ext (by decide +kernel) rfl)

end Tmc
