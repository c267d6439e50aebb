/-
The motor current of the TMC drivers (`internal/pkg/tmc/current_helpers.go`).

A current helper turns a run and a hold current into scale bits and a range (the `vsense`
bit, or a global scaler), puts them into the shadow registers and writes registers to the
chip.  All computations are over a field with a square root.

* `TMCCurrentHelper.setCurrent_matches`, `TMC2660CurrentHelper.setCurrent_matches`,
  `TMC5160CurrentHelper.setCurrent_matches` — these helpers leave the chip with the shadow
  registers, and the shadow with the computed bits.
-/
import KlipperGo.ExactArith
import KlipperGo.Runs
import KlipperGo.TmcFields
import Mathlib.Tactic.IntervalCases

namespace Tmc

open ExactArith List Function BitField FieldTable

/-- The shadow registers, the values last written to the chip, and the current that was
requested last: `reqHoldCurrent`, or `current` of a TMC2660. -/
structure CurrentState (K : Type*) where
  shadow : Registers
  chip : Registers
  reqCurrent : K

structure CurrentCall (K : Type*) where
  runCurrent : K
  holdCurrent : K

namespace CurrentState

variable {K : Type*}

/-- `Set_field` on the shadow registers. -/
def setField (t : FieldTable) (s : CurrentState K) (f : String) (x : Word) :
    Word × CurrentState K :=
  let (newValue, shadow) := t.setField s.shadow f x
  (newValue, { s with shadow := shadow })

variable (t : FieldTable) (s : CurrentState K) (regName : String)

/-- `Set_register`, as far as the chip is concerned. -/
def setRegister (val : Word) : CurrentState K :=
  { s with chip := update s.chip regName val }

/-- In two of the helpers, the update of `vsense` if it is not the one in the register, or
in `regValue` where the source gives one. -/
def updateVsense (regValue : Option Word) (s : CurrentState K) (vsense : Bool) : CurrentState K :=
  if vsense ≠ decide (t.getField s.shadow "vsense" regValue = 1) then
    let (val, s) := s.setField t "vsense" (if vsense then 1 else 0)
    s.setRegister regName val
  else s

/-- The end of `Set_current` in two of the helpers: both scale fields are set, and the
register that has them is written. -/
def writeIholdIrun (irun ihold : ℤ) : CurrentState K :=
  let (_, s) := s.setField t "ihold" (BitVec.ofInt 64 ihold)
  let (val, s) := s.setField t "irun" (BitVec.ofInt 64 irun)
  s.setRegister "IHOLD_IRUN" val

end CurrentState

/-! ### The computation of the bits -/

def clampBits (cs : ℤ) : ℤ := max 0 (min 31 cs)

/-- The range of a global scaler, where zero stands for 256. -/
def clampScaler (globalscaler : ℤ) : ℤ :=
  let globalscaler := max 32 globalscaler
  if 256 ≤ globalscaler then 0 else globalscaler

section Code

variable {K : Type*} [Field K] [LinearOrder K] [FloorRing K] [HasSqrt K]

/-- The scale bits for a current, at a sense resistor and a reference voltage. -/
def bitsOfCurrent (senseResistor vref current : K) : ℤ :=
  clampBits (trunc (32 * senseResistor * current * sqrt 2 / vref + 1 / 2) - 1)

/-- The current that scale bits stand for. -/
def currentOfBits (senseResistor vref cs : K) : K :=
  (cs + 1) * vref / (32 * senseResistor * sqrt 2)

/-- The choice of `vsense` for a run current, and the scale bits: the fine range is used
unless it is exhausted and the coarse one comes closer. -/
def chooseVsense (bits : K → Bool → ℤ) (fromBits : K → Bool → K) (runCurrent : K) : Bool × ℤ :=
  let irun := bits runCurrent true
  if irun = 31 then
    let cur := fromBits irun true
    if cur < runCurrent then
      let irun2 := bits runCurrent false
      let cur2 := fromBits irun2 false
      if |runCurrent - cur2| < |runCurrent - cur| then (false, irun2) else (true, irun)
    else (true, irun)
  else (true, irun)

/-! ### TMC2130, TMC2208 and TMC2209 -/

inductive VsenseChip where
  | tmc2130
  | tmc2208
  | tmc2209

def VsenseChip.fields : VsenseChip → FieldTable
  | tmc2130 => tmc2130Fields
  | tmc2208 => tmc2208Fields
  | tmc2209 => tmc2209Fields

structure TMCCurrentHelper (K : Type*) where
  chip : VsenseChip
  senseResistor : K

namespace TMCCurrentHelper

def vref (vsense : Bool) : K := if vsense then ((0.18 : ℚ) : K) else ((0.32 : ℚ) : K)

variable (h : TMCCurrentHelper K)

def calcCurrentBits (current : K) (vsense : Bool) : ℤ :=
  bitsOfCurrent (h.senseResistor + ((0.020 : ℚ) : K)) (vref vsense) current

def calcCurrentFromBits (cs : K) (vsense : Bool) : K :=
  currentOfBits (h.senseResistor + ((0.020 : ℚ) : K)) (vref vsense) cs

def calcCurrent (runCurrent holdCurrent : K) : Bool × ℤ × ℤ :=
  let (vsense, irun) := chooseVsense h.calcCurrentBits h.calcCurrentFromBits runCurrent
  (vsense, irun, h.calcCurrentBits (min holdCurrent runCurrent) vsense)

def setCurrent (s : CurrentState K) (c : CurrentCall K) : CurrentState K :=
  let t := h.chip.fields
  let s := { s with reqCurrent := c.holdCurrent }
  let (vsense, irun, ihold) := h.calcCurrent c.runCurrent c.holdCurrent
  let s := s.updateVsense t "CHOPCONF" none vsense
  s.writeIholdIrun t irun ihold

end TMCCurrentHelper

/-! ### TMC2240 -/

/-- The reference resistor, in the range that the configuration accepts. -/
structure TMC2240CurrentHelper (K : Type*) [Field K] [LinearOrder K] where
  rref : K
  le_rref : ((12000 : ℚ) : K) ≤ rref
  rref_le : rref ≤ ((60000 : ℚ) : K)

namespace TMC2240CurrentHelper

/-- The full-scale current of a range; the field has only the four ranges. -/
def kifs (currentRange : ℕ) : K :=
  (([11750, 24000, 36000, 36000].getD currentRange 0 : ℚ) : K)

variable (h : TMC2240CurrentHelper K) (shadow : Registers)

def getIFSRMS : K :=
  kifs (tmc2240Fields.getField shadow "current_range" none).toNat / h.rref / sqrt 2

def calcGlobalscaler (current : K) : ℤ :=
  clampScaler (trunc (current * 256 / h.getIFSRMS shadow + 1 / 2))

def calcCurrentBits (current : K) (globalscaler : ℤ) : ℤ :=
  let globalscaler := if globalscaler = 0 then 256 else globalscaler
  clampBits (trunc (current * 256 * 32 / (globalscaler * h.getIFSRMS shadow) - 1 + 1 / 2))

def calcCurrent (runCurrent holdCurrent : K) : ℤ × ℤ × ℤ :=
  let gscaler := h.calcGlobalscaler shadow runCurrent
  (gscaler, h.calcCurrentBits shadow runCurrent gscaler,
    h.calcCurrentBits shadow (min holdCurrent runCurrent) gscaler)

/-- `Set_current`: the registers are written with the bare numbers, and the run bits are
not put into the shadow. -/
def setCurrent (s : CurrentState K) (c : CurrentCall K) : CurrentState K :=
  let t := tmc2240Fields
  let s := { s with reqCurrent := c.holdCurrent }
  let (gscaler, irun, ihold) := h.calcCurrent s.shadow c.runCurrent c.holdCurrent
  let (_, s) := s.setField t "globalscaler" (BitVec.ofInt 64 gscaler)
  let s := s.setRegister "GLOBALSCALER" (BitVec.ofInt 64 gscaler)
  let (_, s) := s.setField t "ihold" (BitVec.ofInt 64 ihold)
  -- the run bits come to the place of the hold bits
  s.setRegister "IHOLD_IRUN" (BitVec.ofInt 64 irun)

end TMC2240CurrentHelper

/-! ### TMC2660 -/

structure TMC2660CurrentHelper (K : Type*) where
  senseResistor : K

namespace TMC2660CurrentHelper

variable (h : TMC2660CurrentHelper K) (s : CurrentState K) (current : K) (vsense : Bool)

def vref : K := if vsense then ((0.165 : ℚ) : K) else ((0.310 : ℚ) : K)

def calcCurrentBits : ℤ :=
  bitsOfCurrent h.senseResistor (vref vsense) current

def calcCurrentFromBits (cs : K) (vsense : Bool) : K :=
  currentOfBits h.senseResistor (vref vsense) cs

def calcCurrent (runCurrent : K) : Bool × ℤ :=
  chooseVsense h.calcCurrentBits h.calcCurrentFromBits runCurrent

/-- `updateCurrent`.  The old `vsense` is taken out of the number 0, not out of the
register. -/
def updateCurrent : CurrentState K :=
  let t := tmc2660Fields
  let (vsense, cs) := h.calcCurrent current
  let (val, s) := s.setField t "cs" (BitVec.ofInt 64 cs)
  let s := s.setRegister "SGCSCONF" val
  s.updateVsense t "DRVCONF" (some 0) vsense

def setCurrent (c : CurrentCall K) : CurrentState K :=
  h.updateCurrent { s with reqCurrent := c.runCurrent } c.runCurrent

end TMC2660CurrentHelper

/-! ### TMC5160 -/

structure TMC5160CurrentHelper (K : Type*) where
  senseResistor : K

namespace TMC5160CurrentHelper

/-- `TMC5160VREF`. -/
def vref : K := ((0.325 : ℚ) : K)

variable (h : TMC5160CurrentHelper K)

def calcGlobalscaler (current : K) : ℤ :=
  clampScaler (trunc (current * 256 * sqrt 2 * h.senseResistor / vref + 1 / 2))

def calcCurrentBits (current : K) (globalscaler : ℤ) : ℤ :=
  let globalscaler := if globalscaler = 0 then 256 else globalscaler
  clampBits (trunc (current * 256 * 32 * sqrt 2 * h.senseResistor / (globalscaler * vref) - 1
    + 1 / 2))

def calcCurrent (runCurrent holdCurrent : K) : ℤ × ℤ × ℤ :=
  let gscaler := h.calcGlobalscaler runCurrent
  (gscaler, h.calcCurrentBits runCurrent gscaler,
    h.calcCurrentBits (min holdCurrent runCurrent) gscaler)

def setCurrent (s : CurrentState K) (c : CurrentCall K) : CurrentState K :=
  let t := tmc5160Fields
  let s := { s with reqCurrent := c.holdCurrent }
  let (gscaler, irun, ihold) := h.calcCurrent c.runCurrent c.holdCurrent
  let (val, s) := s.setField t "globalscaler" (BitVec.ofInt 64 gscaler)
  let s := s.setRegister "GLOBALSCALER" val
  s.writeIholdIrun t irun ihold

end TMC5160CurrentHelper

/-! ### What a call is to do -/

inductive CurrentHelper (K : Type*) [Field K] [LinearOrder K] where
  | tmc (h : TMCCurrentHelper K)
  | tmc2240 (h : TMC2240CurrentHelper K)
  | tmc2660 (h : TMC2660CurrentHelper K)
  | tmc5160 (h : TMC5160CurrentHelper K)

namespace CurrentHelper

def fields : CurrentHelper K → FieldTable
  | tmc h => h.chip.fields
  | tmc2240 _ => tmc2240Fields
  | tmc2660 _ => tmc2660Fields
  | tmc5160 _ => tmc5160Fields

/-- The registers with the scale bits, the range and the global scaler. -/
def currentRegisters : CurrentHelper K → List String
  | tmc _ => ["CHOPCONF", "IHOLD_IRUN"]
  | tmc2240 _ => ["DRV_CONF", "GLOBALSCALER", "IHOLD_IRUN"]
  | tmc2660 _ => ["SGCSCONF", "DRVCONF"]
  | tmc5160 _ => ["GLOBALSCALER", "IHOLD_IRUN"]

def setCurrent : CurrentHelper K → CurrentState K → CurrentCall K → CurrentState K
  | tmc h => h.setCurrent
  | tmc2240 h => h.setCurrent
  | tmc2660 h => h.setCurrent
  | tmc5160 h => h.setCurrent

/-- The fields of the run and the hold bits, with the values computed for a call. -/
def computedFields (s : CurrentState K) (c : CurrentCall K) :
    CurrentHelper K → List (String × ℤ)
  | tmc h =>
    let (_, irun, ihold) := h.calcCurrent c.runCurrent c.holdCurrent
    [("irun", irun), ("ihold", ihold)]
  | tmc2240 h =>
    let (_, irun, ihold) := h.calcCurrent s.shadow c.runCurrent c.holdCurrent
    [("irun", irun), ("ihold", ihold)]
  | tmc2660 h => [("cs", (h.calcCurrent c.runCurrent).2)]
  | tmc5160 h =>
    let (_, irun, ihold) := h.calcCurrent c.runCurrent c.holdCurrent
    [("irun", irun), ("ihold", ihold)]

/-- After the call the registers of the chip are those of the shadow, and the fields of the
shadow hold the computed values. -/
def Matches (h : CurrentHelper K) (s : CurrentState K) (c : CurrentCall K) : Prop :=
  (∀ r ∈ h.currentRegisters, (h.setCurrent s c).chip r = (h.setCurrent s c).shadow r) ∧
  ∀ p ∈ h.computedFields s c,
    h.fields.getField (h.setCurrent s c).shadow p.1 none = BitVec.ofInt 64 p.2

end CurrentHelper

end Code

/-! ### Fields and registers -/

section Registers

variable {K : Type*} {t : FieldTable} {s : CurrentState K} {f r : String}

def CurrentState.Agree (s : CurrentState K) (r : String) : Prop := s.chip r = s.shadow r

theorem agree_setField (x : Word) (h : s.Agree r) (hr : r ≠ t.registerOf f) :
    (s.setField t f x).2.Agree r := by
  show s.chip r = (t.setField s.shadow f x).2 r
  rw [setField_snd, update_of_ne hr]
  exact h

/-- To write the register of a field that was set makes the chip agree there. -/
theorem agree_write (x : Word) (hf : t.registerOf f = r) {q : String} (h : s.Agree q ∨ q = r) :
    ((s.setField t f x).2.setRegister r (s.setField t f x).1).Agree q := by
  subst hf
  show update s.chip _ (t.setField s.shadow f x).1 q = (t.setField s.shadow f x).2 q
  by_cases hq : q = t.registerOf f
  · rw [hq, update_self, setField_fst]
  · rw [update_of_ne hq]
    exact agree_setField x (h.resolve_right hq) hq

theorem agree_updateVsense (hf : t.registerOf "vsense" = r) (regValue : Option Word)
    (vsense : Bool) {q : String} (h : s.Agree q) :
    (s.updateVsense t r regValue vsense).Agree q := by
  unfold CurrentState.updateVsense
  split
  · exact agree_write _ hf (.inl h)
  · exact h

/-- A field of neighbouring bits at a register, for the numbers below a bound. -/
structure NumberField (t : FieldTable) (f r : String) (bound : ℕ) : Prop where
  register : t.registerOf f = r
  unsigned : f ∉ t.signedFields
  block : ∃ k w, 0 < w ∧ k + w < 64 ∧ bound = 2 ^ w ∧ t.maskOf f = BitField.block 64 k w

variable {bound : ℕ}

theorem toNat_ofInt_lt {x : ℤ} (hx : 0 ≤ x ∧ x < bound) : (BitVec.ofInt 64 x).toNat < bound := by
  obtain ⟨n, rfl⟩ := Int.eq_ofNat_of_zero_le hx.1
  exact lt_of_le_of_lt (Nat.mod_le n _) (by omega)

theorem NumberField.fits (hf : NumberField t f r bound) {x : ℤ} (hx : 0 ≤ x ∧ x < bound) :
    extract (BitVec.ofInt 64 x <<< ffs (t.maskOf f)) (t.maskOf f) =
      BitVec.ofInt 64 x := by
  obtain ⟨k, w, hw, hk, rfl, hmask⟩ := hf.block
  rw [hmask]
  exact extract_block hw hk (toNat_ofInt_lt hx)

theorem NumberField.getField_setField (hf : NumberField t f r bound) {x : ℤ}
    (hx : 0 ≤ x ∧ x < bound) (registers : Registers) :
    t.getField (t.setField registers f (BitVec.ofInt 64 x)).2 f none = BitVec.ofInt 64 x :=
  FieldTable.getField_setField hf.unsigned (hf.fits hx)

/-- The two scale fields of a driver with one register for them. -/
structure ScaleTable (t : FieldTable) : Prop where
  irun : NumberField t "irun" "IHOLD_IRUN" 32
  ihold : NumberField t "ihold" "IHOLD_IRUN" 32
  disjoint : t.maskOf "irun" &&& t.maskOf "ihold" = 0#64

/-- The masks that all these drivers have. -/
theorem ScaleTable.of_masks (hrun : t.registerOf "irun" = "IHOLD_IRUN")
    (hrunMask : t.maskOf "irun" = 0x1f#64 <<< 8) (hrunSigned : "irun" ∉ t.signedFields)
    (hhold : t.registerOf "ihold" = "IHOLD_IRUN") (hholdMask : t.maskOf "ihold" = 0x1f#64)
    (hholdSigned : "ihold" ∉ t.signedFields) : ScaleTable t where
  irun := ⟨hrun, hrunSigned, 8, 5, by omega, by omega, rfl, hrunMask⟩
  ihold := ⟨hhold, hholdSigned, 0, 5, by omega, by omega, rfl, hholdMask⟩
  disjoint := by
    rw [hrunMask, hholdMask]
    rfl

theorem VsenseChip.scaleTable (chip : VsenseChip) : ScaleTable chip.fields := by
  cases chip <;> exact .of_masks rfl rfl (by decide) rfl rfl (by decide)

theorem tmc5160_scaleTable : ScaleTable tmc5160Fields :=
  .of_masks rfl rfl (by decide) rfl rfl (by decide)

theorem tmc2240_ihold : NumberField tmc2240Fields "ihold" "IHOLD_IRUN" 32 :=
  ⟨rfl, by decide, 0, 5, by omega, by omega, rfl, rfl⟩

theorem tmc2660_cs : NumberField tmc2660Fields "cs" "SGCSCONF" 32 :=
  ⟨rfl, by decide, 0, 5, by omega, by omega, rfl, rfl⟩

theorem ScaleTable.writeIholdIrun (ht : ScaleTable t) (s : CurrentState K) {irun ihold : ℤ}
    (hirun : 0 ≤ irun ∧ irun < 32) (hihold : 0 ≤ ihold ∧ ihold < 32) :
    (∀ q, s.Agree q ∨ q = "IHOLD_IRUN" → (s.writeIholdIrun t irun ihold).Agree q) ∧
    ∀ p ∈ [("irun", irun), ("ihold", ihold)],
      t.getField (s.writeIholdIrun t irun ihold).shadow p.1 none = BitVec.ofInt 64 p.2 := by
  refine ⟨fun q hq => ?_, forall_mem_cons.mpr ⟨?_, forall_mem_singleton.mpr ?_⟩⟩
  · refine agree_write _ ht.irun.register ?_
    by_cases h : q = "IHOLD_IRUN"
    · exact .inr h
    · refine .inl (agree_setField _ (hq.resolve_right h) ?_)
      rwa [ht.ihold.register]
  · exact ht.irun.getField_setField hirun _
  · rw [← ht.ihold.getField_setField hihold s.shadow]
    exact getField_setField_of_ne _ fun _ => ht.disjoint

end Registers

/-! ### The ranges of the computed numbers -/

theorem clampBits_range (cs : ℤ) : 0 ≤ clampBits cs ∧ clampBits cs < 32 := by
  unfold clampBits
  omega

theorem clampScaler_range (g : ℤ) : 0 ≤ clampScaler g ∧ clampScaler g < 256 := by
  unfold clampScaler
  dsimp only
  split_ifs <;> omega

theorem clampScaler_of_le {g : ℤ} (hg : g ≤ 32) : clampScaler g = 32 := by
  unfold clampScaler
  rw [max_eq_left hg]
  rfl

/-- The bits that are chosen belong to the chosen range. -/
theorem chooseVsense_snd {K : Type*} [Field K] [LinearOrder K] (bits : K → Bool → ℤ)
    (fromBits : K → Bool → K) (runCurrent : K) :
    (chooseVsense bits fromBits runCurrent).2 =
      bits runCurrent (chooseVsense bits fromBits runCurrent).1 := by
  unfold chooseVsense
  dsimp only
  split_ifs <;> rfl

variable {K : Type*} [Field K] [LinearOrder K] [FloorRing K] [HasSqrt K]

section Calls

variable {s : CurrentState K}

theorem TMCCurrentHelper.setCurrent_matches (h : TMCCurrentHelper K)
    (hs : ∀ r ∈ (CurrentHelper.tmc h).currentRegisters, s.Agree r) (c : CurrentCall K) :
    (CurrentHelper.tmc h).Matches s c := by
  let bits := h.calcCurrent c.runCurrent c.holdCurrent
  have hirun : 0 ≤ bits.2.1 ∧ bits.2.1 < 32 := by
    show 0 ≤ (chooseVsense _ _ _).2 ∧ (chooseVsense _ _ _).2 < 32
    rw [chooseVsense_snd]
    exact clampBits_range _
  have hihold : 0 ≤ bits.2.2 ∧ bits.2.2 < 32 := clampBits_range _
  let s₁ := CurrentState.updateVsense h.chip.fields "CHOPCONF" none
    { s with reqCurrent := c.holdCurrent } bits.1
  have hs₁ : ∀ r ∈ (CurrentHelper.tmc h).currentRegisters, s₁.Agree r := fun r hr =>
    agree_updateVsense (by cases h.chip <;> rfl) none bits.1 (hs r hr)
  obtain ⟨hregs, hfields⟩ := h.chip.scaleTable.writeIholdIrun s₁ hirun hihold
  exact ⟨fun r hr => hregs r (.inl (hs₁ r hr)), hfields⟩

theorem TMC5160CurrentHelper.setCurrent_matches (h : TMC5160CurrentHelper K)
    (hs : ∀ r ∈ (CurrentHelper.tmc5160 h).currentRegisters, s.Agree r) (c : CurrentCall K) :
    (CurrentHelper.tmc5160 h).Matches s c := by
  let bits := h.calcCurrent c.runCurrent c.holdCurrent
  let set := CurrentState.setField tmc5160Fields { s with reqCurrent := c.holdCurrent }
    "globalscaler" (BitVec.ofInt 64 bits.1)
  have hs₁ : ∀ r ∈ (CurrentHelper.tmc5160 h).currentRegisters,
      (set.2.setRegister "GLOBALSCALER" set.1).Agree r := fun r hr =>
    agree_write _ rfl (.inl (hs r hr))
  have hirun : 0 ≤ bits.2.1 ∧ bits.2.1 < 32 := clampBits_range _
  have hihold : 0 ≤ bits.2.2 ∧ bits.2.2 < 32 := clampBits_range _
  obtain ⟨hregs, hfields⟩ := tmc5160_scaleTable.writeIholdIrun
    (set.2.setRegister "GLOBALSCALER" set.1) hirun hihold
  exact ⟨fun r hr => hregs r (.inl (hs₁ r hr)), hfields⟩

theorem TMC2660CurrentHelper.setCurrent_matches (h : TMC2660CurrentHelper K)
    (hs : ∀ r ∈ (CurrentHelper.tmc2660 h).currentRegisters, s.Agree r) (c : CurrentCall K) :
    (CurrentHelper.tmc2660 h).Matches s c := by
  let bits := h.calcCurrent c.runCurrent
  have hcs : 0 ≤ bits.2 ∧ bits.2 < 32 := by
    show 0 ≤ (chooseVsense _ _ _).2 ∧ (chooseVsense _ _ _).2 < 32
    rw [chooseVsense_snd]
    exact clampBits_range _
  refine ⟨fun r hr => ?_, fun p hp => ?_⟩
  · refine agree_updateVsense rfl (some 0) bits.1 ?_
    exact agree_write _ rfl (.inl (hs r hr))
  · rw [mem_singleton.mp hp]
    refine Eq.trans ?_ (tmc2660_cs.getField_setField hcs s.shadow)
    show tmc2660Fields.getField (CurrentState.updateVsense _ _ _ _ _).shadow "cs" none = _
    unfold CurrentState.updateVsense
    split
    · exact getField_setField_of_ne _ (by decide)
    · rfl

end Calls

/-! ### The TMC2240 -/

namespace TMC2240CurrentHelper

open CurrentHelper (currentRegisters)

variable (h : TMC2240CurrentHelper K) (s : CurrentState K) (c : CurrentCall K)

/-- What the register writes of a TMC2240 need: no bits outside the two fields that are
written, and a run current that is rounded to the scale 0. -/
def TinyCurrent (shadow : Registers) (runCurrent : K) : Prop :=
  shadow "GLOBALSCALER" &&& ~~~0xff#64 = 0#64 ∧ shadow "IHOLD_IRUN" &&& ~~~0x1f#64 = 0#64 ∧
  runCurrent * 512 < 3 * h.getIFSRMS shadow

theorem setCurrent_shadow : (h.setCurrent s c).shadow =
      update
        (update s.shadow "GLOBALSCALER" (insert (s.shadow "GLOBALSCALER") 0xff#64
          (BitVec.ofInt 64 (h.calcCurrent s.shadow c.runCurrent c.holdCurrent).1)))
        "IHOLD_IRUN" (insert (s.shadow "IHOLD_IRUN") 0x1f#64
          (BitVec.ofInt 64 (h.calcCurrent s.shadow c.runCurrent c.holdCurrent).2.2)) := by
  rfl

theorem setCurrent_chip : (h.setCurrent s c).chip =
      update
        (update s.chip "GLOBALSCALER"
          (BitVec.ofInt 64 (h.calcCurrent s.shadow c.runCurrent c.holdCurrent).1))
        "IHOLD_IRUN" (BitVec.ofInt 64 (h.calcCurrent s.shadow c.runCurrent c.holdCurrent).2.1) := by
  rfl

/-- The ranges of the scaler and of the scale bits. -/
theorem calcCurrent_range (shadow : Registers) (run hold : K) :
    (0 ≤ (h.calcCurrent shadow run hold).1 ∧ (h.calcCurrent shadow run hold).1 < 256) ∧
    (0 ≤ (h.calcCurrent shadow run hold).2.1 ∧ (h.calcCurrent shadow run hold).2.1 < 32) ∧
    (0 ≤ (h.calcCurrent shadow run hold).2.2 ∧ (h.calcCurrent shadow run hold).2.2 < 32) :=
  ⟨clampScaler_range _, clampBits_range _, clampBits_range _⟩

section Bits

variable [IsStrictOrderedRing K] [LawfulSqrt K] (h : TMC2240CurrentHelper K) (shadow : Registers)

theorem currentRange_lt : (tmc2240Fields.getField shadow "current_range" none).toNat < 4 := by
  have hmask : tmc2240Fields.getField shadow "current_range" none =
      (shadow "DRV_CONF" &&& 3#64).sshiftRight 0 := rfl
  rw [hmask, BitVec.sshiftRight_zero, BitVec.toNat_and]
  exact Nat.lt_succ_of_le Nat.and_le_right

omit [FloorRing K] [HasSqrt K] [LawfulSqrt K] in
theorem kifs_pos {range : ℕ} (hrange : range < 4) : (0 : K) < kifs range := by
  unfold kifs
  interval_cases range <;> norm_num

omit [FloorRing K] in
theorem getIFSRMS_pos : 0 < h.getIFSRMS shadow := by
  have hrref : 0 < h.rref := lt_of_lt_of_le (Rat.cast_pos.mpr (by norm_num)) h.le_rref
  have hsqrt : (0 : K) < sqrt 2 := sqrt_pos (by norm_num)
  exact div_pos (div_pos (kifs_pos (currentRange_lt shadow)) hrref) hsqrt

omit [LawfulSqrt K] in
theorem calcCurrentBits_eq_zero_iff (current : K) (g : ℤ) :
    h.calcCurrentBits shadow current g = 0 ↔
      current * 256 * 32 / ((if g = 0 then 256 else g : ℤ) * h.getIFSRMS shadow) < 3 / 2 := by
  unfold calcCurrentBits clampBits
  have hbits : ∀ n : ℤ, max 0 (min 31 n) = 0 ↔ n ≤ 0 := by
    omega
  rw [hbits, trunc_nonpos_iff]
  constructor <;> intro hlt <;> linarith

/-- The run bits are zero for currents below three steps of the smallest scale. -/
theorem irun_eq_zero_iff (run : K) :
    h.calcCurrentBits shadow run (h.calcGlobalscaler shadow run) = 0 ↔
      run * 512 < 3 * h.getIFSRMS shadow := by
  have hifs := h.getIFSRMS_pos shadow
  rw [calcCurrentBits_eq_zero_iff]
  unfold calcGlobalscaler
  generalize h.getIFSRMS shadow = ifs at hifs ⊢
  by_cases hsmall : trunc (run * 256 / ifs + 1 / 2) ≤ 32
  · rw [clampScaler_of_le hsmall, if_neg (by omega), div_lt_iff₀ (by push_cast; positivity)]
    constructor <;> intro hlt <;> linarith
  · -- a larger scaler is at most the scaled current, which is then far above
    push Not at hsmall
    have hle := trunc_le_of_pos (x := run * 256 / ifs + 1 / 2) (by omega)
    generalize trunc (run * 256 / ifs + 1 / 2) = g at hsmall hle
    obtain ⟨hpos, hg'g⟩ : 32 < (if clampScaler g = 0 then 256 else clampScaler g) ∧
        (if clampScaler g = 0 then 256 else clampScaler g) ≤ g := by
      unfold clampScaler
      dsimp only
      constructor <;> split_ifs <;> omega
    generalize (if clampScaler g = 0 then 256 else clampScaler g) = g' at hpos hg'g ⊢
    have hg33 : (33 : ℤ) ≤ g := by omega
    have hg33' : (33 : K) ≤ g := by exact_mod_cast hg33
    have hg'' : (g' : K) ≤ g := by exact_mod_cast hg'g
    have hgpos : (0 : K) < g' := by exact_mod_cast (by omega : (0 : ℤ) < g')
    have hscaled : ((g : K) - 1 / 2) * ifs ≤ run * 256 := by
      rw [← le_div_iff₀ hifs]
      linarith
    have hlarge : (g' : K) * ifs ≤ g * ifs := mul_le_mul_of_nonneg_right hg'' hifs.le
    have hlarge' : 33 * ifs ≤ g * ifs := mul_le_mul_of_nonneg_right hg33' hifs.le
    rw [div_lt_iff₀ (mul_pos hgpos hifs)]
    refine iff_of_false ?_ ?_ <;> linarith

/-- The hold current counts only up to the run current. -/
theorem ihold_eq_zero {run : K} (hold : K) (hrun : (h.calcCurrent shadow run hold).2.1 = 0) :
    (h.calcCurrent shadow run hold).2.2 = 0 := by
  have hifs := h.getIFSRMS_pos shadow
  have hirun := (h.calcCurrentBits_eq_zero_iff shadow run _).mp hrun
  refine (h.calcCurrentBits_eq_zero_iff shadow _ _).mpr (lt_of_le_of_lt ?_ hirun)
  obtain ⟨hg, -⟩ := clampScaler_range (trunc (run * 256 / h.getIFSRMS shadow + 1 / 2))
  gcongr
  exact min_le_right hold run

end Bits

/-- A number in a field at the low end of a register is the whole register just if no other
bit is set. -/
theorem ofInt_eq_insert_iff {w bound : ℕ} {mask : Word} (hw : 0 < w ∧ w ≤ 64)
    (hbound : bound = 2 ^ w) (hmask : mask = BitField.block 64 0 w) {x y : ℤ}
    (hx : 0 ≤ x ∧ x < bound) (hy : 0 ≤ y ∧ y < bound) (v : Word) :
    BitVec.ofInt 64 y = insert v mask (BitVec.ofInt 64 x) ↔
      v &&& ~~~mask = 0#64 ∧ BitVec.ofInt 64 x = BitVec.ofInt 64 y := by
  subst hbound hmask
  have hlow : ∀ z : ℤ, 0 ≤ z ∧ z < (2 ^ w : ℕ) →
      BitVec.ofInt 64 z &&& BitField.block 64 0 w = BitVec.ofInt 64 z :=
    fun z hz => and_block_zero hw.2 (toNat_ofInt_lt hz)
  rw [eq_comm, insert_eq_iff ?_ (hlow y hy)]
  rw [ffs_block hw.1 (by omega), BitVec.shiftLeft_zero]
  exact hlow x hx

theorem ofInt_inj {x y : ℤ} (hx : 0 ≤ x ∧ x < 32) (hy : 0 ≤ y ∧ y < 32)
    (h : BitVec.ofInt 64 x = BitVec.ofInt 64 y) : x = y := by
  have hmod := congrArg BitVec.toInt h
  rw [BitVec.toInt_ofInt, BitVec.toInt_ofInt] at hmod
  rwa [Int.bmod_eq_of_le (by omega) (by omega), Int.bmod_eq_of_le (by omega) (by omega)] at hmod

theorem agree_globalscaler_iff :
    (h.setCurrent s c).Agree "GLOBALSCALER" ↔ s.shadow "GLOBALSCALER" &&& ~~~0xff#64 = 0#64 := by
  obtain ⟨hrange, -, -⟩ := h.calcCurrent_range s.shadow c.runCurrent c.holdCurrent
  have hne : "GLOBALSCALER" ≠ "IHOLD_IRUN" := by decide
  have hmask : 0xff#64 = BitField.block 64 0 8 := rfl
  rw [CurrentState.Agree, setCurrent_chip, setCurrent_shadow, update_of_ne hne, update_of_ne hne,
    update_self, update_self, ofInt_eq_insert_iff (by omega) rfl hmask hrange hrange]
  exact and_iff_left rfl

theorem agree_iholdIrun_iff :
    (h.setCurrent s c).Agree "IHOLD_IRUN" ↔ s.shadow "IHOLD_IRUN" &&& ~~~0x1f#64 = 0#64 ∧
      (h.calcCurrent s.shadow c.runCurrent c.holdCurrent).2.2 =
        (h.calcCurrent s.shadow c.runCurrent c.holdCurrent).2.1 := by
  obtain ⟨-, hirun, hihold⟩ := h.calcCurrent_range s.shadow c.runCurrent c.holdCurrent
  have hmask : 0x1f#64 = BitField.block 64 0 5 := rfl
  rw [CurrentState.Agree, setCurrent_chip, setCurrent_shadow, update_self,
    update_self, ofInt_eq_insert_iff (by omega) rfl hmask hihold hirun]
  exact and_congr_right fun _ => ⟨ofInt_inj hihold hirun, congrArg _⟩

/-- The run bits of the shadow stay, whatever the run current. -/
theorem getField_irun : tmc2240Fields.getField (h.setCurrent s c).shadow "irun" none =
      extract (s.shadow "IHOLD_IRUN") (0x1f#64 <<< 8) := by
  have hreg : tmc2240Fields.registerOf "irun" = "IHOLD_IRUN" := rfl
  have hmask : tmc2240Fields.maskOf "irun" = 0x1f#64 <<< 8 := rfl
  rw [setCurrent_shadow, getField_unsigned (by decide), hreg, hmask, update_self]
  exact extract_congr (insert_and_of_disjoint rfl)

theorem getField_ihold : tmc2240Fields.getField (h.setCurrent s c).shadow "ihold" none =
      BitVec.ofInt 64 (h.calcCurrent s.shadow c.runCurrent c.holdCurrent).2.2 := by
  obtain ⟨-, -, hihold⟩ := h.calcCurrent_range s.shadow c.runCurrent c.holdCurrent
  rw [setCurrent_shadow, getField_unsigned tmc2240_ihold.unsigned,
    tmc2240_ihold.register, update_self]
  exact extract_insert.trans (tmc2240_ihold.fits hihold)

theorem extract_irun_of_clean {v : Word} (hclean : v &&& ~~~0x1f#64 = 0#64) :
    extract v (0x1f#64 <<< 8) = BitVec.ofInt 64 0 := by
  have hmask : v &&& 0x1f#64 <<< 8 = 0#64 &&& 0x1f#64 <<< 8 := by
    rw [show (0x1f#64 <<< 8 : Word) = ~~~0x1f#64 &&& 0x1f#64 <<< 8 from rfl, ← BitVec.and_assoc,
      hclean]
    rfl
  rw [extract_congr hmask]
  rfl

/-- A call leaves chip and shadow in step, and the computed bits in the shadow, just if the
current is tiny: only then are the bare numbers the registers. -/
theorem matches_iff [IsStrictOrderedRing K] [LawfulSqrt K] {s : CurrentState K}
    (hs : ∀ r ∈ (CurrentHelper.tmc2240 h).currentRegisters, s.Agree r) (c : CurrentCall K) :
    (CurrentHelper.tmc2240 h).Matches s c ↔ h.TinyCurrent s.shadow c.runCurrent := by
  obtain ⟨-, hirun, -⟩ := h.calcCurrent_range s.shadow c.runCurrent c.holdCurrent
  constructor
  · rintro ⟨hregs, hfields⟩
    have hscaler := (h.agree_globalscaler_iff s c).mp (hregs _ (by simp [currentRegisters]))
    obtain ⟨hclean, -⟩ := (h.agree_iholdIrun_iff s c).mp (hregs _ (by simp [currentRegisters]))
    have hfield := hfields ("irun", _) (mem_cons_self ..)
    refine ⟨hscaler, hclean, (h.irun_eq_zero_iff _ _).mp ?_⟩
    refine ofInt_inj hirun (by omega) ?_
    rw [← extract_irun_of_clean hclean, ← h.getField_irun s c]
    exact hfield.symm
  · rintro ⟨hscaler, hclean, htiny⟩
    have hrun := (h.irun_eq_zero_iff _ _).mpr htiny
    have hhold := h.ihold_eq_zero _ c.holdCurrent hrun
    refine ⟨fun r hr => ?_, fun p hp => ?_⟩
    · rcases mem_cons.mp hr with rfl | hr
      · exact hs "DRV_CONF" (mem_cons_self ..)
      · rcases mem_pair.mp hr with rfl | rfl
        · exact (h.agree_globalscaler_iff s c).mpr hscaler
        · exact (h.agree_iholdIrun_iff s c).mpr ⟨hclean, hhold.trans hrun.symm⟩
    · rcases mem_pair.mp hp with rfl | rfl
      · show tmc2240Fields.getField (h.setCurrent s c).shadow "irun" none = _
        rw [h.getField_irun s c, extract_irun_of_clean hclean]
        exact congrArg _ hrun.symm
      · exact h.getField_ihold s c

/-- The condition is about bits that a call leaves. -/
theorem tinyCurrent_setCurrent (run : K) :
    h.TinyCurrent (h.setCurrent s c).shadow run ↔ h.TinyCurrent s.shadow run := by
  have hscaler : (h.setCurrent s c).shadow "GLOBALSCALER" &&& ~~~0xff#64 =
      s.shadow "GLOBALSCALER" &&& ~~~0xff#64 := by
    rw [setCurrent_shadow, update_of_ne (by decide), update_self]
    exact insert_and_of_disjoint rfl
  have hscale : (h.setCurrent s c).shadow "IHOLD_IRUN" &&& ~~~0x1f#64 =
      s.shadow "IHOLD_IRUN" &&& ~~~0x1f#64 := by
    rw [setCurrent_shadow, update_self]
    exact insert_and_of_disjoint rfl
  have hifs : h.getIFSRMS (h.setCurrent s c).shadow = h.getIFSRMS s.shadow := rfl
  unfold TinyCurrent
  rw [hscaler, hscale, hifs]

end TMC2240CurrentHelper

/-! ### Sequences of calls -/

namespace CurrentHelper

/-- What a call needs for the registers to match after it, by the shadow registers at the
begin. -/
def Safe (shadow : Registers) (c : CurrentCall K) : CurrentHelper K → Prop
  | tmc2240 h => h.TinyCurrent shadow c.runCurrent
  | _ => True

variable [IsStrictOrderedRing K] [LawfulSqrt K]

theorem matches_iff_safe (h : CurrentHelper K) {s : CurrentState K}
    (hs : ∀ r ∈ h.currentRegisters, s.Agree r) (c : CurrentCall K) :
    h.Matches s c ↔ h.Safe s.shadow c := by
  cases h with
  | tmc h => exact iff_of_true (h.setCurrent_matches hs c) trivial
  | tmc2240 h => exact h.matches_iff hs c
  | tmc2660 h => exact iff_of_true (h.setCurrent_matches hs c) trivial
  | tmc5160 h => exact iff_of_true (h.setCurrent_matches hs c) trivial

omit [IsStrictOrderedRing K] [LawfulSqrt K] in
theorem safe_setCurrent (h : CurrentHelper K) (s : CurrentState K) (c d : CurrentCall K) :
    h.Safe (h.setCurrent s c).shadow d ↔ h.Safe s.shadow d := by
  cases h with
  | tmc2240 h => exact h.tinyCurrent_setCurrent s c d.runCurrent
  | tmc h => exact Iff.rfl
  | tmc2660 h => exact Iff.rfl
  | tmc5160 h => exact Iff.rfl

end CurrentHelper

/-- Over a sequence of `Set_current` calls that starts with chip and shadow in step, the
registers match after each call just if every call is safe. -/
theorem registers_match_iff {K : Type*} [Field K] [LinearOrder K] [FloorRing K] [HasSqrt K]
    [IsStrictOrderedRing K] [LawfulSqrt K] (h : CurrentHelper K) (shadow : Registers)
    (reqCurrent : K) (calls : List (CurrentCall K)) :
    Runs.Along h.setCurrent h.Matches ⟨shadow, shadow, reqCurrent⟩ calls ↔
      ∀ c ∈ calls, h.Safe shadow c := by
  have hconst : Runs.Along h.setCurrent (fun _ c => h.Safe shadow c) ⟨shadow, shadow, reqCurrent⟩
    calls ↔ ∀ c ∈ calls, h.Safe shadow c := Runs.along_const _
  refine Iff.trans ?_ hconst
  -- the chip stays in step as long as the calls match, and the condition never changes
  refine Runs.along_iff_of_invariant (I := fun s : CurrentState K =>
    (∀ r ∈ h.currentRegisters, s.Agree r) ∧ ∀ c, h.Safe s.shadow c ↔ h.Safe shadow c)
    ?_ ?_ ⟨fun _ _ => rfl, fun _ => Iff.rfl⟩
  · rintro s c ⟨-, hsafe⟩ hmatch
    exact ⟨hmatch.1, fun d => (h.safe_setCurrent s c d).trans (hsafe d)⟩
  · rintro s c ⟨hs, hsafe⟩
    rw [h.matches_iff_safe hs c, hsafe]

theorem registers_match_tmc5160 : Runs.Along (CurrentHelper.tmc5160 ⟨((0.075 : ℚ) : ℝ)⟩).setCurrent
      (CurrentHelper.tmc5160 ⟨((0.075 : ℚ) : ℝ)⟩).Matches ⟨fun _ => 0, fun _ => 0, 0⟩
      [⟨1, 1⟩, ⟨0, 1⟩] :=
  (registers_match_iff (.tmc5160 ⟨((0.075 : ℚ) : ℝ)⟩) (fun _ => 0) 0 [⟨1, 1⟩, ⟨0, 1⟩]).mpr
    fun _ _ => trivial

def defaultTMC2240 (K : Type*) [Field K] [LinearOrder K] [IsStrictOrderedRing K] :
    TMC2240CurrentHelper K where
  rref := ((12000 : ℚ) : K)
  le_rref := le_rfl
  rref_le := Rat.cast_le.mpr (by norm_num)

/-- After one call for one ampere the shadow of the TMC2240 does not hold the run scale. -/
theorem tmc2240_one_ampere_mismatch :
    ¬ Runs.Along (CurrentHelper.tmc2240 (defaultTMC2240 ℝ)).setCurrent
      (CurrentHelper.tmc2240 (defaultTMC2240 ℝ)).Matches ⟨fun _ => 0, fun _ => 0, 0⟩ [⟨1, 1⟩] := by
  rintro ⟨hmatch, -⟩
  have hstart : ∀ r, (⟨fun _ => 0, fun _ => 0, 0⟩ : CurrentState ℝ).Agree r := fun _ => rfl
  obtain ⟨-, -, htiny⟩ :=
    ((defaultTMC2240 ℝ).matches_iff (fun r _ => hstart r) ⟨1, 1⟩).mp hmatch
  have hifs : (defaultTMC2240 ℝ).getIFSRMS (fun _ => 0) =
      ((11750 : ℚ) : ℝ) / ((12000 : ℚ) : ℝ) / sqrt 2 := rfl
  have hsqrt : (1 : ℝ) ≤ sqrt 2 := by
    exact Real.one_le_sqrt.mpr (by norm_num)
  have hle : (defaultTMC2240 ℝ).getIFSRMS (fun _ => 0) ≤ 1 := by
    rw [hifs, div_le_one (by linarith)]
    refine le_trans ?_ hsqrt
    norm_num
  linarith

end Tmc
