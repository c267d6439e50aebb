/-
The register fields of the TMC drivers (`internal/pkg/tmc/field_helper.go`).

A driver type is given by a table of its registers, the mask of each field in them, and
the fields that are signed.  `getField` and `setField` work on the shadow copy of the
registers that the host keeps.  Of the tables only the registers are here whose fields
the homing and the current helpers use.
-/
import KlipperGo.BitField
import Mathlib.Data.Nat.Size

open Function BitVec Nat BitField

namespace Tmc

/-- An `int64`. -/
abbrev Word := BitVec 64

/-- The values of the registers by name; one that was never set is zero. -/
abbrev Registers := String → Word

structure FieldTable where
  allFields : List (String × List (String × Word))
  signedFields : List String

namespace FieldTable

variable (t : FieldTable) (fieldName : String)

/-- `Lookup_register`: the register that has the field.  (In a table with two of them the
source takes the one its map gives last.) -/
def lookupRegister : Option String :=
  (t.allFields.find? fun reg => reg.2.any fun field => field.1 == fieldName).map Prod.fst

/-- The name under which a field is looked up, the empty one for an unknown field. -/
def registerOf : String := (t.lookupRegister fieldName).getD ""

/-- The mask of a field; zero if the register does not have it. -/
def maskOf : Word :=
  ((t.allFields.lookup (t.registerOf fieldName)).bind fun fields => fields.lookup fieldName).getD 0

variable (registers : Registers) (fieldName : String)

/-- `Get_field`, of the shadow register or of the given value. -/
def getField (regValue : Option Word) : Word :=
  let regValue := regValue.getD (registers (t.registerOf fieldName))
  let mask := t.maskOf fieldName
  let fieldValue := extract regValue mask
  if fieldName ∈ t.signedFields ∧ mask.slt ((regValue &&& mask) <<< 1) then
    fieldValue - 1 <<< fieldValue.toNat.size
  else fieldValue

/-- `Set_field`: the new value of the register, and the registers with it. -/
def setField (fieldValue : Word) : Word × Registers :=
  let regName := t.registerOf fieldName
  let newValue := insert (registers regName) (t.maskOf fieldName) fieldValue
  (newValue, update registers regName newValue)

end FieldTable

/-! ### The tables -/

def tmc2130Fields : FieldTable where
  allFields := [
    ("GCONF", [("i_scale_analog", 1 <<< 0), ("internal_rsense", 1 <<< 1), ("en_pwm_mode", 1 <<< 2),
      ("enc_commutation", 1 <<< 3), ("shaft", 1 <<< 4), ("diag0_error", 1 <<< 5),
      ("diag0_otpw", 1 <<< 6), ("diag0_stall", 1 <<< 7), ("diag1_stall", 1 <<< 8),
      ("diag1_index", 1 <<< 9), ("diag1_onstate", 1 <<< 10), ("diag1_steps_skipped", 1 <<< 11),
      ("diag0_int_pushpull", 1 <<< 12), ("diag1_pushpull", 1 <<< 13),
      ("small_hysteresis", 1 <<< 14), ("stop_enable", 1 <<< 15), ("direct_mode", 1 <<< 16),
      ("test_mode", 1 <<< 17)]),
    ("IHOLD_IRUN", [("ihold", 0x1f <<< 0), ("irun", 0x1f <<< 8), ("iholddelay", 0x0f <<< 16)]),
    ("TPWMTHRS", [("tpwmthrs", 0xfffff)]),
    ("TCOOLTHRS", [("tcoolthrs", 0xfffff)]),
    ("THIGH", [("thigh", 0xfffff)]),
    ("CHOPCONF", [("toff", 0x0f), ("hstrt", 0x07 <<< 4), ("hend", 0x0f <<< 7), ("fd3", 1 <<< 11),
      ("disfdcc", 1 <<< 12), ("rndtf", 1 <<< 13), ("chm", 1 <<< 14), ("tbl", 0x03 <<< 15),
      ("vsense", 1 <<< 17), ("vhighfs", 1 <<< 18), ("vhighchm", 1 <<< 19), ("sync", 0x0f <<< 20),
      ("mres", 0x0f <<< 24), ("intpol", 1 <<< 28), ("dedge", 1 <<< 29), ("diss2g", 1 <<< 30)])]
  signedFields := ["cur_a", "cur_b", "sgt"]

def tmc2208Fields : FieldTable where
  allFields := [
    ("GCONF", [("i_scale_analog", 0x01), ("internal_rsense", 0x01 <<< 1),
      ("en_spreadcycle", 0x01 <<< 2), ("shaft", 0x01 <<< 3), ("index_otpw", 0x01 <<< 4),
      ("index_step", 0x01 <<< 5), ("pdn_disable", 0x01 <<< 6), ("mstep_reg_select", 0x01 <<< 7),
      ("multistep_filt", 0x01 <<< 8), ("test_mode", 0x01 <<< 9)]),
    ("IHOLD_IRUN", [("ihold", 0x1f), ("irun", 0x1f <<< 8), ("iholddelay", 0x0f <<< 16)]),
    ("TPWMTHRS", [("tpwmthrs", 0xfffff)]),
    ("CHOPCONF", [("toff", 0x0f), ("hstrt", 0x07 <<< 4), ("hend", 0x0f <<< 7), ("tbl", 0x03 <<< 15),
      ("vsense", 0x01 <<< 17), ("mres", 0x0f <<< 24), ("intpol", 0x01 <<< 28),
      ("dedge", 0x01 <<< 29), ("diss2g", 0x01 <<< 30), ("diss2vs", 0x01 <<< 31)])]
  signedFields := ["cur_a", "cur_b", "pwm_scale_auto"]

/-- `TMC2209Fields`: the registers of the TMC2208 and some more. -/
def tmc2209Fields : FieldTable where
  allFields := tmc2208Fields.allFields ++ [("TCOOLTHRS", [("tcoolthrs", 0xfffff)])]
  signedFields := tmc2208Fields.signedFields

def tmc2240Fields : FieldTable where
  allFields := [
    ("GCONF", [("faststandstill", 0x01 <<< 1), ("en_pwm_mode", 0x01 <<< 2),
      ("multistep_filt", 0x01 <<< 3), ("shaft", 0x01 <<< 4), ("diag0_error", 0x01 <<< 5),
      ("diag0_otpw", 0x01 <<< 6), ("diag0_stall", 0x01 <<< 7), ("diag1_stall", 0x01 <<< 8),
      ("diag1_index", 0x01 <<< 9), ("diag1_onstate", 0x01 <<< 10), ("diag0_pushpull", 0x01 <<< 12),
      ("diag1_pushpull", 0x01 <<< 13), ("small_hysteresis", 0x01 <<< 14),
      ("stop_enable", 0x01 <<< 15), ("direct_mode", 0x01 <<< 16)]),
    ("GLOBALSCALER", [("globalscaler", 0xff <<< 0)]),
    ("IHOLD_IRUN", [("ihold", 0x1f <<< 0), ("irun", 0x1f <<< 8), ("iholddelay", 0x0f <<< 16),
      ("irundelay", 0x0f <<< 24)]),
    ("TPWMTHRS", [("tpwmthrs", 0xfffff <<< 0)]),
    ("TCOOLTHRS", [("tcoolthrs", 0xfffff <<< 0)]),
    ("THIGH", [("thigh", 0xfffff <<< 0)]),
    ("DRV_CONF", [("current_range", 0x03 <<< 0), ("slope_control", 0x03 <<< 4)]),
    ("SG4_THRS", [("sg4_thrs", 0xff <<< 0), ("sg4_filt_en", 0x01 <<< 8),
      ("sg4_angle_offset", 0x01 <<< 9)])]
  signedFields := ["cur_a", "cur_b", "sgt", "pwm_scale_auto", "offset_sin90"]

def tmc2660Fields : FieldTable where
  allFields := [
    ("SGCSCONF", [("cs", 0x1f), ("sgt", 0x7f <<< 8), ("sfilt", 0x01 <<< 16)]),
    ("DRVCONF", [("rdsel", 0x03 <<< 4), ("vsense", 0x01 <<< 6), ("sdoff", 0x01 <<< 7),
      ("ts2g", 0x03 <<< 8), ("diss2g", 0x01 <<< 10), ("slpl", 0x03 <<< 12), ("slph", 0x03 <<< 14),
      ("tst", 0x01 <<< 16)])]
  signedFields := ["sgt"]

def tmc5160Fields : FieldTable where
  allFields := [
    ("GCONF", [("recalibrate", 0x01 <<< 0), ("faststandstill", 0x01 <<< 1),
      ("en_pwm_mode", 0x01 <<< 2), ("multistep_filt", 0x01 <<< 3), ("shaft", 0x01 <<< 4),
      ("diag0_error", 0x01 <<< 5), ("diag0_otpw", 0x01 <<< 6), ("diag0_stall", 0x01 <<< 7),
      ("diag1_stall", 0x01 <<< 8), ("diag1_index", 0x01 <<< 9), ("diag1_onstate", 0x01 <<< 10),
      ("diag1_steps_skipped", 0x01 <<< 11), ("diag0_int_pushpull", 0x01 <<< 12),
      ("diag1_poscomp_pushpull", 0x01 <<< 13), ("small_hysteresis", 0x01 <<< 14),
      ("stop_enable", 0x01 <<< 15), ("direct_mode", 0x01 <<< 16), ("test_mode", 0x01 <<< 17)]),
    ("GLOBALSCALER", [("globalscaler", 0xff <<< 0)]),
    ("IHOLD_IRUN", [("ihold", 0x1f <<< 0), ("irun", 0x1f <<< 8), ("iholddelay", 0x0f <<< 16)]),
    ("TPWMTHRS", [("tpwmthrs", 0xfffff <<< 0)]),
    ("TCOOLTHRS", [("tcoolthrs", 0xfffff <<< 0)]),
    ("THIGH", [("thigh", 0xfffff <<< 0)])]
  signedFields := ["cur_a", "cur_b", "sgt", "xactual", "vactual", "pwm_scale_auto"]

/-! ### Reading and writing fields -/

namespace FieldTable

variable {t : FieldTable} {registers : Registers} {f g : String}

section

variable (t : FieldTable) (registers : Registers) (f : String) (x : Word)

@[simp] theorem setField_fst :
    (t.setField registers f x).1 = (t.setField registers f x).2 (t.registerOf f) := by
  simp [setField]

theorem setField_snd :
    (t.setField registers f x).2 = update registers (t.registerOf f)
      (insert (registers (t.registerOf f)) (t.maskOf f) x) := rfl

end

theorem getField_unsigned (hf : f ∉ t.signedFields) (registers : Registers) :
    t.getField registers f none =
      extract (registers (t.registerOf f)) (t.maskOf f) := by
  simp [getField, hf]

/-- A field reads as the value that was written, if the value fits. -/
theorem getField_setField (hf : f ∉ t.signedFields) {x : Word}
    (hx : extract (x <<< ffs (t.maskOf f)) (t.maskOf f) = x) :
    t.getField (t.setField registers f x).2 f none = x := by
  rw [getField_unsigned hf, setField_snd, update_self, extract_insert, hx]

/-- A field reads as before after a write of another one, if their bits are different. -/
theorem getField_setField_of_ne (x : Word)
    (hdisjoint : t.registerOf f = t.registerOf g → t.maskOf f &&& t.maskOf g = 0#64) :
    t.getField (t.setField registers f x).2 g none = t.getField registers g none := by
  have hbits : (t.setField registers f x).2 (t.registerOf g) &&& t.maskOf g =
      registers (t.registerOf g) &&& t.maskOf g := by
    rw [setField_snd]
    by_cases hreg : t.registerOf g = t.registerOf f
    · rw [hreg, update_self, insert_and_of_disjoint (hdisjoint hreg.symm)]
    · rw [update_of_ne hreg]
  simp only [getField, extract, Option.getD_none, hbits]

/-! ### Lawful layouts -/

/-- A layout with non-empty fields of neighbouring bits, in registers of 32 bits, that do not
overlap. -/
structure WellFormed (t : FieldTable) : Prop where
  single : ∀ f, (t.allFields.filter fun reg => reg.2.any fun field => field.1 == f).length ≤ 1
  block : ∀ f, (t.lookupRegister f).isSome →
    ∃ k w, 0 < w ∧ k + w ≤ 32 ∧ t.maskOf f = BitField.block 64 k w
  disjoint : ∀ f g, (t.lookupRegister f).isSome → (t.lookupRegister g).isSome → f ≠ g →
    t.registerOf f = t.registerOf g → t.maskOf f &&& t.maskOf g = 0#64

/-- The integer that the bits of a field stand for. -/
def integerOf (signed : Prop) [Decidable signed] (w e : ℕ) : ℤ :=
  if signed ∧ 2 ^ w ≤ 2 * e then e - 2 ^ w else e

/-- An integer that a field can hold. -/
def Holds (t : FieldTable) (f : String) (x : ℤ) : Prop :=
  ∃ k w, t.maskOf f = BitField.block 64 k w ∧ 0 < w ∧ k + w ≤ 32 ∧
    if f ∈ t.signedFields then -2 ^ w ≤ 2 * x ∧ 2 * x < 2 ^ w else 0 ≤ x ∧ x < 2 ^ w

variable {k w : ℕ}

/-- The test for a negative number. -/
theorem slt_block_iff {v : Word} (hk : k + w ≤ 32) :
    (BitField.block 64 k w).slt ((v &&& BitField.block 64 k w) <<< 1) ↔
      2 ^ w ≤ 2 * numberAt v k w := by
  have hlt : numberAt v k w < 2 ^ w := numberAt_lt
  have hbound : 2 ^ w * 2 ^ k ≤ 2 ^ 32 := by
    rw [← Nat.pow_add, Nat.add_comm]
    exact Nat.pow_le_pow_right Nat.two_pos hk
  have hmax := Nat.mul_le_mul_right (2 ^ k) (le_sub_one_of_lt hlt)
  have hall : (2 ^ w - 1) * 2 ^ k ≤ 2 ^ w * 2 ^ k := Nat.mul_le_mul_right _ (sub_le _ _)
  have hassoc := Nat.mul_assoc 2 (numberAt v k w) (2 ^ k)
  have hblock := toNat_block (n := 64) (k := k) (w := w) (by omega)
  have hnum : ((v &&& BitField.block 64 k w) <<< 1).toNat =
      2 * numberAt v k w * 2 ^ k := by
    rw [toNat_shiftLeft, toNat_and_block (by omega), Nat.shiftLeft_eq, mod_eq_of_lt (by omega)]
    omega
  rw [slt_iff_toInt_lt, toInt_eq_toNat_of_lt (by omega), toInt_eq_toNat_of_lt (by omega), hnum,
    hblock, Int.ofNat_lt, Nat.mul_lt_mul_right (Nat.two_pow_pos k)]
  omega

theorem size_eq {e : ℕ} (hw : 0 < w) (hlt : e < 2 ^ w) (hle : 2 ^ w ≤ 2 * e) : e.size = w := by
  obtain ⟨u, rfl⟩ : ∃ u, w = u + 1 := ⟨w - 1, by omega⟩
  have hlow : u < e.size := lt_size.mpr (by omega)
  have hhigh := size_le.mpr hlt
  omega

/-- What is read is the integer of the field. -/
theorem getField_eq (hmask : t.maskOf f = BitField.block 64 k w) (hw : 0 < w) (hk : k + w ≤ 32)
    (registers : Registers) : t.getField registers f none = BitVec.ofInt 64 (integerOf
      (f ∈ t.signedFields) w (numberAt (registers (t.registerOf f)) k w)) := by
  have hlt : numberAt (registers (t.registerOf f)) k w < 2 ^ w := numberAt_lt
  have hsmall : (2 : ℕ) ^ w ≤ 2 ^ 32 := Nat.pow_le_pow_right Nat.two_pos (by omega)
  have hextract : extract (registers (t.registerOf f)) (t.maskOf f) =
      BitVec.ofNat 64 (numberAt (registers (t.registerOf f)) k w) := by
    apply eq_of_toNat_eq
    rw [hmask, toNat_extract_block hw (by omega), toNat_ofNat, mod_eq_of_lt (by omega)]
  simp only [getField, Option.getD_none, integerOf, hextract]
  simp only [hmask, slt_block_iff hk]
  split_ifs with hneg
  · rw [toNat_ofNat, mod_eq_of_lt (by omega), size_eq hw hlt hneg.2, one_shiftLeft]
    show _ = ((_ - _ : ℤ) : Word)
    push_cast
    rfl
  · rw [ofInt_natCast]

theorem numberAt_setField (hmask : t.maskOf f = BitField.block 64 k w) (hw : 0 < w)
    (hk : k + w ≤ 32) (registers : Registers) (x : Word) :
    numberAt ((t.setField registers f x).2 (t.registerOf f)) k w = x.toNat % 2 ^ w := by
  have hbits : insert (registers (t.registerOf f)) (t.maskOf f) x &&& t.maskOf f = _ :=
    insert_and
  have hnum := congrArg BitVec.toNat hbits
  rw [hmask, ffs_block hw (by omega), toNat_and_block (by omega),
    toNat_and_block (by omega), numberAt_shiftLeft (by omega)] at hnum
  rw [setField_snd, update_self, hmask]
  exact eq_of_mul_eq_mul_right (Nat.two_pow_pos k) hnum

theorem toNat_ofInt_mod (hw : w ≤ 64) (x : ℤ) :
    (((BitVec.ofInt 64 x).toNat % 2 ^ w : ℕ) : ℤ) = x % 2 ^ w := by
  have hdvd : (2 : ℤ) ^ w ∣ 2 ^ 64 := pow_dvd_pow 2 hw
  rw [BitVec.toNat_ofInt]
  push_cast
  rw [Int.toNat_of_nonneg (Int.emod_nonneg _ (by decide))]
  exact Int.emod_emod_of_dvd x hdvd

theorem integerOf_emod {signed : Prop} [Decidable signed] {e : ℕ} (he : e < 2 ^ w) :
    integerOf signed w e % 2 ^ w = e := by
  have hlt : (e : ℤ) < 2 ^ w := by exact_mod_cast he
  unfold integerOf
  split_ifs
  · rw [Int.sub_emod_right, Int.emod_eq_of_lt (Int.natCast_nonneg e) hlt]
  · rw [Int.emod_eq_of_lt (Int.natCast_nonneg e) hlt]

theorem integerOf_eq {signed : Prop} [Decidable signed] {e : ℕ} {x : ℤ}
    (hx : if signed then -2 ^ w ≤ 2 * x ∧ 2 * x < 2 ^ w else 0 ≤ x ∧ x < 2 ^ w)
    (he : (e : ℤ) = x % 2 ^ w) : integerOf signed w e = x := by
  have hcast : ((2 ^ w : ℕ) : ℤ) = 2 ^ w := by push_cast; rfl
  unfold integerOf
  by_cases hs : signed
  · rw [if_pos hs] at hx
    simp only [hs, true_and]
    by_cases hneg : x < 0
    · rw [← Int.add_emod_right, Int.emod_eq_of_lt (by omega) (by omega)] at he
      rw [if_pos (by omega), he, add_sub_cancel_right]
    · rw [Int.emod_eq_of_lt (by omega) (by omega)] at he
      rw [if_neg (by omega), he]
  · rw [if_neg hs] at hx
    rw [if_neg fun h => hs h.1, he, Int.emod_eq_of_lt hx.1 hx.2]

/-- The fields of a lawful layout are lenses: a field reads as it was written, other fields are
not touched, to write what was read changes nothing, and writes of different fields commute. -/
theorem field_lens (ht : t.WellFormed) (registers : Registers) (hf : (t.lookupRegister f).isSome) :
    (∀ x, t.Holds f x → t.getField (t.setField registers f (BitVec.ofInt 64 x)).2 f none =
      BitVec.ofInt 64 x) ∧
    (t.setField registers f (t.getField registers f none)).2 = registers ∧
    ∀ g, (t.lookupRegister g).isSome → g ≠ f → ∀ x y,
      t.getField (t.setField registers f x).2 g none = t.getField registers g none ∧
      (t.setField (t.setField registers f x).2 g y).2 =
        (t.setField (t.setField registers g y).2 f x).2 := by
  obtain ⟨k, w, hw, hk, hmask⟩ := ht.block f hf
  refine ⟨?_, ?_, fun g hg hne x y => ?_⟩
  · rintro x ⟨k, w, hmask, hw, hk, hx⟩
    rw [getField_eq hmask hw hk, numberAt_setField hmask hw hk,
      integerOf_eq hx (toNat_ofInt_mod (by omega) x)]
  · rw [setField_snd, getField_eq hmask hw hk, hmask, insert_eq_self hw (by omega), update_eq_self]
    have hmod := toNat_ofInt_mod (show w ≤ 64 by omega) (integerOf (f ∈ t.signedFields) w
      (numberAt (registers (t.registerOf f)) k w))
    rw [integerOf_emod numberAt_lt] at hmod
    exact_mod_cast hmod
  · have hdisjoint := ht.disjoint f g hf hg hne.symm
    refine ⟨getField_setField_of_ne x hdisjoint, ?_⟩
    rw [setField_snd, setField_snd, setField_snd, setField_snd]
    by_cases hreg : t.registerOf g = t.registerOf f
    · rw [hreg, update_self, update_self, update_idem,
        update_idem, insert_comm (hdisjoint hreg.symm)]
    · rw [update_of_ne hreg, update_of_ne (Ne.symm hreg), update_comm (Ne.symm hreg)]

theorem field_lens_sgt : let t : FieldTable :=
      ⟨[("SGCSCONF", [("cs", 0x1f), ("sgt", 0x7f <<< 8)])], ["sgt"]⟩
    t.getField (t.setField (fun _ => 0x1b) "sgt" (BitVec.ofInt 64 (-5))).2 "sgt" none =
      BitVec.ofInt 64 (-5) := by
  intro t
  have hnames : ∀ f, (t.lookupRegister f).isSome → f = "cs" ∨ f = "sgt" := by
    intro f hf
    simp only [t, lookupRegister, Option.isSome_map, List.find?_isSome] at hf
    obtain ⟨reg, hreg, hany⟩ := hf
    cases List.mem_singleton.mp hreg
    simpa [@eq_comm _ f] using hany
  have ht : t.WellFormed := by
    refine ⟨fun f => List.length_filter_le _ _, fun f hf => ?_, fun f g hf hg hne _ => ?_⟩
    · rcases hnames f hf with rfl | rfl
      · exact ⟨0, 5, by decide, by decide, by decide⟩
      · exact ⟨8, 7, by decide, by decide, by decide⟩
    · rcases hnames f hf with rfl | rfl <;> rcases hnames g hg with rfl | rfl
      · exact absurd rfl hne
      · decide
      · decide
      · exact absurd rfl hne
  exact (field_lens ht _ (by decide)).1 (-5) ⟨8, 7, by decide, by decide, by decide, by decide⟩

end FieldTable

end Tmc
