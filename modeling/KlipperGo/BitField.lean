/-
Fields packed into a machine word.

A field is given by the mask of its bits.  It is read by masking the word and shifting
the lowest bit of the mask down, and written by replacing the masked bits.
-/
import Mathlib.Data.BitVec

open List BitVec

namespace BitField

variable {n : ℕ}

/-- The position of the lowest bit of a mask, or `n` if there is none. -/
def ffs (mask : BitVec n) : ℕ := ((range n).find? mask.getLsbD).getD n

/-- The field of a word, with the shift of a signed integer. -/
def extract (v mask : BitVec n) : BitVec n := (v &&& mask).sshiftRight (ffs mask)

/-- The word with the field replaced. -/
def insert (v mask x : BitVec n) : BitVec n := (v &&& ~~~mask) ||| ((x <<< ffs mask) &&& mask)

variable {v u mask other x : BitVec n}

theorem ffs_le {i : ℕ} (h : mask.getLsbD i = true) : ffs mask ≤ i := by
  unfold ffs
  cases hfind : (range n).find? mask.getLsbD with
  | none =>
    have hi : i ∈ range n := mem_range.mpr (lt_of_getLsbD h)
    exact absurd h (find?_eq_none.mp hfind i hi)
  | some k =>
    -- the first position that is set is not after `i`
    obtain ⟨-, -, hfirst⟩ := find?_range_eq_some.mp hfind
    by_contra hlt
    have hi := hfirst i (Nat.not_le.mp hlt)
    rw [h] at hi
    cases hi

theorem getLsbD_insert (i : ℕ) : (insert v mask x).getLsbD i =
      if mask.getLsbD i then (x <<< ffs mask).getLsbD i else v.getLsbD i := by
  by_cases hi : i < n
  · unfold insert
    rw [getLsbD_or, getLsbD_and, getLsbD_and, getLsbD_not]
    cases mask.getLsbD i <;> simp only [hi] <;> simp
  · simp [getLsbD_of_ge _ i (Nat.not_lt.mp hi)]

/-- To write what was read from a word makes the bits of the field those of that word. -/
theorem getLsbD_insert_extract (i : ℕ) : (insert u mask (extract v mask)).getLsbD i =
      if mask.getLsbD i then v.getLsbD i else u.getLsbD i := by
  rw [getLsbD_insert]
  split_ifs with hm
  · have hle := ffs_le hm
    have hlt := lt_of_getLsbD hm
    have hback : ffs mask + (i - ffs mask) = i := by omega
    have hnot : ¬ i < ffs mask := by omega
    have hin : ¬ n ≤ i - ffs mask := by omega
    rw [getLsbD_shiftLeft, extract, getLsbD_sshiftRight, hback, if_pos hlt, getLsbD_and, hm]
    simp only [hlt, hnot, hin]
    simp
  · rfl

/-- A write leaves the bits outside the mask. -/
theorem insert_and_of_disjoint (h : mask &&& other = 0#n) :
    insert v mask x &&& other = v &&& other := by
  apply eq_of_getLsbD_eq
  intro i _
  have hbit : (mask.getLsbD i && other.getLsbD i) = false := by
    rw [← getLsbD_and, h, getLsbD_zero]
  rw [getLsbD_and, getLsbD_and, getLsbD_insert]
  cases hm : mask.getLsbD i <;> simp_all

theorem insert_and : insert v mask x &&& mask = x <<< ffs mask &&& mask := by
  apply eq_of_getLsbD_eq
  intro i _
  rw [getLsbD_and, getLsbD_and, getLsbD_insert]
  cases mask.getLsbD i <;> simp

/-- What is read after a write depends on the written value only. -/
theorem extract_insert : extract (insert v mask x) mask = extract (x <<< ffs mask) mask := by
  rw [extract, insert_and, extract]

/-- A write makes a word the value of a field at its low end just if no bit outside the
field is set. -/
theorem insert_eq_iff {y : BitVec n} (hx : x <<< ffs mask &&& mask = x) (hy : y &&& mask = y) :
    insert v mask x = y ↔ v &&& ~~~mask = 0#n ∧ x = y := by
  constructor
  · intro h
    have hout : insert v mask x &&& ~~~mask = v &&& ~~~mask :=
      insert_and_of_disjoint (BitVec.and_not_self mask)
    have hin : insert v mask x &&& mask = x := insert_and.trans hx
    constructor
    · rw [← hout, h, ← hy, BitVec.and_assoc, BitVec.and_not_self]
      exact and_zero
    · rw [← hin, h, hy]
  · rintro ⟨hv, rfl⟩
    rw [insert, hv, hx, zero_or]

theorem extract_congr (h : v &&& mask = u &&& mask) : extract v mask = extract u mask := by
  rw [extract, h, extract]

/-! ### Fields of neighbouring bits -/

/-- The mask of the `w` bits from `k` on. -/
def block (n k w : ℕ) : BitVec n := BitVec.ofNat n (2 ^ w - 1) <<< k

variable {k w i : ℕ}

theorem getLsbD_block (hi : i < n) : (block n k w).getLsbD i = decide (k ≤ i ∧ i < k + w) := by
  unfold block
  rw [getLsbD_shiftLeft, getLsbD_ofNat, Nat.testBit_two_pow_sub_one]
  by_cases hk : k ≤ i
  · have hin : i - k < n := by omega
    have hw : i - k < w ↔ i < k + w := by omega
    simp [hi, hk, hin, hw]
  · simp [hk, Nat.not_le.mp hk]

theorem ffs_block (hw : 0 < w) (hk : k < n) : ffs (block n k w) = k := by
  have hfind : (range n).find? (block n k w).getLsbD = some k := by
    refine find?_range_eq_some.mpr ⟨?_, mem_range.mpr hk, ?_⟩
    · rw [getLsbD_block hk]
      exact decide_eq_true ⟨le_refl k, by omega⟩
    · intro j hj
      rw [getLsbD_block (by omega), decide_eq_false (by omega)]
      rfl
  rw [ffs, hfind]
  rfl

theorem toNat_block (hk : k + w ≤ n) : (block n k w).toNat = (2 ^ w - 1) * 2 ^ k := by
  have hpos := Nat.two_pow_pos w
  have hle : (2 ^ w - 1) * 2 ^ k < 2 ^ n := calc
    (2 ^ w - 1) * 2 ^ k < 2 ^ w * 2 ^ k :=
      Nat.mul_lt_mul_of_pos_right (by omega) (Nat.two_pow_pos k)
    _ = 2 ^ (k + w) := by rw [← Nat.pow_add, Nat.add_comm]
    _ ≤ 2 ^ n := Nat.pow_le_pow_right Nat.two_pos hk
  have hw : 2 ^ w - 1 < 2 ^ n := (Nat.le_mul_of_pos_right _ (Nat.two_pow_pos k)).trans_lt hle
  rw [block, toNat_shiftLeft, toNat_ofNat, Nat.mod_eq_of_lt hw, Nat.shiftLeft_eq,
    Nat.mod_eq_of_lt hle]

/-- The number in a field of neighbouring bits. -/
def numberAt (v : BitVec n) (k w : ℕ) : ℕ := v.toNat / 2 ^ k % 2 ^ w

theorem numberAt_lt : numberAt v k w < 2 ^ w := Nat.mod_lt _ (Nat.two_pow_pos w)

theorem toNat_and_block (hk : k + w ≤ n) : (v &&& block n k w).toNat = numberAt v k w * 2 ^ k := by
  apply Nat.eq_of_testBit_eq
  intro i
  rw [toNat_and, toNat_block hk, numberAt, Nat.testBit_and, Nat.testBit_mul_two_pow,
    Nat.testBit_mul_two_pow, Nat.testBit_two_pow_sub_one, Nat.testBit_mod_two_pow,
    Nat.testBit_div_two_pow]
  by_cases hki : k ≤ i
  · simp [hki, Bool.and_comm]
  · simp [hki]

theorem numberAt_shiftLeft (hk : k + w ≤ n) : numberAt (x <<< k) k w = x.toNat % 2 ^ w := by
  have hn : 2 ^ n = 2 ^ (n - k) * 2 ^ k := by rw [← Nat.pow_add, Nat.sub_add_cancel (by omega)]
  rw [numberAt, toNat_shiftLeft, Nat.shiftLeft_eq, hn, Nat.mul_mod_mul_right,
    Nat.mul_div_cancel _ (Nat.two_pow_pos k), Nat.mod_mod_of_dvd _ (Nat.pow_dvd_pow 2 (by omega))]

/-- The field is read as its number, if it leaves the sign bit out. -/
theorem toNat_extract_block (hw : 0 < w) (hk : k + w < n) :
    (extract v (block n k w)).toNat = numberAt v k w := by
  have hmsb : (v &&& block n k w).msb = false := by
    rw [msb_and, msb_eq_getLsbD_last (block n k w), getLsbD_block (by omega),
      decide_eq_false (by omega), Bool.and_false]
  rw [extract, ffs_block hw (by omega), sshiftRight_eq_of_msb_false hmsb, toNat_ushiftRight,
    toNat_and_block hk.le, Nat.shiftRight_eq_div_pow, Nat.mul_div_cancel _ (Nat.two_pow_pos k)]

/-- A number that fits at the low end of the word is not changed by the mask. -/
theorem and_block_zero (hw : w ≤ n) (hx : x.toNat < 2 ^ w) : x &&& block n 0 w = x := by
  apply eq_of_toNat_eq
  rw [toNat_and_block (by omega), numberAt, Nat.pow_zero, Nat.div_one, Nat.mul_one,
    Nat.mod_eq_of_lt hx]

/-- A number that fits is read as it was written. -/
theorem extract_block (hw : 0 < w) (hk : k + w < n) (hx : x.toNat < 2 ^ w) :
    extract (x <<< ffs (block n k w)) (block n k w) = x := by
  apply eq_of_toNat_eq
  rw [toNat_extract_block hw hk, ffs_block hw (by omega), numberAt_shiftLeft hk.le,
    Nat.mod_eq_of_lt hx]

/-- A write of a number with the bits of the field changes nothing. -/
theorem insert_eq_self (hw : 0 < w) (hk : k + w < n) (hx : x.toNat % 2 ^ w = numberAt v k w) :
    insert v (block n k w) x = v := by
  have hsame : x <<< k &&& block n k w = v &&& block n k w := by
    apply eq_of_toNat_eq
    rw [toNat_and_block hk.le, toNat_and_block hk.le, numberAt_shiftLeft hk.le, hx]
  apply eq_of_getLsbD_eq
  intro i _
  have hbit := congrArg (fun y => BitVec.getLsbD y i) hsame
  rw [getLsbD_and, getLsbD_and] at hbit
  rw [getLsbD_insert, ffs_block hw (by omega)]
  split_ifs with hm
  · rwa [hm, Bool.and_true, Bool.and_true] at hbit
  · rfl

/-- Writes of fields that do not overlap can be exchanged. -/
theorem insert_comm (h : mask &&& other = 0#n) (y : BitVec n) :
    insert (insert v mask x) other y = insert (insert v other y) mask x := by
  apply eq_of_getLsbD_eq
  intro i _
  have hbit : (mask.getLsbD i && other.getLsbD i) = false := by
    rw [← getLsbD_and, h, getLsbD_zero]
  simp only [getLsbD_insert]
  split_ifs with hother hmask hmask
  · rw [hother, hmask] at hbit
    cases hbit
  · rfl
  · rfl
  · rfl

end BitField
