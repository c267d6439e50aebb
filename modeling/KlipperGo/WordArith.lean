/-
Words of 64 bits read as integers.

A counter that only ever grows is kept in an `Int64`, and its low 32 bits are
all that a message carries.  The facts here say, in terms of the integer behind
a word, what joining, masking and comparing such words gives:

* `eq_ofInt` — a word is known by its residue;
* `toNat_joinLow` — the high half of one word joined with the low half of another;
* `ofInt_and_low`, `ofInt_and_high` — the low half, and its highest bit.
-/
import Mathlib.Data.BitVec
import Mathlib.Data.Nat.Bitwise

open BitVec Nat

namespace WordArith

theorem toNat_ofInt (c : ℤ) : ((Int64.ofInt c).toBitVec.toNat : ℤ) = c % 2 ^ 64 := by
  rw [Int64.toBitVec_ofInt, BitVec.toNat_ofInt]
  omega

theorem eq_ofInt {x : Int64} {c : ℤ} (h : (x.toBitVec.toNat : ℤ) = c % 2 ^ 64) :
    x = Int64.ofInt c := by
  have hc := toNat_ofInt c
  apply Int64.toBitVec.inj
  apply eq_of_toNat_eq
  omega

/-- The sign bit is in the high half, so there the signed order is the order of the residues. -/
theorem lt_iff_of_div_eq {x y : Int64} (h : x.toBitVec.toNat / 2 ^ 32 = y.toBitVec.toNat / 2 ^ 32) :
    x < y ↔ x.toBitVec.toNat < y.toBitVec.toNat := by
  have hx : x.toInt = _ := toInt_eq_toNat_cond x.toBitVec
  have hy : y.toInt = _ := toInt_eq_toNat_cond y.toBitVec
  rw [Int64.lt_iff_toInt_lt, hx, hy]
  omega

theorem getElem_not_low : ∀ i : Fin 64, (~~~0xffffffff#64)[i] = decide (32 ≤ i.val) := by
  decide

theorem and_not_low (x : BitVec 64) : x &&& ~~~0xffffffff#64 = (x >>> 32) <<< 32 := by
  ext i hi
  have hmask : (~~~0xffffffff#64)[i] = decide (32 ≤ i) := getElem_not_low ⟨i, hi⟩
  rw [getElem_and, hmask]
  by_cases h : i < 32
  · simp [h]
  · have hsum : 32 + (i - 32) = i := by omega
    have hge : 32 ≤ i := by omega
    simp [h, hi, hsum, hge]

theorem toNat_joinLow (x y : Int64) (hy : y.toBitVec.toNat < 2 ^ 32) :
    ((x &&& ~~~0xffffffff) ||| y).toBitVec.toNat =
      2 ^ 32 * (x.toBitVec.toNat / 2 ^ 32) + y.toBitVec.toNat := by
  have hjoin : ((x &&& ~~~0xffffffff) ||| y).toBitVec =
      (x.toBitVec &&& ~~~0xffffffff#64) ||| y.toBitVec := by simp
  rw [hjoin, and_not_low, toNat_or, toNat_shiftLeft, toNat_ushiftRight, Nat.shiftLeft_eq,
    shiftRight_eq_div_pow, mod_eq_of_lt (by omega), Nat.mul_comm, two_pow_add_eq_or_of_lt hy]

theorem ofInt_and_low (c : ℤ) : Int64.ofInt c &&& 0xffffffff = Int64.ofInt (c % 2 ^ 32) := by
  have hc := toNat_ofInt c
  have hand : (Int64.ofInt c &&& 0xffffffff).toBitVec.toNat =
      (Int64.ofInt c).toBitVec.toNat % 2 ^ 32 := by
    exact and_two_pow_sub_one_eq_mod _ 32
  apply eq_ofInt
  omega

theorem ofInt_and_high {d : ℤ} (hpos : 0 ≤ d) (hlt : d < 2 ^ 32) :
    Int64.ofInt d &&& 0x80000000 = 0x80000000 ↔ 2 ^ 31 ≤ d := by
  have hd := toNat_ofInt d
  have hhigh : (0x80000000 : Int64).toBitVec.toNat = 2 ^ 31 := by decide
  rw [← Int64.toBitVec_inj, ← toNat_inj, Int64.toBitVec_and, toNat_and, hhigh, and_two_pow]
  by_cases h : 2 ^ 31 ≤ d
  · have hbit : (Int64.ofInt d).toBitVec.toNat.testBit 31 = true :=
      testBit_of_two_pow_le_and_two_pow_add_one_gt (by omega) (by omega)
    rw [hbit]
    exact iff_of_true rfl h
  · have hbit : (Int64.ofInt d).toBitVec.toNat.testBit 31 = false :=
      testBit_lt_two_pow (by omega)
    rw [hbit]
    exact iff_of_false (by decide) h

end WordArith
