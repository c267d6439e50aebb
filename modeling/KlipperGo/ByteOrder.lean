/-
Words of sixteen bits as bytes, the way the `encoding/binary` package lays them out.

* `join_split` — the two bytes of a word, put together again;
* `uint16At_append` — a word put behind a list of bytes is read back there;
* `uint16LE_slice` — reading through a slice, where the slice is within the list.
-/
import KlipperGo.GoRuntime
import Mathlib.Data.Nat.Bitwise

open GoRuntime List

namespace ByteOrder

variable (v : UInt16)

/-- `binary.LittleEndian.PutUint16`. -/
def putUint16LE : List UInt8 := [v.toUInt8, (v >>> 8).toUInt8]

/-- `binary.BigEndian.PutUint16`. -/
def putUint16BE : List UInt8 := [(v >>> 8).toUInt8, v.toUInt8]

/-- A word from its low and its high byte. -/
def join (low high : UInt8) : UInt16 := low.toUInt16 ||| high.toUInt16 <<< 8

/-- `binary.LittleEndian.Uint16`. -/
def uint16LE (b : List UInt8) : Except Panic UInt16 := do
  let b1 ← index b 1
  let b0 ← index b 0
  return join b0 b1

/-- The word at an offset, the low byte first. -/
def uint16At (data : List UInt8) (n : ℕ) : UInt16 := join (data.getD n 0) (data.getD (n + 1) 0)

@[simp] theorem length_putUint16LE : (putUint16LE v).length = 2 := rfl

@[simp] theorem length_putUint16BE : (putUint16BE v).length = 2 := rfl

theorem join_split : join v.toUInt8 (v >>> 8).toUInt8 = v := by
  have hv := v.toNat_lt
  have hlow : v.toNat % 2 ^ 8 < 2 ^ 8 := Nat.mod_lt _ (by decide)
  apply UInt16.toNat.inj
  simp only [join, UInt16.toNat_or, UInt16.toNat_shiftLeft, UInt8.toNat_toUInt16,
    UInt16.toNat_toUInt8, UInt16.toNat_shiftRight, UInt16.reduceToNat, Nat.reduceMod]
  rw [Nat.lor_comm, Nat.shiftRight_eq_div_pow,
    Nat.mod_eq_of_lt (a := (v.toNat / 2 ^ 8 % 2 ^ 8) <<< 8), ← Nat.shiftLeft_add_eq_or_of_lt hlow]
  · omega
  · omega

theorem uint16At_append (data tail : List UInt8) (v : UInt16) :
    uint16At (data ++ putUint16LE v ++ tail) data.length = v := by
  have h0 : (data ++ putUint16LE v ++ tail).getD data.length 0 = v.toUInt8 := by
    rw [append_assoc, getD_append_right _ _ _ _ (Nat.le_refl _), Nat.sub_self]
    rfl
  have h1 : (data ++ putUint16LE v ++ tail).getD (data.length + 1) 0 = (v >>> 8).toUInt8 := by
    rw [append_assoc, getD_append_right _ _ _ _ (Nat.le_add_right _ 1), Nat.add_sub_cancel_left]
    rfl
  rw [uint16At, h0, h1]
  exact join_split v

theorem uint16LE_slice {data : List UInt8} {n : ℕ} (h : n + 2 ≤ data.length) :
    (slice data n (n + 2) >>= uint16LE) = .ok (uint16At data n) := by
  have hpair : (data.take (n + 2)).drop n = [data.getD n 0, data.getD (n + 1) 0] := by
    rw [drop_take, show n + 2 - n = 2 by omega, drop_eq_getElem_cons (by omega),
      drop_eq_getElem_cons (by omega), getD_eq_getElem _ _ (by omega),
      getD_eq_getElem _ _ (by omega)]
    rfl
  rw [slice_of_le (by omega) h]
  rw [hpair]
  rfl

end ByteOrder
