/-
The CRC-16 of CCITT, computed a byte at a time without a table.

The update is linear in exclusive or: two runs whose inputs differ keep a
difference that depends on the differing bits only.  An error is a number whose
bits, least significant first, say which bits of the message are flipped.

* `update_xor` — the difference of two remainders after one byte each;
* `diff_eq_zero` — an error byte clears a difference only if it is that difference.
-/
import Mathlib.Data.Nat.Bitwise
import Mathlib.Tactic.Ring

open Nat

namespace Crc16

variable (a n crc error b : ℕ) (bs : List ℕ)

/-- The remainder after one more byte. -/
def update (data : ℕ) : ℕ :=
  let data := data ^^^ (crc &&& 0xff)
  let data := data ^^^ ((data &&& 0x0f) <<< 4)
  ((data <<< 8) ||| (crc >>> 8)) ^^^ (data >>> 4) ^^^ (data <<< 3)

/-- The remainder after a list of bytes. -/
def run (buf : List ℕ) : ℕ := buf.foldl update crc

/-- A message with the bits of `error` flipped. -/
def flipBits : ℕ → List ℕ → List ℕ
  | _, [] => []
  | error, b :: bs => (b ^^^ error % 256) :: flipBits (error / 256) bs

@[simp] theorem run_nil : run crc [] = crc := rfl

@[simp] theorem run_cons :
    run crc (b :: bs) = run (update crc b) bs := rfl

@[simp] theorem length_flipBits : (flipBits error bs).length = bs.length := by
  induction bs generalizing error with
  | nil => rfl
  | cons b bs ih => simp [flipBits, ih]

theorem flipBits_zero : flipBits 0 bs = bs := by
  induction bs with
  | nil => rfl
  | cons b bs ih => simp [flipBits, ih]

theorem div_lt_of_lt {error n : ℕ} (h : error < 2 ^ (8 * (n + 1))) : error / 256 < 2 ^ (8 * n) := by
  rw [mul_succ, pow_add] at h
  exact Nat.div_lt_of_lt_mul (by omega)

variable {bs : List ℕ}

/-- An error within the first part of a message leaves the rest. -/
theorem flipBits_append {error : ℕ} (h : error < 2 ^ (8 * bs.length)) (cs : List ℕ) :
    flipBits error (bs ++ cs) = flipBits error bs ++ cs := by
  induction bs generalizing error with
  | nil =>
    obtain rfl : error = 0 := by simpa using h
    exact flipBits_zero cs
  | cons b bs ih =>
    have hrest := div_lt_of_lt h
    simp [flipBits, ih hrest]

/-! ### Linearity -/

/-- What the update makes of the byte it looks up, the other byte of the remainder apart. -/
def spread (d : ℕ) : ℕ :=
  let d := d ^^^ ((d &&& 0x0f) <<< 4)
  (d <<< 8) ^^^ (d >>> 4) ^^^ (d <<< 3)

/-- The difference between two remainders after a byte that differs by `e`. -/
def diff (δ e : ℕ) : ℕ := spread (e ^^^ (δ &&& 0xff)) ^^^ (δ >>> 8)

theorem spread_xor : spread (a ^^^ b) = spread a ^^^ spread b := by
  simp only [spread, and_xor_distrib_right, shiftLeft_xor_distrib, shiftRight_xor_distrib]
  ac_rfl

theorem shiftLeft_or_eq_xor {b : ℕ} (h : b < 2 ^ 8) : a <<< 8 ||| b = a <<< 8 ^^^ b := by
  refine eq_of_testBit_eq fun i => ?_
  rw [testBit_or, testBit_xor, testBit_shiftLeft]
  by_cases hi : 8 ≤ i
  · rw [testBit_lt_two_pow (h.trans_le (Nat.pow_le_pow_right two_pos hi))]
    simp
  · simp [hi]

theorem update_eq {crc : ℕ} (h : crc < 2 ^ 16) (data : ℕ) :
    update crc data = spread (data ^^^ (crc &&& 0xff)) ^^^ (crc >>> 8) := by
  have hhigh : crc >>> 8 < 2 ^ 8 := by
    omega
  simp only [update, spread, shiftLeft_or_eq_xor _ hhigh]
  ac_rfl

theorem update_xor {c c' : ℕ} (hc : c < 2 ^ 16) (hc' : c' < 2 ^ 16) (b e : ℕ) :
    update c (b ^^^ e) ^^^ update c' b = diff (c ^^^ c') e := by
  rw [update_eq hc, update_eq hc', diff, and_xor_distrib_right, shiftRight_xor_distrib]
  simp only [spread_xor]
  have hcancel : spread b ^^^ spread b = 0 := Nat.xor_self _
  calc spread b ^^^ spread e ^^^ spread (c &&& 255) ^^^ c >>> 8 ^^^
        (spread b ^^^ spread (c' &&& 255) ^^^ c' >>> 8)
      = (spread b ^^^ spread b) ^^^ (spread e ^^^ (spread (c &&& 255) ^^^ spread (c' &&& 255)) ^^^
          (c >>> 8 ^^^ c' >>> 8)) := by ac_rfl
    _ = _ := by rw [hcancel, Nat.zero_xor]

/-! ### Remainders fit in sixteen bits -/

theorem spread_lt : ∀ d < 2 ^ 8, spread d < 2 ^ 16 := by decide +kernel

/-- The high byte of a spread byte is zero for no other byte than zero. -/
theorem spread_eq_zero : ∀ d < 2 ^ 8, spread d < 2 ^ 8 → d = 0 := by decide +kernel

theorem and_255 : n &&& 0xff = n % 256 := and_two_pow_sub_one_eq_mod n 8

theorem and_255_lt : n &&& 0xff < 2 ^ 8 := and_lt_two_pow n (by decide)

theorem shiftRight_lt {n : ℕ} (h : n < 2 ^ 16) : n >>> 8 < 2 ^ 8 := by
  omega

theorem update_lt {crc data : ℕ} (hc : crc < 2 ^ 16) (hd : data < 2 ^ 8) :
    update crc data < 2 ^ 16 := by
  rw [update_eq hc]
  refine xor_lt_two_pow (spread_lt _ (xor_lt_two_pow hd (and_255_lt crc))) ?_
  exact (shiftRight_lt hc).trans (by decide)

theorem diff_lt {δ e : ℕ} (hδ : δ < 2 ^ 16) (he : e < 2 ^ 8) : diff δ e < 2 ^ 16 := by
  refine xor_lt_two_pow (spread_lt _ (xor_lt_two_pow he (and_255_lt δ))) ?_
  exact (shiftRight_lt hδ).trans (by decide)

/-! ### Errors that cancel -/

/-- When a difference is small after a byte, that byte cancelled the low byte of the difference
before, and what is left is the high byte. -/
theorem of_diff_lt {δ e : ℕ} (hδ : δ < 2 ^ 16) (he : e < 2 ^ 8) (h : diff δ e < 2 ^ 8) :
    e = δ % 256 ∧ diff δ e = δ / 256 := by
  have hx : e ^^^ (δ &&& 0xff) < 2 ^ 8 := xor_lt_two_pow he (and_255_lt δ)
  have hspread : spread (e ^^^ (δ &&& 0xff)) < 2 ^ 8 := by
    have hback : spread (e ^^^ (δ &&& 0xff)) = diff δ e ^^^ (δ >>> 8) := by
      rw [diff, Nat.xor_assoc, Nat.xor_self, xor_zero]
    rw [hback]
    exact xor_lt_two_pow h (shiftRight_lt hδ)
  have hzero := spread_eq_zero _ hx hspread
  constructor
  · rw [← and_255]
    exact Nat.xor_eq_zero_iff.mp hzero
  · rw [diff, hzero, shiftRight_eq_div_pow]
    exact Nat.zero_xor _

theorem diff_eq_zero {δ e : ℕ} (hδ : δ < 2 ^ 16) (he : e < 2 ^ 8) : diff δ e = 0 ↔ δ = e := by
  constructor
  · intro h
    obtain ⟨hlow, hhigh⟩ := of_diff_lt hδ he (by rw [h]; decide)
    omega
  · rintro rfl
    have hlow : δ &&& 0xff = δ := (and_255 δ).trans (mod_eq_of_lt he)
    rw [diff, hlow, Nat.xor_self, shiftRight_eq_div_pow, div_eq_of_lt he]
    rfl

/-- The difference an error leaves after `n` bytes. -/
def diffRun : ℕ → ℕ → ℕ → ℕ
  | δ, _, 0 => δ
  | δ, error, n + 1 => diffRun (diff δ (error % 256)) (error / 256) n

theorem run_xor {c c' : ℕ} (hc : c < 2 ^ 16) (hc' : c' < 2 ^ 16) (hbs : ∀ b ∈ bs, b < 2 ^ 8) :
    run c (flipBits error bs) ^^^ run c' bs = diffRun (c ^^^ c') error bs.length := by
  induction bs generalizing c c' error with
  | nil => rfl
  | cons b bs ih =>
    have hb : b < 2 ^ 8 := hbs b (by simp)
    have he : error % 256 < 2 ^ 8 := mod_lt _ (by decide)
    have hrec := ih (error / 256) (update_lt hc (xor_lt_two_pow hb he))
      (update_lt hc' hb) fun x hx => hbs x (by simp [hx])
    rw [update_xor hc hc'] at hrec
    exact hrec

/-- Bytes without error keep a difference alive. -/
theorem diffRun_zero {δ : ℕ} (hδ : δ < 2 ^ 16) (n : ℕ) : diffRun δ 0 n = 0 ↔ δ = 0 := by
  induction n generalizing δ with
  | zero => exact Iff.rfl
  | succ n ih =>
    have hstep : diffRun δ 0 (n + 1) = diffRun (diff δ 0) 0 n := rfl
    rw [hstep, ih (diff_lt hδ (by decide)), diff_eq_zero hδ (by decide)]

/-- Past the end of the error, the number of bytes does not matter. -/
theorem diffRun_add {δ error n : ℕ} (hδ : δ < 2 ^ 16) (h : error < 2 ^ (8 * n)) (k : ℕ) :
    diffRun δ error (n + k) = 0 ↔ diffRun δ error n = 0 := by
  induction n generalizing δ error with
  | zero =>
    obtain rfl : error = 0 := by simpa using h
    rw [Nat.zero_add]
    exact diffRun_zero hδ k
  | succ n ih =>
    rw [succ_add]
    exact ih (diff_lt hδ (mod_lt _ (by decide))) (div_lt_of_lt h)

/-- A byte whose lowest `p` bits are clear spreads to at least `2 ^ p` in the high byte. -/
theorem le_spread_div : ∀ p < 8, ∀ d < 2 ^ 8, d ≠ 0 → d % 2 ^ p = 0 → 2 ^ p ≤ spread d / 256 := by
  decide +kernel

/-- Three bytes hold a burst that starts in the first of them, and it leaves a difference. -/
theorem diffRun_burst {w p : ℕ} (hw : 0 < w) (hw16 : w < 2 ^ 16) (hp : p < 8) :
    diffRun 0 (w * 2 ^ p) 3 ≠ 0 := by
  obtain ⟨error, herror⟩ : ∃ error, error = w * 2 ^ p := ⟨_, rfl⟩
  rw [← herror]
  have hlt : error < 2 ^ p * 2 ^ 16 := by
    rw [herror, Nat.mul_comm]
    exact Nat.mul_lt_mul_of_pos_left hw16 (Nat.two_pow_pos p)
  have hp8 : 2 ^ p ≤ 2 ^ 7 := Nat.pow_le_pow_right two_pos (by omega)
  have hpos : 0 < error := by
    rw [herror]
    exact Nat.mul_pos hw (Nat.two_pow_pos p)
  have h0 : error % 256 < 2 ^ 8 := mod_lt _ (by decide)
  have h1 : error / 256 % 256 < 2 ^ 8 := mod_lt _ (by decide)
  have h2 : error / 256 / 256 % 256 < 2 ^ 8 := mod_lt _ (by decide)
  have hd1 : diff 0 (error % 256) < 2 ^ 16 := diff_lt (by decide) h0
  intro hzero
  -- the third byte would have to be the difference the second leaves
  have hthird := (diff_eq_zero (diff_lt hd1 h1) h2).mp hzero
  obtain ⟨hlow, hhigh⟩ := of_diff_lt hd1 h1 (by rw [hthird]; exact h2)
  rw [hthird] at hhigh
  have hspread : diff 0 (error % 256) = spread (error % 256) := by
    simp [diff]
  rw [hspread] at hlow hhigh
  by_cases hfirst : error % 256 = 0
  · -- without a first byte nothing is left of the other two
    rw [hfirst] at hlow hhigh
    have hspread0 : spread 0 = 0 := rfl
    omega
  · have hclear : error % 256 % 2 ^ p = 0 := by
      have hdvd : 2 ^ p ∣ 256 := pow_dvd_pow 2 hp.le
      rw [mod_mod_of_dvd _ hdvd, herror, mul_mod_left]
    have hle := le_spread_div p hp _ h0 hfirst hclear
    omega

/-- An error within sixteen consecutive bits changes the remainder. -/
theorem run_flipBits_ne {crc w p : ℕ} (hc : crc < 2 ^ 16) (hbs : ∀ b ∈ bs, b < 2 ^ 8) (hw : 0 < w)
    (hw16 : w < 2 ^ 16) (hfit : w * 2 ^ p < 2 ^ (8 * bs.length)) :
    run crc (flipBits (w * 2 ^ p) bs) ≠ run crc bs := by
  induction bs generalizing crc p with
  | nil =>
    have hpos := Nat.mul_pos hw (Nat.two_pow_pos p)
    simp only [List.length_nil, mul_zero, pow_zero] at hfit
    omega
  | cons b bs ih =>
    by_cases hp : p < 8
    · intro heq
      have hdiff := run_xor (w * 2 ^ p) hc hc hbs
      rw [heq, Nat.xor_self, Nat.xor_self] at hdiff
      -- both the message and three bytes reach past the end of the error
      have hthree : w * 2 ^ p < 2 ^ (8 * 3) := by
        have hp8 : 2 ^ p ≤ 2 ^ 7 := Nat.pow_le_pow_right two_pos (by omega)
        calc w * 2 ^ p < 2 ^ 16 * 2 ^ 7 :=
              Nat.mul_lt_mul_of_lt_of_le hw16 hp8 (Nat.two_pow_pos 7)
          _ ≤ 2 ^ (8 * 3) := by decide
      have hlong := (diffRun_add (by decide) hfit 3).mpr hdiff.symm
      rw [Nat.add_comm] at hlong
      exact diffRun_burst hw hw16 hp ((diffRun_add (by decide) hthree _).mp hlong)
    · -- the first byte is as it was
      obtain ⟨q, rfl⟩ : ∃ q, p = q + 8 := ⟨p - 8, by omega⟩
      have hshift : w * 2 ^ (q + 8) = 256 * (w * 2 ^ q) := by
        ring
      have hfirst : flipBits (w * 2 ^ (q + 8)) (b :: bs) = b :: flipBits (w * 2 ^ q) bs := by
        rw [hshift, flipBits, mul_mod_right, xor_zero, Nat.mul_div_cancel_left _ (by decide)]
      rw [hfirst, run_cons, run_cons]
      refine ih (update_lt hc (hbs b (by simp))) (fun x hx => hbs x (by simp [hx])) ?_
      have hrest := div_lt_of_lt hfit
      rwa [hshift, Nat.mul_div_cancel_left _ (by decide)] at hrest

end Crc16
