/-
A CRC-8 computed a bit at a time, and codes that detect three flipped bits.

The remainder is shifted to the left, the bits of a byte come in from the lowest to
the highest, and the polynomial is `x^8 + x^2 + x + 1`.  The update is linear in
exclusive or.

A check is an additive function on bit patterns that vanishes on the difference of any
two code words.  If it takes single bits to distinct values of odd parity, no two code
words differ in one, two or three bits (`check_flips_ne`): one value is odd, two are
distinct, and three are odd again.
-/
import Mathlib.Data.Nat.Bitwise

open List Nat

namespace Crc8

/-! ### The remainder -/

variable (crc b bit : ℕ)

/-- The remainder after one more bit. -/
def shiftIn : ℕ :=
  (if crc >>> 7 ^^^ bit ≠ 0 then crc <<< 1 ^^^ 0x07 else crc <<< 1) &&& 0xff

/-- The remainder after the lowest `n` bits of `b`. -/
def shiftInBits : ℕ → ℕ → ℕ → ℕ
  | 0, crc, _ => crc
  | n + 1, crc, b => shiftInBits n (shiftIn crc (b &&& 0x01)) (b >>> 1)

/-- The remainder after a list of bytes. -/
def run (data : List ℕ) : ℕ := data.foldl (shiftInBits 8) crc

@[simp] theorem run_nil : run crc [] = crc := rfl

@[simp] theorem run_cons (bs : List ℕ) :
    run crc (b :: bs) = run (shiftInBits 8 crc b) bs := rfl

theorem shiftIn_lt : shiftIn crc bit < 2 ^ 8 := and_lt_two_pow _ (by decide)

theorem shiftInBits_lt {crc : ℕ} (h : crc < 2 ^ 8) (n b : ℕ) : shiftInBits n crc b < 2 ^ 8 := by
  induction n generalizing crc b with
  | zero => exact h
  | succ n ih => exact ih (shiftIn_lt _ _) _

theorem run_lt {crc : ℕ} (h : crc < 2 ^ 8) (data : List ℕ) : run crc data < 2 ^ 8 := by
  induction data generalizing crc with
  | nil => exact h
  | cons b bs ih => exact ih (shiftInBits_lt h 8 b)

/-! ### Linearity -/

/-- The bit that leaves the remainder decides whether the polynomial is added. -/
theorem shiftIn_eq : ∀ crc < 2 ^ 8, ∀ bit < 2,
    shiftIn crc bit = (crc <<< 1 &&& 0xff) ^^^ 7 * (crc >>> 7 ^^^ bit) := by
  decide +kernel

theorem shiftIn_xor {c c' b b' : ℕ} (hc : c < 2 ^ 8) (hc' : c' < 2 ^ 8) (hb : b < 2)
    (hb' : b' < 2) : shiftIn (c ^^^ c') (b ^^^ b') = shiftIn c b ^^^ shiftIn c' b' := by
  have hseven : ∀ x < 2, ∀ y < 2, 7 * (x ^^^ y) = 7 * x ^^^ 7 * y := by decide
  have htop : ∀ {x y : ℕ}, x < 2 ^ 8 → y < 2 → x >>> 7 ^^^ y < 2 := by
    intro x y hx hy
    have hx' : x >>> 7 < 2 ^ 1 := by
      omega
    exact xor_lt_two_pow hx' hy
  have hbits : b ^^^ b' < 2 := xor_lt_two_pow (n := 1) hb hb'
  have hsplit : (c ^^^ c') >>> 7 ^^^ (b ^^^ b') = (c >>> 7 ^^^ b) ^^^ (c' >>> 7 ^^^ b') := by
    rw [shiftRight_xor_distrib]
    ac_rfl
  rw [shiftIn_eq _ (xor_lt_two_pow hc hc') _ hbits, shiftIn_eq _ hc _ hb, shiftIn_eq _ hc' _ hb',
    hsplit, hseven _ (htop hc hb) _ (htop hc' hb'), shiftLeft_xor_distrib, and_xor_distrib_right]
  ac_rfl

theorem and_one_lt : b &&& 0x01 < 2 := and_lt_two_pow (n := 1) b (by decide)

theorem shiftInBits_xor {c c' : ℕ} (hc : c < 2 ^ 8) (hc' : c' < 2 ^ 8) (n b b' : ℕ) :
    shiftInBits n (c ^^^ c') (b ^^^ b') = shiftInBits n c b ^^^ shiftInBits n c' b' := by
  induction n generalizing c c' b b' with
  | zero => rfl
  | succ n ih =>
    have hstep := ih (shiftIn_lt c (b &&& 0x01)) (shiftIn_lt c' (b' &&& 0x01)) (b >>> 1) (b' >>> 1)
    rw [← shiftIn_xor hc hc' (and_one_lt b) (and_one_lt b'), ← and_xor_distrib_right,
      ← shiftRight_xor_distrib] at hstep
    exact hstep

/-- The remainder of a difference is the difference of the remainders. -/
theorem run_xor {c c' : ℕ} (hc : c < 2 ^ 8) (hc' : c' < 2 ^ 8) {bs bs' : List ℕ}
    (hlen : bs.length = bs'.length) :
    run (c ^^^ c') (List.zipWith (· ^^^ ·) bs bs') = run c bs ^^^ run c' bs' := by
  induction bs generalizing c c' bs' with
  | nil =>
    obtain rfl : bs' = [] := length_eq_zero_iff.mp hlen.symm
    rfl
  | cons b bs ih =>
    obtain ⟨b', bs', rfl⟩ := exists_cons_of_length_pos (l := bs') (by simp [← hlen])
    have hrest := ih (shiftInBits_lt hc 8 b) (shiftInBits_lt hc' 8 b') (Nat.succ.inj hlen)
    rw [← shiftInBits_xor hc hc'] at hrest
    exact hrest

end Crc8

namespace ParityCheck

def parity (n : ℕ) : ℕ :=
  let n := n ^^^ n >>> 4
  let n := n ^^^ n >>> 2
  (n ^^^ n >>> 1) &&& 1

theorem parity_xor (a b : ℕ) : parity (a ^^^ b) = parity a ^^^ parity b := by
  simp only [parity, shiftRight_xor_distrib, and_xor_distrib_right]
  ac_rfl

/-- The pattern with the bits at `ps` set, if they are distinct. -/
def pattern (ps : List ℕ) : ℕ := ps.foldl (fun e p => e ^^^ 2 ^ p) 0

variable {ps : List ℕ}

theorem testBit_pattern (h : ps.Nodup) (q : ℕ) : (pattern ps).testBit q = decide (q ∈ ps) := by
  have hloop : ∀ (ps : List ℕ) (a : ℕ), ps.Nodup →
      (ps.foldl (fun e p => e ^^^ 2 ^ p) a).testBit q = (a.testBit q ^^ decide (q ∈ ps)) := by
    intro ps
    induction ps with
    | nil => intro a _; simp
    | cons p ps ih =>
      intro a hps
      obtain ⟨hp, hps⟩ := nodup_cons.mp hps
      rw [foldl_cons, ih _ hps, testBit_xor, testBit_two_pow]
      by_cases hpq : p = q
      · subst hpq
        simp [hp]
      · have hqp : q ≠ p := fun h => hpq h.symm
        simp [hpq, hqp]
  rw [pattern, hloop ps 0 h, zero_testBit, Bool.false_xor]

theorem pattern_lt {n : ℕ} (h : ∀ p ∈ ps, p < n) : pattern ps < 2 ^ n := by
  have hloop : ∀ (ps : List ℕ) (a : ℕ), (∀ p ∈ ps, p < n) → a < 2 ^ n →
      ps.foldl (fun e p => e ^^^ 2 ^ p) a < 2 ^ n := by
    intro ps
    induction ps with
    | nil => intro a _ ha; exact ha
    | cons p ps ih =>
      intro a hps ha
      have hp : 2 ^ p < 2 ^ n := Nat.pow_lt_pow_right (by decide) (hps p mem_cons_self)
      exact ih _ (fun x hx => hps x (mem_cons_of_mem p hx)) (xor_lt_two_pow ha hp)
  exact hloop ps 0 h (Nat.two_pow_pos n)

variable {check : ℕ → ℕ}

/-- Between one and three bits, to which the check gives distinct values of odd parity, are
not the difference of two code words. -/
theorem check_flips_ne (hadd : ∀ a b, check (a ^^^ b) = check a ^^^ check b) (hpos : ps ≠ [])
    (hlen : ps.length ≤ 3) (hdistinct : ps.Nodup) (hodd : ∀ p ∈ ps, parity (check (2 ^ p)) = 1)
    (hinj : ∀ p ∈ ps, ∀ q ∈ ps, check (2 ^ p) = check (2 ^ q) → p = q) :
    check (pattern ps) ≠ 0 := by
  intro hzero
  match ps, hlen with
  | [p], _ =>
    have hp := hodd p (by simp)
    have hcheck : check (2 ^ p) = 0 := by simpa [pattern] using hzero
    rw [hcheck] at hp
    exact absurd hp (by decide)
  | [p, q], _ =>
    have hcheck : check (2 ^ p) ^^^ check (2 ^ q) = 0 := by
      rw [← hadd]
      simpa [pattern] using hzero
    have heq := hinj p (by simp) q (by simp) (Nat.xor_eq_zero_iff.mp hcheck)
    simp [heq] at hdistinct
  | [p, q, r], _ =>
    have hcheck : check (2 ^ p) ^^^ check (2 ^ q) ^^^ check (2 ^ r) = 0 := by
      rw [← hadd, ← hadd]
      simpa [pattern] using hzero
    have hsum := congrArg parity hcheck
    rw [parity_xor, parity_xor, hodd p (by simp), hodd q (by simp), hodd r (by simp)] at hsum
    exact absurd hsum (by decide)

end ParityCheck
