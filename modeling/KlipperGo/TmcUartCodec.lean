/-
The frames of the single-wire UART of the TMC drivers
(`internal/pkg/tmc/transport_codecs.go`).

A message is a list of bytes with a CRC-8 behind it.  On the wire every byte has a start
bit before it and a stop bit behind it, and the bits of the whole message are packed into
bytes again, so that a frame of eight bytes takes ten.

* `decodeUARTRead_encode` — the reply frame of a register decodes to its value;
* `frameCheck_framed` — the check that vanishes on every frame.
-/
import KlipperGo.Crc16
import KlipperGo.Crc8
import Mathlib.Data.List.Nodup
import Mathlib.Data.Nat.Digits.Defs

open Crc16 (flipBits)

open List Nat ParityCheck

namespace Tmc

/-! ### The codec -/

variable (data : List ℕ)

def calcCRC8ATM : ℕ := Crc8.run 0 data

/-- The loop of `AddSerialBits`: the bits so far, and the position of the next byte. -/
def serialBits : ℕ × ℕ :=
  data.foldl (fun s d => (s.1 ||| (d <<< 1 ||| 0x200) <<< s.2, s.2 + 10)) (0, 0)

def addSerialBits : List ℕ :=
  (range (((serialBits data).2 + 7) / 8)).map fun i =>
    (serialBits data).1 >>> (i * 8) &&& 0xff

variable (sync addr reg val : ℕ)

def writeMsg : List ℕ :=
  [sync, addr, reg, val >>> 24 &&& 0xff, val >>> 16 &&& 0xff, val >>> 8 &&& 0xff, val &&& 0xff]

def encodeUARTWrite : List ℕ :=
  let msg := writeMsg sync addr reg val
  addSerialBits (msg ++ [calcCRC8ATM msg])

/-- The bits of a reply, the bytes packed one behind the other. -/
def packedBits : ℕ :=
  (data.foldl (fun s d => (s.1 ||| d <<< s.2, s.2 + 8)) (0, 0)).1

def replyValue (mval : ℕ) : ℕ :=
  (mval >>> 31 &&& 0xff) <<< 24 ||| (mval >>> 41 &&& 0xff) <<< 16 |||
    (mval >>> 51 &&& 0xff) <<< 8 ||| (mval >>> 61 &&& 0xff)

/-- `DecodeUARTRead`: the value, and whether the reply was accepted. -/
def decodeUARTRead (reg : ℕ) (data : List ℕ) : ℕ × Bool :=
  if data.length ≠ 10 then (0, false)
  else
    let val := replyValue (packedBits data)
    if data ≠ encodeUARTWrite 0x05 0xff reg val then (0, false) else (val, true)

/-! ### Bits and numbers -/

/-- The framed message as a number, the first byte lowest. -/
def framed : List ℕ → ℕ
  | [] => 0
  | d :: ds => (2 * d + 512) + 1024 * framed ds

theorem or_shiftLeft {a i : ℕ} (ha : a < 2 ^ i) (x : ℕ) : a ||| x <<< i = a + 2 ^ i * x := by
  rw [lor_comm, ← shiftLeft_add_eq_or_of_lt ha, shiftLeft_eq]
  ring

theorem start_stop {d : ℕ} (hd : d < 2 ^ 8) : d <<< 1 ||| 0x200 = 2 * d + 512 := by
  have hlt : d <<< 1 < 2 ^ 9 := by
    omega
  show d <<< 1 ||| 1 <<< 9 = _
  rw [or_shiftLeft hlt, shiftLeft_eq]
  omega

/-- Numbers of `w` bits, one behind the other: the bits so far lie below the position of the next
one. -/
theorem foldl_or_shiftLeft {w : ℕ} {f : ℕ → ℕ} {data : List ℕ} (hf : ∀ d ∈ data, f d < 2 ^ w)
    {out pos : ℕ} (hout : out < 2 ^ pos) :
    data.foldl (fun s d => (s.1 ||| f d <<< s.2, s.2 + w)) (out, pos) =
      (out + 2 ^ pos * ofDigits (2 ^ w) (data.map f), pos + w * data.length) := by
  induction data generalizing out pos with
  | nil => simp
  | cons d ds ih =>
    obtain ⟨hd, hds⟩ := forall_mem_cons.mp hf
    have hnext : out + 2 ^ pos * f d < 2 ^ (pos + w) := by
      rw [pow_add]
      nlinarith [Nat.two_pow_pos pos]
    rw [foldl_cons, or_shiftLeft hout, ih hds hnext, map_cons, ofDigits_cons, pow_add, length_cons]
    congr 1 <;> ring

theorem framed_eq : framed data = ofDigits 1024 (data.map fun d => 2 * d + 512) := by
  induction data with
  | nil => rfl
  | cons d ds ih => rw [framed, ih, map_cons, ofDigits_cons]

theorem addSerialBits_lt : ∀ b ∈ addSerialBits data, b < 2 ^ 8 := by
  intro b hb
  obtain ⟨i, -, rfl⟩ := mem_map.mp hb
  exact Crc16.and_255_lt _

variable (bits a b i : ℕ)

/-- The byte `i` of a framed message, its start and stop bit left out. -/
def byteAt : ℕ := bits >>> (10 * i + 1) &&& 0xff

section

variable {data : List ℕ} (hdata : ∀ d ∈ data, d < 2 ^ 8)
include hdata

theorem serialBits_eq : serialBits data = (framed data, 10 * data.length) := by
  have hlt : ∀ d ∈ data, d <<< 1 ||| 0x200 < 2 ^ 10 := by
    intro d hd
    have := hdata d hd
    rw [start_stop this]
    omega
  have hbytes := map_congr_left fun d hd => start_stop (hdata d hd)
  rw [framed_eq, ← hbytes]
  simpa [serialBits] using foldl_or_shiftLeft hlt (Nat.two_pow_pos 0)

theorem packedBits_eq : packedBits data = ofDigits 256 data := by
  have h := foldl_or_shiftLeft (f := id) hdata (Nat.two_pow_pos 0)
  simpa [packedBits] using congrArg Prod.fst h

theorem framed_lt : framed data < 2 ^ (10 * data.length) := by
  induction data with
  | nil => simp [framed]
  | cons d ds ih =>
    have hd : d < 2 ^ 8 := hdata d mem_cons_self
    have hrest := ih fun x hx => hdata x (mem_cons_of_mem d hx)
    rw [framed, length_cons, mul_succ, pow_add]
    omega

/-- The packed bytes of an eight byte message are the digits of the framed message. -/
theorem ofDigits_addSerialBits (hlen : data.length = 8) :
    ofDigits 256 (addSerialBits data) = framed data := by
  have hdigits : ∀ n m : ℕ,
      ofDigits 256 ((range n).map fun i => m >>> (i * 8) &&& 0xff) = m % 256 ^ n := by
    intro n m
    induction n with
    | zero => simp [mod_one]
    | succ n ih =>
      have hpow : 2 ^ (n * 8) = 256 ^ n := by
        rw [Nat.mul_comm, pow_mul]
        norm_num
      have hdigit : m >>> (n * 8) &&& 0xff = m / 256 ^ n % 256 := by
        rw [shiftRight_eq_div_pow, hpow]
        exact and_two_pow_sub_one_eq_mod _ 8
      rw [range_succ, map_append, ofDigits_append, ih, length_map,
        length_range, map_singleton, ofDigits_singleton, hdigit, mod_pow_succ]
  have hlt : framed data < 256 ^ 10 := by
    have h := framed_lt hdata
    rw [hlen] at h
    exact h.trans_le (by decide)
  unfold addSerialBits
  have hcount : (10 * 8 + 7) / 8 = 10 := rfl
  rw [serialBits_eq hdata, hlen, hdigits, hcount, mod_eq_of_lt hlt]

theorem length_addSerialBits (hlen : data.length = 8) : (addSerialBits data).length = 10 := by
  simp [addSerialBits, serialBits_eq hdata, hlen]

theorem byteAt_framed {i d : ℕ} (hi : data[i]? = some d) : byteAt (framed data) i = d := by
  have hmod : ∀ bits i, byteAt bits i = bits / 2 ^ (10 * i + 1) % 256 := by
    intro bits i
    rw [byteAt, shiftRight_eq_div_pow]
    exact and_two_pow_sub_one_eq_mod _ 8
  rw [hmod]
  induction data generalizing i with
  | nil => cases hi
  | cons a as ih =>
    have ha : a < 2 ^ 8 := hdata a mem_cons_self
    have has : ∀ x ∈ as, x < 2 ^ 8 := fun x hx => hdata x (mem_cons_of_mem a hx)
    cases i with
    | zero =>
      obtain rfl : a = d := by simpa using hi
      rw [framed]
      omega
    | succ i =>
      -- the first byte takes ten bits
      have hrest := ih has (i := i) (by simpa using hi)
      have hpow : 2 ^ (10 * (i + 1) + 1) = 1024 * 2 ^ (10 * i + 1) := by ring
      rw [framed, hpow, ← Nat.div_div_eq_div_mul]
      have hdiv : (2 * a + 512 + 1024 * framed as) / 1024 = framed as := by omega
      rw [hdiv, hrest]

end

/-! ### A reply decodes to its value -/

def checked : List ℕ :=
  writeMsg sync addr reg val ++ [calcCRC8ATM (writeMsg sync addr reg val)]

theorem encodeUARTWrite_eq :
    encodeUARTWrite sync addr reg val = addSerialBits (checked sync addr reg val) := rfl

theorem checked_lt {sync addr reg : ℕ} (hs : sync < 2 ^ 8) (ha : addr < 2 ^ 8) (hr : reg < 2 ^ 8)
    (val : ℕ) : ∀ d ∈ checked sync addr reg val, d < 2 ^ 8 := by
  have hcrc : calcCRC8ATM (writeMsg sync addr reg val) < 2 ^ 8 := Crc8.run_lt (by decide) _
  simp only [checked, writeMsg, cons_append, nil_append, forall_mem_cons]
  refine ⟨hs, ha, hr, Crc16.and_255_lt _, Crc16.and_255_lt _, Crc16.and_255_lt _,
    Crc16.and_255_lt _, hcrc, ?_⟩
  simp

theorem shiftLeft_or_byte {b : ℕ} (hb : b < 2 ^ 8) :
    a <<< (i + 8) ||| b <<< i = (a * 256 + b) <<< i := by
  have hlt : b <<< i < 2 ^ (i + 8) := by
    rw [shiftLeft_eq, pow_add, Nat.mul_comm]
    exact Nat.mul_lt_mul_of_pos_left hb (Nat.two_pow_pos i)
  rw [← shiftLeft_add_eq_or_of_lt hlt, shiftLeft_eq, shiftLeft_eq, shiftLeft_eq, pow_add]
  ring

/-- The four bytes of a value, put together again. -/
theorem bytes_of_value {val : ℕ} (h : val < 2 ^ 32) :
    (val >>> 24 &&& 0xff) <<< 24 ||| (val >>> 16 &&& 0xff) <<< 16 |||
      (val >>> 8 &&& 0xff) <<< 8 ||| (val &&& 0xff) = val := by
  have hlast : val &&& 0xff = (val &&& 0xff) <<< 0 := rfl
  rw [shiftLeft_or_byte _ 16 (Crc16.and_255_lt _), shiftLeft_or_byte _ 8 (Crc16.and_255_lt _),
    hlast, shiftLeft_or_byte _ 0 (Crc16.and_255_lt _)]
  simp only [Crc16.and_255, shiftRight_eq_div_pow, shiftLeft_zero]
  omega

theorem decodeUARTRead_encode {reg val : ℕ} (hreg : reg < 2 ^ 8) (hval : val < 2 ^ 32) :
    decodeUARTRead reg (encodeUARTWrite 0x05 0xff reg val) = (val, true) := by
  have hlt : ∀ d ∈ checked 0x05 0xff reg val, d < 2 ^ 8 :=
    checked_lt (by decide) (by decide) hreg val
  have hbits : packedBits (encodeUARTWrite 0x05 0xff reg val) =
      framed (checked 0x05 0xff reg val) := by
    rw [encodeUARTWrite_eq, packedBits_eq (addSerialBits_lt _), ofDigits_addSerialBits hlt rfl]
  have hvalue : replyValue (framed (checked 0x05 0xff reg val)) = val := by
    have h3 := byteAt_framed hlt (i := 3) rfl
    have h4 := byteAt_framed hlt (i := 4) rfl
    have h5 := byteAt_framed hlt (i := 5) rfl
    have h6 := byteAt_framed hlt (i := 6) rfl
    unfold byteAt at h3 h4 h5 h6
    rw [replyValue, h3, h4, h5, h6, bytes_of_value hval]
  unfold decodeUARTRead
  rw [hbits, hvalue, if_neg (by rw [encodeUARTWrite_eq, length_addSerialBits hlt rfl]; decide)]
  simp

/-! ### Flipped bits -/

theorem xor_digits {a b : ℕ} (ha : a < 256) (hb : b < 256) (x y : ℕ) :
    (a + 256 * x) ^^^ (b + 256 * y) = (a ^^^ b) + 256 * (x ^^^ y) := by
  have hmod := xor_mod_two_pow (a := a + 256 * x) (b := b + 256 * y) (n := 8)
  have hdiv := xor_div_two_pow (a := a + 256 * x) (b := b + 256 * y) (n := 8)
  have ha8 : (a + 256 * x) % 2 ^ 8 = a ∧ (a + 256 * x) / 2 ^ 8 = x := by omega
  have hb8 : (b + 256 * y) % 2 ^ 8 = b ∧ (b + 256 * y) / 2 ^ 8 = y := by omega
  rw [ha8.1, hb8.1] at hmod
  rw [ha8.2, hb8.2] at hdiv
  rw [← hmod, ← hdiv]
  exact (mod_add_div _ 256).symm

/-- Flipping bits of a list of bytes flips those of the number they are the digits of. -/
theorem ofDigits_flipBits (error : ℕ) {bs : List ℕ} (hbs : ∀ b ∈ bs, b < 2 ^ 8) :
    ofDigits 256 (flipBits error bs) =
      ofDigits 256 bs ^^^ error % 256 ^ bs.length := by
  induction bs generalizing error with
  | nil => simp [flipBits, mod_one]
  | cons b bs ih =>
    have hb : b < 256 := hbs b mem_cons_self
    have hrest := ih (error / 256) fun x hx => hbs x (mem_cons_of_mem b hx)
    rw [flipBits, ofDigits_cons, ofDigits_cons, hrest, length_cons, pow_succ', mod_mul]
    exact (xor_digits hb (mod_lt _ (by decide)) _ _).symm

/-- The check of a frame: the CRC of its bytes against the one it carries. -/
def frameCheck : ℕ :=
  Crc8.run 0 ((range 7).map (byteAt bits)) ^^^ byteAt bits 7

theorem byteAt_xor : byteAt (a ^^^ b) i = byteAt a i ^^^ byteAt b i := by
  rw [byteAt, shiftRight_xor_distrib, and_xor_distrib_right]
  rfl

theorem frameCheck_xor : frameCheck (a ^^^ b) = frameCheck a ^^^ frameCheck b := by
  have hbytes : (range 7).map (byteAt (a ^^^ b)) =
      zipWith (· ^^^ ·) ((range 7).map (byteAt a)) ((range 7).map (byteAt b)) := by
    simp [byteAt_xor]
  have hrun : Crc8.run (0 ^^^ 0) (zipWith (· ^^^ ·) ((range 7).map (byteAt a))
        ((range 7).map (byteAt b))) =
      Crc8.run 0 ((range 7).map (byteAt a)) ^^^ Crc8.run 0 ((range 7).map (byteAt b)) :=
    Crc8.run_xor (by decide) (by decide) (by simp)
  rw [Nat.xor_self] at hrun
  rw [frameCheck, hbytes, byteAt_xor, hrun, frameCheck, frameCheck]
  ac_rfl

theorem frameCheck_framed {sync addr reg : ℕ} (hs : sync < 2 ^ 8) (ha : addr < 2 ^ 8)
    (hr : reg < 2 ^ 8) (val : ℕ) : frameCheck (framed (checked sync addr reg val)) = 0 := by
  have hlt := checked_lt hs ha hr val
  have hbytes : (range 7).map (byteAt (framed (checked sync addr reg val))) =
      writeMsg sync addr reg val := by
    have hrange : range 7 = [0, 1, 2, 3, 4, 5, 6] := rfl
    rw [hrange]
    simp only [map_cons, map_nil]
    rw [byteAt_framed hlt (i := 0) rfl, byteAt_framed hlt (i := 1) rfl,
      byteAt_framed hlt (i := 2) rfl, byteAt_framed hlt (i := 3) rfl,
      byteAt_framed hlt (i := 4) rfl, byteAt_framed hlt (i := 5) rfl,
      byteAt_framed hlt (i := 6) rfl]
    rfl
  rw [frameCheck, hbytes, byteAt_framed hlt (i := 7) rfl]
  exact Nat.xor_self _

/-- The positions of the value and of the CRC in a frame; the other bits are the same in all
replies of a register. -/
def Covered (p : ℕ) : Bool := decide (30 ≤ p) && decide (1 ≤ p % 10) && decide (p % 10 ≤ 8)

theorem parity_frameCheck : ∀ p < 80, Covered p = true → parity (frameCheck (2 ^ p)) = 1 := by
  decide +kernel

theorem nodup_frameCheck : (((range 80).filter Covered).map fun p => frameCheck (2 ^ p)).Nodup := by
  decide +kernel

theorem frameCheck_inj {p q : ℕ} (hp : p < 80) (hpc : Covered p = true) (hq : q < 80)
    (hqc : Covered q = true) (h : frameCheck (2 ^ p) = frameCheck (2 ^ q)) : p = q :=
  inj_on_of_nodup_map nodup_frameCheck (mem_filter.mpr ⟨mem_range.mpr hp, hpc⟩)
    (mem_filter.mpr ⟨mem_range.mpr hq, hqc⟩) h

theorem testBit_framed {data : List ℕ} (hdata : ∀ d ∈ data, d < 2 ^ 8) {i d k : ℕ}
    (hi : data[i]? = some d) (hk : k < 10) :
    (framed data).testBit (10 * i + k) = (2 * d + 512).testBit k := by
  induction data generalizing i with
  | nil => cases hi
  | cons a as ih =>
    have ha : 2 * a + 512 < 2 ^ 10 := by
      have := hdata a mem_cons_self
      omega
    have hsplit : framed (a :: as) = 2 ^ 10 * framed as + (2 * a + 512) := by
      rw [framed]
      ring
    rw [hsplit, testBit_two_pow_mul_add _ ha]
    cases i with
    | zero =>
      obtain rfl : a = d := by simpa using hi
      rw [mul_zero, Nat.zero_add, if_pos hk]
    | succ i =>
      have hrest := ih (fun x hx => hdata x (mem_cons_of_mem a hx)) (i := i)
        (by simpa using hi)
      have hpos : 10 * (i + 1) + k - 10 = 10 * i + k := by omega
      rw [if_neg (by omega), hpos, hrest]

theorem start_stop_bits {d : ℕ} (hd : d < 2 ^ 8) : (2 * d + 512).testBit 0 = false ∧
    (2 * d + 512).testBit 9 = true := by
  constructor
  · rw [testBit_zero]
    exact decide_eq_false (by omega)
  · have hsplit : 2 * d + 512 = 2 ^ 9 * 1 + 2 * d := by omega
    rw [hsplit, testBit_two_pow_mul_add _ (by omega), if_neg (lt_irrefl 9)]
    rfl

/-- Two replies of a register agree in all bits that are not covered. -/
theorem testBit_checked {reg : ℕ} (hreg : reg < 2 ^ 8) (val val' : ℕ) {p : ℕ} (hp : p < 80)
    (hcov : Covered p = false) :
    (framed (checked 0x05 0xff reg val)).testBit p =
      (framed (checked 0x05 0xff reg val')).testBit p := by
  have hlt : ∀ v, ∀ d ∈ checked 0x05 0xff reg v, d < 2 ^ 8 :=
    checked_lt (by decide) (by decide) hreg
  have hget : ∀ v, ∃ d, (checked 0x05 0xff reg v)[p / 10]? = some d := by
    intro v
    have hlen : p / 10 < (checked 0x05 0xff reg v).length := by
      change p / 10 < 8
      omega
    exact ⟨_, getElem?_eq_getElem hlen⟩
  obtain ⟨d, hd⟩ := hget val
  obtain ⟨d', hd'⟩ := hget val'
  have hmod : p % 10 < 10 := mod_lt _ (by decide)
  have hbit := testBit_framed (hlt val) hd hmod
  have hbit' := testBit_framed (hlt val') hd' hmod
  rw [div_add_mod] at hbit hbit'
  rw [hbit, hbit']
  by_cases hhead : p / 10 < 3
  · -- the sync byte, the address and the register
    have hsame : (checked 0x05 0xff reg val)[p / 10]? = (checked 0x05 0xff reg val')[p / 10]? := by
      have htake : ∀ v, (checked 0x05 0xff reg v)[p / 10]? = [0x05, 0xff, reg][p / 10]? := by
        intro v
        change ([0x05, 0xff, reg] ++ _)[p / 10]? = _
        exact getElem?_append_left hhead
      rw [htake, htake]
    rw [hd, hd'] at hsame
    rw [Option.some.inj hsame]
  · -- a start bit or a stop bit
    have hd8 := start_stop_bits (hlt val d (mem_of_getElem? hd))
    have hd8' := start_stop_bits (hlt val' d' (mem_of_getElem? hd'))
    have hcase : p % 10 = 0 ∨ p % 10 = 9 := by
      simp only [Covered, Bool.and_eq_false_iff, decide_eq_false_iff_not] at hcov
      omega
    rcases hcase with h | h
    · rw [h, hd8.1, hd8'.1]
    · rw [h, hd8.2, hd8'.2]

/-- No two replies of a register differ in one, two or three bits. -/
theorem flipped_ne_encode {reg : ℕ} (hreg : reg < 2 ^ 8) (val val' : ℕ) {ps : List ℕ}
    (hpos : ps ≠ []) (hlen : ps.length ≤ 3) (hdistinct : ps.Nodup) (hps : ∀ p ∈ ps, p < 80) :
    flipBits (pattern ps) (encodeUARTWrite 0x05 0xff reg val) ≠
      encodeUARTWrite 0x05 0xff reg val' := by
  intro heq
  have hlt : ∀ v, ∀ d ∈ checked 0x05 0xff reg v, d < 2 ^ 8 :=
    checked_lt (by decide) (by decide) hreg
  have hsmall : pattern ps < 256 ^ 10 :=
    (pattern_lt hps).trans_le (by decide)
  have hnum := congrArg (ofDigits 256) heq
  rw [encodeUARTWrite_eq, encodeUARTWrite_eq, ofDigits_flipBits _ (addSerialBits_lt _),
    length_addSerialBits (hlt val) rfl, ofDigits_addSerialBits (hlt val) rfl,
    ofDigits_addSerialBits (hlt val') rfl, mod_eq_of_lt hsmall] at hnum
  -- the flipped bits are the difference of the two replies
  have hdiff : pattern ps =
      framed (checked 0x05 0xff reg val) ^^^ framed (checked 0x05 0xff reg val') := by
    rw [← hnum, ← Nat.xor_assoc, Nat.xor_self, Nat.zero_xor]
  have hcov : ∀ p ∈ ps, Covered p = true := by
    intro p hp
    by_contra hno
    have hbit := testBit_pattern hdistinct p
    rw [hdiff, testBit_xor,
      testBit_checked hreg val val' (hps p hp) (Bool.eq_false_iff.mpr hno)] at hbit
    simp [hp] at hbit
  refine check_flips_ne frameCheck_xor hpos hlen hdistinct
    (fun p hp => parity_frameCheck p (hps p hp) (hcov p hp))
    (fun p hp q hq => frameCheck_inj (hps p hp) (hcov p hp) (hps q hq) (hcov q hq)) ?_
  rw [hdiff, frameCheck_xor, frameCheck_framed (by decide) (by decide) hreg,
    frameCheck_framed (by decide) (by decide) hreg, Nat.xor_self]

/-- **The codec**: the reply of a register decodes to its value, and a reply with one, two or
three flipped bits is rejected. -/
theorem uart_codec {reg val : ℕ} (hreg : reg < 128) (hval : val < 2 ^ 32) :
    decodeUARTRead reg (encodeUARTWrite 0x05 0xff reg val) = (val, true) ∧
      ∀ ps : List ℕ, 1 ≤ ps.length → ps.length ≤ 3 → ps.Nodup → (∀ p ∈ ps, p < 80) →
        (decodeUARTRead reg (flipBits (pattern ps)
          (encodeUARTWrite 0x05 0xff reg val))).2 = false := by
  have hreg8 : reg < 2 ^ 8 := by omega
  refine ⟨decodeUARTRead_encode hreg8 hval, ?_⟩
  intro ps hone hthree hdistinct hps
  have hpos : ps ≠ [] := ne_nil_of_length_pos hone
  have hne : ∀ v, flipBits (pattern ps) (encodeUARTWrite 0x05 0xff reg val) ≠
      encodeUARTWrite 0x05 0xff reg v :=
    fun v => flipped_ne_encode hreg8 val v hpos hthree hdistinct hps
  unfold decodeUARTRead
  by_cases hlen :
      (flipBits (pattern ps) (encodeUARTWrite 0x05 0xff reg val)).length ≠ 10
  · rw [if_pos hlen]
  · rw [if_neg hlen, if_pos (hne _)]

theorem uart_codec_ioin :
    decodeUARTRead 0x06 (encodeUARTWrite 0x05 0xff 0x06 0x21000041) = (0x21000041, true) ∧
      (decodeUARTRead 0x06 (flipBits (pattern [31, 40, 79])
        (encodeUARTWrite 0x05 0xff 0x06 0x21000041))).2 = false := by
  obtain ⟨hdecode, hreject⟩ : _ ∧ ∀ ps : List ℕ, _ → _ → _ → _ →
      (decodeUARTRead 0x06 (flipBits (pattern ps)
        (encodeUARTWrite 0x05 0xff 0x06 0x21000041))).2 = false :=
    uart_codec (by decide) (by decide)
  exact ⟨hdecode, hreject [31, 40, 79] (by decide) (by decide) (by decide) (by decide)⟩

end Tmc
