/-
Integers in groups of seven bits, the highest first.

Every byte but the last has its top bit set.  The first byte also carries the
sign: it stands for a negative group when both of its next two bits are set, so
a group from -32 to 95 may start an encoding.  Decoded values are 64 bits wide.
-/
import KlipperGo.GoRuntime
import Mathlib.Data.Nat.Bitwise
import Mathlib.Tactic.Linarith
import Mathlib.Tactic.Positivity

open GoRuntime List

namespace Vlq

variable (v : ℤ) (n : ℕ) (rest : List ℕ)

/-- Seven bits of a value, `(v >> shift) & 0x7f`. -/
def septet (shift : ℕ) : ℕ := ((v >>> shift) % 128).toNat

def encode : List ℕ :=
  (if 0xc000000 ≤ v ∨ v < -0x4000000 then [septet v 28 ||| 0x80] else []) ++
  (if 0x180000 ≤ v ∨ v < -0x80000 then [septet v 21 ||| 0x80] else []) ++
  (if 0x3000 ≤ v ∨ v < -0x1000 then [septet v 14 ||| 0x80] else []) ++
  (if 0x60 ≤ v ∨ v < -0x20 then [septet v 7 ||| 0x80] else []) ++
  [septet v 0]

/-- The value of a first byte; setting all bits from the sixth on in one whose sixth and seventh
are set takes away 128. -/
def firstGroup (c : ℕ) : ℤ :=
  if c &&& 0x60 = 0x60 then ((c &&& 0x7f : ℕ) : ℤ) - 0x80 else ((c &&& 0x7f : ℕ) : ℤ)

/-- The bytes after `c`, up to one whose top bit is clear; `len` is the length of the input. -/
def decodeMore (len : ℕ) : List ℕ → ℕ → ℕ → ℤ → Except Panic (ℤ × ℕ)
  | [], pos, c, v =>
    if c &&& 0x80 = 0x80 then .error (.indexOutOfRange pos len) else .ok (v, pos)
  | c' :: rest, pos, c, v =>
    if c &&& 0x80 = 0x80 then
      decodeMore len rest (pos + 1) c' (Int.bmod (v * 128 + (c' &&& 0x7f : ℕ)) (2 ^ 64))
    else .ok (v, pos)

/-- The value encoded at `pos`, and the position behind it. -/
def decode (s : List ℕ) (pos : ℕ) : Except Panic (ℤ × ℕ) :=
  match s.drop pos with
  | [] => .error (.indexOutOfRange pos s.length)
  | c :: rest => decodeMore s.length rest (pos + 1) c (firstGroup c)

/-! ### Bytes -/

theorem septet_lt (shift : ℕ) : septet v shift < 128 := by
  unfold septet
  omega

theorem or_128 : ∀ x < 128, x ||| 0x80 = x + 128 ∧ (x ||| 0x80) &&& 0x80 = 0x80 ∧
    (x ||| 0x80) &&& 0x7f = x := by
  decide

theorem and_128 : ∀ x < 128, x &&& 0x80 ≠ 0x80 ∧ x &&& 0x7f = x := by
  decide

theorem firstGroup_byte : ∀ x < 128, firstGroup (x ||| 0x80) = firstGroup x ∧
    firstGroup x = if x < 96 then (x : ℤ) else x - 128 := by
  decide

/-! ### Groups -/

/-- The `n + 1` lowest groups of a value. -/
def groups (v : ℤ) : ℕ → List ℕ
  | 0 => [septet v 0]
  | n + 1 => (septet v (7 * (n + 1)) ||| 0x80) :: groups v n

theorem shiftRight_eq : v >>> n = v / 2 ^ n := by
  rw [Int.shiftRight_eq_div_pow]
  norm_cast

/-- The encoding of a value takes as many groups as leave a first one that shows the sign. -/
theorem encode_eq_groups {v : ℤ} (hlow : -2 ^ 31 ≤ v) (hhigh : v < 2 ^ 32) :
    ∃ n, encode v = groups v n ∧ -32 ≤ v >>> (7 * n) ∧ v >>> (7 * n) < 96 := by
  simp only [shiftRight_eq]
  unfold encode
  by_cases h1 : 0x60 ≤ v ∨ v < -0x20
  · by_cases h2 : 0x3000 ≤ v ∨ v < -0x1000
    · by_cases h3 : 0x180000 ≤ v ∨ v < -0x80000
      · by_cases h4 : 0xc000000 ≤ v ∨ v < -0x4000000
        · rw [if_pos h1, if_pos h2, if_pos h3, if_pos h4]
          exact ⟨4, rfl, by omega, by omega⟩
        · rw [if_pos h1, if_pos h2, if_pos h3, if_neg h4]
          exact ⟨3, rfl, by omega, by omega⟩
      · rw [if_pos h1, if_pos h2, if_neg h3, if_neg (by omega)]
        exact ⟨2, rfl, by omega, by omega⟩
    · rw [if_pos h1, if_neg h2, if_neg (by omega), if_neg (by omega)]
      exact ⟨1, rfl, by omega, by omega⟩
  · rw [if_neg h1, if_neg (by omega), if_neg (by omega), if_neg (by omega)]
    exact ⟨0, rfl, by omega, by omega⟩

/-- The top bit is set in all bytes but the last. -/
theorem encode_marks : ∃ more last, encode v = more ++ [last] ∧
    (∀ b ∈ more, b &&& 0x80 = 0x80) ∧ last &&& 0x80 ≠ 0x80 := by
  refine ⟨_, septet v 0, rfl, ?_, (and_128 _ (septet_lt v 0)).1⟩
  have hif : ∀ (p : Prop) [Decidable p] (shift b : ℕ),
      b ∈ (if p then [septet v shift ||| 0x80] else []) → b &&& 0x80 = 0x80 := by
    intro p _ shift b hb
    split at hb
    · rw [mem_singleton.mp hb]
      exact (or_128 _ (septet_lt v shift)).2.1
    · cases hb
  intro b hb
  simp only [mem_append] at hb
  rcases hb with ((hb | hb) | hb) | hb <;> exact hif _ _ _ hb

/-- The encoding has at most five bytes, and fewer for small values. -/
theorem length_encode_le : (encode v).length ≤ 5 ∧
    (-0x80000 ≤ v → v < 0x180000 → (encode v).length ≤ 3) ∧
    (-0x1000 ≤ v → v < 0x3000 → (encode v).length ≤ 2) := by
  have hif : ∀ (p : Prop) [Decidable p] (b : ℕ), (if p then [b] else []).length ≤ 1 := by
    intro p _ b
    split <;> simp
  have h1 := hif (0x60 ≤ v ∨ v < -0x20) (septet v 7 ||| 0x80)
  have h2 := hif (0x3000 ≤ v ∨ v < -0x1000) (septet v 14 ||| 0x80)
  have h3 := hif (0x180000 ≤ v ∨ v < -0x80000) (septet v 21 ||| 0x80)
  have h4 := hif (0xc000000 ≤ v ∨ v < -0x4000000) (septet v 28 ||| 0x80)
  simp only [encode, length_append, length_singleton]
  refine ⟨by omega, fun hlow hhigh => ?_, fun hlow hhigh => ?_⟩
  · rw [if_neg (by omega : ¬ (0xc000000 ≤ v ∨ v < -0x4000000)),
      if_neg (by omega : ¬ (0x180000 ≤ v ∨ v < -0x80000)), length_nil]
    omega
  · rw [if_neg (by omega : ¬ (0xc000000 ≤ v ∨ v < -0x4000000)),
      if_neg (by omega : ¬ (0x180000 ≤ v ∨ v < -0x80000)),
      if_neg (by omega : ¬ (0x3000 ≤ v ∨ v < -0x1000)), length_nil]
    omega

theorem septet_eq : (septet v n : ℤ) = v / 2 ^ n % 128 := by
  rw [septet, shiftRight_eq]
  omega

@[simp] theorem length_groups : (groups v n).length = n + 1 := by
  induction n with
  | zero => rfl
  | succ n ih => simp [groups, ih]

theorem decodeMore_stop {len pos c : ℕ} (v : ℤ) (h : c &&& 0x80 ≠ 0x80) :
    decodeMore len rest pos c v = .ok (v, pos) := by
  cases rest <;> exact if_neg h

theorem decodeMore_next {len pos c c' : ℕ} (v : ℤ) (h : c &&& 0x80 = 0x80) :
    decodeMore len (c' :: rest) pos c v =
      decodeMore len rest (pos + 1) c' (Int.bmod (v * 128 + (c' &&& 0x7f : ℕ)) (2 ^ 64)) :=
  if_pos h

theorem bmod_group {v : ℤ} (hlow : -2 ^ 62 ≤ v) (hhigh : v < 2 ^ 62) (n : ℕ) :
    Int.bmod (v / 2 ^ (7 * (n + 1)) * 128 + septet v (7 * n)) (2 ^ 64) = v / 2 ^ (7 * n) := by
  have hdiv : v / 2 ^ (7 * (n + 1)) = v / 2 ^ (7 * n) / 128 := by
    rw [Int.ediv_ediv_of_nonneg (by positivity), Nat.mul_succ, pow_add]
    norm_num
  obtain ⟨hl, hh⟩ : -2 ^ 62 ≤ v / 2 ^ (7 * n) ∧ v / 2 ^ (7 * n) < 2 ^ 62 := by
    have hpos : (0 : ℤ) < 2 ^ (7 * n) := by positivity
    constructor
    · rw [Int.le_ediv_iff_mul_le hpos]
      linarith
    · rw [Int.ediv_lt_iff_lt_mul hpos]
      linarith
  rw [hdiv, septet_eq]
  generalize v / 2 ^ (7 * n) = x at hl hh ⊢
  have hx : x / 128 * 128 + x % 128 = x := by omega
  rw [hx]
  exact Int.bmod_eq_of_le (by norm_num; omega) (by norm_num; omega)

/-- Behind the groups above, the groups below complete the value. -/
theorem decodeMore_groups {v : ℤ} (hlow : -2 ^ 62 ≤ v) (hhigh : v < 2 ^ 62) (n len : ℕ)
    (rest : List ℕ) {pos c : ℕ} (hc : c &&& 0x80 = 0x80) :
    decodeMore len (groups v n ++ rest) pos c (v / 2 ^ (7 * (n + 1))) =
      .ok (v, pos + n + 1) := by
  induction n generalizing pos c with
  | zero =>
    obtain ⟨hstop, hbits⟩ := and_128 _ (septet_lt v 0)
    have hlast : Int.bmod (v / 2 ^ (7 * (0 + 1)) * 128 + septet v 0) (2 ^ 64) = v := by
      simpa using bmod_group hlow hhigh 0
    rw [groups, singleton_append, decodeMore_next _ _ hc, hbits, hlast, decodeMore_stop _ _ hstop]
  | succ n ih =>
    obtain ⟨-, hmore, hbits⟩ := or_128 _ (septet_lt v (7 * (n + 1)))
    rw [groups, cons_append, decodeMore_next _ _ hc, hbits, bmod_group hlow hhigh, ih hmore]
    congr 2
    omega

/-- A first group that shows the sign is read as it is. -/
theorem firstGroup_septet {v : ℤ} {n : ℕ} (hlow : -32 ≤ v / 2 ^ n) (hhigh : v / 2 ^ n < 96) :
    firstGroup (septet v n) = v / 2 ^ n := by
  have heq := septet_eq v n
  rw [(firstGroup_byte _ (septet_lt v n)).2]
  split <;> omega

/-- A value of 32 bits is decoded from its encoding, whatever stands around it. -/
theorem decode_encode {v : ℤ} (hlow : -2 ^ 31 ≤ v) (hhigh : v < 2 ^ 32) (pre rest : List ℕ) :
    decode (pre ++ (encode v ++ rest)) pre.length =
      .ok (v, pre.length + (encode v).length) := by
  obtain ⟨n, hgroups, hl, hh⟩ := encode_eq_groups hlow hhigh
  rw [shiftRight_eq] at hl hh
  rw [decode, drop_left, hgroups, length_groups]
  cases n with
  | zero =>
    have hfirst := firstGroup_septet hl hh
    obtain ⟨hstop, -⟩ := and_128 _ (septet_lt v 0)
    show decodeMore _ rest (pre.length + 1) (septet v 0) (firstGroup (septet v 0)) = _
    rw [decodeMore_stop _ _ hstop, hfirst, Nat.mul_zero, pow_zero, Int.ediv_one]
  | succ n =>
    have hfirst := firstGroup_septet hl hh
    obtain ⟨-, hmore, -⟩ := or_128 _ (septet_lt v (7 * (n + 1)))
    show decodeMore _ (groups v n ++ rest) (pre.length + 1) (septet v (7 * (n + 1)) ||| 0x80)
      (firstGroup (septet v (7 * (n + 1)) ||| 0x80)) = _
    rw [(firstGroup_byte _ (septet_lt v _)).1, hfirst,
      decodeMore_groups (by omega) (by omega) n _ rest hmore]
    congr 2
    omega

/-! ### What a decoder reads -/

/-- The bytes up to the first one whose top bit is clear. -/
def size : List ℕ → Option ℕ
  | [] => none
  | c :: rest => if c &&& 0x80 = 0x80 then (size rest).map (· + 1) else some 1

theorem decodeMore_ok {len : ℕ} {rest : List ℕ} {pos c : ℕ} {v w : ℤ} {next : ℕ}
    (h : decodeMore len rest pos c v = .ok (w, next)) :
    ∃ n, size (c :: rest) = some (n + 1) ∧ n ≤ rest.length ∧ next = pos + n ∧
      ∀ len' pos' rest', decodeMore len' (rest.take n ++ rest') pos' c v = .ok (w, pos' + n) := by
  induction rest generalizing pos c v with
  | nil =>
    unfold decodeMore at h
    split at h
    · cases h
    · next hc =>
      cases h
      exact ⟨0, if_neg hc, le_rfl, rfl, fun _ _ _ => decodeMore_stop _ _ hc⟩
  | cons c' rest ih =>
    by_cases hc : c &&& 0x80 = 0x80
    · rw [decodeMore_next _ _ hc] at h
      obtain ⟨n, hsize, hlen, hnext, hall⟩ := ih h
      refine ⟨n + 1, ?_, Nat.succ_le_succ hlen, by omega, fun len' pos' rest' => ?_⟩
      · rw [size, if_pos hc, hsize]
        rfl
      · rw [take_succ_cons, cons_append, decodeMore_next _ _ hc, hall, Nat.add_assoc,
          Nat.add_comm 1 n]
    · rw [decodeMore_stop _ _ hc] at h
      cases h
      exact ⟨0, if_neg hc, Nat.zero_le _, rfl, fun _ _ _ => decodeMore_stop _ _ hc⟩

/-- A decoder reads the bytes up to the first one whose top bit is clear, and what it returns
depends on these only. -/
theorem decode_ok {s : List ℕ} {pos : ℕ} {v : ℤ} {next : ℕ} (h : decode s pos = .ok (v, next)) :
    ∃ n, size (s.drop pos) = some n ∧ n ≤ (s.drop pos).length ∧ 0 < n ∧ next = pos + n ∧
      ∀ pre rest, decode (pre ++ ((s.drop pos).take n ++ rest)) pre.length =
        .ok (v, pre.length + n) := by
  unfold decode at h
  cases hdrop : s.drop pos with
  | nil =>
    rw [hdrop] at h
    cases h
  | cons c more =>
    rw [hdrop] at h
    obtain ⟨n, hsize, hlen, hnext, hall⟩ := decodeMore_ok h
    refine ⟨n + 1, hsize, Nat.succ_le_succ hlen, Nat.succ_pos n, by omega, fun pre rest => ?_⟩
    rw [decode, drop_left]
    show decodeMore _ (more.take n ++ rest) (pre.length + 1) c (firstGroup c) = _
    rw [hall, Nat.add_assoc, Nat.add_comm 1 n]

end Vlq
