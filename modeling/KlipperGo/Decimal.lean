/-
Decimal numerals as ends of texts.

* `toDigits_of_append` — a proper beginning of a numeral is a numeral;
* `toString_of_append` — a proper beginning of an integer's numeral is a sign, or the
  numeral of an integer between it and zero;
* `append_toString_inj` — when two texts with an integer behind them are equal, the
  texts are, or one of them is the other with a sign or such an integer behind it.
-/
import Mathlib.Data.List.Induction
import Mathlib.Data.Int.Basic
import Mathlib.Order.Interval.Set.UnorderedInterval

open List Nat

namespace Decimal

theorem toDigits_of_append {k : ℕ} {d e : List Char} (hd : d ≠ []) (he : e ≠ [])
    (h : toDigits 10 k = d ++ e) : ∃ j, 0 < j ∧ j ≤ k ∧ d = toDigits 10 j := by
  -- the last digit is taken off until only the beginning is left
  induction e using List.reverseRecOn generalizing k with
  | nil => exact absurd rfl he
  | append_singleton e c ih =>
    have hk : 10 ≤ k := by
      by_contra hlt
      rw [toDigits_of_lt_base (Nat.not_le.mp hlt), ← append_assoc] at h
      have hlen := congrArg List.length h
      have hpos := length_pos_iff.mpr hd
      simp only [length_singleton, length_append] at hlen
      omega
    rw [toDigits_of_base_le (by decide) hk, ← append_assoc] at h
    obtain ⟨hinit, -⟩ := append_inj' h rfl
    by_cases hempty : e = []
    · rw [hempty, append_nil] at hinit
      exact ⟨k / 10, by omega, by omega, hinit.symm⟩
    · obtain ⟨j, hpos, hle, hj⟩ := ih hempty hinit
      exact ⟨j, hpos, by omega, hj⟩

/-- The numeral of an integer. -/
theorem toList_toString (k : ℤ) : (toString k).toList = if 0 ≤ k then toDigits 10 k.toNat
      else '-' :: toDigits 10 (-k).toNat := by
  rw [Int.toString_eq_repr, Int.repr_eq_if]
  split <;> simp [repr_eq_ofList_toDigits]

theorem toList_toString_nat (n : ℕ) : (toString (n : ℤ)).toList = toDigits 10 n := by
  rw [toList_toString, if_pos (Int.natCast_nonneg n), Int.toNat_natCast]

theorem toString_ne_nil (k : ℤ) : (toString k).toList ≠ [] := by
  rw [toList_toString]
  split
  · exact toDigits_ne_nil
  · exact cons_ne_nil _ _

theorem toDigits_inj {m n : ℕ} (h : toDigits 10 m = toDigits 10 n) : m = n := by
  have hvalue := congrArg (fun ds => Nat.ofDigitChars 10 ds 0) h
  simpa [ofDigitChars_toDigits] using hvalue

theorem sign_notMem_toDigits (n : ℕ) : '-' ∉ toDigits 10 n := fun h =>
  absurd (isDigit_of_mem_toDigits (by decide) (by decide) h) (by decide)

theorem toString_inj {k l : ℤ} (h : (toString k).toList = (toString l).toList) : k = l := by
  rw [toList_toString, toList_toString] at h
  split at h <;> split at h
  · have heq := toDigits_inj h
    omega
  · exact absurd (h ▸ mem_cons_self) (sign_notMem_toDigits k.toNat)
  · exact absurd (h ▸ mem_cons_self) (sign_notMem_toDigits l.toNat)
  · have heq := toDigits_inj (cons.inj h).2
    omega

theorem toString_of_append {k : ℤ} {d e : List Char} (hd : d ≠ []) (he : e ≠ [])
    (h : (toString k).toList = d ++ e) :
    d = ['-'] ∨ ∃ j ∈ Set.uIcc 0 k, d = (toString j).toList := by
  rw [toList_toString] at h
  split at h
  · obtain ⟨j, -, hle, hj⟩ := toDigits_of_append hd he h
    refine .inr ⟨j, Set.mem_uIcc.mpr (by omega), ?_⟩
    rw [toList_toString_nat, hj]
  · obtain ⟨c, d, rfl⟩ := exists_cons_of_ne_nil hd
    obtain ⟨rfl, htail⟩ := cons.inj h
    by_cases hempty : d = []
    · exact .inl (by rw [hempty])
    · obtain ⟨j, hpos, hle, hj⟩ := toDigits_of_append hempty he htail
      refine .inr ⟨-j, Set.mem_uIcc.mpr (by omega), ?_⟩
      rw [toList_toString, if_neg (by omega), Int.neg_neg, Int.toNat_natCast, hj]

/-- Whether a text ends in a numeral can be read in one way only, unless the rest of the text ends
in one, or in a sign. -/
theorem append_toString_inj {a b : String} {k l : ℤ} (h : a ++ toString k = b ++ toString l) :
    a = b ∧ k = l ∨ (b = a ++ "-" ∨ ∃ j ∈ Set.uIcc 0 k, b = a ++ toString j) ∨
      (a = b ++ "-" ∨ ∃ j ∈ Set.uIcc 0 l, a = b ++ toString j) := by
  have hlist : a.toList ++ (toString k).toList = b.toList ++ (toString l).toList := by
    rw [← String.toList_append, ← String.toList_append, h]
  -- the longer text is the shorter one with a beginning of a numeral behind it
  have hlonger {x y : String} {m n : ℤ} {d : List Char} (hd : d ≠ [])
      (hx : x.toList = y.toList ++ d) (hm : (toString n).toList = d ++ (toString m).toList) :
      x = y ++ "-" ∨ ∃ j ∈ Set.uIcc 0 n, x = y ++ toString j := by
    rcases toString_of_append hd (toString_ne_nil m) hm with rfl | ⟨j, hj, rfl⟩
    · exact .inl (String.toList_inj.mp (by rw [hx, String.toList_append]; rfl))
    · exact .inr ⟨j, hj, String.toList_inj.mp (by rw [hx, String.toList_append])⟩
  rcases append_eq_append_iff.mp hlist with ⟨d, hb, hk⟩ | ⟨d, ha, hl⟩
  · by_cases hd : d = []
    · subst hd
      rw [append_nil] at hb
      exact .inl ⟨String.toList_inj.mp hb.symm, toString_inj hk⟩
    · exact .inr (.inl (hlonger hd hb hk))
  · by_cases hd : d = []
    · subst hd
      rw [append_nil] at ha
      exact .inl ⟨String.toList_inj.mp ha, toString_inj hl.symm⟩
    · exact .inr (.inr (hlonger hd ha hl))

end Decimal
