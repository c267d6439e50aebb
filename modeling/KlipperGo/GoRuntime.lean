/-
Reads that the run-time checks.

An index or a slice bound outside a list is a panic, and so is a type assertion
that fails; a computation that may panic is an `Except Panic`.

* `index_of_lt`, `slice_of_le` — reads within the list return its elements;
* `drop_of_index`, `eq_of_slice` — what a read that returned has read.
-/
import Mathlib.Data.List.Basic

namespace GoRuntime

inductive Panic where
  | indexOutOfRange (i len : ℕ)
  | sliceOutOfRange (lo hi len : ℕ)
  | typeAssertion
  | value (texts : List String)
  deriving DecidableEq, Repr

variable {α : Type*}

/-- `s[i]`. -/
def index (s : List α) (i : ℕ) : Except Panic α :=
  match s[i]? with
  | some a => .ok a
  | none => .error (.indexOutOfRange i s.length)

/-- `s[lo:hi]`. -/
def slice (s : List α) (lo hi : ℕ) : Except Panic (List α) :=
  if lo ≤ hi ∧ hi ≤ s.length then .ok ((s.take hi).drop lo)
  else .error (.sliceOutOfRange lo hi s.length)

variable {s : List α} {i : ℕ}

theorem index_of_getElem? {a : α} (h : s[i]? = some a) : index s i = .ok a := by
  rw [index, h]

theorem index_of_lt (h : i < s.length) (d : α) : index s i = .ok (s.getD i d) := by
  have hget := List.getElem?_eq_getElem h
  rw [index_of_getElem? hget, List.getD_eq_getElem?_getD, hget, Option.getD_some]

theorem drop_of_index {a : α} (h : index s i = .ok a) : s.drop i = a :: s.drop (i + 1) := by
  have hget : s[i]? = some a := by
    unfold index at h
    split at h
    · next b hb =>
      cases h
      exact hb
    · cases h
  obtain ⟨hlt, rfl⟩ := List.getElem?_eq_some_iff.mp hget
  exact List.drop_eq_getElem_cons hlt

theorem slice_of_le {lo hi : ℕ} (hlo : lo ≤ hi) (hhi : hi ≤ s.length) :
    slice s lo hi = .ok ((s.take hi).drop lo) := if_pos ⟨hlo, hhi⟩

theorem eq_of_slice {s t : List α} {lo hi : ℕ} (h : slice s lo hi = .ok t) :
    t = (s.take hi).drop lo := by
  unfold slice at h
  split at h
  · cases h
    rfl
  · cases h

/-- An early return: past it, the condition is known to fail. -/
theorem ite_return {c : Prop} [Decidable c] {a b : α} {x : Except Panic α}
    (h : ¬ c → x = .ok b) : (if c then pure a else x) = .ok (if c then a else b) := by
  by_cases hc : c
  · rw [if_pos hc, if_pos hc]
    rfl
  · rw [if_neg hc, if_neg hc, h hc]

end GoRuntime
