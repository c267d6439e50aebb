/-
Slices that share arrays.

A slice is an array and a length.  Appending to a slice writes into its array as long as there
is room behind it, and into a new array else; copying within a slice writes into its array.  So
slices of one array can see each other's writes.

* `elements_alloc`, `elements_append` — what a new slice holds;
* `Valid.elements_alloc`, `Valid.elements_append` — what an older slice still holds.
-/
import Mathlib.Data.List.Basic
import Mathlib.Order.Lattice
import Mathlib.Order.Nat

open List Function

namespace GoSlice

variable {α : Type*}

/-- The arrays with the elements written so far, and how many there is room for. -/
structure Heap (α : Type*) where
  arrays : ℕ → List α
  capacity : ℕ → ℕ
  fresh : ℕ

/-- The first elements of an array. -/
structure Slice where
  array : ℕ
  len : ℕ

namespace Heap

variable (room : ℕ → ℕ) (h : Heap α) (s : Slice)

def elements : List α := (h.arrays s.array).take s.len

/-- A new array.  How much room there is behind its elements is up to the run time. -/
def alloc (xs : List α) : Heap α × Slice :=
  ({ arrays := update h.arrays h.fresh xs
     capacity := update h.capacity h.fresh (xs.length + room h.fresh)
     fresh := h.fresh + 1 },
    ⟨h.fresh, xs.length⟩)

/-- `append(s, x)`. -/
def append (x : α) : Heap α × Slice :=
  if s.len < h.capacity s.array then
    let array := h.arrays s.array
    ({ h with
        arrays := update h.arrays s.array
          (array.take s.len ++ x :: array.drop (s.len + 1)) },
      ⟨s.array, s.len + 1⟩)
  else h.alloc room (h.elements s ++ [x])

/-- `s[:copy(s, s[i:])]`. -/
def copyDown (i : ℕ) : Heap α × Slice :=
  let moved := (h.elements s).drop i
  ({ h with
      arrays := update h.arrays s.array
        (moved ++ (h.arrays s.array).drop moved.length) },
    ⟨s.array, moved.length⟩)

structure Valid (h : Heap α) (s : Slice) : Prop where
  array_lt : s.array < h.fresh
  len_le : s.len ≤ (h.arrays s.array).length

end Heap

variable {room : ℕ → ℕ} {h : Heap α} {s t : Slice} {x : α} {xs : List α}

theorem Heap.Valid.length_elements (hs : h.Valid s) : (h.elements s).length = s.len := by
  rw [Heap.elements, length_take]
  exact min_eq_left hs.len_le

section

variable (room : ℕ → ℕ) (h : Heap α) (xs : List α)

theorem getElem?_array {s : Slice} {k : ℕ} (hk : k < s.len) :
    (h.arrays s.array)[k]? = (h.elements s)[k]? := by
  rw [Heap.elements, getElem?_take, if_pos hk]

/-! ### New arrays -/

theorem elements_alloc : (h.alloc room xs).1.elements (h.alloc room xs).2 = xs := by
  simp [Heap.alloc, Heap.elements]

theorem valid_alloc : (h.alloc room xs).1.Valid (h.alloc room xs).2 :=
  ⟨Nat.lt_succ_self _, by simp [Heap.alloc]⟩

end

/-- A new array does not touch the ones there are. -/
theorem Heap.Valid.elements_alloc (ht : h.Valid t) (room : ℕ → ℕ) (xs : List α) :
    (h.alloc room xs).1.Valid t ∧ (h.alloc room xs).1.elements t = h.elements t ∧
      t.array ≠ (h.alloc room xs).2.array := by
  have hne : t.array ≠ h.fresh := ht.array_lt.ne
  have harray : (h.alloc room xs).1.arrays t.array = h.arrays t.array :=
    update_of_ne hne _ _
  refine ⟨⟨ht.array_lt.trans (Nat.lt_succ_self _), ?_⟩, ?_, hne⟩
  · rw [harray]
    exact ht.len_le
  · rw [Heap.elements, Heap.elements, harray]

/-! ### Appending -/

theorem elements_append (hs : h.Valid s) (room : ℕ → ℕ) (x : α) :
    (h.append room s x).1.Valid (h.append room s x).2 ∧
      (h.append room s x).1.elements (h.append room s x).2 = h.elements s ++ [x] := by
  rw [Heap.append]
  split
  · have hlen : ((h.arrays s.array).take s.len).length = s.len := hs.length_elements
    refine ⟨⟨hs.array_lt, ?_⟩, ?_⟩
    · simp [hs.len_le]
    · simp only [Heap.elements, update_self]
      rw [take_append, hlen, Nat.add_sub_cancel_left, take_take, min_eq_right (by omega)]
      rfl
  · exact ⟨valid_alloc _ _ _, GoSlice.elements_alloc _ _ _⟩

/-- An append does not touch a slice of the same array that is not longer. -/
theorem Heap.Valid.elements_append (ht : h.Valid t) (hs : h.Valid s)
    (hle : t.array = s.array → t.len ≤ s.len) (room : ℕ → ℕ) (x : α) :
    (h.append room s x).1.Valid t ∧ (h.append room s x).1.elements t = h.elements t ∧
      (t.array = (h.append room s x).2.array → t.len ≤ (h.append room s x).2.len) := by
  rw [Heap.append]
  split
  · by_cases harray : t.array = s.array
    · have htle := hle harray
      have hlen : ((h.arrays s.array).take s.len).length = s.len := hs.length_elements
      refine ⟨⟨ht.array_lt, ?_⟩, ?_, fun _ => htle.trans (Nat.le_succ _)⟩
      · simp only [harray, update_self, length_append, length_cons, hlen]
        omega
      · simp only [Heap.elements, harray, update_self]
        rw [take_append_of_le_length (by rw [hlen]; exact htle), take_take, min_eq_left htle]
    · have hother : update h.arrays s.array ((h.arrays s.array).take s.len ++
          x :: (h.arrays s.array).drop (s.len + 1)) t.array = h.arrays t.array :=
        update_of_ne harray _ _
      refine ⟨⟨ht.array_lt, ?_⟩, ?_, fun h => absurd h harray⟩
      · simp only [hother]
        exact ht.len_le
      · simp only [Heap.elements, hother]
  · obtain ⟨hvalid, helements, hne⟩ := ht.elements_alloc room (h.elements s ++ [x])
    exact ⟨hvalid, helements, fun h => absurd h hne⟩

end GoSlice
