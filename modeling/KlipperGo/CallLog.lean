/-
Computations that call out, with a log of the calls.

A call is known by its label.  It is logged when it is made; then it panics, if
the surroundings say so for that label, or it acts on the world and returns.

* `Calls x cs` — the computation makes the calls `cs`, in this order, until one of
  them panics;
* `CallsOnly x P` — every call that the computation makes meets `P`;
* `CallsFirst x cs P` — it makes the calls `cs` until one of them panics, and then
  only calls that meet `P`.

All of them follow the structure of a `do` block.
-/
import KlipperGo.Returns
import Mathlib.Data.List.Basic

namespace CallLog

open Outcome List

/-- A world, and the calls made so far. -/
structure Logged (σ C : Type) where
  world : σ
  log : List C

section Defs

variable {ε σ C α : Type} (panics : C → Option ε)

/-- The call labelled `c`, which acts on the world by `act`. -/
def call (c : C) (act : σ → α × σ) : EStateM ε (Logged σ C) α := fun s =>
  match panics c with
  | some e => .error e { s with log := s.log ++ [c] }
  | none => .ok (act s.world).1 { world := (act s.world).2, log := s.log ++ [c] }

/-- The calls up to the first one that panics, which is made too. -/
def cut : List C → List C
  | [] => []
  | c :: cs => if (panics c).isSome then [c] else c :: cut cs

/-- The state a computation leaves, whether it returns or panics. -/
def stateOf : EStateM.Result ε σ α → σ
  | .ok _ s => s
  | .error _ s => s

variable (x : EStateM ε (Logged σ C) α)

/-- The computation makes the calls `cs`, until one of them panics. -/
def Calls (cs : List C) : Prop :=
  ∀ s, match x s with
    | .ok _ s' => s'.log = s.log ++ cs ∧ ∀ c ∈ cs, panics c = none
    | .error _ s' => s'.log = s.log ++ cut panics cs ∧ ∃ c ∈ cs, panics c ≠ none

/-- Every call that the computation makes meets `P`. -/
def CallsOnly (P : C → Prop) : Prop :=
  ∀ s, ∃ cs, (stateOf (x s)).log = s.log ++ cs ∧ ∀ c ∈ cs, P c

/-- First the calls `cs`, until one of them panics, then calls that meet `P`. -/
def CallsFirst (cs : List C) (P : C → Prop) : Prop :=
  ∀ s, ∃ rest, (stateOf (x s)).log = s.log ++ cut panics cs ++ rest ∧ ∀ c ∈ rest, P c

end Defs

variable {ε σ C α β : Type} {panics : C → Option ε} {cs ds : List C}
  {f : α → EStateM ε (Logged σ C) β}

/-! ### The calls that are made -/

theorem cut_append_of_none (h : ∀ c ∈ cs, panics c = none) :
    cut panics (cs ++ ds) = cs ++ cut panics ds := by
  induction cs with
  | nil => rfl
  | cons c cs ih =>
    rw [cons_append, cut, if_neg (by simp [h c (by simp)]),
      ih fun d hd => h d (by simp [hd]), cons_append]

theorem cut_append_of_some (h : ∃ c ∈ cs, panics c ≠ none) :
    cut panics (cs ++ ds) = cut panics cs := by
  induction cs with
  | nil => simp at h
  | cons c cs ih =>
    rw [cons_append, cut, cut]
    split
    · rfl
    · rename_i hc
      obtain ⟨d, hd, hpanic⟩ := h
      rcases mem_cons.mp hd with rfl | hd
      · exact absurd (Option.isSome_iff_ne_none.mpr hpanic) hc
      · rw [ih ⟨d, hd, hpanic⟩]

theorem mem_cut_of_none {c : C} (h : ∀ c ∈ cs, panics c = none) :
    c ∈ cut panics (cs ++ c :: ds) := by
  rw [cut_append_of_none h, cut]
  split <;> simp

theorem mem_of_mem_cut {c : C} (h : c ∈ cut panics cs) : c ∈ cs := by
  induction cs with
  | nil => exact h
  | cons d cs ih =>
    rw [cut] at h
    split at h
    · rw [mem_singleton] at h
      simp [h]
    · rcases mem_cons.mp h with rfl | h
      · simp
      · exact mem_cons_of_mem d (ih h)

theorem calls_pure (a : α) : Calls panics (pure a : EStateM ε (Logged σ C) α) [] := by
  intro s
  exact ⟨(append_nil _).symm, by simp⟩

theorem calls_call (c : C) (act : σ → α × σ) : Calls panics (call panics c act) [c] := by
  intro s
  rw [call]
  cases hc : panics c with
  | some e => exact ⟨by simp [cut, hc], c, by simp, by simp [hc]⟩
  | none => exact ⟨rfl, by simp [hc]⟩

theorem Calls.bind {x : EStateM ε (Logged σ C) α}
    (hx : Calls panics x cs) (hf : ∀ a, Calls panics (f a) ds) :
    Calls panics (x >>= f) (cs ++ ds) := by
  intro s
  have hs := hx s
  rcases hxs : x s with ⟨a, s₁⟩ | ⟨e, s₁⟩ <;> rw [hxs] at hs
  · obtain ⟨hlog, hnone⟩ := hs
    have hfs := hf a s₁
    rw [bind_ok hxs]
    rcases hfa : f a s₁ with ⟨b, s₂⟩ | ⟨e, s₂⟩ <;> rw [hfa] at hfs
    · obtain ⟨hlog', hnone'⟩ := hfs
      refine ⟨by rw [hlog', hlog, append_assoc], fun c hc => ?_⟩
      exact (mem_append.mp hc).elim (hnone c) (hnone' c)
    · obtain ⟨hlog', c, hc, hpanic⟩ := hfs
      refine ⟨?_, c, by simp [hc], hpanic⟩
      rw [hlog', hlog, cut_append_of_none hnone, append_assoc]
  · obtain ⟨hlog, c, hc, hpanic⟩ := hs
    rw [bind_error hxs]
    refine ⟨?_, c, by simp [hc], hpanic⟩
    rw [hlog, cut_append_of_some ⟨c, hc, hpanic⟩]

/-! ### What the calls are -/

variable {P : C → Prop} {x : EStateM ε (Logged σ C) α}

theorem Calls.only (hx : Calls panics x cs) (h : ∀ c ∈ cs, P c) : CallsOnly x P := by
  intro s
  have hs := hx s
  rcases hxs : x s with ⟨a, s₁⟩ | ⟨e, s₁⟩ <;> rw [hxs] at hs
  · exact ⟨cs, hs.1, h⟩
  · exact ⟨cut panics cs, hs.1, fun c hc => h c (mem_of_mem_cut hc)⟩

theorem callsOnly_pure (a : α) : CallsOnly (pure a : EStateM ε (Logged σ C) α) P :=
  fun s => ⟨[], (append_nil _).symm, by simp⟩

theorem CallsOnly.first (hx : CallsOnly x P) : CallsFirst panics x [] P := by
  intro s
  obtain ⟨rest, hlog, hrest⟩ := hx s
  exact ⟨rest, by rw [hlog, cut, append_nil], hrest⟩

theorem Calls.first (hx : Calls panics x cs)
    (hf : ∀ a, CallsFirst panics (f a) ds P) : CallsFirst panics (x >>= f) (cs ++ ds) P := by
  intro s
  have hs := hx s
  rcases hxs : x s with ⟨a, s₁⟩ | ⟨e, s₁⟩ <;> rw [hxs] at hs
  · obtain ⟨hlog, hnone⟩ := hs
    obtain ⟨rest, hlog', hrest⟩ := hf a s₁
    rw [bind_ok hxs]
    exact ⟨rest, by rw [hlog', hlog, cut_append_of_none hnone]; simp, hrest⟩
  · obtain ⟨hlog, hsome⟩ := hs
    rw [bind_error hxs]
    exact ⟨[], by rw [cut_append_of_some hsome, append_nil]; exact hlog, by simp⟩

theorem CallsOnly.bind (hx : CallsOnly x P)
    (hf : ∀ a, CallsOnly (f a) P) : CallsOnly (x >>= f) P := by
  intro s
  obtain ⟨cs, hlog, hcs⟩ := hx s
  rcases hxs : x s with ⟨a, s₁⟩ | ⟨e, s₁⟩ <;> rw [hxs] at hlog
  · obtain ⟨ds, hlog', hds⟩ := hf a s₁
    rw [bind_ok hxs]
    refine ⟨cs ++ ds, ?_, fun c hc => (mem_append.mp hc).elim (hcs c) (hds c)⟩
    rw [hlog', show s₁.log = s.log ++ cs from hlog, append_assoc]
  · rw [bind_error hxs]
    exact ⟨cs, hlog, hcs⟩

end CallLog
