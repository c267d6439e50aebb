/-
Postconditions of computations that may fail.

`Returns x Q` says that `x` returns, and with a value that meets `Q`: the
computation does not fail.  `Gives x s Q` says of a computation with a state that if
it returns from `s`, the value and the new state meet `Q`.  The rules follow the
structure of a `do` block.
-/
import Mathlib.Tactic.Common

namespace Outcome

universe u v

variable {ε : Type u} {α β : Type v} {x : Except ε α} {Q R : α → Prop}

/-- The computation returns a value that meets `Q`. -/
def Returns (x : Except ε α) (Q : α → Prop) : Prop := ∃ a, x = .ok a ∧ Q a

theorem returns_ok {a : α} (h : Q a) : Returns (.ok a : Except ε α) Q := ⟨a, rfl, h⟩

theorem returns_ok_iff {a : α} : Returns (.ok a : Except ε α) Q ↔ Q a := by
  refine ⟨?_, returns_ok⟩
  rintro ⟨b, hb, h⟩
  cases hb
  exact h

variable {f : α → Except ε β}

theorem Returns.bind {R : β → Prop} (hx : Returns x Q) (hf : ∀ a, Q a → Returns (f a) R) :
    Returns (x >>= f) R := by
  obtain ⟨a, rfl, ha⟩ := hx
  exact hf a ha

theorem Returns.mono (hx : Returns x Q) (h : ∀ a, Q a → R a) : Returns x R := by
  obtain ⟨a, rfl, ha⟩ := hx
  exact ⟨a, rfl, h a ha⟩

/-- A loop keeps what each of its steps keeps. -/
theorem returns_foldlM {g : β → α → Except ε β} {I : β → Prop}
    (hstep : ∀ b a, I b → Returns (g b a) I) {b : β} (hb : I b) (as : List α) :
    Returns (as.foldlM g b) I := by
  induction as generalizing b with
  | nil => exact returns_ok hb
  | cons a as ih => exact (hstep b a hb).bind fun b hb => ih hb

theorem bind_eq_ok {b : β} (h : (x >>= f) = .ok b) : ∃ a, x = .ok a ∧ f a = .ok b := by
  rcases x with e | a
  · cases h
  · exact ⟨a, rfl, h⟩

theorem bind_eq_error {e : ε} (h : (x >>= f) = .error e) :
    x = .error e ∨ ∃ a, x = .ok a ∧ f a = .error e := by
  rcases x with e' | a
  · cases h
    exact .inl rfl
  · exact .inr ⟨a, rfl, h⟩

/-! ### Computations with a state -/

variable {ε σ α β : Type u} {x : EStateM ε σ α}

theorem bind_ok {s s' : σ} {a : α} (h : x s = .ok a s')
    (f : α → EStateM ε σ β) : (x >>= f) s = f a s' := by
  simp [Bind.bind, EStateM.bind, h]

theorem bind_get (s : σ) (f : σ → EStateM ε σ β) : (get >>= f) s = f s s := rfl

theorem bind_modify (g : σ → σ) (s : σ) (f : PUnit → EStateM ε σ β) :
    (modify g >>= f) s = f ⟨⟩ (g s) := rfl

theorem bind_error {s s' : σ} {e : ε} (h : x s = .error e s')
    (f : α → EStateM ε σ β) : (x >>= f) s = .error e s' := by
  simp [Bind.bind, EStateM.bind, h]

/-! ### Results of a computation with a state -/

variable {x : EStateM ε σ α} {s : σ} {Q : α → σ → Prop} {R : β → σ → Prop}

/-- If the computation returns from `s`, its value and the state it leaves meet `Q`. -/
def Gives (x : EStateM ε σ α) (s : σ) (Q : α → σ → Prop) : Prop :=
  ∀ a s', x s = .ok a s' → Q a s'

theorem gives_pure {a : α} (h : Q a s) : Gives (pure a : EStateM ε σ α) s Q := by
  rintro a' s' ⟨⟩
  exact h

theorem Gives.bind {f : α → EStateM ε σ β} (hx : Gives x s Q)
    (hf : ∀ a s', Q a s' → Gives (f a) s' R) : Gives (x >>= f) s R := by
  intro b s₂ h
  rcases hs : x s with ⟨a, s₁⟩ | ⟨e₁, s₁⟩
  · rw [bind_ok hs] at h
    exact hf a s₁ (hx a s₁ hs) b s₂ h
  · rw [bind_error hs] at h
    cases h

theorem gives_get_bind {f : σ → EStateM ε σ β} (hf : Gives (f s) s R) : Gives (get >>= f) s R := hf

theorem gives_modify_bind {g : σ → σ} {f : PUnit → EStateM ε σ β} (hf : Gives (f ⟨⟩) (g s) R) :
    Gives (modify g >>= f) s R := hf

theorem Gives.mono {Q' : α → σ → Prop} (hx : Gives x s Q) (h : ∀ a s', Q a s' → Q' a s') :
    Gives x s Q' :=
  fun a s' hs => h a s' (hx a s' hs)

end Outcome
