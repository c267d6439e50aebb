/-
Runs of an event system.

A system is a step function `step : S → E → S`.  `Along step P s es` says that
every step of the run `es` from `s` meets `P`, a condition on the state before
the step and the event taken.  Conditions under which a program is right and
the properties it then has are both stated this way, and the inductions that
relate them are here:

* `final_of_invariant` — if an invariant is kept by the steps that meet `G`, a run
  all of whose steps meet `G` ends in a state with the invariant;
* `along_iff_of_invariant` — if under an invariant `P` and `Q` are the same
  condition on a step, they are the same condition on a run;
* `final_of_simulation` — two systems related before a run are related after it;
* `total_le_of_budget` — steps that pay from a budget cost at most the budget.
-/
import Mathlib.Data.List.Basic

open List

namespace Runs

variable {S E : Type*} (step : S → E → S)

/-- Every step of the run `es` from `s` meets `P`. -/
def Along (P : S → E → Prop) : S → List E → Prop
  | _, [] => True
  | s, e :: es => P s e ∧ Along P (step s e) es

/-- The state after the run. -/
def final (s : S) (es : List E) : S := es.foldl step s

variable {step}

section

variable (P : S → E → Prop) (s : S) (e : E) (es : List E)

@[simp] theorem along_nil : Along step P s [] := trivial

@[simp] theorem along_cons :
    Along step P s (e :: es) ↔ P s e ∧ Along step P (step s e) es := Iff.rfl

@[simp] theorem final_nil : final step s [] = s := rfl

@[simp] theorem final_cons :
    final step s (e :: es) = final step (step s e) es := rfl

theorem final_append (fs : List E) :
    final step s (es ++ fs) = final step (final step s es) fs := foldl_append

end

variable {I : S → Prop} {P : S → E → Prop} {G : E → Prop} {s : S} {es : List E}

theorem along_append {es fs : List E} :
    Along step P s (es ++ fs) ↔ Along step P s es ∧ Along step P (final step s es) fs := by
  induction es generalizing s with
  | nil => exact (iff_of_eq (true_and _)).symm
  | cons e es ih => rw [cons_append, along_cons, along_cons, ih, final_cons, and_assoc]

/-- A condition holds along a run just if it holds at each event, after those before it. -/
theorem along_iff_forall_split : Along step P s es ↔
    ∀ before e after, es = before ++ e :: after → P (final step s before) e := by
  constructor
  · rintro h before e after rfl
    exact (along_append.mp h).2.1
  · intro h
    induction es generalizing s with
    | nil => trivial
    | cons e es ih =>
      refine ⟨h [] e es rfl, ih fun before e' after hes => ?_⟩
      exact h (e :: before) e' after (by rw [hes, cons_append])

/-- What holds at every point of a run holds at its begin, and at every point after the first
event. -/
theorem forall_prefix_cons {P : List E → Prop} {e : E} :
    (∀ done, done <+: e :: es → P done) ↔ P [] ∧ ∀ done, done <+: es → P (e :: done) := by
  constructor
  · intro h
    exact ⟨h [] nil_prefix, fun done hdone => h _ (cons_prefix_cons.mpr ⟨rfl, hdone⟩)⟩
  · rintro ⟨hnil, hcons⟩ (_ | ⟨e', done⟩) hdone
    · exact hnil
    · obtain ⟨rfl, hdone'⟩ := cons_prefix_cons.mp hdone
      exact hcons done hdone'

theorem along_iff_of_invariant {P Q : S → E → Prop} (hkeep : ∀ s e, I s → P s e → I (step s e))
    (hiff : ∀ s e, I s → (P s e ↔ Q s e)) (hs : I s) : Along step P s es ↔ Along step Q s es := by
  induction es generalizing s with
  | nil => exact Iff.rfl
  | cons e es ih =>
    rw [along_cons, along_cons, ← hiff s e hs]
    exact and_congr_right fun h => ih (hkeep s e hs h)

/-- Steps that meet `G` from states with an invariant meet `P` and keep the invariant. -/
theorem along_of_along {G P : S → E → Prop} (h : ∀ s e, I s → G s e → P s e ∧ I (step s e))
    (hs : I s) (hG : Along step G s es) : Along step P s es := by
  induction es generalizing s with
  | nil => exact trivial
  | cons e es ih =>
    obtain ⟨hP, hs'⟩ := h s e hs hG.1
    exact ⟨hP, ih hs' hG.2⟩

/-- A condition on the events alone holds along a run just if it holds of all of them. -/
theorem along_const (s : S) : Along step (fun _ e => G e) s es ↔ ∀ e ∈ es, G e := by
  induction es generalizing s with
  | nil => simp
  | cons e es ih => rw [along_cons, ih, forall_mem_cons]

theorem final_of_invariant {G : S → E → Prop} (hkeep : ∀ s e, I s → G s e → I (step s e)) (hs : I s)
    (h : Along step G s es) : I (final step s es) := by
  induction es generalizing s with
  | nil => exact hs
  | cons e es ih => exact ih (hkeep s e hs h.1) h.2

theorem final_of_kept (hkeep : ∀ s e, I s → I (step s e)) (hs : I s) (es : List E) :
    I (final step s es) := by
  induction es generalizing s with
  | nil => exact hs
  | cons e es ih => exact ih (hkeep s e hs)

/-- What an invariant gives at every event of a kind holds along the runs of such events. -/
theorem along_of_invariant (hkeep : ∀ s e, I s → G e → I (step s e)) (h : ∀ s e, I s → G e → P s e)
    (hs : I s) (hes : ∀ e ∈ es, G e) : Along step P s es := by
  induction es generalizing s with
  | nil => exact trivial
  | cons e es ih =>
    obtain ⟨he, hes⟩ := forall_mem_cons.mp hes
    exact ⟨h s e hs he, ih (hkeep s e hs he) hes⟩

theorem along_of_kept (hkeep : ∀ s e, I s → I (step s e)) (h : ∀ s e, I s → P s e) (hs : I s)
    (es : List E) : Along step P s es :=
  along_of_invariant (G := fun _ => True) (fun s e hs _ => hkeep s e hs) (fun s e hs _ => h s e hs)
    hs fun _ _ => trivial

theorem along_of_forall (h : ∀ e ∈ es, G e) : Along step (fun _ e => G e) s es :=
  (along_const s).mpr h

theorem final_of_simulation {S' : Type*} {step' : S' → E → S'} {R : S → S' → Prop}
    (hstep : ∀ s s' e, R s s' → G e → R (step s e) (step' s' e)) {s' : S'} (hs : R s s')
    (h : ∀ e ∈ es, G e) : R (final step s es) (final step' s' es) := by
  induction es generalizing s s' with
  | nil => exact hs
  | cons e es ih => exact ih (hstep s s' e hs (h e (by simp))) fun x hx => h x (by simp [hx])

/-- The costs of the steps of a run, added up. -/
def total (step : S → E → S) (cost : S → E → ℕ) : S → List E → ℕ
  | _, [] => 0
  | s, e :: es => cost s e + total step cost (step s e) es

theorem total_le_of_budget {cost : S → E → ℕ} {B : S → ℕ}
    (hpay : ∀ s e, G e → cost s e + B (step s e) ≤ B s) (h : ∀ e ∈ es, G e) :
    total step cost s es ≤ B s := by
  induction es generalizing s with
  | nil => exact Nat.zero_le _
  | cons e es ih =>
    obtain ⟨he, hes⟩ := forall_mem_cons.mp h
    exact Nat.le_trans (Nat.add_le_add_left (ih hes) _) (hpay s e he)

end Runs
