/-
Backward reachability along a list.

Every item of a list carries a limit `lim` and an increment `δ`.  Reading the
list from its end, the value `reach lim δ l` that can be taken in front of `l`
is bounded by the limit of the first item and by what is reachable behind it
plus the item's increment; behind the last item it is `0`.  (A trapezoidal
motion planner computes junction speeds this way, with squared speeds for the
limits and `2 · distance · acceleration` for the increments.)

* `Slack` — the first item's limit is strictly below what is reachable, so the
  limit is what decides (`reach_of_slack`), and longer lists keep it so
  (`Slack.append`).
-/
import Mathlib.Algebra.Order.Field.Basic
import Mathlib.Tactic.Linarith

namespace BackwardReach

variable {α K : Type*} [Field K] [LinearOrder K]

/-- The value reachable in front of the list. -/
def reach (lim δ : α → K) : List α → K
  | [] => 0
  | m :: l => min (lim m) (reach lim δ l + δ m)

variable (lim δ : α → K) (m : α) (l : List α)

/-- The limit of `m` is strictly below what the items behind it allow. -/
def Slack : Prop :=
  lim m < reach lim δ l + δ m

@[simp] theorem reach_nil : reach lim δ [] = 0 := rfl

theorem reach_cons : reach lim δ (m :: l) = min (lim m) (reach lim δ l + δ m) := rfl

theorem reach_le_lim : reach lim δ (m :: l) ≤ lim m := min_le_left _ _

theorem reach_le_add : reach lim δ (m :: l) ≤ reach lim δ l + δ m := min_le_right _ _

theorem reach_of_slack {lim δ : α → K} {m : α} {l : List α} (h : Slack lim δ m l) :
    reach lim δ (m :: l) = lim m := min_eq_left (le_of_lt h)

variable [IsStrictOrderedRing K] {lim δ lim' δ' : α → K}

theorem reach_nonneg {l : List α} (h : ∀ m ∈ l, 0 ≤ lim m ∧ 0 ≤ δ m) : 0 ≤ reach lim δ l := by
  induction l with
  | nil => exact le_rfl
  | cons m l ih =>
    have hm := h m (by simp)
    have hl := ih fun x hx => h x (by simp [hx])
    exact le_min hm.1 (add_nonneg hl hm.2)

/-- Items added behind the list only raise the value in front of it. -/
theorem reach_le_append {l c : List α} (h : ∀ m ∈ l ++ c, 0 ≤ lim m ∧ 0 ≤ δ m) :
    reach lim δ l ≤ reach lim δ (l ++ c) := by
  induction l with
  | nil => exact reach_nonneg h
  | cons m l ih =>
    have hl := ih fun x hx => h x (by simp_all)
    exact min_le_min_left _ (add_le_add_left hl _)

theorem Slack.append {m : α} {l c : List α} (hs : Slack lim δ m l)
    (h : ∀ x ∈ l ++ c, 0 ≤ lim x ∧ 0 ≤ δ x) : Slack lim δ m (l ++ c) :=
  lt_of_lt_of_le hs (add_le_add_left (reach_le_append h) _)

/-- Tighter limits and increments reach no more.  An item whose looser limit is
`0` needs no bound on its increments: nothing is reachable there either way. -/
theorem reach_mono {l : List α} (hδ' : ∀ m ∈ l, 0 ≤ δ' m)
    (h : ∀ m ∈ l, 0 ≤ lim m ∧ lim m ≤ lim' m ∧ (lim' m = 0 ∨ δ m ≤ δ' m)) :
    reach lim δ l ≤ reach lim' δ' l := by
  induction l with
  | nil => exact le_rfl
  | cons m l ih =>
    have hl := ih (fun x hx => hδ' x (by simp [hx])) fun x hx => h x (by simp [hx])
    obtain ⟨h0, hle, hcase⟩ := h m (by simp)
    have hnn : 0 ≤ reach lim' δ' l := reach_nonneg fun x hx =>
      have hx' := h x (by simp [hx])
      ⟨hx'.1.trans hx'.2.1, hδ' x (by simp [hx])⟩
    rcases hcase with hzero | hinc
    · have hδm := hδ' m (by simp)
      exact (min_le_left _ _).trans (le_min hle (by linarith))
    · exact min_le_min hle (add_le_add hl hinc)

end BackwardReach
