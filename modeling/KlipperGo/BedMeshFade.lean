/-
Bed mesh compensation (`internal/pkg/motion/bed_mesh/fade.go` and `BedMesh` of
`project/goklipper.go`).

A move is raised by the height of the mesh.  Between the fade start and the fade end the
correction is faded out, from the height of the mesh to the fade target.  From the position
of the toolhead the position that was asked for is computed again, with the fade factor
inferred from the corrected height.

* `BedMesh.move_spec` — a move ends where the mesh and the fade factor say;
* `untransformFactor_high`, `untransformFactor_mid`, `untransformFactor_low` — the factor
  that is inferred in the three ranges of heights.
-/
import KlipperGo.MoveSplitter
import Mathlib.Tactic.LinearCombination

namespace Mesh

open ExactArith GoRuntime Function Option
open Motion (Coord)

section Fade

variable {K : Type*} [Field K] [LinearOrder K]

def calcZFadeFactor (zPos fadeStart fadeEnd : K) : K :=
  if fadeEnd ≤ zPos then 0
  else if fadeStart ≤ zPos then (fadeEnd - zPos) / (fadeEnd - fadeStart)
  else 1

/-- The errors of `ResolveFadeTarget`, with the numbers in their texts. -/
inductive FadeError (K : Type*) where
  | targetOutside (minZ maxZ fadeTarget : K)
  | meshOutside (fadeDist minZ maxZ : K)
  deriving DecidableEq

def resolveFadeTarget (mesh : Option (ZMesh K)) (fadeEnabled : Bool)
    (fadeDist baseFadeTarget : K) : Except (FadeError K) (K × Bool) :=
  match mesh, fadeEnabled with
  | none, _ => .ok (0, false)
  | some _, false => .ok (0, false)
  | some mesh, true =>
    let (minZ, maxZ) := mesh.getZRange
    -- zero is not a target of its own, but stands for the average height
    let fadeTarget := if baseFadeTarget = 0 then mesh.avgZ else baseFadeTarget
    if baseFadeTarget ≠ 0 ∧ ¬ (minZ ≤ fadeTarget ∧ fadeTarget ≤ maxZ) then
      .error (.targetOutside minZ maxZ fadeTarget)
    else if fadeDist ≤ max |minZ| |maxZ| then .error (.meshOutside fadeDist minZ maxZ)
    else .ok (fadeTarget, true)

/-- `Constrain` of a quotient to the range from 0 to 1.  A number over zero is an infinity;
zero over zero is not a number. -/
def constrainRatio (num den : K) : Option K :=
  if den = 0 then
    if num = 0 then none
    else if 0 < num then some 1
    else some 0
  else some (constrain (num / den) 0 1)

/-- The factor of `CalculateUntransformedPosition`. -/
def untransformFactor (z maxAdj fadeStart fadeEnd fadeDist fadeTarget : K) : Option K :=
  -- the height that was asked for is not known: it is looked for between the height of the
  -- toolhead and the one without the whole correction
  if fadeEnd ≤ min z (z - maxAdj) then some 0
  else if fadeStart ≤ max z (z - maxAdj) then
    constrainRatio (fadeEnd + fadeTarget - z) (fadeDist - (maxAdj - fadeTarget))
  else some 1

/-- `CalculateUntransformedPosition`; no position if the height is not a number. -/
def calculateUntransformedPosition [FloorRing K] (toolheadPos : Coord K)
    (mesh : Option (ZMesh K)) (fadeStart fadeEnd fadeDist fadeTarget : K) : Option (Coord K) :=
  match mesh with
  | none => some (update toolheadPos 2 (toolheadPos 2 - fadeTarget))
  | some mesh =>
    let maxAdj := mesh.calcZ (toolheadPos 0) (toolheadPos 1)
    let zAdj := maxAdj - fadeTarget
    (untransformFactor (toolheadPos 2) maxAdj fadeStart fadeEnd fadeDist fadeTarget).map
      fun factor => update toolheadPos 2 (toolheadPos 2 - (factor * zAdj + fadeTarget))

end Fade

/-! ### The bed mesh -/

def fadeDisable {K : Type*} [NatCast K] : K := (0x7FFFFFFF : ℕ)

/-- The options of the section, as far as they are used here. -/
structure BedMeshConfig (K : Type*) [Field K] [LinearOrder K] where
  fadeStart : K
  fadeEnd : K
  fadeTarget : K
  splitDeltaZ : K
  moveCheckDistance : K
  moveCheckDistance_pos : 0 < moveCheckDistance

structure BedMesh (K : Type*) [Field K] [LinearOrder K] where
  lastPosition : Coord K
  zMesh : Option (ZMesh K)
  fadeStart : K
  fadeEnd : K
  fadeDist : K
  baseFadeTarget : K
  fadeTarget : K
  splitDeltaZ : K
  moveCheckDistance : K
  moveCheckDistance_pos : 0 < moveCheckDistance

section BedMesh

variable {K : Type*} [Field K] [LinearOrder K]

def newBedMesh (config : BedMeshConfig K) : BedMesh K :=
  let fadeDist := config.fadeEnd - config.fadeStart
  { lastPosition := fun _ => 0
    zMesh := none
    fadeStart := if fadeDist ≤ 0 then fadeDisable else config.fadeStart
    fadeEnd := if fadeDist ≤ 0 then fadeDisable else config.fadeEnd
    -- the distance stays as it is when the fade is disabled
    fadeDist := fadeDist
    baseFadeTarget := config.fadeTarget
    fadeTarget := 0
    splitDeltaZ := config.splitDeltaZ
    moveCheckDistance := config.moveCheckDistance
    moveCheckDistance_pos := config.moveCheckDistance_pos }

namespace BedMesh

variable (bm : BedMesh K)

/-- `Set_mesh`: the error that it panics with, if it does. -/
def setMesh (mesh : Option (ZMesh K)) : Option (FadeError K) × BedMesh K :=
  match resolveFadeTarget mesh (decide (bm.fadeEnd ≠ fadeDisable)) bm.fadeDist
      bm.baseFadeTarget with
  | .error err => (some err, { bm with zMesh := none, fadeTarget := 0 })
  | .ok (fadeTarget, _) => (none, { bm with zMesh := mesh, fadeTarget := fadeTarget })

/-- The splitter, which `Set_mesh` gives the mesh and the fade target. -/
def splitter (mesh : ZMesh K) : MoveSplitter K where
  splitDeltaZ := bm.splitDeltaZ
  moveCheckDistance := bm.moveCheckDistance
  moveCheckDistance_pos := bm.moveCheckDistance_pos
  zMesh := mesh
  fadeOffset := bm.fadeTarget

def getZFactor (zPos : K) : K := calcZFadeFactor zPos bm.fadeStart bm.fadeEnd

variable [FloorRing K] [HasSqrt K] [IsStrictOrderedRing K]

/-- `Move`, with the positions that the toolhead is moved to. -/
def move (newpos : Coord K) : Except Panic (BedMesh K × List (Coord K)) :=
  let factor := bm.getZFactor (newpos 2)
  match bm.zMesh with
  | none =>
    .ok ({ bm with lastPosition := newpos },
      [update newpos 2 (newpos 2 + bm.fadeTarget)])
  | some mesh =>
    if factor = 0 then
      -- past the fade, where the move is not split
      .ok ({ bm with lastPosition := newpos },
        [update newpos 2 (newpos 2 + bm.fadeTarget)])
    else
      let (mv, st) := (bm.splitter mesh).buildMove bm.lastPosition newpos factor
      match (bm.splitter mesh).traverse mv st with
      | .error e => .error e
      | .ok moves => .ok ({ bm with lastPosition := newpos }, moves)

/-- `Get_position`, from the position of the toolhead. -/
def getPosition (toolheadPos : Coord K) : Option (Coord K) :=
  calculateUntransformedPosition toolheadPos bm.zMesh bm.fadeStart bm.fadeEnd bm.fadeDist
    bm.fadeTarget

end BedMesh

end BedMesh

/-! ### The factor that is inferred -/

section Factor

variable {K : Type*} [Field K] [LinearOrder K] [IsStrictOrderedRing K]

theorem constrainRatio_eq_zero_iff (num den : K) : constrainRatio num den = some 0 ↔
      (0 < den ∧ num ≤ 0) ∨ (den < 0 ∧ 0 ≤ num) ∨ (den = 0 ∧ num < 0) := by
  unfold constrainRatio
  rcases lt_trichotomy den 0 with hden | rfl | hden
  · rw [if_neg hden.ne, some_inj, constrain_eq_zero_iff, div_le_iff_of_neg hden, zero_mul]
    simp [hden, hden.not_gt, hden.ne]
  · rcases lt_trichotomy num 0 with h | rfl | h
    · simp [h, h.ne, h.not_gt]
    · simp
    · simp [h, h.ne', h.not_gt]
  · rw [if_neg hden.ne', some_inj, constrain_eq_zero_iff, div_le_iff₀ hden, zero_mul]
    simp [hden, hden.not_gt, hden.ne']

theorem constrainRatio_eq_one_iff (num den : K) : constrainRatio num den = some 1 ↔
      (0 < den ∧ den ≤ num) ∨ (den < 0 ∧ num ≤ den) ∨ (den = 0 ∧ 0 < num) := by
  unfold constrainRatio
  rcases lt_trichotomy den 0 with hden | rfl | hden
  · rw [if_neg hden.ne, some_inj, constrain_eq_one_iff, one_le_div_of_neg hden]
    simp [hden, hden.not_gt, hden.ne]
  · rcases lt_trichotomy num 0 with h | rfl | h
    · simp [h.ne, h.not_gt]
    · simp
    · simp [h, h.ne']
  · rw [if_neg hden.ne', some_inj, constrain_eq_one_iff, one_le_div hden]
    simp [hden, hden.not_gt, hden.ne']

omit [IsStrictOrderedRing K] in
/-- A factor between 0 and 1 is inferred from its multiple of the denominator, unless that
is zero. -/
theorem constrainRatio_mul_eq_iff {f den : K} (h0 : 0 ≤ f) (h1 : f ≤ 1) :
    constrainRatio (f * den) den = some f ↔ den ≠ 0 := by
  unfold constrainRatio
  by_cases hden : den = 0
  · simp [hden]
  · rw [if_neg hden, mul_div_cancel_right₀ f hden, constrain, max_eq_right h0, min_eq_right h1]
    simp [hden]

variable {S E t m z : K} {dist : K}

/-- The ratio that is computed above the fade range. -/
theorem constrainRatio_high (hz : E ≤ z) :
    constrainRatio (E - z) (dist - (m - t)) = some 0 ↔
      m - t < dist ∨ (m - t = dist ∧ z ≠ E) ∨ (dist < m - t ∧ z = E) := by
  rw [constrainRatio_eq_zero_iff]
  constructor
  · rintro (⟨hden, -⟩ | ⟨hden, hnum⟩ | ⟨hden, hnum⟩)
    · exact .inl (by linarith)
    · exact .inr (.inr ⟨by linarith, le_antisymm (by linarith) hz⟩)
    · exact .inr (.inl ⟨by linarith, fun h => by linarith⟩)
  · rintro (ha | ⟨ha, hne⟩ | ⟨ha, rfl⟩)
    · exact .inl ⟨by linarith, by linarith⟩
    · exact .inr (.inr ⟨by linarith, by linarith [lt_of_le_of_ne hz hne.symm]⟩)
    · exact .inr (.inl ⟨by linarith, by linarith⟩)

/-- Above the fade range, where the correction is the fade target. -/
theorem untransformFactor_high (hdist : dist ≤ E - S) (hz : E ≤ z) :
    untransformFactor (z + t) m S E dist t = some 0 ↔
      m - t < dist ∨ (E ≤ z + t ∧ E ≤ z - (m - t)) ∨ (m - t = dist ∧ z ≠ E) ∨
        (dist < m - t ∧ z = E ∧ S ≤ max (z + t) (z - (m - t))) := by
  have hback : z + t - m = z - (m - t) := by ring
  have hnum : E + t - (z + t) = E - z := by ring
  unfold untransformFactor
  rw [hback, hnum]
  by_cases hfirst : E ≤ min (z + t) (z - (m - t))
  · rw [if_pos hfirst]
    exact iff_of_true rfl (.inr (.inl (le_min_iff.mp hfirst)))
  rw [if_neg hfirst]
  have hnot := mt le_min_iff.mpr hfirst
  by_cases hsecond : S ≤ max (z + t) (z - (m - t))
  · rw [if_pos hsecond, constrainRatio_high hz, or_iff_right hnot, and_iff_left hsecond]
  · rw [if_neg hsecond]
    have hlow' := fun h => hsecond (le_max_of_le_right h)
    refine iff_of_false (by simp) ?_
    rintro (ha | h | ⟨ha, -⟩ | ⟨-, -, h⟩)
    · exact hlow' (by linarith)
    · exact hnot h
    · exact hlow' (by linarith)
    · exact hsecond h

/-- Below the fade range, where the correction is the height of the mesh. -/
theorem untransformFactor_low (hSE : S ≤ E) (hdist : dist ≤ E - S) (hz : z < S) :
    untransformFactor (z + m) m S E dist t = some 1 ↔ m - t ≤ dist ∨ z + m < S := by
  have hback : z + m - m = z := by ring
  unfold untransformFactor
  rw [hback, if_neg (by rw [le_min_iff]; rintro ⟨-, h⟩; linarith)]
  by_cases hsecond : S ≤ max (z + m) z
  · have hraised : S ≤ z + m := (le_max_iff.mp hsecond).resolve_right (not_le.mpr hz)
    rw [if_pos hsecond, constrainRatio_eq_one_iff, or_iff_left (not_lt.mpr hraised)]
    constructor
    · rintro (⟨h, -⟩ | ⟨-, h⟩ | ⟨h, -⟩) <;> linarith
    · intro h
      rcases h.lt_or_eq with ha | ha
      · exact .inl ⟨by linarith, by linarith⟩
      · exact .inr (.inr ⟨by linarith, by linarith⟩)
  · rw [if_neg hsecond]
    exact iff_of_true rfl (.inr (lt_of_le_of_lt (le_max_left _ _) (not_le.mp hsecond)))

theorem le_iff_of_scaled {a b c e d : K} (hd : 0 < d) (h : (b - a) * d = e - c) :
    a ≤ b ↔ c ≤ e := by
  rw [← sub_nonneg, ← mul_nonneg_iff_of_pos_right hd, h, sub_nonneg]

/-- In the fade range. -/
theorem untransformFactor_mid (hd : S < E) (hS : S ≤ z) (hE : z < E) :
    untransformFactor (z + ((E - z) / (E - S) * (m - t) + t)) m S E (E - S) t =
        some ((E - z) / (E - S)) ↔
      m - t ≠ E - S ∧
      ¬ ((E - z) * (E - S - (m - t)) ≤ t * (E - S) ∧ (E - z) * (E - S) ≤ (z - S) * -(m - t)) ∧
      ¬ (E - S < m - t ∧ S < z ∧ (E - z) * (m - t) < (S - z - t) * (E - S)) := by
  have hdist : 0 < E - S := sub_pos.mpr hd
  obtain ⟨f, hf⟩ : ∃ f, f = (E - z) / (E - S) := ⟨_, rfl⟩
  have hfd : f * (E - S) = E - z := by rw [hf, div_mul_cancel₀ _ hdist.ne']
  have hf0 : 0 < f := by rw [hf]; exact div_pos (by linarith) hdist
  have hf1 : f ≤ 1 := by rw [hf, div_le_one hdist]; linarith
  rw [← hf]
  have hnum : E + t - (z + (f * (m - t) + t)) = f * (E - S - (m - t)) := by linear_combination -hfd
  have hfirst : E ≤ z + (f * (m - t) + t) ↔ (E - z) * (E - S - (m - t)) ≤ t * (E - S) :=
    le_iff_of_scaled hdist (by linear_combination (m - t) * hfd)
  have hfirst' : E ≤ z + (f * (m - t) + t) - m ↔ (E - z) * (E - S) ≤ (z - S) * -(m - t) :=
    le_iff_of_scaled hdist (by linear_combination (m - t) * hfd)
  have hsecond : S ≤ z + (f * (m - t) + t) ↔ (S - z - t) * (E - S) ≤ (E - z) * (m - t) :=
    le_iff_of_scaled hdist (by linear_combination (m - t) * hfd)
  have hsecond' : S ≤ z + (f * (m - t) + t) - m ↔ (z - S) * (m - t) ≤ (z - S) * (E - S) :=
    le_iff_of_scaled hdist (by linear_combination (m - t) * hfd)
  unfold untransformFactor
  simp only [le_min_iff, le_max_iff, hfirst, hfirst', hsecond, hsecond', hnum]
  by_cases hone : (E - z) * (E - S - (m - t)) ≤ t * (E - S) ∧ (E - z) * (E - S) ≤ (z - S) * -(m - t)
  · rw [if_pos hone]
    exact iff_of_false (fun h => hf0.ne (Option.some.inj h)) fun h => h.2.1 hone
  rw [if_neg hone]
  by_cases htwo : (S - z - t) * (E - S) ≤ (E - z) * (m - t) ∨ (z - S) * (m - t) ≤ (z - S) * (E - S)
  · rw [if_pos htwo, constrainRatio_mul_eq_iff hf0.le hf1]
    constructor
    · intro hden
      refine ⟨fun h => hden (by rw [h, sub_self]), hone, ?_⟩
      rintro ⟨ha, hSz, hlow⟩
      rcases htwo with h | h
      · linarith
      · exact absurd h (not_le.mpr (mul_lt_mul_of_pos_left ha (sub_pos.mpr hSz)))
    · rintro ⟨ha, -, -⟩
      exact fun h => ha (by linarith)
  · -- both heights are below the fade start, so the correction is taken for a full one
    rw [if_neg htwo]
    obtain ⟨hlow, hlow'⟩ := not_or.mp htwo
    have hSz : S < z := by
      refine lt_of_le_of_ne hS fun h => hlow' ?_
      rw [h, sub_self, zero_mul, zero_mul]
    have ha : E - S < m - t := lt_of_mul_lt_mul_left (not_le.mp hlow') (sub_pos.mpr hSz).le
    refine iff_of_false (fun h => ?_) fun h => h.2.2 ⟨ha, hSz, not_le.mp hlow⟩
    have hf1' : 1 = f := Option.some.inj h
    rw [← hf1', one_mul] at hfd
    linarith

/-- The heights `z` of a move over a mesh of height `m` that can be computed again from the
corrected height, by the fade range and the fade target `t`. -/
def Invertible (S E t m z : K) : Prop :=
  m - t = 0 ∨
  if E ≤ z then
    m - t < E - S ∨ (E ≤ z + t ∧ E ≤ z - (m - t)) ∨ (m - t = E - S ∧ z ≠ E) ∨
      (E - S < m - t ∧ z = E ∧ -(E - S) ≤ t)
  else if S ≤ z then
    m - t ≠ E - S ∧
    ¬ ((E - z) * (E - S - (m - t)) ≤ t * (E - S) ∧ (E - z) * (E - S) ≤ (z - S) * -(m - t)) ∧
    ¬ (E - S < m - t ∧ S < z ∧ (E - z) * (m - t) < (S - z - t) * (E - S))
  else m - t ≤ E - S ∨ z + m < S

instance (S E t m z : K) : Decidable (Invertible S E t m z) :=
  inferInstanceAs (Decidable (_ ∨ _))

/-- The fade range of a bed mesh: one of the configuration, or one that is never reached. -/
def FadeRange (S E dist t : K) : Prop :=
  (S < E ∧ dist = E - S) ∨ (S = E ∧ dist ≤ 0 ∧ t = 0)

/-- The factor is inferred, for a mesh that is not at the fade target. -/
theorem untransformFactor_eq_iff (hrange : FadeRange S E dist t) (ha : m - t ≠ 0) :
    untransformFactor (z + (calcZFadeFactor z S E * (m - t) + t)) m S E dist t =
      some (calcZFadeFactor z S E) ↔ Invertible S E t m z := by
  unfold Invertible calcZFadeFactor
  rw [or_iff_right ha]
  rcases hrange with ⟨hd, rfl⟩ | ⟨rfl, hdist, rfl⟩
  · by_cases hE : E ≤ z
    · rw [if_pos hE, if_pos hE, zero_mul, zero_add]
      rw [untransformFactor_high le_rfl hE]
      refine or_congr_right (or_congr_right (or_congr_right (and_congr_right fun ha => ?_)))
      refine and_congr_right fun hz => ?_
      -- at the fade end the second height is below the fade start, so the first is above it
      rw [le_max_iff, or_iff_left (by linarith)]
      constructor <;> intro h <;> linarith
    rw [if_neg hE, if_neg hE]
    by_cases hS : S ≤ z
    · rw [if_pos hS, if_pos hS]
      exact untransformFactor_mid hd hS (not_le.mp hE)
    · rw [if_neg hS, if_neg hS, one_mul, sub_add_cancel]
      exact untransformFactor_low hd.le le_rfl (not_le.mp hS)
  · rw [sub_zero] at ha ⊢
    by_cases hE : S ≤ z
    · rw [if_pos hE, if_pos hE, zero_mul, zero_add,
        untransformFactor_high (by rwa [sub_self]) hE, sub_self, sub_zero, add_zero]
      constructor
      · rintro (h | h | ⟨h, -⟩ | ⟨-, h, -⟩)
        · exact .inl (h.trans_le hdist)
        · exact .inr (.inl h)
        · exact .inl (lt_of_le_of_ne (h.trans_le hdist) ha)
        · rcases ha.lt_or_gt with hm | hm
          · exact .inl hm
          · exact .inr (.inr (.inr ⟨hm, h, by simp⟩))
      · rintro (h | h | ⟨h, -⟩ | ⟨h, hz, -⟩)
        · exact .inr (.inl ⟨hE, by linarith⟩)
        · exact .inr (.inl h)
        · exact absurd h ha
        · exact .inr (.inr (.inr ⟨hdist.trans_lt h, hz, le_max_of_le_left hE⟩))
    · rw [if_neg hE, if_neg hE, if_neg hE, if_neg hE, one_mul, add_zero,
        untransformFactor_low le_rfl (by rwa [sub_self]) (not_le.mp hE), sub_zero, sub_self]
      refine ⟨.imp_left hdist.trans', ?_⟩
      rintro (h | h)
      · exact .inr (by linarith [not_le.mp hE])
      · exact .inr h

/-- Where the mesh is at the fade target, some factor is inferred. -/
theorem untransformFactor_isSome (hrange : FadeRange S E dist m) (z : K) :
    ∃ factor, untransformFactor (z + m) m S E dist m = some factor := by
  unfold untransformFactor
  split_ifs with hfirst hsecond
  · exact ⟨_, rfl⟩
  · rw [sub_self, sub_zero]
    rcases hrange with ⟨hd, rfl⟩ | ⟨rfl, -, rfl⟩
    · unfold constrainRatio
      rw [if_neg (sub_pos.mpr hd).ne']
      exact ⟨_, rfl⟩
    · -- without a fade range the two heights are the same
      simp only [sub_zero, add_zero, min_self, max_self] at hfirst hsecond
      exact absurd hsecond hfirst
  · exact ⟨_, rfl⟩

end Factor

/-! ### Moves -/

namespace BedMesh

variable {K : Type*} [Field K] [LinearOrder K]

/-- Where a move to `newpos` ends. -/
def corrected [FloorRing K] (bm : BedMesh K) (newpos : Coord K) : Coord K :=
  match bm.zMesh with
  | none => update newpos 2 (newpos 2 + bm.fadeTarget)
  | some mesh =>
    update newpos 2 (newpos 2 + (bm.getZFactor (newpos 2) *
      (mesh.calcZ (newpos 0) (newpos 1) - bm.fadeTarget) + bm.fadeTarget))

theorem move_spec [FloorRing K] [HasSqrt K] [IsStrictOrderedRing K] (bm : BedMesh K)
    (newpos : Coord K) :
    ∃ moves, bm.move newpos =
      .ok ({ bm with lastPosition := newpos }, moves ++ [bm.corrected newpos]) := by
  unfold move corrected
  cases bm.zMesh with
  | none => exact ⟨[], rfl⟩
  | some mesh =>
    dsimp only
    by_cases hfactor : bm.getZFactor (newpos 2) = 0
    · rw [if_pos hfactor, hfactor, zero_mul, zero_add]
      exact ⟨[], rfl⟩
    · rw [if_neg hfactor]
      obtain ⟨moves, hmoves⟩ := (bm.splitter mesh).traverse_buildMove bm.lastPosition newpos
        (bm.getZFactor (newpos 2))
      rw [hmoves]
      exact ⟨moves, rfl⟩

/-- A mesh that was accepted comes with a fade range. -/
theorem setMesh_fadeRange [IsStrictOrderedRing K] {config : BedMeshConfig K}
    {mesh : Option (ZMesh K)} {bm : BedMesh K}
    (hset : (newBedMesh config).setMesh mesh = (none, bm)) :
    bm.zMesh = mesh ∧ (mesh = none → bm.fadeTarget = 0) ∧
    FadeRange bm.fadeStart bm.fadeEnd bm.fadeDist bm.fadeTarget := by
  unfold setMesh at hset
  generalize hres : resolveFadeTarget mesh (decide ((newBedMesh config).fadeEnd ≠ fadeDisable))
    (newBedMesh config).fadeDist (newBedMesh config).baseFadeTarget = res at hset
  rcases res with err | ⟨fadeTarget, logFadeComplete⟩
  · cases hset
  obtain ⟨-, rfl⟩ := Prod.mk.inj hset
  refine ⟨rfl, ?_, ?_⟩
  · rintro rfl
    exact (Prod.mk.inj (Except.ok.inj hres)).1.symm
  by_cases hd : config.fadeEnd - config.fadeStart ≤ 0
  · have hstart : (newBedMesh config).fadeStart = fadeDisable := if_pos hd
    have hend : (newBedMesh config).fadeEnd = fadeDisable := if_pos hd
    refine .inr ⟨hstart.trans hend.symm, hd, ?_⟩
    rw [hend, decide_eq_false (by simp)] at hres
    cases mesh <;> exact (Prod.mk.inj (Except.ok.inj hres)).1.symm
  · have hstart : (newBedMesh config).fadeStart = config.fadeStart := if_neg hd
    have hend : (newBedMesh config).fadeEnd = config.fadeEnd := if_neg hd
    refine .inl ⟨?_, ?_⟩
    · rw [hstart, hend]
      exact sub_pos.mp (not_le.mp hd)
    · rw [hstart, hend]
      rfl

/-- The position is computed again just if the right factor is inferred, or any where the
mesh is at the fade target. -/
theorem getPosition_corrected_iff [FloorRing K] {bm : BedMesh K} {mesh : ZMesh K}
    (hmesh : bm.zMesh = some mesh) (newpos : Coord K) :
    bm.getPosition (bm.corrected newpos) = some newpos ↔
      ∃ factor, untransformFactor (bm.corrected newpos 2) (mesh.calcZ (newpos 0) (newpos 1))
          bm.fadeStart bm.fadeEnd bm.fadeDist bm.fadeTarget = some factor ∧
        (mesh.calcZ (newpos 0) (newpos 1) - bm.fadeTarget = 0 ∨
          factor = bm.getZFactor (newpos 2)) := by
  have hcorrected : bm.corrected newpos = update newpos 2 (newpos 2 +
      (bm.getZFactor (newpos 2) * (mesh.calcZ (newpos 0) (newpos 1) - bm.fadeTarget)
        + bm.fadeTarget)) := by
    unfold corrected
    rw [hmesh]
  unfold getPosition calculateUntransformedPosition
  rw [hmesh, hcorrected]
  simp only [update_self, update_of_ne (show (0 : Fin 4) ≠ 2 by decide),
    update_of_ne (show (1 : Fin 4) ≠ 2 by decide), update_idem, map_eq_some_iff]
  refine exists_congr fun factor => and_congr_right fun _ => ?_
  rw [update_eq_self_iff]
  constructor
  · intro h
    have hzero : (mesh.calcZ (newpos 0) (newpos 1) - bm.fadeTarget) *
        (factor - bm.getZFactor (newpos 2)) = 0 := by linear_combination -h
    exact (mul_eq_zero.mp hzero).imp id sub_eq_zero.mp
  · rintro (h | h)
    · rw [h]
      ring
    · rw [h]
      ring

end BedMesh

/-- After a move to `newpos`, from any position, the position that is computed from that of
the toolhead is `newpos` just if the height is invertible for the mesh at that place. -/
theorem untransformed_iff {K : Type*} [Field K] [LinearOrder K] [FloorRing K] [HasSqrt K]
    [IsStrictOrderedRing K] (config : BedMeshConfig K) (mesh : Option (ZMesh K)) (bm : BedMesh K)
    (hset : (newBedMesh config).setMesh mesh = (none, bm)) (lastPosition newpos : Coord K) :
    ∃ bm' moves toolheadPos,
      { bm with lastPosition := lastPosition }.move newpos = .ok (bm', moves ++ [toolheadPos]) ∧
      (bm'.getPosition toolheadPos = some newpos ↔ ∀ zMesh ∈ mesh,
        Invertible bm.fadeStart bm.fadeEnd bm.fadeTarget (zMesh.calcZ (newpos 0) (newpos 1))
          (newpos 2)) := by
  obtain ⟨moves, hmoves⟩ := { bm with lastPosition := lastPosition }.move_spec newpos
  refine ⟨_, moves, _, hmoves, ?_⟩
  show bm.getPosition (bm.corrected newpos) = some newpos ↔ _
  obtain ⟨hmesh, htarget, hrange⟩ := BedMesh.setMesh_fadeRange hset
  cases mesh with
  | none =>
    unfold BedMesh.getPosition BedMesh.corrected calculateUntransformedPosition
    simp [hmesh, htarget rfl]
  | some zMesh =>
    have hcorrected : bm.corrected newpos 2 = newpos 2 + (bm.getZFactor (newpos 2) *
        (zMesh.calcZ (newpos 0) (newpos 1) - bm.fadeTarget) + bm.fadeTarget) := by
      unfold BedMesh.corrected
      rw [hmesh]
      exact update_self ..
    rw [BedMesh.getPosition_corrected_iff hmesh, hcorrected]
    simp only [mem_def, Option.some.injEq, forall_eq']
    generalize zMesh.calcZ (newpos 0) (newpos 1) = m
    by_cases ha : m - bm.fadeTarget = 0
    · obtain rfl := sub_eq_zero.mp ha
      refine iff_of_true ?_ (.inl ha)
      rw [ha, mul_zero, zero_add]
      obtain ⟨factor, hfactor⟩ := untransformFactor_isSome hrange (newpos 2)
      exact ⟨factor, hfactor, .inl rfl⟩
    · rw [← untransformFactor_eq_iff hrange ha]
      constructor
      · rintro ⟨factor, hfactor, h⟩
        exact hfactor.trans (congrArg some (h.resolve_left ha))
      · exact fun h => ⟨_, h, .inr rfl⟩

def cornerConfig : BedMeshConfig ℚ where
  fadeStart := 1
  fadeEnd := 11
  fadeTarget := 1
  splitDeltaZ := 1 / 40
  moveCheckDistance := 5
  moveCheckDistance_pos := by norm_num

def cornerBedMesh : BedMesh ℚ := ((newBedMesh cornerConfig).setMesh (some raisedCorner)).2

theorem cornerBedMesh_set :
    (newBedMesh cornerConfig).setMesh (some raisedCorner) = (none, cornerBedMesh) :=
  Prod.ext (by decide +kernel) rfl

theorem untransformed_corner : ∃ bm' moves toolheadPos,
    { cornerBedMesh with lastPosition := ![0, 0, 5, 0] }.move ![100, 0, 1 / 2, 3] =
      .ok (bm', moves ++ [toolheadPos]) ∧
    bm'.getPosition toolheadPos = some ![100, 0, 1 / 2, 3] := by
  obtain ⟨bm', moves, toolheadPos, hmove, hiff⟩ := untransformed_iff cornerConfig
    (some raisedCorner) cornerBedMesh cornerBedMesh_set ![0, 0, 5, 0] ![100, 0, 1 / 2, 3]
  refine ⟨bm', moves, toolheadPos, hmove, hiff.mpr ?_⟩
  decide +kernel

/-- Near the end of the fade over the flat part, the toolhead is above the end of the fade,
and the correction is taken for the fade target. -/
theorem fade_end_not_untransformed : ∃ bm' moves toolheadPos,
    cornerBedMesh.move ![0, 0, 21 / 2, 0] = .ok (bm', moves ++ [toolheadPos]) ∧
    bm'.getPosition toolheadPos = some ![0, 0, 209 / 20, 0] ∧
    bm'.getPosition toolheadPos ≠ some ![0, 0, 21 / 2, 0] := by
  obtain ⟨moves, hmoves⟩ := cornerBedMesh.move_spec ![0, 0, 21 / 2, 0]
  refine ⟨_, moves, _, hmoves, ?_, ?_⟩ <;> decide +kernel

end Mesh
