/-
The splitting of moves over a bed mesh (`internal/pkg/motion/bed_mesh/move_splitter.go`).

A move over the mesh is walked in steps of the check distance, and is cut wherever the
height of the mesh has changed by the split threshold since the last cut.  Each piece ends
at its point on the move, raised by the height there.

* `splitLoop_remaining` — a cut leaves fewer steps, so that the loops end;
* `traverse_buildMove` — no step panics, and the last piece ends at the target of the move,
  raised by the height there.
-/
import KlipperGo.GoRuntime
import KlipperGo.Move
import KlipperGo.ZMesh
import Mathlib.Tactic.FinCases

namespace Mesh

open ExactArith GoRuntime List
open Motion (Coord)

/-- The settings of a splitter, and the mesh and fade target that `Initialize` gives it. -/
structure MoveSplitter (K : Type*) [Field K] [LinearOrder K] where
  splitDeltaZ : K
  moveCheckDistance : K
  moveCheckDistance_pos : 0 < moveCheckDistance
  zMesh : ZMesh K
  fadeOffset : K

/-- What `Build_move` fixes for a move. -/
structure BuiltMove (K : Type*) where
  prePos : Coord K
  nextPos : Coord K
  zFactor : K
  totalMoveLength : K
  axisMove : Fin 4 → Bool

/-- What changes while a move is split. -/
structure SplitState (K : Type*) where
  currentPos : Coord K
  zOffset : K
  traverseComplete : Bool
  distanceChecked : K

namespace MoveSplitter

variable {K : Type*} [Field K] [LinearOrder K] [FloorRing K] (sp : MoveSplitter K)
  (mv : BuiltMove K) (st : SplitState K)

def calcZOffset (zFactor : K) (pos : Coord K) : K :=
  zFactor * (sp.zMesh.calcZ (pos 0) (pos 1) - sp.fadeOffset) + sp.fadeOffset

def buildMove [HasSqrt K] (sp : MoveSplitter K) (prevPos nextPos : Coord K) (factor : K) :
    BuiltMove K × SplitState K :=
  let axesD := fun i => nextPos i - prevPos i
  ({ prePos := prevPos
     nextPos := nextPos
     zFactor := factor
     totalMoveLength := sqrt (axesD 0 * axesD 0 + axesD 1 * axesD 1 + axesD 2 * axesD 2)
     axisMove := fun i => !decide (isclose (axesD i) 0 ((1e-10 : ℚ) : K) 0) },
   { currentPos := prevPos
     zOffset := sp.calcZOffset factor prevPos
     traverseComplete := false
     distanceChecked := 0 })

/-- `Set_next_move`: the point at a distance from the start. -/
def setNextMove (distanceFromPrev : K) : Except Panic (Coord K) :=
  let t := distanceFromPrev / mv.totalMoveLength
  if 1 < t ∨ t < 0 then
    .error (.value ["bed_mesh: Slice distance is negative or greater than entire move length"])
  else .ok fun i => if mv.axisMove i then lerp t (mv.prePos i) (mv.nextPos i) else st.currentPos i

/-- The number of steps that are left at a distance. -/
def stepsLeft (distanceChecked : K) : ℕ :=
  ⌈(mv.totalMoveLength - distanceChecked) / sp.moveCheckDistance⌉.toNat

theorem stepsLeft_step [IsStrictOrderedRing K] {mv : BuiltMove K} {distanceChecked : K}
    (h : distanceChecked + sp.moveCheckDistance < mv.totalMoveLength) :
    sp.stepsLeft mv (distanceChecked + sp.moveCheckDistance) < sp.stepsLeft mv distanceChecked := by
  have hpos := sp.moveCheckDistance_pos
  have hone : (mv.totalMoveLength - (distanceChecked + sp.moveCheckDistance)) /
      sp.moveCheckDistance = (mv.totalMoveLength - distanceChecked) / sp.moveCheckDistance - 1 := by
    rw [← sub_sub, sub_div, div_self hpos.ne']
  have hlarge : 1 < (mv.totalMoveLength - distanceChecked) / sp.moveCheckDistance := by
    rw [lt_div_iff₀ hpos]
    linarith
  have hceil : 1 < ⌈(mv.totalMoveLength - distanceChecked) / sp.moveCheckDistance⌉ := by
    rw [Int.lt_ceil]
    exact_mod_cast hlarge
  unfold stepsLeft
  rw [hone, Int.ceil_sub_one]
  omega

/-- The loop of `Split`: the end of the next piece, if the move is cut before its end. -/
def splitLoop [IsStrictOrderedRing K] (sp : MoveSplitter K) (mv : BuiltMove K)
    (st : SplitState K) : Except Panic (Option (Coord K) × SplitState K) :=
  if _h : st.distanceChecked + sp.moveCheckDistance < mv.totalMoveLength then
    let st := { st with distanceChecked := st.distanceChecked + sp.moveCheckDistance }
    match setNextMove mv st st.distanceChecked with
    | .error e => .error e
    | .ok currentPos =>
      let st := { st with currentPos := currentPos }
      let nextZ := sp.calcZOffset mv.zFactor currentPos
      if sp.splitDeltaZ ≤ |nextZ - st.zOffset| then
        .ok (some ![currentPos 0, currentPos 1, currentPos 2 + nextZ, currentPos 3],
          { st with zOffset := nextZ })
      -- the height has not changed enough for a cut
      else splitLoop sp mv st
  else .ok (none, st)
termination_by sp.stepsLeft mv st.distanceChecked
decreasing_by exact sp.stepsLeft_step _h

def finishMove : Option (Coord K) × SplitState K :=
  let zOffset := sp.calcZOffset mv.zFactor mv.nextPos
  let currentPos := Function.update mv.nextPos 2 (mv.nextPos 2 + zOffset)
  (some currentPos,
    { st with currentPos := currentPos, zOffset := zOffset, traverseComplete := true })

def split [IsStrictOrderedRing K] (sp : MoveSplitter K) (mv : BuiltMove K) (st : SplitState K) :
    Except Panic (Option (Coord K) × SplitState K) :=
  if st.traverseComplete then .ok (none, st)
  else if mv.axisMove 0 ∨ mv.axisMove 1 then
    match sp.splitLoop mv st with
    | .error e => .error e
    | .ok (some pos, st) => .ok (some pos, st)
    | .ok (none, st) => .ok (sp.finishMove mv st)
  -- a move without X and Y is one piece
  else .ok (sp.finishMove mv st)

/-! ### The loops end -/

variable [IsStrictOrderedRing K] {sp : MoveSplitter K} {mv : BuiltMove K} {st st' : SplitState K}
  {pos : Coord K}

theorem splitLoop_remaining (h : sp.splitLoop mv st = .ok (some pos, st')) :
    st'.traverseComplete = st.traverseComplete ∧
    sp.stepsLeft mv st'.distanceChecked < sp.stepsLeft mv st.distanceChecked := by
  fun_induction splitLoop sp mv st with
  | case1 st hlt st₁ e he => cases h
  | case2 st hlt st₁ currentPos hpos st₂ nextZ hcut =>
    obtain ⟨-, rfl⟩ := Prod.mk.inj (Except.ok.inj h)
    exact ⟨rfl, sp.stepsLeft_step hlt⟩
  | case3 st hlt st₁ currentPos hpos st₂ nextZ hcut ih =>
    obtain ⟨hcomplete, hsteps⟩ := ih h
    exact ⟨hcomplete, hsteps.trans (sp.stepsLeft_step hlt)⟩
  | case4 st hge => cases h

/-- The steps that are left, with the one that ends the move. -/
def remaining (sp : MoveSplitter K) (mv : BuiltMove K) (st : SplitState K) : ℕ :=
  if st.traverseComplete then 0 else sp.stepsLeft mv st.distanceChecked + 1

/-- A call of `Split` on a move that is not complete cuts the move, ends it or panics. -/
theorem split_cases (sp : MoveSplitter K) (mv : BuiltMove K) (hst : st.traverseComplete = false) :
    (∃ e, sp.splitLoop mv st = .error e ∧ sp.split mv st = .error e) ∨
    (∃ pos st₁, sp.splitLoop mv st = .ok (some pos, st₁) ∧ sp.split mv st = .ok (some pos, st₁)) ∨
    ∃ st₁, sp.split mv st = .ok (sp.finishMove mv st₁) := by
  unfold split
  rw [if_neg (by simp [hst])]
  split_ifs
  · rcases hloop : sp.splitLoop mv st with e | ⟨pos | pos, st₁⟩
    · exact .inl ⟨e, rfl, rfl⟩
    · exact .inr (.inr ⟨st₁, rfl⟩)
    · exact .inr (.inl ⟨pos, st₁, rfl, rfl⟩)
  · exact .inr (.inr ⟨st, rfl⟩)

theorem split_remaining (h : sp.split mv st = .ok (some pos, st')) :
    sp.remaining mv st' < sp.remaining mv st := by
  cases hst : st.traverseComplete with
  | true =>
    rw [split, if_pos hst] at h
    cases h
  | false =>
    rcases sp.split_cases mv hst with ⟨e, -, he⟩ | ⟨p, st₁, hloop, hcut⟩ | ⟨st₁, hend⟩
    · rw [he] at h
      cases h
    · rw [hcut] at h
      obtain ⟨-, rfl⟩ := Prod.mk.inj (Except.ok.inj h)
      obtain ⟨hcomplete, hsteps⟩ := splitLoop_remaining hloop
      simpa [remaining, hcomplete, hst] using hsteps
    · rw [hend] at h
      obtain ⟨-, rfl⟩ := Prod.mk.inj (Except.ok.inj h)
      simp [remaining, hst]

/-- The loop of `BedMesh.Move`: the ends of the pieces, in order. -/
def traverse (sp : MoveSplitter K) (mv : BuiltMove K) (st : SplitState K) :
    Except Panic (List (Coord K)) :=
  if st.traverseComplete then .ok []
  else
    match _h : sp.split mv st with
    | .error e => .error e
    | .ok (none, _) => .error (.value ["Mesh Leveling: Error splitting move "])
    | .ok (some pos, st') =>
      match traverse sp mv st' with
      | .error e => .error e
      | .ok moves => .ok (pos :: moves)
termination_by sp.remaining mv st
decreasing_by exact split_remaining _h

/-! ### What is reached -/

section

variable (sp : MoveSplitter K) (mv : BuiltMove K)

/-- The correction at a point: the height of the mesh over the fade target, scaled by the fade
factor. -/
def correction (factor : K) (pos : Coord K) : K :=
  factor * (sp.zMesh.calcZ (pos 0) (pos 1) - sp.fadeOffset) + sp.fadeOffset

/-- A point of the move, raised by the correction there. -/
def raised (pos : Coord K) : Coord K :=
  Function.update pos 2 (pos 2 + sp.correction mv.zFactor pos)

def target : Coord K := sp.raised mv mv.nextPos

/-- The point of the move at `k` check distances from its start. -/
def pointAt (k : ℕ) : Coord K := fun i =>
  lerp (k * sp.moveCheckDistance / mv.totalMoveLength) (mv.prePos i) (mv.nextPos i)

def correctionAt (k : ℕ) : K :=
  sp.correction mv.zFactor (sp.pointAt mv k)

end

omit [IsStrictOrderedRing K] in
theorem correctionAt_zero (sp : MoveSplitter K) (mv : BuiltMove K) :
    sp.correctionAt mv 0 = sp.correction mv.zFactor mv.prePos := by
  have hpoint : sp.pointAt mv 0 = mv.prePos := funext fun i => by simp [pointAt, lerp]
  rw [correctionAt, hpoint]

/-- The axes without a way stay where they are. -/
def Still (mv : BuiltMove K) (pos : Coord K) : Prop := ∀ i, mv.axisMove i = false →
  pos i = mv.prePos i

/-- The move is split up to `m` check distances, where it was last cut. -/
structure SplitUpTo (sp : MoveSplitter K) (mv : BuiltMove K) (m : ℕ) (st : SplitState K) :
    Prop where
  incomplete : st.traverseComplete = false
  distanceChecked : st.distanceChecked = m * sp.moveCheckDistance
  still : Still mv st.currentPos
  zOffset : st.zOffset = sp.correctionAt mv m

/-- The next step of the loop, from `m` check distances. -/
theorem setNextMove_eq (sp : MoveSplitter K) (hmv : Still mv mv.nextPos)
    (hst : Still mv st.currentPos) {m : ℕ} (hdist : st.distanceChecked = m * sp.moveCheckDistance)
    (hlt : st.distanceChecked + sp.moveCheckDistance < mv.totalMoveLength) :
    st.distanceChecked + sp.moveCheckDistance = (m + 1 : ℕ) * sp.moveCheckDistance ∧
    setNextMove mv { st with distanceChecked := st.distanceChecked + sp.moveCheckDistance }
      (st.distanceChecked + sp.moveCheckDistance) = .ok (sp.pointAt mv (m + 1)) := by
  have hnext : st.distanceChecked + sp.moveCheckDistance = (m + 1 : ℕ) * sp.moveCheckDistance := by
    rw [hdist]
    push_cast
    ring
  refine ⟨hnext, ?_⟩
  rw [hnext] at hlt ⊢
  have h0 : 0 ≤ (m + 1 : ℕ) * sp.moveCheckDistance :=
    mul_nonneg (Nat.cast_nonneg _) sp.moveCheckDistance_pos.le
  have hpos : 0 < mv.totalMoveLength := h0.trans_lt hlt
  have hle := (div_le_one hpos).mpr hlt.le
  have hge := div_nonneg h0 hpos.le
  unfold setNextMove
  rw [if_neg (by rintro (h | h) <;> linarith)]
  congr 1
  funext i
  cases hi : mv.axisMove i with
  | true => rfl
  | false =>
    simp only [Bool.false_eq_true, if_false, pointAt, hst i hi, hmv i hi, lerp]
    ring

omit [IsStrictOrderedRing K] in
theorem pointAt_still (sp : MoveSplitter K) (hmv : Still mv mv.nextPos) (k : ℕ) :
    Still mv (sp.pointAt mv k) := by
  intro i hi
  rw [pointAt, hmv i hi, lerp]
  ring

/-- The corrections at the checked points after `m` that meet a condition are near to a value. -/
def Quiet (sp : MoveSplitter K) (mv : BuiltMove K) (m : ℕ) (z : K) (P : ℕ → Prop) : Prop :=
  ∀ j, m < j → j * sp.moveCheckDistance < mv.totalMoveLength → P j →
    |sp.correctionAt mv j - z| < sp.splitDeltaZ

/-- The loop goes on to the next point whose correction has changed, or to the end. -/
theorem splitLoop_spec (hmv : Still mv mv.nextPos) : ∀ {m : ℕ}, st.traverseComplete = false →
    st.distanceChecked = m * sp.moveCheckDistance → Still mv st.currentPos →
    (∃ k st', sp.splitLoop mv st = .ok (some (sp.raised mv (sp.pointAt mv k)), st') ∧ m < k ∧
      k * sp.moveCheckDistance < mv.totalMoveLength ∧ sp.SplitUpTo mv k st' ∧
      sp.Quiet mv m st.zOffset (· < k)) ∨
    ∃ st', sp.splitLoop mv st = .ok (none, st') ∧ sp.Quiet mv m st.zOffset fun _ => True := by
  have hstill := sp.pointAt_still hmv
  fun_induction splitLoop sp mv st with
  | case1 =>
    rename_i st hlt st₁ e he
    intro m _ hdist hpos
    cases (setNextMove_eq sp hmv hpos hdist hlt).2.symm.trans he
  | case2 =>
    rename_i st hlt st₁ currentPos hpoint st₂ nextZ hcut
    intro m hst hdist hpos
    obtain ⟨hdist₁, hstep⟩ := setNextMove_eq sp hmv hpos hdist hlt
    obtain rfl := Except.ok.inj (hpoint.symm.trans hstep)
    refine .inl ⟨m + 1, { st₂ with zOffset := nextZ }, ?_, m.lt_succ_self, hdist₁ ▸ hlt,
      ⟨hst, hdist₁, hstill _, rfl⟩, fun j hj _ hjk => absurd hjk (by omega)⟩
    congr 3
    funext i
    fin_cases i <;> rfl
  | case3 =>
    rename_i st hlt st₁ currentPos hpoint st₂ nextZ hcut ih
    intro m hst hdist hpos
    obtain ⟨hdist₁, hstep⟩ := setNextMove_eq sp hmv hpos hdist hlt
    obtain rfl := Except.ok.inj (hpoint.symm.trans hstep)
    -- the point that was passed is quiet, and so are those after it
    have hquiet : ∀ {P : ℕ → Prop}, sp.Quiet mv (m + 1) st.zOffset P →
        sp.Quiet mv m st.zOffset P := by
      intro P h j hj hjlt hP
      rcases Nat.lt_or_eq_of_le hj with hj | rfl
      · exact h j hj hjlt hP
      · exact not_le.mp hcut
    rcases ih hst hdist₁ (hstill _) with ⟨k, st', hloop, hk, hklt, hst', hq⟩ | ⟨st', hloop, hq⟩
    · exact .inl ⟨k, st', hloop, by omega, hklt, hst', hquiet hq⟩
    · exact .inr ⟨st', hloop, hquiet hq⟩
  | case4 st hge =>
    intro m _ hdist _
    refine .inr ⟨st, rfl, fun j hj hjlt _ => absurd ?_ hge⟩
    have hle := mul_le_mul_of_nonneg_right (Nat.cast_le.mpr hj) sp.moveCheckDistance_pos.le
    push_cast at hle
    linarith

theorem traverse_of_complete (h : st.traverseComplete = true) : sp.traverse mv st = .ok [] := by
  rw [traverse, if_pos h]

theorem traverse_of_split {moves : List (Coord K)} (hst : st.traverseComplete = false)
    (h : sp.split mv st = .ok (some pos, st')) (hmoves : sp.traverse mv st' = .ok moves) :
    sp.traverse mv st = .ok (pos :: moves) := by
  rw [traverse, if_neg (by simp [hst])]
  split
  · rename_i e he
    rw [h] at he
    cases he
  · rename_i st₁ he
    rw [h] at he
    cases he
  · rename_i p st₁ he
    rw [h] at he
    obtain ⟨hpos, rfl⟩ := Prod.mk.inj (Except.ok.inj he)
    obtain rfl := Option.some.inj hpos
    rw [hmoves]

/-- The cuts of a move, counted in check distances: in order and before its end, and between
them the correction stays near to the one at the last cut. -/
structure Cuts (sp : MoveSplitter K) (mv : BuiltMove K) (m : ℕ) (ks : List ℕ) : Prop where
  ordered : (m :: ks).Pairwise (· < ·)
  before_end : ∀ k ∈ ks, k * sp.moveCheckDistance < mv.totalMoveLength
  quiet : ∀ k ∈ m :: ks,
    sp.Quiet mv k (sp.correctionAt mv k) fun j => ∀ k' ∈ ks, k < k' → j < k'

/-- A move with a way in X or Y is cut without a panic, and its last piece ends at its end. -/
theorem traverse_spec (hmv : Still mv mv.nextPos) (hxy : mv.axisMove 0 ∨ mv.axisMove 1) {m : ℕ}
    (hst : sp.SplitUpTo mv m st) :
    ∃ ks, sp.Cuts mv m ks ∧ sp.traverse mv st =
      .ok (ks.map (fun k => sp.raised mv (sp.pointAt mv k)) ++ [sp.target mv]) := by
  -- on the steps that are left, since one call of the loop may take several
  induction hn : sp.remaining mv st using Nat.strong_induction_on generalizing st m with
  | _ n ih =>
    obtain ⟨hincomplete, hdist, hstill, hz⟩ := hst
    have hsplit : sp.split mv st = match sp.splitLoop mv st with
        | .error e => .error e
        | .ok (some pos, st) => .ok (some pos, st)
        | .ok (none, st) => .ok (sp.finishMove mv st) := by
      rw [split, if_neg (by simp [hincomplete]), if_pos hxy]
    rcases splitLoop_spec hmv hincomplete hdist hstill with
      ⟨k, st', hloop, hk, hklt, hst', hq⟩ | ⟨st', hloop, hq⟩
    · rw [hloop] at hsplit
      obtain ⟨ks, hcuts, htraverse⟩ := ih _ (hn ▸ split_remaining hsplit) hst' rfl
      refine ⟨k :: ks, ⟨?_, ?_, ?_⟩, traverse_of_split hincomplete hsplit htraverse⟩
      · rw [pairwise_cons]
        refine ⟨fun j hj => ?_, hcuts.ordered⟩
        rcases mem_cons.mp hj with rfl | hj
        · exact hk
        · exact hk.trans (rel_of_pairwise_cons hcuts.ordered hj)
      · exact forall_mem_cons.mpr ⟨hklt, hcuts.before_end⟩
      · refine forall_mem_cons.mpr ⟨fun j hj hjlt hP => ?_, fun k' hk' j hj hjlt hP => ?_⟩
        · exact hz ▸ hq j hj hjlt (hP k (by simp) hk)
        · exact hcuts.quiet k' hk' j hj hjlt fun k'' hk'' => hP k'' (by simp [hk''])
    · rw [hloop] at hsplit
      refine ⟨[], ⟨pairwise_singleton _ _, by simp, ?_⟩,
        traverse_of_split hincomplete hsplit (traverse_of_complete rfl)⟩
      rw [forall_mem_singleton, ← hz]
      exact fun j hj hjlt _ => hq j hj hjlt trivial

theorem Cuts.length_le {ks : List ℕ} (h : sp.Cuts mv 0 ks) :
    ks.length ≤ ⌈mv.totalMoveLength / sp.moveCheckDistance⌉.toNat := by
  have hnodup : ks.Nodup := h.ordered.of_cons.imp Nat.ne_of_lt
  have hsub : ks ⊆ range ⌈mv.totalMoveLength / sp.moveCheckDistance⌉.toNat := by
    intro k hk
    have hk := (lt_div_iff₀ sp.moveCheckDistance_pos).mpr (h.before_end k hk)
    have : (k : ℤ) < ⌈mv.totalMoveLength / sp.moveCheckDistance⌉ := Int.lt_ceil.mpr (mod_cast hk)
    exact mem_range.mpr (by omega)
  simpa using (hnodup.subperm hsub).length_le

variable [HasSqrt K] (sp : MoveSplitter K) (prevPos nextPos : Coord K) (factor : K)

/-- Only an axis without a way is not moved. -/
theorem buildMove_still : Still (sp.buildMove prevPos nextPos factor).1 nextPos := by
  intro i hi
  have hclose : isclose (nextPos i - prevPos i) 0 ((1e-10 : ℚ) : K) 0 := by
    simpa [buildMove] using hi
  have htol : ((1e-10 : ℚ) : K) < 1 ∧ 0 ≤ ((1e-10 : ℚ) : K) := by norm_num
  rw [isclose, sub_zero, abs_zero, max_eq_left (abs_nonneg (nextPos i - prevPos i)),
    max_eq_left (mul_nonneg htol.2 (abs_nonneg _))] at hclose
  by_contra hne
  have hpos := abs_pos.mpr (sub_ne_zero.mpr hne)
  exact absurd hclose (not_le.mpr (mul_lt_of_lt_one_left hpos htol.1))

omit [HasSqrt K] in
/-- A move without X and Y is one piece. -/
theorem traverse_spec_still (mv : BuiltMove K) (hxy : ¬ (mv.axisMove 0 ∨ mv.axisMove 1))
    (hst : st.traverseComplete = false) : sp.traverse mv st = .ok [sp.target mv] := by
  have hsplit : sp.split mv st = .ok (sp.finishMove mv st) := by
    rw [split, if_neg (by simp [hst]), if_neg hxy]
  exact traverse_of_split hst hsplit (traverse_of_complete rfl)

theorem traverse_spec_buildMove : let mv := (sp.buildMove prevPos nextPos factor).1
    mv.axisMove 0 ∨ mv.axisMove 1 →
      ∃ ks, sp.Cuts mv 0 ks ∧ sp.traverse mv (sp.buildMove prevPos nextPos factor).2 =
        .ok (ks.map (fun k => sp.raised mv (sp.pointAt mv k)) ++ [sp.target mv]) := by
  intro mv hxy
  exact traverse_spec (sp.buildMove_still prevPos nextPos factor) hxy
    ⟨rfl, by simp [buildMove], fun _ _ => rfl, (sp.correctionAt_zero mv).symm⟩

theorem traverse_buildMove : ∃ moves, sp.traverse (sp.buildMove prevPos nextPos factor).1
        (sp.buildMove prevPos nextPos factor).2 =
      .ok (moves ++ [Function.update nextPos 2 (nextPos 2 + sp.calcZOffset factor nextPos)]) := by
  by_cases hxy : (sp.buildMove prevPos nextPos factor).1.axisMove 0 ∨
      (sp.buildMove prevPos nextPos factor).1.axisMove 1
  · obtain ⟨ks, -, h⟩ := sp.traverse_spec_buildMove prevPos nextPos factor hxy
    exact ⟨_, h⟩
  · exact ⟨[], sp.traverse_spec_still _ hxy rfl⟩

/-- A move over a mesh is cut soundly: at points of its way, in order, each raised by the
correction there, no more of them than check distances, and wherever the correction has changed
by the threshold.  The way, its length and the fade factor are those of the move asked for. -/
theorem split_sound (sp : MoveSplitter K) (prevPos nextPos : Coord K) (factor : K)
    (hdelta : 0 < sp.splitDeltaZ) :
    let mv := (sp.buildMove prevPos nextPos factor).1
    (mv.prePos = prevPos ∧ mv.nextPos = nextPos ∧ mv.zFactor = factor ∧
      mv.totalMoveLength = sqrt ((nextPos 0 - prevPos 0) * (nextPos 0 - prevPos 0) +
        (nextPos 1 - prevPos 1) * (nextPos 1 - prevPos 1) +
        (nextPos 2 - prevPos 2) * (nextPos 2 - prevPos 2))) ∧
    ∃ ks, sp.Cuts mv 0 ks ∧
      ks.length + 1 ≤ ⌈mv.totalMoveLength / sp.moveCheckDistance⌉.toNat + 1 ∧
      sp.traverse mv (sp.buildMove prevPos nextPos factor).2 =
        .ok (ks.map (fun k => sp.raised mv (sp.pointAt mv k)) ++ [sp.target mv]) := by
  intro mv
  refine ⟨⟨rfl, rfl, rfl, rfl⟩, ?_⟩
  by_cases hxy : mv.axisMove 0 ∨ mv.axisMove 1
  · obtain ⟨ks, hcuts, h⟩ := sp.traverse_spec_buildMove prevPos nextPos factor hxy
    exact ⟨ks, hcuts, Nat.succ_le_succ hcuts.length_le, h⟩
  · -- over one point of the mesh the correction is the same all the way
    refine ⟨[], ⟨pairwise_singleton _ _, by simp, ?_⟩, by simp,
      sp.traverse_spec_still mv hxy rfl⟩
    rw [forall_mem_singleton]
    intro j _ _ _
    have hway := sp.pointAt_still (sp.buildMove_still prevPos nextPos factor) j
    obtain ⟨hx, hy⟩ := not_or.mp hxy
    rw [correctionAt_zero, correctionAt, correction, correction, hway 0 (by simpa using hx),
      hway 1 (by simpa using hy), sub_self, abs_zero]
    exact hdelta

end MoveSplitter

theorem split_sound_raisedCorner :
    let sp : MoveSplitter ℚ := ⟨1 / 40, 5, by decide, raisedCorner, 0⟩
    let mv := (sp.buildMove ![0, 50, 1, 0] ![60, 50, 1, 3] 1).1
    ∃ ks, sp.Cuts mv 0 ks ∧ ks.length + 1 ≤ ⌈mv.totalMoveLength / sp.moveCheckDistance⌉.toNat + 1 ∧
      sp.traverse mv (sp.buildMove ![0, 50, 1, 0] ![60, 50, 1, 3] 1).2 =
        .ok (ks.map (fun k => sp.raised mv (sp.pointAt mv k)) ++ [sp.target mv]) :=
  (MoveSplitter.split_sound _ _ _ _ (by decide +kernel)).2

end Mesh
