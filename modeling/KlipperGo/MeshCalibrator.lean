/-
Probing the bed (`internal/pkg/motion/bed_mesh/mesh_calibrator.go`).

The probe points are generated row by row, every other row backwards, with the distances
floored to hundredths.  The probed positions are put together to a matrix again by
comparing each position with the one before: a new row begins where Y changes, and a height
goes to the right end of the row where X has grown and to the left end where it has not.

* `finalizeCalibration_round` — a round bed never gets a matrix, as the rows that do not
  fill the square are not padded.
-/
import KlipperGo.GoRuntime
import KlipperGo.Returns
import KlipperGo.ZMesh

namespace Mesh

open ExactArith GoRuntime List

structure ProbePos (K : Type) where
  x : K
  y : K
  z : K

structure FaultyRegion (K : Type) where
  min : K × K
  max : K × K

/-- The points that replace one in a faulty region; there is at least one. -/
structure PointSubstitution (K : Type) where
  index : ℕ
  points : List (K × K)
  points_ne : points ≠ []
  deriving DecidableEq

structure PointGenerationResult (K : Type) where
  points : List (K × K)
  substitutions : List (PointSubstitution K)
  deriving DecidableEq

/-- The errors of the calibration, with the data in their texts, and its panics. -/
inductive MeshError (K : Type) where
  | invalidProbeCount (xCount yCount : ℕ)
  | tooClose
  | faultyRegion (index : ℕ)
  | noPositions
  | positionListSize (generated probed : ℕ)
  | pointMismatch (orig probed : K × K)
  | yAxisLength (table : List (List K))
  | sampledOnX (table : List (List K))
  | xAxisLength (table : List (List K))
  | panic (value : Panic)
  deriving DecidableEq

section Code

variable {K : Type} [Field K] [LinearOrder K]

/-! ### Generation of the points -/

def within (coord minC maxC : K × K) (tol : K) : Prop :=
  maxC.1 + tol ≥ coord.1 ∧ coord.1 ≥ minC.1 - tol ∧ maxC.2 + tol ≥ coord.2 ∧ coord.2 ≥ minC.2 - tol

instance (coord minC maxC : K × K) (tol : K) : Decidable (within coord minC maxC tol) :=
  inferInstanceAs (Decidable (_ ∧ _))

variable (radius : Option K)

/-- The radius of a round bed; none and zero stand for a rectangular one. -/
def roundRadius : Option K := radius.filter fun r => r ≠ 0

variable (origin meshMin meshMax : K × K) (x : K)

/-- The points of one row, in the order of travel. -/
def probeRow [HasSqrt K] (minX maxX xDist posY : K) (xCount i : ℕ) : List (K × K) :=
  (range xCount).filterMap fun j : ℕ =>
    -- every other row is travelled from the right
    let posX := if i % 2 = 0 then minX + j * xDist else maxX - j * xDist
    match radius with
    | none => some (posX, posY)
    | some r =>
      if sqrt (posX * posX + posY * posY) ≤ r then some (origin.1 + posX, origin.2 + posY) else none

/-- The rows from row `i` on, of which `n` are left. -/
def probeRows (row : ℕ → K → List (K × K)) (yDist : K) : ℕ → K → ℕ → List (List (K × K))
  | _, _, 0 => []
  | i, posY, n + 1 => row i posY :: probeRows row yDist (i + 1) (posY + yDist) n

/-- The points around a faulty region that a point in it is replaced by. -/
def regionCoords (faultyRegions : List (FaultyRegion K)) (isReversed : Bool) (coord : K × K) :
    List (K × K) :=
  match faultyRegions.find? fun region =>
      within coord region.min region.max ((0.00001 : ℚ) : K) with
  | none => []
  | some region =>
    let left := (region.min.1, coord.2)
    let right := (region.max.1, coord.2)
    let below := (coord.1, region.min.2)
    let above := (coord.1, region.max.2)
    if isReversed then [right, below, above, left] else [left, below, above, right]

/-- The loop over the points that finds the ones in faulty regions. -/
def substitutePoints (faultyRegions : List (FaultyRegion K)) (valid : K × K → Bool) :
    ℕ → K → Bool → List (K × K) → Except (MeshError K) (List (PointSubstitution K))
  | _, _, _, [] => .ok []
  | i, lastY, isReversed, coord :: points =>
    let isReversed :=
      if isclose coord.2 lastY ((1e-9 : ℚ) : K) 0 then isReversed else !isReversed
    let rest := substitutePoints faultyRegions valid (i + 1) coord.2 isReversed points
    match regionCoords faultyRegions isReversed coord with
    | [] => rest
    | adjCoords =>
      let validCoords := adjCoords.filter valid
      if h : validCoords = [] then .error (.faultyRegion i)
      else rest.map (⟨i, validCoords, h⟩ :: ·)

/-- The corners and the distance of the rows: the bounds of the mesh, or those of a square
around a round bed. -/
def probeArea (xDist yDist : K) (xCount : ℕ) : (K × K) × (K × K) × K :=
  -- half of the columns, though the distances between them are one less
  let newR := (xCount : K) / 2 * xDist
  match roundRadius radius with
  | none => (meshMin, meshMax, yDist)
  | some _ => ((-newR, -newR), (newR, newR), xDist)

variable [FloorRing K]

def floorHundredth (dist : K) : K := ⌊dist * (100 : ℕ)⌋ / (100 : ℕ)

/-- `GenerateProbePoints`, for counts of at least two: the source divides by the counts less
one. -/
def generateProbePoints [HasSqrt K] (xCount yCount : ℕ) (faultyRegions : List (FaultyRegion K)) :
    Except (MeshError K) (PointGenerationResult K) :=
  if xCount < 1 ∨ yCount < 1 then .error (.invalidProbeCount xCount yCount)
  else
    let xDist := floorHundredth ((meshMax.1 - meshMin.1) / ((xCount : K) - 1))
    let yDist := floorHundredth ((meshMax.2 - meshMin.2) / ((yCount : K) - 1))
    if xDist < 1 ∨ yDist < 1 then .error .tooClose
    else
      let (minC, maxC, yDist) := probeArea radius meshMin meshMax xDist yDist xCount
      let row := fun i posY =>
        probeRow (roundRadius radius) origin minC.1 maxC.1 xDist posY xCount i
      let points := (probeRows row yDist 0 minC.2 yCount).flatten
      match points, faultyRegions with
      | [], _ => .ok ⟨[], []⟩
      | points, [] => .ok ⟨points, []⟩
      | first :: _, faultyRegions =>
        let valid := fun ac : K × K => match roundRadius radius with
          | none => decide (within ac minC maxC ((0.000001 : ℚ) : K))
          | some r =>
            let dx := ac.1 - origin.1
            let dy := ac.2 - origin.2
            decide (sqrt (dx * dx + dy * dy) ≤ r)
        (substitutePoints faultyRegions valid 0 first.2 false points).map (⟨points, ·⟩)

/-! ### The matrix of the probed heights -/

variable (zOffset : K) (positions : List (ProbePos K)) (offsets : K × K × K)

/-- A pass of the loop of `AssembleProbedMatrix`, on the rows that are done, the row that is
built and the position before. -/
def assembleStep (acc : List (List K) × List K × ProbePos K) (pos : ProbePos K) :
    List (List K) × List K × ProbePos K :=
  let (matrix, row, prevPos) := acc
  let (matrix, row) :=
    if ¬ isclose pos.y prevPos.y ((1e-9 : ℚ) : K) ((0.1 : ℚ) : K) then (matrix ++ [row], [])
    else (matrix, row)
  let row := if prevPos.x < pos.x then row ++ [pos.z - zOffset] else (pos.z - zOffset) :: row
  (matrix, row, pos)

def assembleRows (first : ProbePos K) (positions : List (ProbePos K)) : List (List K) :=
  let (matrix, row, _) := positions.foldl (assembleStep zOffset) ([], [], first)
  matrix ++ [row]

/-- The loop over the rows of a round bed.  Each row is padded in the variable of the loop
only, so that the matrix stays as it is. -/
def padRows (table : List (List K)) (xCount : ℕ) : List (List K) → Except (MeshError K) Unit
  | [] => .ok ()
  | row :: rows =>
    let rowSize := row.length
    if rowSize % 2 = 0 then .error (.sampledOnX table)
    else if xCount < rowSize / 2 then
      .error (.panic (.value ["runtime error: makeslice: len out of range"]))
    else padRows table xCount rows

/-- The height that all others are taken from. -/
def referenceHeight (zOffset : K) :
    Option ℕ → Except (MeshError K) K
  | none => .ok zOffset
  | some i => ((index positions i).map ProbePos.z).mapError .panic

def checkMatrix (probedMatrix : List (List K)) (xCount yCount : ℕ) (radius : Option K) :
    Except (MeshError K) (List (List K)) :=
  if probedMatrix.length ≠ yCount then .error (.yAxisLength probedMatrix)
  else
    let padded : Except (MeshError K) Unit := match radius with
      | none => .ok ()
      | some r => if 0 < r then padRows probedMatrix xCount probedMatrix else .ok ()
    match padded with
    | .error e => .error e
    | .ok () =>
      if ∃ row ∈ probedMatrix, row.length ≠ xCount then .error (.xAxisLength probedMatrix)
      else .ok probedMatrix

def assembleProbedMatrix (zOffset : K) (xCount yCount : ℕ) (relativeRefIndex : Option ℕ)
    (radius : Option K) : Except (MeshError K) (List (List K)) := do
  let zOffset ← referenceHeight positions zOffset relativeRefIndex
  let first ← (index positions 0).mapError .panic
  checkMatrix (assembleRows zOffset first positions) xCount yCount radius

/-! ### Faulty regions and the end of the calibration -/

/-- The loop of `ProcessFaultySubstitutions`. -/
def applySubstitutions (generatedPts : List (K × K)) (offsets : K × K × K)
    (positions : List (ProbePos K)) : List (PointSubstitution K) → ℕ → ℕ →
    Except (MeshError K) (List (ProbePos K))
  | [], _, startIdx => (slice positions startIdx positions.length).mapError .panic
  | sub :: subs, idxOffset, startIdx => do
    let generated ← (index generatedPts sub.index).mapError .panic
    let idx := sub.index + idxOffset
    let before ← (slice positions startIdx idx).mapError .panic
    let replaced ← (slice positions idx (idx + sub.points.length)).mapError .panic
    let avgZ := (replaced.map ProbePos.z).sum / sub.points.length
    let rest ← applySubstitutions generatedPts offsets positions subs
      (idxOffset + (sub.points.length - 1)) (idx + sub.points.length)
    return before ++ ⟨generated.1 - offsets.1, generated.2 - offsets.2.1, avgZ⟩ :: rest

/-- A probed position is not at its generated point. -/
def mismatch (pair : (K × K) × ProbePos K) : Bool :=
  !decide (isclose (pair.1.1 - offsets.1) pair.2.x ((1e-9 : ℚ) : K) ((0.1 : ℚ) : K)) ||
  !decide (isclose (pair.1.2 - offsets.2.1) pair.2.y ((1e-9 : ℚ) : K) ((0.1 : ℚ) : K))

def processFaultySubstitutions (generatedPts : List (K × K))
    (substitutions : List (PointSubstitution K)) (positions : List (ProbePos K))
    (offsets : K × K × K) : Except (MeshError K) (List (ProbePos K)) :=
  match substitutions with
  | [] => .ok positions
  | substitutions => do
    let correctedPts ← applySubstitutions generatedPts offsets positions substitutions 0 0
    if generatedPts.length ≠ correctedPts.length then
      .error (.positionListSize generatedPts.length correctedPts.length)
    else
      match (generatedPts.zip correctedPts).find? (mismatch offsets) with
      | some (gen, probed) =>
        .error (.pointMismatch (gen.1 - offsets.1, gen.2 - offsets.2.1) (probed.x, probed.y))
      | none => .ok correctedPts

/-- `math.Round`: to the nearest integer, halves away from zero. -/
def round : ℤ := if 0 ≤ x then ⌊x + 1 / 2⌋ else ⌈x - 1 / 2⌉

def roundHundredth : K := round (x * (100 : ℕ)) / (100 : ℕ)

def roundProbePositions : List (ProbePos K) :=
  positions.map fun pos => ⟨roundHundredth pos.x, roundHundredth pos.y, pos.z⟩

structure CalibrationResult (K : Type) where
  minX : K
  maxX : K
  minY : K
  maxY : K
  probedMatrix : List (List K)

def finalizeCalibration (positions : List (ProbePos K)) (xCount yCount : ℕ)
    (relativeRefIndex : Option ℕ) (radius : Option K) (generatedPts : List (K × K))
    (substitutions : List (PointSubstitution K)) : Except (MeshError K) (CalibrationResult K) :=
  match roundProbePositions positions with
  | [] => .error .noPositions
  | first :: others => do
    let corrected ← processFaultySubstitutions generatedPts substitutions (first :: others) offsets
    let probedMatrix ← assembleProbedMatrix corrected offsets.2.2 xCount yCount relativeRefIndex
      radius
    return {
      minX := others.foldl (fun m pos => min m pos.x) first.x + offsets.1
      maxX := others.foldl (fun m pos => max m pos.x) first.x + offsets.1
      minY := others.foldl (fun m pos => min m pos.y) first.y + offsets.2.1
      maxY := others.foldl (fun m pos => max m pos.y) first.y + offsets.2.1
      probedMatrix := probedMatrix }

end Code

/-! ### Rows that are put together again -/

section Assemble

variable {K : Type} [Field K] [LinearOrder K]

/-- The positions of one row: at one Y, to the right or to the left. -/
structure IsRun (row : List (ProbePos K)) : Prop where
  ne_nil : row ≠ []
  sameY : ∀ p ∈ row, ∀ q ∈ row, p.y = q.y
  right_or_left : row.Pairwise (fun p q => p.x < q.x) ∨ row.Pairwise fun p q => q.x < p.x

def sortRow (row : List (ProbePos K)) : List (ProbePos K) :=
  if row.Pairwise fun p q => p.x < q.x then row else row.reverse

/-- The heights of a row over the reference height. -/
def heights (zOffset : K) (row : List (ProbePos K)) : List K := row.map fun p => p.z - zOffset

/-- The rows are apart: no position is taken for one of the row before. -/
def Apart (row next : List (ProbePos K)) : Prop :=
  ∀ p ∈ row, ∀ q ∈ next, ¬ isclose q.y p.y ((1e-9 : ℚ) : K) ((0.1 : ℚ) : K)

variable [IsStrictOrderedRing K] (zOffset : K)

theorem isclose_self (a : K) : isclose a a ((1e-9 : ℚ) : K) ((0.1 : ℚ) : K) := by
  unfold isclose
  rw [sub_self, abs_zero]
  exact le_max_of_le_right (Rat.cast_nonneg.mpr (by norm_num))

theorem assembleStep_same {p prev : ProbePos K} (h : p.y = prev.y) (matrix : List (List K))
    (row : List K) :
    assembleStep zOffset (matrix, row, prev) p =
      (matrix, if prev.x < p.x then row ++ [p.z - zOffset] else (p.z - zOffset) :: row, p) := by
  unfold assembleStep
  dsimp only
  rw [h, if_neg (not_not.mpr (isclose_self _))]

omit [IsStrictOrderedRing K] in
theorem assembleStep_next {p prev : ProbePos K}
    (h : ¬ isclose p.y prev.y ((1e-9 : ℚ) : K) ((0.1 : ℚ) : K)) (matrix : List (List K))
    (row : List K) :
    assembleStep zOffset (matrix, row, prev) p = (matrix ++ [row], [p.z - zOffset], p) := by
  unfold assembleStep
  dsimp only
  rw [if_pos h]
  simp

variable {ps : List (ProbePos K)}

omit [IsStrictOrderedRing K] in
/-- The positions of a row, each placed in the same way next to the ones before. -/
theorem foldl_same_row (R : K → K → Prop) (place : List K → K → List K)
    (hplace : ∀ {prev p : ProbePos K} (matrix : List (List K)) (row : List K), p.y = prev.y →
      R prev.x p.x → assembleStep zOffset (matrix, row, prev) p =
        (matrix, place row (p.z - zOffset), p)) :
    ∀ {prev : ProbePos K} (matrix : List (List K)) (row : List K),
      (∀ p ∈ ps, p.y = prev.y) → (prev :: ps).Pairwise (fun p q => R p.x q.x) →
      ∃ last ∈ prev :: ps, ps.foldl (assembleStep zOffset) (matrix, row, prev) =
        (matrix, (heights zOffset ps).foldl place row, last) := by
  induction ps with
  | nil => exact fun {prev} _ _ _ _ => ⟨prev, by simp, rfl⟩
  | cons p ps ih =>
    intro prev matrix row hy hx
    have hp : p.y = prev.y := hy p (by simp)
    rw [foldl_cons, hplace matrix row hp (rel_of_pairwise_cons hx (by simp))]
    obtain ⟨last, hmem, hfold⟩ := ih matrix (place row (p.z - zOffset))
      (fun q hq => (hy q (by simp [hq])).trans hp.symm) (Pairwise.of_cons hx)
    exact ⟨last, mem_cons_of_mem _ hmem, hfold⟩

/-- The rest of a row, after its first position. -/
theorem foldl_run {p : ProbePos K} (hrun : IsRun (p :: ps)) (matrix : List (List K)) :
    ∃ last ∈ p :: ps, ps.foldl (assembleStep zOffset) (matrix, [p.z - zOffset], p) =
      (matrix, heights zOffset (sortRow (p :: ps)), last) := by
  have hy : ∀ q ∈ ps, q.y = p.y := fun q hq => hrun.sameY q (by simp [hq]) p (by simp)
  unfold sortRow
  by_cases hright : (p :: ps).Pairwise fun p q => p.x < q.x
  · -- to the right, each height goes behind the ones before
    rw [if_pos hright]
    obtain ⟨last, hmem, hfold⟩ := foldl_same_row zOffset (· < ·) (fun row z => row ++ [z])
      (fun matrix row hq hlt => by rw [assembleStep_same zOffset hq, if_pos hlt])
      matrix [p.z - zOffset] hy hright
    rw [foldl_append_eq_append, ← flatMap_def, flatMap_singleton'] at hfold
    exact ⟨last, hmem, hfold⟩
  · -- to the left, it goes before them
    rw [if_neg hright]
    obtain ⟨last, hmem, hfold⟩ := foldl_same_row zOffset (fun x x' => x' < x)
      (fun row z => z :: row)
      (fun matrix row hq hlt => by rw [assembleStep_same zOffset hq, if_neg (not_lt_of_gt hlt)])
      matrix [p.z - zOffset] hy (hrun.right_or_left.resolve_left hright)
    exact ⟨last, hmem, by rw [hfold]; simp [heights]⟩

variable {rows : List (List (ProbePos K))}

/-- The rows that follow a row that is built. -/
theorem foldl_rows :
    ∀ {prevRow : List (ProbePos K)} {prev : ProbePos K} (matrix : List (List K)) (row : List K),
      (∀ r ∈ rows, IsRun r) → (prevRow :: rows).Pairwise Apart → prev ∈ prevRow →
      ∃ matrix' row' last, rows.flatten.foldl (assembleStep zOffset) (matrix, row, prev) =
          (matrix', row', last) ∧
        matrix' ++ [row'] = matrix ++ row :: rows.map fun r => heights zOffset (sortRow r) := by
  -- the last position of the row before decides where the next one begins
  induction rows with
  | nil => exact fun matrix row _ _ _ => ⟨matrix, row, _, rfl, rfl⟩
  | cons r rows ih =>
    intro prevRow prev matrix row hruns hapart hprev
    obtain ⟨p, ps, rfl⟩ := exists_cons_of_ne_nil (hruns r (by simp)).ne_nil
    have hnext := rel_of_pairwise_cons hapart (mem_cons_self ..) prev hprev p (by simp)
    obtain ⟨last, hmem, hfold⟩ := foldl_run zOffset (hruns (p :: ps) (by simp))
      (matrix ++ [row])
    obtain ⟨matrix', row', last', hrest, hresult⟩ := ih (matrix ++ [row])
      (heights zOffset (sortRow (p :: ps))) (fun r hr => hruns r (by simp [hr]))
      (Pairwise.of_cons hapart) hmem
    refine ⟨matrix', row', last', ?_, by rw [hresult]; simp⟩
    rw [flatten_cons, foldl_append, foldl_cons, assembleStep_next zOffset hnext, hfold, hrest]

/-- Rows that go right or left and are apart come out in the order of X. -/
theorem assembleRows_flatten {p : ProbePos K} (hruns : ∀ r ∈ (p :: ps) :: rows, IsRun r)
    (hapart : ((p :: ps) :: rows).Pairwise Apart) :
    assembleRows zOffset p (((p :: ps) :: rows).flatten) =
      ((p :: ps) :: rows).map fun r => heights zOffset (sortRow r) := by
  obtain ⟨last, hmem, hfold⟩ := foldl_run zOffset (hruns (p :: ps) (by simp)) []
  obtain ⟨matrix, row, last', hrest, hresult⟩ := foldl_rows zOffset []
    (heights zOffset (sortRow (p :: ps))) (fun r hr => hruns r (by simp [hr])) hapart hmem
  unfold assembleRows
  rw [flatten_cons, foldl_append, foldl_cons, assembleStep_same zOffset rfl,
    if_neg (lt_irrefl _), hfold, hrest]
  simpa using hresult

end Assemble

/-! ### The generated points -/

section Generate

variable {K : Type} [Field K] [LinearOrder K]

omit [LinearOrder K] in
theorem probeRows_eq (row : ℕ → K → List (K × K)) (yDist : K) (i : ℕ) (posY : K) (n : ℕ) :
    probeRows row yDist i posY n =
      (range n).map fun k : ℕ => row (i + k) (posY + k * yDist) := by
  induction n generalizing i posY with
  | zero => rfl
  | succ n ih =>
    rw [probeRows, ih, range_succ_eq_map, map_cons, map_map]
    congr 1
    · simp
    · refine map_congr_left fun k _ => ?_
      have hi : i + 1 + k = i + (k + 1) := by omega
      have hy : posY + yDist + k * yDist = posY + ((k + 1 : ℕ) : K) * yDist := by
        push_cast
        ring
      rw [Function.comp_apply, hi, hy]

variable [FloorRing K] [HasSqrt K] {origin meshMin meshMax : K × K}

/-- Points that were generated without faulty regions. -/
theorem generateProbePoints_ok {radius : Option K} {xCount yCount : ℕ}
    {result : PointGenerationResult K}
    (h : generateProbePoints radius origin meshMin meshMax xCount yCount [] = .ok result) :
    let xDist := floorHundredth ((meshMax.1 - meshMin.1) / ((xCount : K) - 1))
    let yDist := floorHundredth ((meshMax.2 - meshMin.2) / ((yCount : K) - 1))
    let area := probeArea radius meshMin meshMax xDist yDist xCount
    1 ≤ xDist ∧ 1 ≤ yDist ∧ result.substitutions = [] ∧
    result.points = ((range yCount).map fun i : ℕ =>
      probeRow (roundRadius radius) origin area.1.1 area.2.1.1 xDist (area.1.2 + i * area.2.2)
        xCount i).flatten := by
  unfold generateProbePoints at h
  by_cases hcount : xCount < 1 ∨ yCount < 1
  · rw [if_pos hcount] at h
    cases h
  rw [if_neg hcount] at h
  dsimp only at h ⊢
  by_cases hdist : floorHundredth ((meshMax.1 - meshMin.1) / ((xCount : K) - 1)) < 1 ∨
      floorHundredth ((meshMax.2 - meshMin.2) / ((yCount : K) - 1)) < 1
  · rw [if_pos hdist] at h
    cases h
  rw [if_neg hdist, probeRows_eq] at h
  obtain ⟨hx, hy⟩ := not_or.mp hdist
  refine ⟨not_lt.mp hx, not_lt.mp hy, ?_⟩
  simp only [zero_add] at h
  split at h
  · rename_i hpoints
    obtain rfl := Except.ok.inj h
    exact ⟨rfl, hpoints.symm⟩
  · obtain rfl := Except.ok.inj h
    exact ⟨rfl, rfl⟩
  · contradiction

theorem generateProbePoints_accepts {radius : Option K} {xCount yCount : ℕ} (hx : 1 ≤ xCount)
    (hy : 1 ≤ yCount) (hxDist : 1 ≤ floorHundredth ((meshMax.1 - meshMin.1) / ((xCount : K) - 1)))
    (hyDist : 1 ≤ floorHundredth ((meshMax.2 - meshMin.2) / ((yCount : K) - 1))) :
    ∃ result, generateProbePoints radius origin meshMin meshMax xCount yCount [] = .ok result := by
  unfold generateProbePoints
  rw [if_neg (by omega)]
  dsimp only
  rw [if_neg (not_or.mpr ⟨not_lt.mpr hxDist, not_lt.mpr hyDist⟩)]
  split
  · exact ⟨_, rfl⟩
  · exact ⟨_, rfl⟩
  · contradiction

end Generate

/-! ### Rectangular beds -/

section Grid

variable {K : Type} [LinearOrder K]

def ProbePos.xy (p : ProbePos K) : K × K := (p.x, p.y)

/-- The positions, sorted into rows by Y and in each row by X. -/
structure IsGrid (positions : List (ProbePos K)) (xCount yCount : ℕ)
    (grid : List (List (ProbePos K))) : Prop where
  perm : grid.flatten.Perm positions
  rows : grid.length = yCount
  columns : ∀ row ∈ grid, row.length = xCount
  sameY : ∀ row ∈ grid, ∀ p ∈ row, ∀ q ∈ row, p.y = q.y
  byX : ∀ row ∈ grid, row.Pairwise fun p q => p.x < q.x
  byY : grid.Pairwise fun row next => ∀ p ∈ row, ∀ q ∈ next, p.y < q.y

theorem exists_rows {α β : Type} {f : α → β} {rows : List (List β)} :
    ∀ {l : List α}, l.map f = rows.flatten →
      ∃ parts : List (List α), l = parts.flatten ∧ parts.map (map f) = rows := by
  induction rows with
  | nil =>
    intro l h
    exact ⟨[], by simpa using h, rfl⟩
  | cons row rows ih =>
    intro l h
    rw [flatten_cons, map_eq_append_iff] at h
    obtain ⟨l₁, l₂, rfl, h₁, h₂⟩ := h
    obtain ⟨parts, rfl, hparts⟩ := ih h₂
    exact ⟨l₁ :: parts, by simp, by simp [h₁, hparts]⟩

/-- A row with coordinates that grow or fall. -/
theorem isRun_of_map {r : List (ProbePos K)} {n : ℕ} {f : ℕ → K} {y : K} (hn : 0 < n)
    (h : r.map ProbePos.xy = (range n).map fun j => (f j, y))
    (hf : StrictMono f ∨ StrictAnti f) : IsRun r ∧ r.length = n := by
  have hlen : r.length = n := by simpa using congrArg length h
  have hy : ∀ p ∈ r, p.y = y := by
    intro p hp
    have hmem := h ▸ mem_map_of_mem hp
    obtain ⟨j, -, hj⟩ := mem_map.mp hmem
    exact (Prod.mk.inj hj).2.symm
  refine ⟨⟨?_, fun p hp q hq => (hy p hp).trans (hy q hq).symm, ?_⟩, hlen⟩
  · rintro rfl
    simp at hlen
    omega
  · have hpair : ∀ R : K → K → Prop, (∀ i j : ℕ, i < j → R (f i) (f j)) →
        r.Pairwise fun p q => R p.x q.x := by
      intro R hR
      have hmap : (r.map ProbePos.xy).Pairwise fun a b => R a.1 b.1 := by
        rw [h, pairwise_map]
        exact pairwise_lt_range.imp fun hij => hR _ _ hij
      rw [pairwise_map] at hmap
      exact hmap
    rcases hf with hf | hf
    · exact .inl (hpair (· < ·) fun i j hij => hf hij)
    · exact .inr (hpair (fun a b => b < a) fun i j hij => hf hij)

variable {rows : List (List (ProbePos K))}

omit [LinearOrder K] in
/-- What holds of the Y of any two rows, in order, holds of their positions. -/
theorem pairwise_of_map {m n : ℕ} {f : ℕ → ℕ → K} {y : ℕ → K} (h : rows.map (map ProbePos.xy) =
      (range m).map fun i => (range n).map fun j => (f i j, y i))
    {R : K → K → Prop} (hR : ∀ i k, i < k → k < m → R (y i) (y k)) :
    rows.Pairwise fun row next => ∀ p ∈ row, ∀ q ∈ next, R p.y q.y := by
  have hmap : (rows.map (map ProbePos.xy)).Pairwise fun row next =>
      ∀ a ∈ row, ∀ b ∈ next, R a.2 b.2 := by
    rw [h, pairwise_map]
    refine pairwise_lt_range.imp_of_mem fun {i k} _ hk hik => ?_
    intro a ha b hb
    obtain ⟨j, -, rfl⟩ := mem_map.mp ha
    obtain ⟨l, -, rfl⟩ := mem_map.mp hb
    exact hR i k hik (mem_range.mp hk)
  rw [pairwise_map] at hmap
  refine hmap.imp fun hrel p hp q hq => ?_
  exact hrel p.xy (mem_map_of_mem hp) q.xy (mem_map_of_mem hq)

theorem sortRow_perm (row : List (ProbePos K)) : (sortRow row).Perm row := by
  unfold sortRow
  split_ifs
  · exact Perm.refl _
  · exact reverse_perm row

theorem sortRow_pairwise {row : List (ProbePos K)} (h : IsRun row) :
    (sortRow row).Pairwise fun p q => p.x < q.x := by
  unfold sortRow
  by_cases hright : row.Pairwise fun p q => p.x < q.x
  · rw [if_pos hright]
    exact hright
  · rw [if_neg hright, pairwise_reverse]
    exact h.right_or_left.resolve_left hright

/-- Rows that go right or left and grow in Y are a grid when each is sorted. -/
theorem isGrid_sortRow {n : ℕ} (hruns : ∀ r ∈ rows, IsRun r ∧ r.length = n)
    (hY : rows.Pairwise fun row next => ∀ p ∈ row, ∀ q ∈ next, p.y < q.y) :
    IsGrid rows.flatten n rows.length (rows.map sortRow) where
  perm := by
    refine Perm.flatten_congr ?_
    rw [forall₂_map_left_iff]
    exact forall₂_same.mpr fun r _ => sortRow_perm r
  rows := length_map ..
  columns := by
    intro row hrow
    obtain ⟨r, hr, rfl⟩ := mem_map.mp hrow
    rw [(sortRow_perm r).length_eq]
    exact (hruns r hr).2
  sameY := by
    intro row hrow p hp q hq
    obtain ⟨r, hr, rfl⟩ := mem_map.mp hrow
    exact (hruns r hr).1.sameY p ((sortRow_perm r).mem_iff.mp hp) q ((sortRow_perm r).mem_iff.mp hq)
  byX := by
    intro row hrow
    obtain ⟨r, hr, rfl⟩ := mem_map.mp hrow
    exact sortRow_pairwise (hruns r hr).1
  byY := by
    rw [pairwise_map]
    refine hY.imp fun h p hp q hq => ?_
    exact h p ((sortRow_perm _).mem_iff.mp hp) q ((sortRow_perm _).mem_iff.mp hq)

end Grid

section Rect

variable {K : Type} [Field K] [LinearOrder K] [FloorRing K] [IsStrictOrderedRing K]

theorem floorHundredth_le (dist : K) : floorHundredth dist ≤ dist := by
  have hpos : (0 : K) < (100 : ℕ) := by norm_num
  rw [floorHundredth, div_le_iff₀ hpos]
  exact Int.floor_le _

theorem lt_floorHundredth_add (dist : K) : dist < floorHundredth dist + 1 / (100 : ℕ) := by
  have hpos : (0 : K) < (100 : ℕ) := by norm_num
  rw [floorHundredth, ← add_div, lt_div_iff₀ hpos]
  exact Int.lt_floor_add_one _

/-- The rows of a bed lie between its bounds. -/
theorem row_le {minY maxY : K} {n i : ℕ} (hn : 2 ≤ n) (hi : i < n)
    (hdist : 1 ≤ floorHundredth ((maxY - minY) / ((n : K) - 1))) :
    minY ≤ minY + i * floorHundredth ((maxY - minY) / ((n : K) - 1)) ∧
    minY + i * floorHundredth ((maxY - minY) / ((n : K) - 1)) ≤ maxY := by
  have hle := floorHundredth_le ((maxY - minY) / ((n : K) - 1))
  generalize floorHundredth ((maxY - minY) / ((n : K) - 1)) = dist at hdist hle ⊢
  have hn1 : (0 : K) < (n : K) - 1 := by
    have : (2 : K) ≤ n := by exact_mod_cast hn
    linarith
  have hi' : (i : K) ≤ (n : K) - 1 := by
    have : ((i + 1 : ℕ) : K) ≤ n := by exact_mod_cast hi
    push_cast at this
    linarith
  rw [le_div_iff₀ hn1] at hle
  have hi0 : (0 : K) ≤ i := Nat.cast_nonneg i
  have hmul : (i : K) * dist ≤ ((n : K) - 1) * dist :=
    mul_le_mul_of_nonneg_right hi' (by linarith)
  constructor
  · have := mul_nonneg hi0 (by linarith : (0 : K) ≤ dist)
    linarith
  · linarith

/-- Rows that are at least one apart are told apart below 10^9. -/
theorem not_isclose {a b : K} (ha : |a| < (10 : ℕ) ^ 9) (hb : |b| < (10 : ℕ) ^ 9)
    (h : a + 1 ≤ b) : ¬ isclose b a ((1e-9 : ℚ) : K) ((0.1 : ℚ) : K) := by
  have htol : ((1e-9 : ℚ) : K) * (10 : ℕ) ^ 9 = 1 := by norm_num
  have hpos : (0 : K) < ((1e-9 : ℚ) : K) := Rat.cast_pos.mpr (by norm_num)
  have hrel : ((1e-9 : ℚ) : K) * max |b| |a| < 1 := by
    rw [← htol]
    exact mul_lt_mul_of_pos_left (max_lt hb ha) hpos
  have habs : ((0.1 : ℚ) : K) < 1 := by norm_num
  have hdiff : (1 : K) ≤ |b - a| := le_trans (by linarith) (le_abs_self _)
  unfold isclose
  rw [not_le]
  exact lt_of_lt_of_le (max_lt hrel habs) hdiff

/-- The X of the points of row `i`. -/
def rowX (minX maxX xDist xOffset : K) (i j : ℕ) : K :=
  (if i % 2 = 0 then minX + j * xDist else maxX - j * xDist) - xOffset

omit [FloorRing K] in
theorem rowX_mono {minX maxX xDist : K} (xOffset : K) (h : 1 ≤ xDist) (i : ℕ) :
    StrictMono (rowX minX maxX xDist xOffset i) ∨ StrictAnti (rowX minX maxX xDist xOffset i) := by
  have hpos : 0 < xDist := by linarith
  have hlt : ∀ {j k : ℕ}, j < k → (j : K) * xDist < k * xDist := fun hjk =>
    mul_lt_mul_of_pos_right (Nat.cast_lt.mpr hjk) hpos
  by_cases hi : i % 2 = 0
  · refine .inl fun j k hjk => ?_
    unfold rowX
    rw [if_pos hi, if_pos hi]
    linarith [hlt hjk]
  · refine .inr fun j k hjk => ?_
    unfold rowX
    rw [if_neg hi, if_neg hi]
    linarith [hlt hjk]

variable [HasSqrt K] {radius : Option K} {result : PointGenerationResult K} {xCount yCount : ℕ}
  {origin meshMin meshMax : K × K}

omit [IsStrictOrderedRing K] in
/-- The shifted points of a rectangular bed, row by row. -/
theorem points_rect (hrect : roundRadius radius = none)
    (hgen : generateProbePoints radius origin meshMin meshMax xCount yCount [] = .ok result)
    (xOffset yOffset : K) :
    result.points.map (fun p => (p.1 - xOffset, p.2 - yOffset)) =
      ((range yCount).map fun i : ℕ => (range xCount).map fun j : ℕ =>
        (rowX meshMin.1 meshMax.1 (floorHundredth ((meshMax.1 - meshMin.1) / ((xCount : K) - 1)))
            xOffset i j,
          meshMin.2 + i * floorHundredth ((meshMax.2 - meshMin.2) / ((yCount : K) - 1))
            - yOffset)).flatten := by
  obtain ⟨-, -, -, hpoints⟩ := generateProbePoints_ok hgen
  rw [hpoints, map_flatten, map_map, hrect]
  congr 1
  refine map_congr_left fun i _ => ?_
  unfold probeArea probeRow
  rw [hrect]
  simp only [Function.comp_apply, map_filterMap, Option.map_some]
  exact filterMap_eq_map ▸ rfl

/-- The probed positions of a rectangular bed are rows that go right or left, each at a
larger Y than the one before. -/
theorem exists_runs (hrect : roundRadius radius = none) (hx : 2 ≤ xCount) (hy : 2 ≤ yCount)
    (hgen : generateProbePoints radius origin meshMin meshMax xCount yCount [] = .ok result)
    {xOffset yOffset : K} {positions : List (ProbePos K)}
    (hpos : positions.map ProbePos.xy = result.points.map fun p => (p.1 - xOffset, p.2 - yOffset))
    (hmin : |meshMin.2 - yOffset| < (10 : ℕ) ^ 9) (hmax : |meshMax.2 - yOffset| < (10 : ℕ) ^ 9) :
    ∃ rows : List (List (ProbePos K)), positions = rows.flatten ∧ rows.length = yCount ∧
      (∀ r ∈ rows, IsRun r ∧ r.length = xCount) ∧
      rows.Pairwise (fun row next => ∀ p ∈ row, ∀ q ∈ next, p.y < q.y) ∧
      rows.Pairwise Apart := by
  obtain ⟨hxDist, hyDist, -, -⟩ := generateProbePoints_ok hgen
  rw [points_rect hrect hgen] at hpos
  obtain ⟨rows, rfl, hrows⟩ := exists_rows hpos
  have hbounds := fun i (hi : i < yCount) => row_le hy hi hyDist
  generalize floorHundredth ((meshMax.2 - meshMin.2) / ((yCount : K) - 1)) = yDist at *
  have hstep : ∀ {i k : ℕ}, i < k → (i : K) * yDist + 1 ≤ k * yDist := by
    intro i k hik
    have hcast : (i : K) + 1 ≤ k := by exact_mod_cast hik
    have hmul := mul_le_mul_of_nonneg_right hcast (by linarith : (0 : K) ≤ yDist)
    linarith
  refine ⟨rows, rfl, ?_, fun r hr => ?_, ?_, ?_⟩
  · simpa using congrArg length hrows
  · have hmem : r.map ProbePos.xy ∈ rows.map (map ProbePos.xy) := mem_map_of_mem hr
    rw [hrows] at hmem
    obtain ⟨i, -, hi⟩ := mem_map.mp hmem
    exact isRun_of_map (by omega) hi.symm (rowX_mono xOffset hxDist i)
  · refine pairwise_of_map hrows (R := (· < ·)) fun i k hik _ => ?_
    linarith [hstep hik]
  · refine pairwise_of_map hrows (R := fun a b => ¬ isclose b a _ _) fun i k hik hk => ?_
    obtain ⟨hlow, hhigh⟩ := hbounds i (hik.trans hk)
    obtain ⟨hlow', hhigh'⟩ := hbounds k hk
    have hlt : ∀ {y : K}, meshMin.2 ≤ y → y ≤ meshMax.2 → |y - yOffset| < (10 : ℕ) ^ 9 :=
      fun hl hh => (abs_le_max_abs_abs (sub_le_sub_right hl _) (sub_le_sub_right hh _)).trans_lt
        (max_lt hmin hmax)
    exact not_isclose (hlt hlow hhigh) (hlt hlow' hhigh') (by linarith [hstep hik])

omit [FloorRing K] [HasSqrt K] [IsStrictOrderedRing K] in
theorem checkMatrix_rect (hrect : roundRadius radius = none)
    {matrix : List (List K)} {xCount : ℕ} (hcolumns : ∀ row ∈ matrix, row.length = xCount) :
    checkMatrix matrix xCount matrix.length radius = .ok matrix := by
  have hall : ¬ ∃ row ∈ matrix, row.length ≠ xCount := by
    rintro ⟨row, hrow, hne⟩
    exact hne (hcolumns row hrow)
  unfold checkMatrix
  rw [if_neg (by simp)]
  cases radius with
  | none => exact if_neg hall
  | some r =>
    have hr : r = 0 := by simpa [roundRadius, Option.filter] using hrect
    subst hr
    dsimp only
    rw [if_neg (lt_irrefl _)]
    exact if_neg hall

/-- The matrix of a rectangular bed that was probed at the generated points, shifted by the
offsets of the probe: row by row in the order of Y, each in the order of X. -/
theorem assembleProbedMatrix_rect {radius : Option K} (hrect : roundRadius radius = none)
    (origin meshMin meshMax : K × K) (hx : 2 ≤ xCount) (hy : 2 ≤ yCount)
    (hgen : generateProbePoints radius origin meshMin meshMax xCount yCount [] = .ok result)
    (xOffset yOffset : K) (positions : List (ProbePos K))
    (hpos : positions.map ProbePos.xy = result.points.map fun p => (p.1 - xOffset, p.2 - yOffset))
    (hmin : |meshMin.2 - yOffset| < (10 : ℕ) ^ 9) (hmax : |meshMax.2 - yOffset| < (10 : ℕ) ^ 9)
    (zOffset : K) (relativeRefIndex : Option ℕ) {height : K}
    (href : referenceHeight positions zOffset relativeRefIndex = .ok height) :
    ∃ grid, IsGrid positions xCount yCount grid ∧
      assembleProbedMatrix positions zOffset xCount yCount relativeRefIndex radius =
        .ok (grid.map fun row => row.map fun p => p.z - height) := by
  obtain ⟨rows, rfl, hlen, hruns, hY, hapart⟩ := exists_runs hrect hx hy hgen hpos hmin hmax
  subst hlen
  refine ⟨rows.map sortRow, isGrid_sortRow hruns hY, ?_⟩
  obtain ⟨first, others, rfl⟩ : ∃ first others, rows = first :: others :=
    exists_cons_of_ne_nil (by rintro rfl; simp at hy)
  obtain ⟨p, ps, rfl⟩ := exists_cons_of_ne_nil (hruns first (by simp)).1.ne_nil
  unfold assembleProbedMatrix
  rw [href]
  show checkMatrix (assembleRows height p _) _ _ _ = _
  rw [assembleRows_flatten height (fun r hr => (hruns r hr).1) hapart, map_map]
  rw [← length_map (f := fun r => heights height (sortRow r))]
  refine checkMatrix_rect hrect fun row hrow => ?_
  obtain ⟨r, hr, rfl⟩ := mem_map.mp hrow
  rw [heights, length_map, (sortRow_perm r).length_eq]
  exact (hruns r hr).2

end Rect

def cornerPositions (yOffset : ℚ) : List (ProbePos ℚ) :=
  [⟨0, 0 - yOffset, 1⟩, ⟨10, 0 - yOffset, 2⟩, ⟨10, 10 - yOffset, 3⟩, ⟨0, 10 - yOffset, 4⟩]

def cornerPoints : PointGenerationResult ℚ := ⟨[(0, 0), (10, 0), (10, 10), (0, 10)], []⟩

theorem generate_cornerPoints :
    generateProbePoints (none : Option ℚ) (0, 0) (0, 0) (10, 10) 2 2 [] = .ok cornerPoints := by
  decide +kernel

theorem assembleProbedMatrix_corners : ∃ grid, IsGrid (cornerPositions 25) 2 2 grid ∧
    assembleProbedMatrix (cornerPositions 25) 0 2 2 (some 0) none =
      .ok (grid.map fun row => row.map fun p => p.z - 1) :=
  assembleProbedMatrix_rect rfl (0, 0) (0, 0) (10, 10) le_rfl le_rfl generate_cornerPoints 0 25
    (cornerPositions 25) (by decide +kernel) (by norm_num [abs_lt]) (by norm_num [abs_lt]) 0
    (some 0) rfl

/-- With an offset of 10^10 the two rows are taken for one. -/
theorem assembleProbedMatrix_far :
    generateProbePoints (none : Option ℚ) (0, 0) (0, 0) (10, 10) 2 2 [] = .ok cornerPoints ∧
    (cornerPositions (10 ^ 10)).map ProbePos.xy =
      cornerPoints.points.map (fun p => (p.1 - 0, p.2 - 10 ^ 10)) ∧
    assembleProbedMatrix (cornerPositions (10 ^ 10)) 0 2 2 none none =
      .error (.yAxisLength [[4, 3, 1, 2]]) := by
  refine ⟨generate_cornerPoints, ?_, ?_⟩ <;> decide +kernel

/-! ### Round beds -/

section Round

variable {K : Type} [Field K] [LinearOrder K] {radius : Option K}

/-- A pass of the loop adds one cell. -/
theorem assembleStep_sum (zOffset : K) (matrix : List (List K)) (row : List K)
    (prev p : ProbePos K) :
    ∃ matrix' row', assembleStep zOffset (matrix, row, prev) p = (matrix', row', p) ∧
      ((matrix' ++ [row']).map length).sum =
        ((matrix ++ [row]).map length).sum + 1 := by
  by_cases hclose : isclose p.y prev.y ((1e-9 : ℚ) : K) ((0.1 : ℚ) : K)
  · unfold assembleStep
    dsimp only
    split_ifs <;> simp <;> omega
  · refine ⟨_, _, assembleStep_next zOffset hclose matrix row, ?_⟩
    simp
    omega

theorem sum_length_foldl (zOffset : K) (positions : List (ProbePos K)) :
    ∀ (matrix : List (List K)) (row : List K) (prev : ProbePos K),
      ∃ matrix' row' last, positions.foldl (assembleStep zOffset) (matrix, row, prev) =
          (matrix', row', last) ∧
        ((matrix' ++ [row']).map length).sum =
          ((matrix ++ [row]).map length).sum + positions.length := by
  induction positions with
  | nil => exact fun matrix row prev => ⟨matrix, row, prev, rfl, rfl⟩
  | cons p positions ih =>
    intro matrix row prev
    obtain ⟨matrix₁, row₁, hstep, hsum₁⟩ := assembleStep_sum zOffset matrix row prev p
    obtain ⟨matrix', row', last, hfold, hsum⟩ := ih matrix₁ row₁ p
    refine ⟨matrix', row', last, ?_, ?_⟩
    · rw [foldl_cons, hstep, hfold]
    · rw [hsum, hsum₁, length_cons]
      omega

/-- Every position has one cell in the matrix. -/
theorem sum_length_assembleRows (zOffset : K) (first : ProbePos K) (positions : List (ProbePos K)) :
    ((assembleRows zOffset first positions).map length).sum = positions.length := by
  obtain ⟨matrix, row, last, hfold, hsum⟩ := sum_length_foldl zOffset positions [] [] first
  unfold assembleRows
  rw [hfold]
  simpa using hsum

variable {xCount yCount : ℕ}

theorem checkMatrix_ok {matrix result : List (List K)}
    (h : checkMatrix matrix xCount yCount radius = .ok result) :
    result = matrix ∧ matrix.length = yCount ∧ ∀ row ∈ matrix, row.length = xCount := by
  unfold checkMatrix at h
  dsimp only at h
  split at h
  · cases h
  next hlen =>
  split at h
  · cases h
  split at h
  · cases h
  next hcolumns =>
  refine ⟨(Except.ok.inj h).symm, not_not.mp hlen, fun row hrow => ?_⟩
  by_contra hne
  exact hcolumns ⟨row, hrow, hne⟩

variable {positions : List (ProbePos K)} {relativeRefIndex : Option ℕ}

/-- A matrix is a full one: there are as many positions as cells. -/
theorem assembleProbedMatrix_ok {zOffset : K} {matrix : List (List K)}
    (h : assembleProbedMatrix positions zOffset xCount yCount relativeRefIndex radius =
      .ok matrix) :
    positions.length = yCount * xCount := by
  obtain ⟨height, -, h⟩ := Outcome.bind_eq_ok h
  obtain ⟨first, -, h⟩ := Outcome.bind_eq_ok h
  obtain ⟨-, hrows, hcolumns⟩ := checkMatrix_ok h
  have hsum : ((assembleRows height first positions).map length).sum =
      ((assembleRows height first positions).map length).length • xCount := by
    refine sum_eq_card_nsmul _ _ fun n hn => ?_
    obtain ⟨row, hrow, rfl⟩ := mem_map.mp hn
    exact hcolumns row hrow
  rw [sum_length_assembleRows, length_map, hrows] at hsum
  exact hsum

variable [FloorRing K]

/-- Finalizing a calibration keeps the number of positions, if no region is faulty. -/
theorem finalizeCalibration_ok {offsets : K × K × K} {generatedPts : List (K × K)}
    {result : CalibrationResult K}
    (h : finalizeCalibration offsets positions xCount yCount relativeRefIndex radius generatedPts []
      = .ok result) : positions.length = yCount * xCount := by
  have hlen : (roundProbePositions positions).length = positions.length := by
    simp [roundProbePositions]
  unfold finalizeCalibration at h
  split at h
  · cases h
  · rename_i first others hround
    obtain ⟨corrected, hcorrected, h⟩ := Outcome.bind_eq_ok h
    obtain ⟨matrix, hmatrix, -⟩ := Outcome.bind_eq_ok h
    obtain rfl := Except.ok.inj hcorrected
    rw [← hlen, hround]
    exact assembleProbedMatrix_ok hmatrix

omit [FloorRing K] in
theorem probeRow_length_le [HasSqrt K] (radius : Option K) (origin : K × K)
    (minX maxX xDist posY : K) (xCount i : ℕ) :
    (probeRow radius origin minX maxX xDist posY xCount i).length ≤ xCount := by
  exact (length_filterMap_le _ _).trans (length_range ..).le

omit [Field K] [LinearOrder K] [FloorRing K] in
theorem length_rows_le {row : ℕ → List (K × K)} {xCount : ℕ}
    (hrow : ∀ i, (row i).length ≤ xCount) (is : List ℕ) :
    ((is.map row).flatten).length ≤ is.length * xCount := by
  rw [length_flatten, map_map]
  refine (sum_le_card_nsmul _ xCount fun k hk => ?_).trans (by simp)
  obtain ⟨i, -, rfl⟩ := mem_map.mp hk
  exact hrow i

variable [HasSqrt K] [IsStrictOrderedRing K] [LawfulSqrt K] {n : ℕ}

/-- The corner of the square around a round bed is outside of the bed: the square is wider
than the bed, but for the rounding. -/
theorem corner_outside {r newR : K} (hn : 2 ≤ n)
    (hdist : 1 ≤ floorHundredth ((r - -r) / ((n : K) - 1)))
    (hnewR : newR = (n : K) / 2 * floorHundredth ((r - -r) / ((n : K) - 1))) :
    ¬ sqrt (-newR * -newR + -newR * -newR) ≤ r := by
  intro hle
  have hfloor := lt_floorHundredth_add ((r - -r) / ((n : K) - 1))
  generalize floorHundredth ((r - -r) / ((n : K) - 1)) = dist at hdist hnewR hfloor
  have hn2 : (2 : K) ≤ n := by exact_mod_cast hn
  have hr0 : 0 ≤ r := (sqrt_nonneg _).trans hle
  have hr : r < 101 / 100 * newR := by
    rw [div_lt_iff₀ (by linarith)] at hfloor
    have hscaled : (dist + 1 / (100 : ℕ)) * ((n : K) - 1) ≤ 101 / 100 * dist * n := by
      refine mul_le_mul ?_ (by linarith) (by linarith) (by linarith)
      push_cast
      linarith
    rw [hnewR]
    linarith
  have hsq : -newR * -newR + -newR * -newR ≤ r ^ 2 := by
    rw [← sq_sqrt (x := -newR * -newR + -newR * -newR) (by nlinarith)]
    exact pow_le_pow_left₀ (sqrt_nonneg _) hle 2
  nlinarith

variable {result : PointGenerationResult K}

/-- Not all points of the square around a round bed are probed. -/
theorem points_round_length {r : K} {origin : K × K} (hn : 2 ≤ n)
    (hgen : generateProbePoints (some r) origin (-r, -r) (r, r) n n [] = .ok result) :
    result.points.length < n * n := by
  obtain ⟨hdist, -, -, hpoints⟩ := generateProbePoints_ok hgen
  have hr : r ≠ 0 := by
    rintro rfl
    have hle := hdist.trans (floorHundredth_le _)
    rw [neg_zero, sub_zero, zero_div] at hle
    exact absurd hle (not_le.mpr zero_lt_one)
  have hround : roundRadius (some r) = some r := by simp [roundRadius, Option.filter, hr]
  have hcorner := corner_outside (r := r) hn hdist rfl
  unfold probeArea at hpoints
  rw [hround] at hpoints
  dsimp only at hpoints
  generalize floorHundredth ((r - -r) / ((n : K) - 1)) = dist at hpoints hcorner
  generalize (n : K) / 2 * dist = newR at hpoints hcorner
  obtain ⟨m, rfl⟩ : ∃ m, n = m + 1 := ⟨n - 1, by omega⟩
  rw [range_succ_eq_map, map_cons, flatten_cons] at hpoints
  -- the first row misses the corner, and no row has more points than columns
  -- the first point is outside of the bed
  have hfirst : (probeRow (some r) origin (-newR) newR dist (-newR + (0 : ℕ) * dist) (m + 1)
      0).length < m + 1 := by
    conv_rhs => rw [← length_range (n := m + 1)]
    refine length_filterMap_lt_length_iff_exists.mpr ⟨0, by simp, ?_⟩
    simpa using hcorner
  have hrest := length_rows_le (fun i : ℕ => probeRow_length_le (some r) origin (-newR) newR dist
    (-newR + i * dist) (m + 1) i) (map Nat.succ (range m))
  rw [length_map, length_range] at hrest
  rw [hpoints, length_append, Nat.succ_mul]
  omega

/-- Finalizing the calibration of a round bed always fails. -/
theorem finalizeCalibration_round {r : K} {origin : K × K} (hn : 2 ≤ n)
    (hgen : generateProbePoints (some r) origin (-r, -r) (r, r) n n [] = .ok result)
    (hpos : positions.length = result.points.length)
    (offsets : K × K × K) (relativeRefIndex : Option ℕ) :
    ∃ err, finalizeCalibration offsets positions n n relativeRefIndex (some r) result.points
      result.substitutions = .error err := by
  obtain ⟨-, -, hsubst, -⟩ := generateProbePoints_ok hgen
  rw [hsubst]
  cases hfinal : finalizeCalibration offsets positions n n relativeRefIndex (some r)
      result.points [] with
  | error err => exact ⟨err, rfl⟩
  | ok calibrated =>
    have hfull := finalizeCalibration_ok hfinal
    have hlt := points_round_length hn hgen
    omega

/-- A row with its edge values on both sides, as many on each as to fill the columns. -/
def padRow (xCount : ℕ) (row : List K) : List K :=
  replicate ((xCount - row.length) / 2) (row.headD 0) ++ row ++
    replicate ((xCount - row.length) / 2) (row.getLastD 0)

/-- A round bed can be calibrated with the points that were generated for it: they are
symmetric about the origin and an odd number in each row, and whatever the heights the
calibration ends with a square matrix of the rows, padded equally on both sides. -/
def RoundBedCalibrates (r : K) (origin : K × K) (n : ℕ) (generated : PointGenerationResult K) :
    Prop :=
  (∀ p ∈ generated.points,
    (origin.1 - (p.1 - origin.1), origin.2 - (p.2 - origin.2)) ∈ generated.points) ∧
  (∀ p ∈ generated.points, Odd (generated.points.countP fun q => q.2 = p.2)) ∧
  ∀ (offsets : K × K × K) (relativeRefIndex : Option ℕ) (positions : List (ProbePos K))
      (height : K),
    positions.map ProbePos.xy =
      generated.points.map (fun p => (p.1 - offsets.1, p.2 - offsets.2.1)) →
    referenceHeight positions offsets.2.2 relativeRefIndex = .ok height →
    ∃ (result : CalibrationResult K) (rows : List (List (ProbePos K))),
      finalizeCalibration offsets positions n n relativeRefIndex (some r) generated.points
        generated.substitutions = .ok result ∧
      rows.flatten.Perm positions ∧ rows.length = n ∧
      (∀ row ∈ rows, (∀ p ∈ row, ∀ q ∈ row, p.y = q.y) ∧ row.Pairwise fun p q => p.x < q.x) ∧
      rows.Pairwise (fun row next => ∀ p ∈ row, ∀ q ∈ next, p.y < q.y) ∧
      result.probedMatrix = rows.map (fun row => padRow n (heights height row)) ∧
      ∀ row ∈ result.probedMatrix, row.length = n

/-- No radius and no count with which points are generated lets a round bed be calibrated. -/
theorem round_never_calibrates (r : K) (origin : K × K) (hn : 2 ≤ n)
    (generated : PointGenerationResult K)
    (hgen : generateProbePoints (some r) origin (-r, -r) (r, r) n n [] = .ok generated) :
    ¬ RoundBedCalibrates r origin n generated := by
  rintro ⟨-, -, hfinal⟩
  -- a flat bed is enough
  let flat : List (ProbePos K) := generated.points.map fun p => ⟨p.1, p.2, 0⟩
  have hflat : flat.map ProbePos.xy = generated.points.map fun p => (p.1 - 0, p.2 - 0) := by
    rw [map_map]
    refine map_congr_left fun p _ => ?_
    rw [sub_zero, sub_zero]
    rfl
  have hlen : flat.length = generated.points.length := length_map ..
  obtain ⟨result, -, hok, -⟩ := hfinal (0, 0, 0) none flat 0 hflat rfl
  obtain ⟨err, herr⟩ := finalizeCalibration_round hn hgen hlen (0, 0, 0) none
  rw [herr] at hok
  cases hok

end Round

/-- A round bed of radius 10 with three points on each axis is accepted. -/
theorem exists_generated_ten : ∃ generated,
    generateProbePoints (some (10 : ℝ)) (0, 0) (-10, -10) (10, 10) 3 3 [] = .ok generated := by
  have hdist : floorHundredth (((10 : ℝ) - -10) / (((3 : ℕ) : ℝ) - 1)) = 10 := by
    norm_num [floorHundredth]
  refine generateProbePoints_accepts (by omega) (by omega) ?_ ?_
  · rw [hdist]
    norm_num
  · rw [hdist]
    norm_num

theorem round_ten_never_calibrates : ∃ generated,
    generateProbePoints (some (10 : ℝ)) (0, 0) (-10, -10) (10, 10) 3 3 [] = .ok generated ∧
    ¬ RoundBedCalibrates 10 (0, 0) 3 generated := by
  obtain ⟨generated, hgen⟩ := exists_generated_ten
  exact ⟨generated, hgen, round_never_calibrates 10 (0, 0) (by omega) generated hgen⟩

/-- The calibration of that bed fails, whatever the heights. -/
theorem round_ten_not_finalized : ∃ generated,
    generateProbePoints (some (10 : ℝ)) (0, 0) (-10, -10) (10, 10) 3 3 [] = .ok generated ∧
    ∀ positions : List (ProbePos ℝ), positions.length = generated.points.length →
      ∃ err, finalizeCalibration (0, 0, 0) positions 3 3 none (some 10) generated.points
        generated.substitutions = .error err := by
  obtain ⟨generated, hgen⟩ := exists_generated_ten
  exact ⟨generated, hgen, fun positions hpos =>
    finalizeCalibration_round (by omega) hgen hpos (0, 0, 0) none⟩

end Mesh
