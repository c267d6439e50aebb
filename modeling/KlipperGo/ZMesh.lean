/-
The height mesh of the bed (`internal/pkg/motion/bed_mesh/z_mesh.go`).

A mesh is a matrix of heights over a rectangle, with the same distance between all its
columns and the same between all its rows.  Between the cells the height is interpolated
linearly, and outside of the rectangle it is that of the border.

* `getLinearIndex_lt` — the cell that is looked up, and the one behind it, exist.
-/
import KlipperGo.ExactArith

namespace Mesh

/-! ### Helpers -/

section Helpers

variable {K : Type*} [Field K] [LinearOrder K]

/-- `Isclose`: equal up to a relative or an absolute tolerance. -/
def isclose (a b relTol absTol : K) : Prop := |a - b| ≤ max (relTol * max |a| |b|) absTol

instance (a b relTol absTol : K) : Decidable (isclose a b relTol absTol) :=
  inferInstanceAs (Decidable (_ ≤ _))

/-- `Constrain`: the value, kept between the bounds. -/
def constrain (val minVal maxVal : K) : K := min maxVal (max minVal val)

/-- `Lerp`: linear interpolation. -/
def lerp (t v0 v1 : K) : K := (1 - t) * v0 + t * v1

variable [IsStrictOrderedRing K]

theorem constrain_eq_zero_iff (x : K) : constrain x 0 1 = 0 ↔ x ≤ 0 := by
  unfold constrain
  rcases le_total x 0 with h | h
  · simp [h]
  · rw [max_eq_right h]
    rcases le_total 1 x with h1 | h1
    · rw [min_eq_left h1]
      exact iff_of_false one_ne_zero (not_le.mpr (zero_lt_one.trans_le h1))
    · rw [min_eq_right h1]
      exact ⟨le_of_eq, fun hx => le_antisymm hx h⟩

theorem constrain_eq_one_iff (x : K) : constrain x 0 1 = 1 ↔ 1 ≤ x := by
  unfold constrain
  rw [min_eq_left_iff, le_max_iff]
  exact or_iff_right (not_le.mpr zero_lt_one)

end Helpers

/-- A mesh, with what `NewZMesh` and `Build_mesh` see to: at least two columns and two
rows, an extent, and a matrix, if there is one, of that size. -/
structure ZMesh (K : Type*) [LinearOrder K] where
  meshMatrix : Option (List (List K))
  avgZ : K
  meshOffsets : K × K
  meshXMin : K
  meshXMax : K
  meshYMin : K
  meshYMax : K
  meshXCount : ℕ
  meshYCount : ℕ
  xCount_ge : 2 ≤ meshXCount
  yCount_ge : 2 ≤ meshYCount
  xMin_lt : meshXMin < meshXMax
  yMin_lt : meshYMin < meshYMax
  shape : ∀ matrix ∈ meshMatrix, matrix.length = meshYCount ∧
    ∀ row ∈ matrix, row.length = meshXCount

/-- The axes of a mesh. -/
inductive MeshAxis where
  | x
  | y

namespace ZMesh

variable {K : Type*} [Field K] [LinearOrder K] (mesh : ZMesh K)

/-- The distance of two columns. -/
def meshXDist : K :=
  (mesh.meshXMax - mesh.meshXMin) / ((mesh.meshXCount : K) - 1)

/-- The distance of two rows. -/
def meshYDist : K :=
  (mesh.meshYMax - mesh.meshYMin) / ((mesh.meshYCount : K) - 1)

/-- Where a column is. -/
def getXCoordinate (index : ℕ) : K := mesh.meshXMin + mesh.meshXDist * index

/-- Where a row is. -/
def getYCoordinate (index : ℕ) : K := mesh.meshYMin + mesh.meshYDist * index

/-- The cell below a coordinate on one axis, and how far the coordinate is from it to the
next one. -/
def linearIndex [FloorRing K] (meshMin meshDist : K) (meshCnt : ℕ) (cfunc : ℕ → K) (coord : K) :
    K × ℕ :=
  let idx := (min ((meshCnt : ℤ) - 2) (max 0 ⌊(coord - meshMin) / meshDist⌋)).toNat
  (constrain ((coord - cfunc idx) / meshDist) 0 1, idx)

/-- `Get_linear_index`: `linearIndex` with the data of an axis. -/
def getLinearIndex [FloorRing K] (mesh : ZMesh K) (coord : K) : MeshAxis → K × ℕ
  | .x => linearIndex mesh.meshXMin mesh.meshXDist mesh.meshXCount mesh.getXCoordinate coord
  | .y => linearIndex mesh.meshYMin mesh.meshYDist mesh.meshYCount mesh.getYCoordinate coord

/-- The number of columns or rows. -/
def meshCount : MeshAxis → ℕ
  | .x => mesh.meshXCount
  | .y => mesh.meshYCount

theorem getLinearIndex_lt [FloorRing K] (coord : K) (axis : MeshAxis) :
    (mesh.getLinearIndex coord axis).2 + 1 < mesh.meshCount axis := by
  have hlt : ∀ (n : ℕ) (i : ℤ), 2 ≤ n → (min ((n : ℤ) - 2) (max 0 i)).toNat + 1 < n := by
    omega
  cases axis with
  | x => exact hlt _ _ mesh.xCount_ge
  | y => exact hlt _ _ mesh.yCount_ge

/-- A cell of a matrix.  By `getLinearIndex_lt` the cells that are read exist. -/
def cell (tbl : List (List K)) (yidx xidx : ℕ) : K := (tbl.getD yidx []).getD xidx 0

/-- `Calc_z`: the height at a place, between its four neighbours. -/
def calcZ [FloorRing K] (mesh : ZMesh K) (x y : K) : K :=
  match mesh.meshMatrix with
  | none => 0
  | some tbl =>
    let (tx, xidx) := mesh.getLinearIndex (x + mesh.meshOffsets.1) .x
    let (ty, yidx) := mesh.getLinearIndex (y + mesh.meshOffsets.2) .y
    let z0 := lerp tx (cell tbl yidx xidx) (cell tbl yidx (xidx + 1))
    let z1 := lerp tx (cell tbl (yidx + 1) xidx) (cell tbl (yidx + 1) (xidx + 1))
    lerp ty z0 z1

/-- `Get_z_range`.  Both loops start from zero, so the range always has the zero in it. -/
def getZRange : K × K :=
  match mesh.meshMatrix with
  | none => (0, 0)
  | some tbl =>
    tbl.foldl (fun range row =>
      let rowMin := row.foldl (fun m item => if item < m then item else m) 0
      let rowMax := row.foldl (fun m item => if m < item then item else m) 0
      (if rowMin < range.1 then rowMin else range.1, if range.2 < rowMax then rowMax else range.2))
      (0, 0)

end ZMesh

/-- A square with one corner raised. -/
def raisedCorner : ZMesh ℚ where
  meshMatrix := some [[0, 0], [0, 1]]
  avgZ := 1 / 4
  meshOffsets := (0, 0)
  meshXMin := 0
  meshXMax := 100
  meshYMin := 0
  meshYMax := 100
  meshXCount := 2
  meshYCount := 2
  xCount_ge := le_rfl
  yCount_ge := le_rfl
  xMin_lt := by norm_num
  yMin_lt := by norm_num
  shape := by
    rintro matrix ⟨⟩
    exact ⟨rfl, by simp⟩

end Mesh
