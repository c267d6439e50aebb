/-
Looking up a height of the mesh (`Calc_z` in `internal/pkg/motion/bed_mesh/z_mesh.go`).

The cell and the weight of a coordinate are found and constrained separately.  Seen as one
function of the coordinate, the interpolation on an axis is the first value and, for each
step between two columns, the part of the step that has been passed; so it has no jumps.

* `calcZ_consistent` — the cells that are read exist and bound the height, which is the stored
  one at the points of the grid and continuous everywhere.
-/
import KlipperGo.ZMesh
import Mathlib.Analysis.Normed.Field.Lemmas
import Mathlib.Topology.Order.Lattice

namespace Mesh

open Finset

variable {K : Type*} [Field K]

/-! ### Values between two others -/

variable [LinearOrder K] [IsStrictOrderedRing K]

theorem constrain_mem (x : K) : 0 ≤ constrain x 0 1 ∧ constrain x 0 1 ≤ 1 :=
  ⟨le_min zero_le_one (le_max_left _ _), min_le_left _ _⟩

/-- Bounds of two values bound what is between them. -/
theorem lerp_mem {t v0 v1 lo hi : K} (ht : 0 ≤ t ∧ t ≤ 1) (h0 : lo ≤ v0 ∧ v0 ≤ hi)
    (h1 : lo ≤ v1 ∧ v1 ≤ hi) : lo ≤ lerp t v0 v1 ∧ lerp t v0 v1 ≤ hi := by
  have hlo : lo = (1 - t) * lo + t * lo := by ring
  have hhi : hi = (1 - t) * hi + t * hi := by ring
  have ht' : 0 ≤ 1 - t := sub_nonneg.mpr ht.2
  constructor
  · rw [hlo]
    exact add_le_add (mul_le_mul_of_nonneg_left h0.1 ht') (mul_le_mul_of_nonneg_left h1.1 ht.1)
  · rw [hhi]
    exact add_le_add (mul_le_mul_of_nonneg_left h0.2 ht') (mul_le_mul_of_nonneg_left h1.2 ht.1)

/-! ### One axis -/

section Axis

variable [FloorRing K]

def cellBelow (cnt : ℕ) (u : K) : ℕ := (min ((cnt : ℤ) - 2) (max 0 ⌊u⌋)).toNat

/-- The steps below the cell are passed, and those above it are not. -/
theorem sum_steps (f : ℕ → K) {cnt : ℕ} (hcnt : 2 ≤ cnt) (u : K) :
    f 0 + ∑ k ∈ range (cnt - 1), (f (k + 1) - f k) * constrain (u - k) 0 1 =
      lerp (constrain (u - cellBelow cnt u) 0 1) (f (cellBelow cnt u))
        (f (cellBelow cnt u + 1)) := by
  have hfloor := Int.floor_le u
  have hfloor' := Int.lt_floor_add_one u
  obtain ⟨m, hm⟩ : ∃ m, cnt - 1 = cellBelow cnt u + (m + 1) :=
    ⟨cnt - 2 - cellBelow cnt u, by unfold cellBelow; omega⟩
  have hbelow : ∀ k < cellBelow cnt u, constrain (u - k) 0 1 = 1 := by
    intro k hk
    have hle : (k : ℤ) + 1 ≤ ⌊u⌋ := by unfold cellBelow at hk; omega
    rw [constrain_eq_one_iff]
    have : ((k : ℤ) : K) + 1 ≤ ⌊u⌋ := by exact_mod_cast hle
    push_cast at this
    linarith
  have habove : ∀ k < m, constrain (u - (cellBelow cnt u + (k + 1) : ℕ)) 0 1 = 0 := by
    intro k hk
    have hle : ⌊u⌋ + 1 ≤ (cellBelow cnt u + (k + 1) : ℕ) := by unfold cellBelow at hm ⊢; omega
    rw [constrain_eq_zero_iff]
    have : ((⌊u⌋ + 1 : ℤ) : K) ≤ ((cellBelow cnt u + (k + 1) : ℕ) : ℤ) := by exact_mod_cast hle
    push_cast at this ⊢
    linarith
  rw [hm, sum_range_add, sum_range_succ', sum_congr rfl fun k hk => by
    rw [hbelow k (mem_range.mp hk), mul_one], sum_range_sub, sum_eq_zero fun k hk => by
    rw [habove k (mem_range.mp hk), mul_zero], lerp, add_zero (cellBelow cnt u)]
  ring

/-- The interpolation on an axis, as a sum over the steps between its cells. -/
theorem linearIndex_lerp (meshMin : K) {meshDist : K} (hdist : 0 < meshDist) {cnt : ℕ}
    (hcnt : 2 ≤ cnt) (f : ℕ → K) (coord : K) :
    let r := ZMesh.linearIndex meshMin meshDist cnt (fun i => meshMin + meshDist * i) coord
    lerp r.1 (f r.2) (f (r.2 + 1)) = f 0 + ∑ k ∈ range (cnt - 1),
      (f (k + 1) - f k) * constrain ((coord - meshMin) / meshDist - k) 0 1 := by
  rw [sum_steps f hcnt]
  dsimp only [ZMesh.linearIndex, cellBelow]
  rw [← sub_sub, sub_div, mul_div_cancel_left₀ _ hdist.ne']

/-- At a point of the grid it is the value there. -/
theorem linearIndex_grid (meshMin : K) {meshDist : K} (hdist : 0 < meshDist) {cnt : ℕ} (f : ℕ → K)
    {j : ℕ} (hj : j < cnt) (hcnt : 2 ≤ cnt) :
    let r := ZMesh.linearIndex meshMin meshDist cnt (fun i => meshMin + meshDist * i)
      (meshMin + meshDist * j)
    lerp r.1 (f r.2) (f (r.2 + 1)) = f j := by
  dsimp only [ZMesh.linearIndex]
  rw [add_sub_cancel_left, mul_div_cancel_left₀ _ hdist.ne', Int.floor_natCast,
    add_sub_add_left_eq_sub, ← mul_sub, mul_div_cancel_left₀ _ hdist.ne']
  by_cases hlast : j = cnt - 1
  · -- the last one is the upper end of the cell before
    have hidx : (min ((cnt : ℤ) - 2) (max 0 (j : ℤ))).toNat = cnt - 2 := by omega
    have hj' : j = cnt - 2 + 1 := by omega
    rw [hidx, hj', Nat.cast_succ, add_sub_cancel_left, (constrain_eq_one_iff 1).mpr le_rfl,
      lerp, sub_self, zero_mul, one_mul, zero_add]
  · have hidx : (min ((cnt : ℤ) - 2) (max 0 (j : ℤ))).toNat = j := by omega
    rw [hidx, sub_self, (constrain_eq_zero_iff 0).mpr le_rfl, lerp, sub_zero, one_mul, zero_mul,
      add_zero]

end Axis

/-! ### The mesh -/

namespace ZMesh

variable [FloorRing K] (mesh : ZMesh K) (tbl : List (List K))

/-- The indices and weights of a point. -/
def xIndex (x : K) : K × ℕ := mesh.getLinearIndex (x + mesh.meshOffsets.1) .x

def yIndex (y : K) : K × ℕ := mesh.getLinearIndex (y + mesh.meshOffsets.2) .y

def cellsRead (x y : K) : List K :=
  let xidx := (mesh.xIndex x).2
  let yidx := (mesh.yIndex y).2
  [cell tbl yidx xidx, cell tbl yidx (xidx + 1), cell tbl (yidx + 1) xidx,
    cell tbl (yidx + 1) (xidx + 1)]

/-- What is expected of the heights over the whole plane. -/
structure Consistent [TopologicalSpace K] : Prop where
  /-- The cells that are read exist. -/
  rows : ∀ y, (mesh.yIndex y).2 + 1 < tbl.length
  columns : ∀ x, ∀ row ∈ tbl, (mesh.xIndex x).2 + 1 < row.length
  /-- The height is between the smallest and the largest of them. -/
  bounded : ∀ x y lo hi, (∀ z ∈ mesh.cellsRead tbl x y, lo ≤ z ∧ z ≤ hi) →
    lo ≤ mesh.calcZ x y ∧ mesh.calcZ x y ≤ hi
  grid : ∀ i < mesh.meshYCount, ∀ j < mesh.meshXCount,
    mesh.calcZ (mesh.getXCoordinate j - mesh.meshOffsets.1)
      (mesh.getYCoordinate i - mesh.meshOffsets.2) = cell tbl i j
  continuous : Continuous fun p : K × K => mesh.calcZ p.1 p.2

omit [FloorRing K] in
theorem dist_pos : 0 < mesh.meshXDist ∧ 0 < mesh.meshYDist := by
  have hcount : ∀ {n : ℕ}, 2 ≤ n → (0 : K) < (n : K) - 1 := by
    intro n hn
    have : ((2 : ℕ) : K) ≤ n := by exact_mod_cast hn
    push_cast at this
    linarith
  exact ⟨div_pos (sub_pos.mpr mesh.xMin_lt) (hcount mesh.xCount_ge),
    div_pos (sub_pos.mpr mesh.yMin_lt) (hcount mesh.yCount_ge)⟩

variable {mesh tbl} (h : mesh.meshMatrix = some tbl)

include h

omit [IsStrictOrderedRing K] in
/-- A height is interpolated along X in two rows, and between them along Y. -/
theorem calcZ_eq (x y : K) : mesh.calcZ x y = lerp (mesh.yIndex y).1
      (lerp (mesh.xIndex x).1 (cell tbl (mesh.yIndex y).2 (mesh.xIndex x).2)
        (cell tbl (mesh.yIndex y).2 ((mesh.xIndex x).2 + 1)))
      (lerp (mesh.xIndex x).1 (cell tbl ((mesh.yIndex y).2 + 1) (mesh.xIndex x).2)
        (cell tbl ((mesh.yIndex y).2 + 1) ((mesh.xIndex x).2 + 1))) := by
  rw [calcZ, h]
  rfl

theorem calcZ_bounded (x y lo hi : K) (hcells : ∀ z ∈ mesh.cellsRead tbl x y, lo ≤ z ∧ z ≤ hi) :
    lo ≤ mesh.calcZ x y ∧ mesh.calcZ x y ≤ hi := by
  have hx : 0 ≤ (mesh.xIndex x).1 ∧ (mesh.xIndex x).1 ≤ 1 := constrain_mem _
  have hy : 0 ≤ (mesh.yIndex y).1 ∧ (mesh.yIndex y).1 ≤ 1 := constrain_mem _
  simp only [cellsRead, List.forall_mem_cons] at hcells
  obtain ⟨h00, h01, h10, h11, -⟩ := hcells
  rw [calcZ_eq h]
  exact lerp_mem hy (lerp_mem hx h00 h01) (lerp_mem hx h10 h11)

theorem calcZ_grid {i j : ℕ} (hi : i < mesh.meshYCount) (hj : j < mesh.meshXCount) :
    mesh.calcZ (mesh.getXCoordinate j - mesh.meshOffsets.1)
      (mesh.getYCoordinate i - mesh.meshOffsets.2) = cell tbl i j := by
  have hX := fun row : ℕ => linearIndex_grid mesh.meshXMin mesh.dist_pos.1
    (cell tbl row) hj mesh.xCount_ge
  have hY := linearIndex_grid mesh.meshYMin mesh.dist_pos.2
    (fun row => cell tbl row j) hi mesh.yCount_ge
  rw [calcZ_eq h, xIndex, yIndex, sub_add_cancel, sub_add_cancel]
  refine Eq.trans ?_ hY
  exact congrArg₂ (lerp _) (hX _) (hX _)

theorem calcZ_continuous [TopologicalSpace K] [OrderTopology K] :
    Continuous fun p : K × K => mesh.calcZ p.1 p.2 := by
  -- the heights of a row, and of a column of such
  let rowZ := fun (x : K) (row : ℕ) => cell tbl row 0 + ∑ k ∈ range (mesh.meshXCount - 1),
    (cell tbl row (k + 1) - cell tbl row k) *
      constrain ((x + mesh.meshOffsets.1 - mesh.meshXMin) / mesh.meshXDist - k) 0 1
  have hX := fun (x : K) (row : ℕ) => linearIndex_lerp mesh.meshXMin mesh.dist_pos.1
    mesh.xCount_ge (cell tbl row) (x + mesh.meshOffsets.1)
  have hcalc : ∀ p : K × K, mesh.calcZ p.1 p.2 = rowZ p.1 0 + ∑ k ∈ range (mesh.meshYCount - 1),
      (rowZ p.1 (k + 1) - rowZ p.1 k) *
        constrain ((p.2 + mesh.meshOffsets.2 - mesh.meshYMin) / mesh.meshYDist - k) 0 1 := by
    intro p
    rw [calcZ_eq h, ← linearIndex_lerp mesh.meshYMin mesh.dist_pos.2 mesh.yCount_ge (rowZ p.1)]
    exact congrArg₂ (lerp _) (hX p.1 _) (hX p.1 _)
  simp only [hcalc, rowZ, constrain]
  fun_prop

/-- A mesh with heights is looked up safely and without jumps, inside of it and outside. -/
theorem calcZ_consistent [TopologicalSpace K] [OrderTopology K] : mesh.Consistent tbl where
  rows y := by
    rw [(mesh.shape tbl h).1]
    exact mesh.getLinearIndex_lt _ .y
  columns x row hrow := by
    rw [(mesh.shape tbl h).2 row hrow]
    exact mesh.getLinearIndex_lt _ .x
  bounded := calcZ_bounded h
  grid _ hi _ hj := calcZ_grid h hi hj
  continuous := calcZ_continuous h

end ZMesh

theorem raisedCorner_consistent : raisedCorner.Consistent [[0, 0], [0, 1]] :=
  ZMesh.calcZ_consistent rfl

end Mesh
