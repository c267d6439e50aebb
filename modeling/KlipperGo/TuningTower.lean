/-
Tuning towers (`internal/addon/tuning_tower.go`, `internal/addon/tuning_tower_module.go`).

During a test the tower stands in front of the move transform, and a command with a value that
depends on the height is to be run whenever a move prints at a new height.  But the command is
issued at the moves that extrude in place, and at those only (`move_command`).  So what a printing
move finds set is decided by the last move before it that extruded in place at a new height
(`tower_applies_iff`).
-/
import KlipperGo.ExactArith
import KlipperGo.Runs

open Runs List

namespace Addon

structure TuningConfig (K : Type) where
  commandFmt : String
  start : K
  factor : K
  band : K
  stepHeight : K
  stepDelta : K
  skip : K

structure TuningTower (K : Type) extends TuningConfig K where
  normalTransform : Bool
  lastPosition : Fin 4 → K
  lastZ : K
  lastCommandValue : Option K

/-- A move that reaches the tower, with the height of the G-code. -/
structure TowerMove (K : Type) where
  newpos : Fin 4 → K
  gcodeZ : K

def TuningConfig.calcValue {K : Type} [Field K] [LinearOrder K] [FloorRing K]
    (self : TuningConfig K) (z : K) : K :=
  let z := if self.skip ≠ 0 then max 0 (z - self.skip) else z
  if self.stepHeight ≠ 0 then self.start + self.stepDelta * ⌊z / self.stepHeight⌋
  else
    let z := if self.band ≠ 0 then (⌊z / self.band⌋ + 1 / 2) * self.band else z
    self.start + z * self.factor

namespace TuningTower

variable {K : Type} [Field K] [LinearOrder K]

/-- The height that `BeginTest` stores, below that of any bed. -/
def startZ : K := ((-99999999.9 : ℚ) : K)

/-- `BeginTest`, where `pos` is the position of the transform. -/
def beginTest (config : TuningConfig K) (pos : Fin 4 → K) : Except String (TuningTower K) :=
  if config.factor ≠ 0 ∧ (config.stepHeight ≠ 0 ∨ config.stepDelta ≠ 0) then
    .error "must specify either FACTOR or both STEP_DELTA and STEP_HEIGHT"
  else if ¬ (config.stepDelta ≠ 0 ↔ config.stepHeight ≠ 0) then
    .error "must specify both STEP_DELTA and STEP_HEIGHT"
  else
    .ok { config with
      normalTransform := true, lastPosition := pos, lastZ := startZ, lastCommandValue := none }

variable [FloorRing K] (self : TuningTower K) (m : TowerMove K)

/-- `Move`, with the value of the command that it returns and whether the test ends. -/
def move : TuningTower K × Option K × Bool :=
  if !self.normalTransform then (self, none, false)
  else
    let isEq := decide (∀ i, i ≠ 3 → m.newpos i = self.lastPosition i)
    let (self, command, endTest) :=
      if self.lastPosition 3 < m.newpos 3 ∧ m.newpos 2 ≠ self.lastZ ∧ isEq then
        let z := m.newpos 2
        if z < self.lastZ - 2 then (self, none, true)
        else
          let newval := self.calcValue m.gcodeZ
          let self := { self with lastZ := z }
          if self.lastCommandValue ≠ some newval then
            ({ self with lastCommandValue := some newval }, some newval, false)
          else (self, none, false)
      else (self, none, false)
    ({ self with lastPosition := m.newpos }, command, endTest)

/-- A command is issued in place only, and only with a new value. -/
theorem move_command : ∀ v ∈ (self.move m).2.1, v = self.calcValue m.gcodeZ ∧
    self.lastCommandValue ≠ some v ∧ ∀ i ≠ 3, m.newpos i = self.lastPosition i := by
  unfold move
  dsimp only
  split_ifs with hinactive hextrudes hlower hnew
  · exact nofun
  · exact nofun
  · rintro v ⟨⟩
    exact ⟨rfl, hnew, of_decide_eq_true hextrudes.2.2⟩
  · exact nofun
  · exact nofun

def endTest : TuningTower K :=
  { self with
    normalTransform := false, lastCommandValue := none, commandFmt := "", lastZ := 0
    lastPosition := fun _ => 0 }

end TuningTower

/-- The tower, and the values of the commands that were run in its test. -/
structure TowerRun (K : Type) where
  tower : TuningTower K
  values : List K

namespace TowerRun

variable {K : Type} [Field K] [LinearOrder K] [FloorRing K]

/-- `TuningTowerModule.Move`. -/
def step (s : TowerRun K) (m : TowerMove K) : TowerRun K :=
  let (tower, command, endTest) := s.tower.move m
  if endTest then ⟨tower.endTest, []⟩ else ⟨tower, s.values ++ command.toList⟩

variable (s : TowerRun K) (m : TowerMove K)

/-- The move changes X, Y or Z while it extrudes, and does not end the test. -/
def Prints : Prop :=
  s.tower.normalTransform = true ∧ (∃ i ≠ 3, m.newpos i ≠ s.tower.lastPosition i) ∧
    s.tower.lastPosition 3 < m.newpos 3 ∧ (s.tower.move m).2.2 = false

/-- The last command carries the value for the height of the move, and no command is issued if the
value is unchanged. -/
def Applies : Prop :=
  (s.Prints m → (s.step m).values.getLast? = some (s.tower.calcValue m.gcodeZ)) ∧
    (s.values.getLast? = some (s.tower.calcValue m.gcodeZ) → (s.tower.move m).2.1 = none)

end TowerRun

/-! ### The condition on the moves -/

section

variable {K : Type} [Field K] [LinearOrder K] [FloorRing K]

/-- A move from `pos` that extrudes and goes nowhere. -/
def TowerMove.InPlace (m : TowerMove K) (pos : Fin 4 → K) : Prop :=
  pos 3 < m.newpos 3 ∧ ∀ i ≠ 3, m.newpos i = pos i

/-- A move from `pos` that changes X, Y or Z while it extrudes. -/
def TowerMove.Printing (m : TowerMove K) (pos : Fin 4 → K) : Prop :=
  pos 3 < m.newpos 3 ∧ ∃ i ≠ 3, m.newpos i ≠ pos i

instance (m : TowerMove K) (pos : Fin 4 → K) : Decidable (m.InPlace pos) :=
  inferInstanceAs (Decidable (_ ∧ _))

/-- Where the moves from `pos` end. -/
def lastPos (pos : Fin 4 → K) : List (TowerMove K) → Fin 4 → K
  | [] => pos
  | m :: moves => lastPos m.newpos moves

/-- The moves that extrude in place, in a list of moves from `pos`. -/
def inPlaceMoves (pos : Fin 4 → K) : List (TowerMove K) → List (TowerMove K)
  | [] => []
  | m :: moves =>
    if m.InPlace pos then m :: inPlaceMoves m.newpos moves else inPlaceMoves m.newpos moves

/-- The moves of a list whose Z is another one than that of the move before, which for the first
move is `z`. -/
def newLevels (z : K) : List (TowerMove K) → List (TowerMove K)
  | [] => []
  | m :: moves => if m.newpos 2 = z then newLevels z moves else m :: newLevels (m.newpos 2) moves

/-- No Z in the list is more than two below the one before, which for the first move is `z`. -/
def Ascends (z : K) (levels : List (TowerMove K)) : Prop :=
  IsChain (fun z z' => ¬ z' < z - 2) (z :: levels.map fun m => m.newpos 2)

/-- **The condition on a configuration and its moves.**  Before every move that prints, unless a
move in place more than two below the one before has ended the test, there was a move in place at a
new Z, and the last such move has a height of the same value. -/
def Prepared (config : TuningConfig K) (pos : Fin 4 → K) (moves : List (TowerMove K)) : Prop :=
  ∀ before m after, moves = before ++ m :: after →
    Ascends TuningTower.startZ (newLevels TuningTower.startZ (inPlaceMoves pos before)) →
    m.Printing (lastPos pos before) →
    ((newLevels TuningTower.startZ (inPlaceMoves pos before)).getLast?.map fun level =>
      config.calcValue level.gcodeZ) = some (config.calcValue m.gcodeZ)

end

namespace TowerRun

variable {K : Type} [Field K] [LinearOrder K] [FloorRing K] {s : TowerRun K}
  {config : TuningConfig K} {pos : Fin 4 → K} {z : K} {last : Option K} {m : TowerMove K}

/-- The test runs: the tower is at `pos`, the last move in place was at `z`, and the last command
had the value `last`. -/
structure Tracks (s : TowerRun K) (config : TuningConfig K) (pos : Fin 4 → K) (z : K)
    (last : Option K) : Prop where
  active : s.tower.normalTransform = true
  config_eq : s.tower.toTuningConfig = config
  position : s.tower.lastPosition = pos
  lastZ : s.tower.lastZ = z
  lastCommand : s.tower.lastCommandValue = last
  lastValue : s.values.getLast? = last

/-- The test was ended. -/
def Inactive (s : TowerRun K) : Prop := s.tower.normalTransform = false

theorem move_of_inactive (h : s.Inactive) (m : TowerMove K) :
    s.tower.move m = (s.tower, none, false) := by
  simp [TuningTower.move, show s.tower.normalTransform = false from h]

theorem inactive_final (h : s.Inactive) (moves : List (TowerMove K)) :
    (final step s moves).Inactive := by
  refine final_of_kept (fun s m h => ?_) h moves
  rw [step, move_of_inactive h]
  exact h

theorem applies_of_inactive (h : s.Inactive) : s.Applies m :=
  ⟨fun hprints => Bool.noConfusion (hprints.1.symm.trans h), fun _ => by rw [move_of_inactive h]⟩

section

variable (h : s.Tracks config pos z last)
include h

/-- Nothing but a move in place at a new Z is noticed. -/
theorem step_other (hnot : ¬ (m.InPlace pos ∧ m.newpos 2 ≠ z)) :
    (s.step m).Tracks config m.newpos z last ∧ (s.tower.move m).2 = (none, false) := by
  have hcond : ¬ (s.tower.lastPosition 3 < m.newpos 3 ∧ m.newpos 2 ≠ s.tower.lastZ ∧
      decide (∀ i, i ≠ 3 → m.newpos i = s.tower.lastPosition i) = true) := by
    rw [h.position, h.lastZ, decide_eq_true_iff]
    exact fun hc => hnot ⟨⟨hc.1, hc.2.2⟩, hc.2.1⟩
  have hmove : s.tower.move m = ({ s.tower with lastPosition := m.newpos }, none, false) := by
    simp only [TuningTower.move, h.active, Bool.not_true, Bool.false_eq_true, if_false]
    rw [if_neg hcond]
    simp [h.active]
  refine ⟨?_, by rw [hmove]⟩
  rw [step, hmove]
  exact ⟨h.active, h.config_eq, rfl, h.lastZ, h.lastCommand, by simpa using h.lastValue⟩

variable (hin : m.InPlace pos) (hz : m.newpos 2 ≠ z)
include hin hz

omit [Field K] [FloorRing K] in
theorem noticed : s.tower.lastPosition 3 < m.newpos 3 ∧ m.newpos 2 ≠ s.tower.lastZ ∧
    decide (∀ i, i ≠ 3 → m.newpos i = s.tower.lastPosition i) = true := by
  rw [h.position, h.lastZ, decide_eq_true_iff]
  exact ⟨hin.1, hz, hin.2⟩

/-- A move in place at a new Z sets the value for its height, -/
theorem step_level (hlow : ¬ m.newpos 2 < z - 2) :
    (s.step m).Tracks config m.newpos (m.newpos 2) (some (config.calcValue m.gcodeZ)) := by
  have hmove : s.tower.move m =
      ({ s.tower with
          lastPosition := m.newpos, lastZ := m.newpos 2
          lastCommandValue := some (config.calcValue m.gcodeZ) },
        if last ≠ some (config.calcValue m.gcodeZ) then some (config.calcValue m.gcodeZ) else none,
        false) := by
    simp only [TuningTower.move, h.active, Bool.not_true, Bool.false_eq_true, if_false]
    rw [if_pos (noticed h hin hz), h.lastZ, if_neg hlow, h.lastCommand, h.config_eq]
    by_cases hlast : last = some (config.calcValue m.gcodeZ)
    · simp [hlast]
    · simp [hlast]
  rw [step, hmove]
  refine ⟨h.active, h.config_eq, rfl, rfl, rfl, ?_⟩
  by_cases hlast : last = some (config.calcValue m.gcodeZ)
  · simpa [hlast] using h.lastValue.trans hlast
  · simp [hlast]

/-- or ends the test. -/
theorem step_ends (hlow : m.newpos 2 < z - 2) : (s.step m).Inactive := by
  have hmove : (s.tower.move m).2.2 = true := by
    simp only [TuningTower.move, h.active, Bool.not_true, Bool.false_eq_true, if_false]
    rw [if_pos (noticed h hin hz), h.lastZ, if_pos hlow]
  rw [step]
  simp only [hmove, if_true]
  rfl

end

/-- The state after some moves: the test runs while the moves in place do not go down, and the last
one at a new Z has set the value. -/
theorem final_tracks (h : s.Tracks config pos z last) (before : List (TowerMove K)) :
    (Ascends z (newLevels z (inPlaceMoves pos before)) →
      ∃ z', (final step s before).Tracks config (lastPos pos before) z'
        (((newLevels z (inPlaceMoves pos before)).getLast?.map fun level =>
          config.calcValue level.gcodeZ).or last)) ∧
    (¬ Ascends z (newLevels z (inPlaceMoves pos before)) → (final step s before).Inactive) := by
  induction before generalizing s pos z last with
  | nil => exact ⟨fun _ => ⟨z, h⟩, fun hnot => absurd (isChain_singleton z) hnot⟩
  | cons m before ih =>
    rw [final_cons, lastPos, inPlaceMoves]
    by_cases hin : m.InPlace pos
    · rw [if_pos hin, newLevels]
      by_cases hz : m.newpos 2 = z
      · rw [if_pos hz]
        exact ih (step_other h fun hnot => hnot.2 hz).1
      · rw [if_neg hz, Ascends, map_cons, isChain_cons_cons]
        by_cases hlow : m.newpos 2 < z - 2
        · exact ⟨fun hup => absurd hlow hup.1, fun _ => inactive_final (step_ends h hin hz hlow) _⟩
        · obtain ⟨hruns, hends⟩ := ih (step_level h hin hz hlow)
          refine ⟨fun hup => ?_, fun hnot => hends fun hup => hnot ⟨hlow, hup⟩⟩
          obtain ⟨z', htracks⟩ := hruns hup.2
          refine ⟨z', ?_⟩
          -- the value set here is the last one unless a later level sets another
          rw [getLast?_cons]
          cases hlast : (newLevels (m.newpos 2) (inPlaceMoves m.newpos before)).getLast? with
          | none => simpa [hlast] using htracks
          | some level => simpa [hlast] using htracks
    · rw [if_neg hin]
      exact ih (step_other h fun hnot => hin hnot.1).1

/-- At a move the right value is applied if it is set, and otherwise only if the move prints
nothing. -/
theorem applies_iff (h : s.Tracks config pos z last) :
    s.Applies m ↔ (m.Printing pos → last = some (config.calcValue m.gcodeZ)) := by
  have hvalue : s.tower.calcValue m.gcodeZ = config.calcValue m.gcodeZ := by rw [h.config_eq]
  have hstays (hm : m.Printing pos) : ¬ (m.InPlace pos ∧ m.newpos 2 ≠ z) := by
    rintro ⟨⟨-, hsame⟩, -⟩
    obtain ⟨-, i, hi, hmoved⟩ := hm
    exact hmoved (hsame i hi)
  have hsecond : s.values.getLast? = some (s.tower.calcValue m.gcodeZ) →
      (s.tower.move m).2.1 = none := by
    intro hlast
    refine Option.eq_none_iff_forall_not_mem.mpr fun v hv => ?_
    obtain ⟨rfl, hnew, -⟩ := s.tower.move_command m v hv
    exact hnew (h.lastCommand.trans (h.lastValue.symm.trans hlast))
  constructor
  · rintro ⟨happlies, -⟩ hm
    obtain ⟨htracks, hmove⟩ := step_other h (hstays hm)
    rw [← htracks.lastValue, ← hvalue]
    refine happlies ⟨h.active, ?_, ?_, by rw [hmove]⟩
    · rw [h.position]
      exact hm.2
    · rw [h.position]
      exact hm.1
  · refine fun hset => ⟨fun hm => ?_, hsecond⟩
    rw [Prints, h.position] at hm
    have hprints : m.Printing pos := ⟨hm.2.2.1, hm.2.1⟩
    rw [(step_other h (hstays hprints)).1.lastValue, hvalue]
    exact hset hprints

/-- **When a tuning tower applies the right values.**  It does so exactly for the moves among which
every printing one is prepared by a move in place. -/
theorem tower_applies_iff {tower : TuningTower K}
    (hbegin : TuningTower.beginTest config pos = .ok tower) (moves : List (TowerMove K)) :
    Along step Applies ⟨tower, []⟩ moves ↔ Prepared config pos moves := by
  have htracks : Tracks ⟨tower, []⟩ config pos TuningTower.startZ none := by
    unfold TuningTower.beginTest at hbegin
    split_ifs at hbegin
    cases hbegin
    exact ⟨rfl, rfl, rfl, rfl, rfl, rfl⟩
  rw [along_iff_forall_split]
  refine forall_congr' fun before => forall_congr' fun m => forall_congr' fun after =>
    imp_congr_right fun _ => ?_
  obtain ⟨hruns, hends⟩ := final_tracks htracks before
  by_cases hup : Ascends TuningTower.startZ
      (newLevels TuningTower.startZ (inPlaceMoves pos before))
  · obtain ⟨z', hz'⟩ := hruns hup
    rw [applies_iff hz', Option.or_none]
    exact ⟨fun hset _ => hset, fun hset => hset hup⟩
  · exact ⟨fun _ hup' => absurd hup' hup, fun _ => applies_of_inactive (hends hup)⟩

/-- A test with a value for each five millimetres of height. -/
def accelTower : TuningConfig ℚ := ⟨"M204 S%.9f", 500, 0, 0, 5, 100, 0⟩

theorem tower_applies_iff_primed : ∃ tower,
    TuningTower.beginTest accelTower (fun _ => 0) = .ok tower ∧
      (Along step Applies ⟨tower, []⟩ [⟨![0, 0, 0, 1], 0⟩, ⟨![10, 0, 1 / 5, 2], 1 / 5⟩] ↔
        Prepared accelTower (fun _ => 0) [⟨![0, 0, 0, 1], 0⟩, ⟨![10, 0, 1 / 5, 2], 1 / 5⟩]) :=
  ⟨_, rfl, tower_applies_iff rfl _⟩

/-- The first printed move of a test issues no command. -/
theorem first_layer_without_command : ∃ tower,
    TuningTower.beginTest accelTower (fun _ => 0) = .ok tower ∧
      ¬ Along step Applies ⟨tower, []⟩ [⟨![10, 0, 1 / 5, 1], 1 / 5⟩] := by
  refine ⟨_, rfl, ?_⟩
  rw [along_cons]
  rintro ⟨⟨happlies, -⟩, -⟩
  have hprints := happlies
    ⟨rfl, ⟨0, by decide, by decide +kernel⟩, by decide +kernel, by decide +kernel⟩
  revert hprints
  decide +kernel

end TowerRun

end Addon
