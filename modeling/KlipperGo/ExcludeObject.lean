/-
Cancelling objects during a print
(`internal/addon/exclude_object.go`, `internal/addon/exclude_object_module.go`).

The first exclusion puts the module in front of the move transform.  From then on a move
is passed on, with the offsets of the moves left out before it, or it is left out.  What
decides is the current object and a count of the extrusions at the beginning; the list of
excluded objects is kept, but no move looks at it.

* `move_eq_none_iff` — the moves that are left out;
* `transform_step` — the module is registered just when its core has a transform.
-/
import KlipperGo.ExactArith
import KlipperGo.Runs

open Runs

namespace Addon

/-- X, Y, Z and E. -/
abbrev Position (K : Type) := Fin 4 → K

/-- The definition of an object: its name, and the other keys. -/
structure ObjectDefinition (δ : Type) where
  name : String
  details : δ

structure ExcludeObject (δ K : Type) where
  transform : Bool
  lastPositionExtruded : Position K
  lastPositionExcluded : Position K
  objects : List (ObjectDefinition δ)
  excludedObjects : List String
  currentObject : String
  inExcludedRegion : Bool
  lastPosition : Position K
  extrusionOffsets : String → Option (Position K)
  maxPositionExtruded : K
  maxPositionExcluded : K
  extruderAdj : K
  initialExtrusionMoves : ℕ
  lastSpeed : K
  wasExcludedAtStart : Bool

namespace ExcludeObject

variable {δ K : Type} (self : ExcludeObject δ K)

def resetState : ExcludeObject δ K :=
  { self with
    objects := []
    excludedObjects := []
    currentObject := ""
    inExcludedRegion := false
    wasExcludedAtStart := false }

def testInExcludedRegion : Bool :=
  self.currentObject ≠ "" ∧ self.initialExtrusionMoves = 0

def addObjectDefinition (definition : ObjectDefinition δ) : ExcludeObject δ K :=
  { self with
    objects := (self.objects ++ [definition]).mergeSort fun a b => decide (a.name ≤ b.name) }

variable (name : String)

def objectExists : Bool :=
  self.objects.any fun obj => obj.name = name

def objectIsExcluded : Bool :=
  self.excludedObjects.any fun obj => obj = name

def startObject (bare : String → ObjectDefinition δ) (name : String) : ExcludeObject δ K :=
  let self := if !self.objectExists name then self.addObjectDefinition (bare name) else self
  let self := { self with currentObject := name }
  { self with wasExcludedAtStart := self.testInExcludedRegion }

/-- `EndObject`: a wrong name is reported, and the object ended all the same. -/
def endObject : ExcludeObject δ K × String :=
  ({ self with currentObject := "" },
    if name ≠ "" ∧ name ≠ self.currentObject then
      "EXCLUDE_OBJECT_END NAME=" ++ name ++ " does not match the current object NAME=" ++
        self.currentObject
    else "")

def exclude : ExcludeObject δ K :=
  if !self.objectIsExcluded name then
    { self with
      excludedObjects := (self.excludedObjects ++ [name]).mergeSort fun a b => decide (a ≤ b) }
  else self

def unexclude : ExcludeObject δ K :=
  { self with
    excludedObjects :=
      if self.objectIsExcluded name then
        (self.excludedObjects.erase name).mergeSort fun a b => decide (a ≤ b)
      else self.excludedObjects }

def clearExcluded : ExcludeObject δ K :=
  { self with excludedObjects := [] }

variable [Field K] [LinearOrder K]

/-- `NewExcludeObject`. -/
def new : ExcludeObject δ K :=
  { transform := false
    lastPositionExtruded := fun _ => 0
    lastPositionExcluded := fun _ => 0
    objects := []
    excludedObjects := []
    currentObject := ""
    inExcludedRegion := false
    lastPosition := fun _ => 0
    extrusionOffsets := fun _ => none
    maxPositionExtruded := 0
    maxPositionExcluded := 0
    extruderAdj := 0
    initialExtrusionMoves := 0
    lastSpeed := 0
    wasExcludedAtStart := false }

variable (self : ExcludeObject δ K)

section

variable (pos : Position K) (extruderName : String)

def getExtrusionOffsets : Position K :=
  (self.extrusionOffsets extruderName).getD fun _ => 0

/-- What is written through the slice that `getExtrusionOffsets` returns. -/
def setExtrusionOffsets (offset : Position K) : ExcludeObject δ K :=
  { self with
    extrusionOffsets := Function.update self.extrusionOffsets extruderName (some offset) }

/-- `GetPosition`, while there is a transform: `pos` is what the transform answers. -/
def getPosition : ExcludeObject δ K :=
  let offset := self.getExtrusionOffsets extruderName
  let self := self.setExtrusionOffsets extruderName offset
  { self with lastPosition := fun i => pos i + offset i }

def attachTransform : ExcludeObject δ K :=
  let self :=
    { self with
      transform := true
      maxPositionExtruded := 0
      maxPositionExcluded := 0
      extruderAdj := 0
      initialExtrusionMoves := 5
      lastPosition := fun _ => 0 }
  let self := self.getPosition pos extruderName
  { self with
    lastPositionExtruded := self.lastPosition
    lastPositionExcluded := self.lastPosition
    lastSpeed := 0
    inExcludedRegion := false
    wasExcludedAtStart := false }

end

def detachTransform : ExcludeObject δ K :=
  { self with
    transform := false
    maxPositionExtruded := 0
    maxPositionExcluded := 0
    extruderAdj := 0
    initialExtrusionMoves := 0
    lastPosition := fun _ => 0
    lastSpeed := 0
    inExcludedRegion := false
    wasExcludedAtStart := false }

variable (newpos : Position K)

section

variable (extruderName : String)

/-- `normalMove`: the core after it, and the position the next transform is given. -/
def normalMove : ExcludeObject δ K × Position K :=
  let offset := self.getExtrusionOffsets extruderName
  let self :=
    if self.initialExtrusionMoves > 0 ∧ self.lastPosition 3 ≠ newpos 3 then
      { self with initialExtrusionMoves := self.initialExtrusionMoves - 1 }
    else self
  let self :=
    { self with
      lastPosition := newpos
      lastPositionExtruded := newpos
      maxPositionExtruded := max self.maxPositionExtruded (newpos 3) }
  let (offset, extruderAdj) :=
    if (offset 0 ≠ 0 ∨ offset 1 ≠ 0) ∧
        (newpos 0 ≠ self.lastPositionExcluded 0 ∨ newpos 1 ≠ self.lastPositionExcluded 1) then
      (fun i => if i = 3 then offset 3 + self.extruderAdj else 0, 0)
    else (offset, self.extruderAdj)
  let offset :=
    if offset 2 ≠ 0 ∧ newpos 2 ≠ self.lastPositionExcluded 2 then Function.update offset 2 0
    else offset
  let (offset, extruderAdj) :=
    if extruderAdj ≠ 0 ∧ newpos 3 ≠ self.lastPositionExcluded 3 then
      (Function.update offset 3 (offset 3 + extruderAdj), 0)
    else (offset, extruderAdj)
  (({ self with extruderAdj }).setExtrusionOffsets extruderName offset,
    fun i => newpos i - offset i)

def ignoreMove : ExcludeObject δ K :=
  let offset := self.getExtrusionOffsets extruderName
  let offset : Position K := fun i =>
    if i = 3 then offset 3 + newpos 3 - self.lastPosition 3
    else newpos i - self.lastPositionExtruded i
  { self.setExtrusionOffsets extruderName offset with
    lastPosition := newpos
    lastPositionExcluded := newpos
    maxPositionExcluded := max self.maxPositionExcluded (newpos 3) }

def moveIntoExcludedRegion : ExcludeObject δ K :=
  ({ self with inExcludedRegion := true }).ignoreMove newpos extruderName

def moveFromExcludedRegion : ExcludeObject δ K × Position K :=
  ({ self with
      inExcludedRegion := false
      extruderAdj := self.maxPositionExcluded - self.lastPositionExcluded 3 -
        (self.maxPositionExtruded - self.lastPositionExtruded 3) }).normalMove newpos extruderName

end

/-- `Move`: the core after it, and the position the next transform is given, if any. -/
def move (speed : K) (extruderName : String) : ExcludeObject δ K × Option (Position K) :=
  if !self.transform then (self, none)
  else
    let moveInExcludedRegion := self.testInExcludedRegion
    let self := { self with lastSpeed := speed }
    if moveInExcludedRegion then
      if self.inExcludedRegion then (self.ignoreMove newpos extruderName, none)
      else (self.moveIntoExcludedRegion newpos extruderName, none)
    else
      let (self, txPos) :=
        if self.inExcludedRegion then self.moveFromExcludedRegion newpos extruderName
        else self.normalMove newpos extruderName
      (self, some txPos)

/-! ### The moves that are left out -/

theorem move_eq_none_iff {self : ExcludeObject δ K} (htransform : self.transform = true)
    (newpos : Position K) (speed : K) (extruderName : String) :
    (self.move newpos speed extruderName).2 = none ↔ self.testInExcludedRegion = true := by
  rw [move, if_neg (by simp [htransform])]
  by_cases hregion : self.testInExcludedRegion = true
  · refine iff_of_true ?_ hregion
    simp only [hregion, if_true]
    split <;> rfl
  · refine iff_of_false ?_ hregion
    simp only [hregion]
    exact Option.some_ne_none _

/-! ### What the operations leave as it is -/

variable (self : ExcludeObject δ K) (newpos : Position K) (name : String)

omit [Field K] [LinearOrder K] in
theorem transform_exclude : (self.exclude name).transform = self.transform := by
  rw [exclude]
  split <;> rfl

omit [Field K] [LinearOrder K] in
theorem transform_startObject (bare : String → ObjectDefinition δ) :
    (self.startObject bare name).transform = self.transform := by
  rw [startObject]
  split
  · rfl
  · rfl

theorem normalMove_frame :
    let self' := (self.normalMove newpos name).1
    self'.transform = self.transform ∧ self'.currentObject = self.currentObject ∧
      self'.excludedObjects = self.excludedObjects := by
  simp only [normalMove, setExtrusionOffsets]
  split <;> exact ⟨rfl, rfl, rfl⟩

theorem move_frame (speed : K) :
    let self' := (self.move newpos speed name).1
    self'.transform = self.transform ∧ self'.currentObject = self.currentObject ∧
      self'.excludedObjects = self.excludedObjects := by
  rw [move]
  split
  · exact ⟨rfl, rfl, rfl⟩
  · dsimp only
    split
    · split <;> exact ⟨rfl, rfl, rfl⟩
    · split <;> exact normalMove_frame _ _ _

end ExcludeObject

/-! ### The module -/

/-- `ExcludeObjectModule`: the core, and whether the module is in front of the transform. -/
structure ExcludeObjectModule (δ K : Type) where
  core : ExcludeObject δ K
  nextTransform : Bool

/-- What reaches the module.  A command that looks for the tuning tower carries whether it is
active, one that reads the position what the transform answers, and the name of the extruder. -/
inductive ExcludeEvent (δ K : Type) where
  | define (definition : ObjectDefinition δ)
  | resetFile (tuningTowerActive : Bool)
  | start (name : String)
  | endMark (name : String)
  | exclude (reset current : Bool) (name : String) (tuningTowerActive : Bool) (pos : Position K)
      (extruderName : String)
  | getPosition (pos : Position K) (extruderName : String)
  | move (newpos : Position K) (speed : K) (extruderName : String)

namespace ExcludeObjectModule

variable {δ K : Type} [Field K] [LinearOrder K]

/-- The module after `LoadConfigExcludeObject`. -/
def load : ExcludeObjectModule δ K := { core := .new, nextTransform := false }

variable (self : ExcludeObjectModule δ K) (tuningTowerActive : Bool)

def registerTransform (pos : Position K) (extruderName : String) : ExcludeObjectModule δ K :=
  if self.nextTransform then self
  else if tuningTowerActive then self
  else { core := self.core.attachTransform pos extruderName, nextTransform := true }

def unregisterTransform : ExcludeObjectModule δ K :=
  if !self.nextTransform then self
  else if tuningTowerActive then self
  else { core := self.core.detachTransform, nextTransform := false }

def excludeObject (name : String) (tuningTowerActive : Bool) (pos : Position K)
    (extruderName : String) : ExcludeObjectModule δ K :=
  let self := self.registerTransform tuningTowerActive pos extruderName
  { self with core := self.core.exclude name }

def cmdExcludeObject (reset current : Bool) (name : String) (tuningTowerActive : Bool)
    (pos : Position K) (extruderName : String) : ExcludeObjectModule δ K :=
  if reset then
    if name ≠ "" then { self with core := self.core.unexclude name }
    else { self with core := self.core.clearExcluded }
  else if name ≠ "" then
    if !self.core.objectIsExcluded name then
      self.excludeObject name tuningTowerActive pos extruderName
    else self
  else if current then
    if self.core.currentObject = "" then self
    else self.excludeObject self.core.currentObject tuningTowerActive pos extruderName
  else self

def cmdExcludeObjectEnd (name : String) : ExcludeObjectModule δ K :=
  if self.core.currentObject = "" ∧ self.nextTransform then self
  else { self with core := (self.core.endObject name).1 }

variable (self : ExcludeObjectModule δ K)

/-- A move of the G-code, which reaches the module only while it is registered: the module after
it, and what arrives behind the module. -/
def move (newpos : Position K) (speed : K)
    (extruderName : String) : ExcludeObjectModule δ K × Option (Position K) :=
  if self.nextTransform then
    let (core, txPos) := self.core.move newpos speed extruderName
    ({ self with core }, txPos)
  else (self, some newpos)

def step (bare : String → ObjectDefinition δ) (self : ExcludeObjectModule δ K) :
    ExcludeEvent δ K → ExcludeObjectModule δ K
  | .define definition => { self with core := self.core.addObjectDefinition definition }
  | .resetFile tuningTowerActive =>
    ({ self with core := self.core.resetState }).unregisterTransform tuningTowerActive
  | .start name => { self with core := self.core.startObject bare name }
  | .endMark name => self.cmdExcludeObjectEnd name
  | .exclude reset current name tuningTowerActive pos extruderName =>
    self.cmdExcludeObject reset current name tuningTowerActive pos extruderName
  | .getPosition pos extruderName =>
    if self.nextTransform then { self with core := self.core.getPosition pos extruderName }
    else self
  | .move newpos speed extruderName => (self.move newpos speed extruderName).1

/-! ### The transform -/

variable {bare : String → ObjectDefinition δ}

/-- The module is in front of the transform just when its core has one. -/
def Consistent : Prop :=
  self.nextTransform = self.core.transform

instance (self : ExcludeObjectModule δ K) : Decidable self.Consistent :=
  inferInstanceAs (Decidable (_ = _))

omit [LinearOrder K] in
theorem consistent_excludeObject {self : ExcludeObjectModule δ K} (h : self.Consistent)
    (name : String) (tuningTowerActive : Bool) (pos : Position K) (extruderName : String) :
    (self.excludeObject name tuningTowerActive pos extruderName).Consistent := by
  have hreg : (self.registerTransform tuningTowerActive pos extruderName).Consistent := by
    rw [registerTransform]
    split
    · exact h
    · split
      · exact h
      · rfl
  exact hreg.trans (ExcludeObject.transform_exclude _ name).symm

omit [LinearOrder K] in
theorem consistent_cmdExcludeObject {self : ExcludeObjectModule δ K} (h : self.Consistent)
    (reset current : Bool) (name : String) (tuningTowerActive : Bool) (pos : Position K)
    (extruderName : String) :
    (self.cmdExcludeObject reset current name tuningTowerActive pos extruderName).Consistent := by
  unfold cmdExcludeObject
  split_ifs
  · exact h
  · exact h
  · exact consistent_excludeObject h name tuningTowerActive pos extruderName
  · exact h
  · exact h
  · exact consistent_excludeObject h _ tuningTowerActive pos extruderName
  · exact h

theorem transform_step (e : ExcludeEvent δ K)
    (h : self.Consistent) : (step bare self e).Consistent := by
  cases e with
  | define definition => exact h
  | resetFile tuningTowerActive =>
    rw [step, unregisterTransform]
    split
    · exact h
    · split
      · exact h
      · rfl
  | start name => exact h.trans (self.core.transform_startObject name bare).symm
  | endMark name =>
    rw [step, cmdExcludeObjectEnd]
    split <;> exact h
  | exclude reset current name tuningTowerActive pos extruderName =>
    exact consistent_cmdExcludeObject h reset current name tuningTowerActive pos extruderName
  | getPosition pos extruderName =>
    rw [step]
    split
    · exact h
    · exact h
  | move newpos speed extruderName =>
    rw [step, move]
    split
    · exact h.trans (self.core.move_frame newpos extruderName speed).1.symm
    · exact h

/-- A move changes neither the current object nor the excluded ones. -/
theorem core_step_move (newpos : Position K) (speed : K) (extruderName : String) :
    (step bare self (.move newpos speed extruderName)).core.currentObject =
        self.core.currentObject ∧
      (step bare self (.move newpos speed extruderName)).core.excludedObjects =
        self.core.excludedObjects := by
  rw [step, move]
  split
  · exact (self.core.move_frame newpos extruderName speed).2
  · exact ⟨rfl, rfl⟩

/-! ### Who loses moves -/

/-- A move that does not arrive behind the module. -/
def Withheld : ExcludeEvent δ K → Prop
  | .move newpos speed extruderName => (self.move newpos speed extruderName).2 = none
  | _ => False

def CurrentExcluded : Prop :=
  self.core.currentObject ≠ "" ∧ self.core.currentObject ∈ self.core.excludedObjects

/-- A move inside an object is made only before the module is registered and its initial extrusions
are used up, or if the object is excluded. -/
def MovesAreExcluded : ExcludeEvent δ K → Prop
  | .move _ _ _ =>
    self.nextTransform = true → self.core.currentObject ≠ "" →
      self.core.initialExtrusionMoves = 0 → self.core.currentObject ∈ self.core.excludedObjects
  | _ => True

theorem withheld_move_iff {self : ExcludeObjectModule δ K} (h : self.Consistent)
    (newpos : Position K) (speed : K) (extruderName : String) :
    self.Withheld (.move newpos speed extruderName) ↔
      self.nextTransform = true ∧ self.core.currentObject ≠ "" ∧
        self.core.initialExtrusionMoves = 0 := by
  rw [Withheld, move]
  by_cases hreg : self.nextTransform = true
  · rw [if_pos hreg]
    rw [ExcludeObject.move_eq_none_iff (h ▸ hreg), ExcludeObject.testInExcludedRegion]
    simp [hreg]
  · simp [hreg]

theorem withheld_excluded_iff {self : ExcludeObjectModule δ K} (h : self.Consistent)
    (e : ExcludeEvent δ K) :
    (self.Withheld e → self.CurrentExcluded) ↔ self.MovesAreExcluded e := by
  cases e with
  | move newpos speed extruderName =>
    rw [withheld_move_iff h, MovesAreExcluded, CurrentExcluded]
    constructor
    · intro hmove hreg hobj hinit
      exact (hmove ⟨hreg, hobj, hinit⟩).2
    · rintro hmove ⟨hreg, hobj, hinit⟩
      exact ⟨hobj, hmove hreg hobj hinit⟩
  | _ => exact iff_of_true False.elim trivial

/-- In a history from the start, a move is withheld for an excluded object only, just if no move is
made inside an object that is not excluded while the module is registered and its initial
extrusions are used up. -/
theorem withheld_only_excluded_iff (bare : String → ObjectDefinition δ)
    (es : List (ExcludeEvent δ K)) :
    Along (step bare) (fun s e => s.Withheld e → s.CurrentExcluded) load es ↔
      Along (step bare) MovesAreExcluded load es :=
  along_iff_of_invariant (fun s e hs _ => transform_step s e hs)
    (fun _ e hs => withheld_excluded_iff hs e) rfl

/-- Object A is excluded, and after five extrusions object B loses its moves. -/
theorem withheld_other_object :
    let extrude (e : ℚ) : ExcludeEvent Unit ℚ :=
      .move (fun i => if i = 3 then e else 0) 1 "extruder"
    ¬ Along (step fun name => ⟨name, ()⟩) (fun s e => s.Withheld e → s.CurrentExcluded)
      (load : ExcludeObjectModule Unit ℚ)
      [.start "B", .exclude false false "A" false (fun _ => 0) "extruder",
        extrude 1, extrude 2, extrude 3, extrude 4, extrude 5, extrude 6] := by
  intro extrude hrun
  obtain ⟨-, -, -, -, -, -, -, hlast, -⟩ := hrun
  have hexcluded := hlast ((withheld_move_iff (by decide +kernel) _ _ _).mpr
    ⟨by decide +kernel, by decide +kernel, by decide +kernel⟩)
  -- the moves change neither the current object nor the excluded ones
  simp only [CurrentExcluded, extrude, core_step_move] at hexcluded
  simp [step, cmdExcludeObject, excludeObject, registerTransform, load, ExcludeObject.new,
    ExcludeObject.exclude, ExcludeObject.objectIsExcluded, ExcludeObject.attachTransform,
    ExcludeObject.getPosition, ExcludeObject.setExtrusionOffsets, ExcludeObject.startObject,
    ExcludeObject.addObjectDefinition, ExcludeObject.objectExists] at hexcluded

end ExcludeObjectModule

/-! ### The reported position -/

/-- The core in front of a transform that stands where it was last moved to, and the last position
passed to `Move`. -/
structure AttachedObject (δ K : Type) where
  core : ExcludeObject δ K
  position : Position K
  last : Position K

/-- A move, or a mark of an object. -/
inductive ObjectMark (K : Type) where
  | move (newpos : Position K) (speed : K)
  | start (name : String)
  | endMark (name : String)
  | exclude (name : String)

namespace AttachedObject

open ExcludeObject

variable {δ K : Type} [Field K] [LinearOrder K] (bare : String → ObjectDefinition δ)
  (extruderName : String)

def attach (self : ExcludeObject δ K) (pos : Position K) : AttachedObject δ K :=
  let core := self.attachTransform pos extruderName
  ⟨core, pos, core.lastPosition⟩

def step (s : AttachedObject δ K) : ObjectMark K → AttachedObject δ K
  | .move newpos speed =>
    let (core, txPos) := s.core.move newpos speed extruderName
    ⟨core, txPos.getD s.position, newpos⟩
  | .start name => { s with core := s.core.startObject bare name }
  | .endMark name => { s with core := (s.core.endObject name).1 }
  | .exclude name => { s with core := s.core.exclude name }

/-- What `GetPosition` returns. -/
def reported (s : AttachedObject δ K) : Position K :=
  (s.core.getPosition s.position extruderName).lastPosition

/-- Inside an excluded region the X, Y and Z positions are shifted by what was left of the offsets
of the region before. -/
structure Shifted (s : AttachedObject δ K) : Prop where
  transform : s.core.transform = true
  last : s.core.lastPosition = s.last
  reported (i : Fin 4) : s.reported extruderName i = s.last i +
    if i ≠ 3 ∧ s.core.inExcludedRegion then s.position i - s.core.lastPositionExtruded i else 0

variable {extruderName} {s : AttachedObject δ K} (newpos : Position K)

/-- A move that is passed on. -/
theorem shifted_normalMove (core : ExcludeObject δ K) (htransform : core.transform = true)
    (hregion : core.inExcludedRegion = false) :
    let moved := core.normalMove newpos extruderName
    Shifted extruderName ⟨moved.1, moved.2, newpos⟩ := by
  refine ⟨(core.normalMove_frame newpos extruderName).1.trans htransform, rfl, fun i => ?_⟩
  have hsame : (core.normalMove newpos extruderName).1.inExcludedRegion = false := by
    simp only [normalMove, setExtrusionOffsets]
    split <;> exact hregion
  rw [if_neg (by simp [hsame]), add_zero]
  simp [reported, getPosition, getExtrusionOffsets, normalMove, setExtrusionOffsets]

/-- A move that is left out. -/
theorem shifted_ignoreMove (h : Shifted extruderName s) {core : ExcludeObject δ K}
    (hcore : ∃ speed, core = { s.core with lastSpeed := speed, inExcludedRegion := true }) :
    Shifted extruderName ⟨core.ignoreMove newpos extruderName, s.position, newpos⟩ := by
  obtain ⟨speed, rfl⟩ := hcore
  refine ⟨h.transform, rfl, fun i => ?_⟩
  simp only [reported, getPosition, getExtrusionOffsets, ignoreMove, setExtrusionOffsets,
    Function.update_self, Option.getD_some]
  by_cases hi : i = 3
  · have hlast : s.position 3 + s.core.getExtrusionOffsets extruderName 3 =
        s.core.lastPosition 3 := by
      rw [h.last]
      exact (h.reported 3).trans (add_zero _)
    rw [← hlast]
    simp [hi, getExtrusionOffsets]
    ring
  · simp [hi]
    ring

theorem shifted_step (e : ObjectMark K) (h : Shifted extruderName s) :
    Shifted extruderName (step bare extruderName s e) := by
  cases e with
  | move newpos speed =>
    have hstep : step bare extruderName s (.move newpos speed) =
      ⟨(s.core.move newpos speed extruderName).1,
        (s.core.move newpos speed extruderName).2.getD s.position, newpos⟩ := rfl
    rw [hstep, move, if_neg (by simp [h.transform])]
    dsimp only
    split
    · split
      · next hin =>
        refine shifted_ignoreMove newpos h ⟨speed, ?_⟩
        rw [← hin]
      · exact shifted_ignoreMove newpos h ⟨speed, rfl⟩
    · split
      · exact shifted_normalMove newpos _ h.transform rfl
      · next hout => exact shifted_normalMove newpos _ h.transform (by simpa using hout)
  | start name =>
    simp only [step, startObject]
    split <;> exact ⟨h.transform, h.last, h.reported⟩
  | endMark name => exact ⟨h.transform, h.last, h.reported⟩
  | exclude name =>
    simp only [step, exclude]
    split <;> exact ⟨h.transform, h.last, h.reported⟩

/-- After attaching, the X, Y and Z positions are reported exactly if no move was left out since
the last one that was passed on, or that one was not shifted; and that of the extruder always. -/
theorem position_reported_iff (extruderName : String) (self : ExcludeObject δ K) (pos : Position K)
    (events : List (ObjectMark K)) :
    let s := final (step bare extruderName) (attach extruderName self pos) events
    s.reported extruderName 3 = s.last 3 ∧ ((∀ i ≠ 3, s.reported extruderName i = s.last i) ↔
      (s.core.inExcludedRegion → ∀ i ≠ 3, s.position i = s.core.lastPositionExtruded i)) := by
  intro s
  have hstart : Shifted extruderName (attach extruderName self pos) := by
    refine ⟨rfl, rfl, fun i => ?_⟩
    simp [attach, reported, attachTransform, getPosition, getExtrusionOffsets, setExtrusionOffsets]
  have hs : Shifted extruderName s := final_of_kept (fun _ => shifted_step bare) hstart events
  refine ⟨(hs.reported 3).trans (by simp), ?_⟩
  have hiff (i : Fin 4) (hi : i ≠ 3) : s.reported extruderName i = s.last i ↔
      (s.core.inExcludedRegion → s.position i = s.core.lastPositionExtruded i) := by
    rw [hs.reported]
    by_cases hin : s.core.inExcludedRegion = true
    · simp [hi, hin, sub_eq_zero]
    · simp [hin]
  exact ⟨fun h hin i hi => (hiff i hi).mp (h i hi) hin,
    fun h i hi => (hiff i hi).mpr fun hin => h hin i hi⟩

/-- A move after the excluded object that only extrudes keeps the shift, and the moves of the next
excluded object are reported with it. -/
theorem position_shifted :
    let move (x e : ℚ) : ObjectMark ℚ :=
      .move (fun i => if i = 0 then x else if i = 3 then e else 0) 1
    let s := final (step (fun name => ⟨name, ()⟩) "extruder") (attach "extruder" .new fun _ => 0)
      [move 0 1, move 0 2, move 0 3, move 0 4, move 0 5, .start "A", move 10 6, .endMark "A",
        move 10 7, .start "B", move 20 8]
    s.last 0 = 20 ∧ s.reported "extruder" 0 = 10 := by
  decide +kernel

end AttachedObject

end Addon
