/-
The laws of G-code coordinates (`internal/pkg/gcode/gcode_move_module.go`).

In exact arithmetic the commands that change the base position, the factors and
the offsets do to the reported position what they say, in every state that is
reached with positive factors; and a restored state reports what was saved.

* `positive_step` — factors stay positive.
-/
import KlipperGo.GcodeMove
import Mathlib.Algebra.Order.Field.Basic
import Mathlib.Tactic.FieldSimp
import Mathlib.Tactic.Ring

open CallLog GoRuntime Runs List Function

namespace Gcode

variable {K σ : Type} [Field K]

namespace SavedState

variable (self : SavedState K) (axis : Axis)

/-- What one unit of a reported coordinate is in the last position. -/
def unit : Axis → K
  | .e => self.extrudeFactor
  | _ => 1

theorem gcodePosition_apply : self.gcodePosition axis =
      (self.lastPosition axis - self.basePosition axis) / self.unit axis := by
  cases axis <;> simp [gcodePosition, unit]

theorem scaled_eq (value : K) : self.scaled axis value = value * self.unit axis := by
  cases axis <;> simp [scaled, unit]

theorem unit_ne_zero [LinearOrder K] {self : SavedState K} (h : 0 < self.extrudeFactor)
    (axis : Axis) : self.unit axis ≠ 0 := by
  cases axis
  case e => exact h.ne'
  all_goals exact one_ne_zero

variable {strconv : Strconv K} {self : SavedState K} {gcmd : DispatchCommand} {axis : Axis}

theorem g92Base_none (h : ∀ axis : Axis, gcmd.getFloatNaN strconv axis.letter = none) :
    self.g92Base strconv gcmd = self.lastPosition := by
  rw [g92Base, if_pos]
  rw [all_eq_true]
  intro axis _
  rw [h axis, Option.isNone_none]

omit [Field K] in
/-- With a coordinate given, the base of each axis is looked at on its own. -/
theorem not_all_isNone {given : Axis} {value : K}
    (h : gcmd.getFloatNaN strconv given.letter = some value) :
    ¬ axes.all (fun axis => (gcmd.getFloatNaN strconv axis.letter).isNone) = true := by
  intro hall
  have hgiven := all_eq_true.mp hall given ((by cases given <;> decide))
  rw [h] at hgiven
  cases hgiven

theorem g92Base_given {value : K} (h : gcmd.getFloatNaN strconv axis.letter = some value) :
    self.g92Base strconv gcmd axis = self.lastPosition axis - self.scaled axis value := by
  rw [g92Base, if_neg (not_all_isNone h), h]

theorem g92Base_other {given : Axis} {value : K}
    (hgiven : gcmd.getFloatNaN strconv given.letter = some value)
    (h : gcmd.getFloatNaN strconv axis.letter = none) :
    self.g92Base strconv gcmd axis = self.basePosition axis := by
  rw [g92Base, if_neg (not_all_isNone hgiven), h]

/-- Base and offset of an axis change together. -/
theorem withOffset_apply (strconv : Strconv K) (self : SavedState K) (gcmd : DispatchCommand)
    (axis : Axis) :
    (self.withOffset strconv gcmd).basePosition axis =
        self.basePosition axis + self.moveDelta strconv gcmd axis ∧
      (self.withOffset strconv gcmd).homingPosition axis =
        self.homingPosition axis + self.moveDelta strconv gcmd axis := by
  rcases h : self.newOffset strconv gcmd axis with _ | offset <;> simp [withOffset, moveDelta, h]

end SavedState

namespace GCodeMoveModule

variable [LinearOrder K]

structure Factors.Positive (f : Factors K) : Prop where
  speedFactor : 0 < f.speedFactor
  extrudeFactor : 0 < f.extrudeFactor
  saved : ∀ name state, f.savedStates name = some state →
    0 < state.speedFactor ∧ 0 < state.extrudeFactor

/-- A factor that the operation sets is positive. -/
def Op.Positive (strconv : Strconv K) : Op K σ → Prop
  | .m220 gcmd => 0 < newSpeedFactor strconv gcmd
  | .m221 gcmd => 0 < newExtrudeFactor strconv gcmd
  | _ => True

/-- An `S` of `M220` or `M221` is read as a number above zero. -/
def Op.AboveZero (strconv : Strconv K) : Op K σ → Prop
  | .m220 gcmd | .m221 gcmd => gcmd.text "S" = "" ∨ 0 < strconv.parseFloat (gcmd.text "S")
  | _ => True

variable {strconv : Strconv K} {self : GCodeMoveModule K σ}

/-- A value that is not above the bound is read as the bound. -/
theorem getFloat_pos {gcmd : DispatchCommand} {name : String} {default : K}
    (hdefault : 0 < default) :
    0 < gcmd.getFloat strconv name default (some ((0 : ℕ) : K)) ↔
      gcmd.text name = "" ∨ 0 < strconv.parseFloat (gcmd.text name) := by
  rw [DispatchCommand.getFloat]
  by_cases htext : gcmd.text name = ""
  · simp [htext, hdefault]
  · by_cases hval : 0 < strconv.parseFloat (gcmd.text name)
    · simp [htext, hval, Option.filter]
    · simp [htext, hval, Option.filter, not_lt.mp hval]

/-- After an operation that leaves the factors positive, those it sets are. -/
theorem positive_of_step {op : Op K σ}
    (hs : 0 < (self.step strconv op).speedFactor) (he : 0 < (self.step strconv op).extrudeFactor) :
    op.Positive strconv := by
  cases op with
  | m220 gcmd => exact hs
  | m221 gcmd => exact he
  | _ => trivial

section

variable [IsStrictOrderedRing K]

theorem positive_loadConfigGCodeMove (machine : σ) :
    (loadConfigGCodeMove machine : GCodeMoveModule K σ).factors.Positive := by
  refine ⟨?_, ?_, ?_⟩
  · simp [factors, loadConfigGCodeMove]
  · simp [factors, loadConfigGCodeMove]
  · rintro name state ⟨⟩

theorem positive_step {op : Op K σ} (h : self.factors.Positive) (hop : op.Positive strconv) :
    (self.step strconv op).factors.Positive := by
  rw [factors_step]
  obtain ⟨hs, he, hsaved⟩ := h
  cases op with
  | m220 gcmd => exact ⟨hop, he, hsaved⟩
  | m221 gcmd => exact ⟨hs, hop, hsaved⟩
  | handleActivateExtruder => exact ⟨hs, by simp [factorsAfter], hsaved⟩
  | saveGcodeState gcmd =>
    -- the state saved has the factors in use
    refine ⟨hs, he, ?_⟩
    intro name state hstate
    by_cases hname : name = gcmd.stateName
    · have hself : some self.toSavedState = some state := by
        simpa [factorsAfter, hname] using hstate
      cases hself
      exact ⟨hs, he⟩
    · refine hsaved name state ?_
      simpa [factors, factorsAfter, update_of_ne hname] using hstate
  | restoreGcodeState gcmd =>
    rw [factorsAfter]
    split
    · exact ⟨hs, he, hsaved⟩
    · next state hstate =>
      obtain ⟨hs', he'⟩ := hsaved _ _ hstate
      exact ⟨hs', he', hsaved⟩
  | _ => exact ⟨hs, he, hsaved⟩

theorem positive_iff_aboveZero (op : Op K σ) : op.Positive strconv ↔ op.AboveZero strconv := by
  have hread : ∀ (gcmd : DispatchCommand) {scale : K}, 0 < scale →
      (0 < gcmd.getFloat strconv "S" ((100 : ℕ) : K) (some ((0 : ℕ) : K)) / scale ↔
        gcmd.text "S" = "" ∨ 0 < strconv.parseFloat (gcmd.text "S")) := by
    intro gcmd scale hscale
    rw [div_pos_iff_of_pos_right hscale]
    exact getFloat_pos (by simp)
  cases op with
  | m220 gcmd => exact hread gcmd (by simp)
  | m221 gcmd => exact hread gcmd (by simp)
  | _ => exact Iff.rfl

/-- The factors are positive at every point of a run exactly if no factor is set from an `S`
that is not above zero: the reader then returns the zero that the value has to be above. -/
theorem factors_positive_iff (parse : String → Option K) (parseInt : String → ℤ) (machine : σ)
    (ops : List (Op K σ)) :
    (∀ done, done <+: ops →
      let s := final (step (exactStrconv parse parseInt)) (loadConfigGCodeMove machine) done
      0 < s.speedFactor ∧ 0 < s.extrudeFactor) ↔
    ∀ op ∈ ops, op.AboveZero (exactStrconv parse parseInt) := by
  suffices h : ∀ s : GCodeMoveModule K σ, s.factors.Positive → ((∀ done, done <+: ops →
      0 < (final (step (exactStrconv parse parseInt)) s done).speedFactor ∧
      0 < (final (step (exactStrconv parse parseInt)) s done).extrudeFactor) ↔ _) from
    h _ (positive_loadConfigGCodeMove machine)
  induction ops with
  | nil =>
    intro s hs
    simp only [prefix_nil, forall_eq, final_nil, not_mem_nil, false_implies, implies_true, iff_true]
    exact ⟨hs.speedFactor, hs.extrudeFactor⟩
  | cons op ops ih =>
    intro s hs
    rw [forall_prefix_cons, forall_mem_cons, ← positive_iff_aboveZero]
    constructor
    · rintro ⟨-, hrest⟩
      obtain ⟨hspeed, hextrude⟩ := hrest [] nil_prefix
      have hop := positive_of_step hspeed hextrude
      exact ⟨hop, (ih _ (positive_step hs hop)).mp hrest⟩
    · rintro ⟨hop, hops⟩
      exact ⟨⟨hs.speedFactor, hs.extrudeFactor⟩, (ih _ (positive_step hs hop)).mpr hops⟩

end

/-- `M220 S0`. -/
def zeroSpeed : DispatchCommand :=
  { command := "M220", commandline := "M220 S0"
    params := fun name => if name = "S" then some "0" else none }

/-- After `M220 S0` the speed factor is zero. -/
theorem speedFactor_zeroSpeed :
    (final (step (exactStrconv parseDecimal fun _ => 0)) (loadConfigGCodeMove ())
      [.m220 zeroSpeed]).speedFactor = 0 := by
  decide +kernel

theorem factors_positive_iff_zeroSpeed : (∀ done, done <+: [Op.m220 zeroSpeed] →
      let s := final (step (exactStrconv parseDecimal fun _ => 0)) (loadConfigGCodeMove ()) done
      0 < s.speedFactor ∧ 0 < s.extrudeFactor) ↔
    ∀ op ∈ [(Op.m220 zeroSpeed : Op ℚ Unit)],
      op.AboveZero (exactStrconv parseDecimal fun _ => 0) :=
  factors_positive_iff parseDecimal (fun _ => 0) () [.m220 zeroSpeed]

/-! ### The laws of the commands -/

/-- What the commands do to the reported position and speed. -/
structure CoordinateLaws (strconv : Strconv K) (s : GCodeMoveModule K σ) : Prop where
  m221 : ∀ gcmd, 0 < newExtrudeFactor strconv gcmd →
    (s.step strconv (.m221 gcmd)).gcodePosition = s.gcodePosition
  m220 : ∀ gcmd, 0 < newSpeedFactor strconv gcmd →
    (s.step strconv (.m220 gcmd)).gcodeSpeed = s.gcodeSpeed
  /-- `G92` with a coordinate makes it the reported one. -/
  g92_given : ∀ gcmd axis value, gcmd.getFloatNaN strconv (Axis.letter axis) = some value →
    (s.step strconv (.g92 gcmd)).gcodePosition axis = value
  /-- `G92` leaves the other coordinates. -/
  g92_other : ∀ gcmd axis given value, gcmd.getFloatNaN strconv (Axis.letter given) = some value →
    gcmd.getFloatNaN strconv (Axis.letter axis) = none →
    (s.step strconv (.g92 gcmd)).gcodePosition axis = s.gcodePosition axis
  /-- `G92` without coordinates makes all of them zero. -/
  g92_none : ∀ gcmd, (∀ axis : Axis, gcmd.getFloatNaN strconv axis.letter = none) →
    ∀ axis, (s.step strconv (.g92 gcmd)).gcodePosition axis = 0
  /-- An offset is set to a value, or changed by one. -/
  offset_set : ∀ gcmd axis value, gcmd.getFloatNaN strconv (Axis.letter axis) = some value →
    (s.step strconv (.setGcodeOffset gcmd)).homingPosition axis = value
  offset_adjust : ∀ gcmd axis value, gcmd.getFloatNaN strconv (Axis.letter axis) = none →
    gcmd.getFloatNaN strconv (Axis.letter axis ++ "_ADJUST") = some value →
    (s.step strconv (.setGcodeOffset gcmd)).homingPosition axis = s.homingPosition axis + value
  /-- Without a move, the reported coordinates change by minus the change of the offset. -/
  offset : ∀ gcmd, gcmd.getInt strconv "MOVE" 0 = 0 → ∀ axis,
    (s.step strconv (.setGcodeOffset gcmd)).gcodePosition axis = s.gcodePosition axis -
      ((s.step strconv (.setGcodeOffset gcmd)).homingPosition axis - s.homingPosition axis) /
        s.unit axis
  /-- With a move, they stay. -/
  offset_move : ∀ gcmd, gcmd.getInt strconv "MOVE" 0 ≠ 0 →
    (s.step strconv (.setGcodeOffset gcmd)).gcodePosition = s.gcodePosition
  /-- A move in absolute modes makes the given coordinates the reported ones. -/
  g1_given : s.absoluteCoord = true → s.absoluteExtrude = true → ∀ gcmd axis raw,
    gcmd.params (Axis.letter axis) = some raw → strconv.parses raw = true →
    (s.step strconv (.g1 gcmd)).gcodePosition axis = strconv.parseFloat raw
  g1_other : ∀ gcmd axis, gcmd.params (Axis.letter axis) = none →
    (s.step strconv (.g1 gcmd)).gcodePosition axis = s.gcodePosition axis

section Laws

variable {strconv : Strconv K} {s : GCodeMoveModule K σ}

theorem gcodePosition_m221 (h : 0 < s.extrudeFactor) (gcmd : DispatchCommand)
    (hnew : 0 < newExtrudeFactor strconv gcmd) :
    (s.step strconv (.m221 gcmd)).gcodePosition = s.gcodePosition := by
  funext axis
  cases axis
  case e =>
    simp only [step, cmdM221, SavedState.gcodePosition, update_self]
    field_simp
    ring
  all_goals simp [step, cmdM221, SavedState.gcodePosition]

variable (gcmd : DispatchCommand)

theorem gcodeSpeed_m220 (hnew : 0 < newSpeedFactor strconv gcmd) :
    (s.step strconv (.m220 gcmd)).gcodeSpeed = s.gcodeSpeed :=
  mul_div_cancel_right₀ s.gcodeSpeed hnew.ne'

theorem gcodePosition_g92 (axis : Axis) :
    (s.step strconv (.g92 gcmd)).gcodePosition axis =
      (s.lastPosition axis - s.g92Base strconv gcmd axis) / s.unit axis :=
  SavedState.gcodePosition_apply _ axis

variable {gcmd : DispatchCommand}

theorem gcodePosition_g92_given (h : 0 < s.extrudeFactor) {axis : Axis} {value : K}
    (hvalue : gcmd.getFloatNaN strconv axis.letter = some value) :
    (s.step strconv (.g92 gcmd)).gcodePosition axis = value := by
  have hunit := SavedState.unit_ne_zero h axis
  rw [gcodePosition_g92, SavedState.g92Base_given hvalue, SavedState.scaled_eq, sub_sub_cancel,
    mul_div_cancel_right₀ _ hunit]

/-- The offsets after `SET_GCODE_OFFSET`, with or without a move. -/
theorem homingPosition_setGcodeOffset (axis : Axis) :
    (s.step strconv (.setGcodeOffset gcmd)).homingPosition axis =
      (s.newOffset strconv gcmd axis).getD (s.homingPosition axis) := by
  obtain ⟨-, h⟩ | ⟨-, machine, h⟩ := step_setGcodeOffset strconv s gcmd
  · rw [h]
    rfl
  · rw [h]
    rfl

theorem gcodePosition_offset (hmove : gcmd.getInt strconv "MOVE" 0 = 0) (axis : Axis) :
    (s.step strconv (.setGcodeOffset gcmd)).gcodePosition axis = s.gcodePosition axis -
      ((s.step strconv (.setGcodeOffset gcmd)).homingPosition axis - s.homingPosition axis) /
        s.unit axis := by
  obtain ⟨-, h⟩ | ⟨hmove', -⟩ := step_setGcodeOffset strconv s gcmd
  · obtain ⟨hbase, hhoming⟩ := s.withOffset_apply strconv gcmd axis
    rw [h, SavedState.gcodePosition_apply, SavedState.gcodePosition_apply, hbase, hhoming,
      ← sub_div]
    change (s.lastPosition axis - _) / s.unit axis = _
    ring
  · exact absurd hmove hmove'

theorem gcodePosition_offset_move (hmove : gcmd.getInt strconv "MOVE" 0 ≠ 0) :
    (s.step strconv (.setGcodeOffset gcmd)).gcodePosition = s.gcodePosition := by
  obtain ⟨hmove', -⟩ | ⟨-, machine, h⟩ := step_setGcodeOffset strconv s gcmd
  · exact absurd hmove' hmove
  · funext axis
    obtain ⟨hbase, -⟩ := s.withOffset_apply strconv gcmd axis
    rw [h, SavedState.gcodePosition_apply, SavedState.gcodePosition_apply, hbase,
      add_sub_add_right_eq_sub]
    rfl

theorem gcodePosition_g1 (axis : Axis) :
    (s.step strconv (.g1 gcmd)).gcodePosition axis =
      (s.target strconv gcmd.params axis - s.basePosition axis) / s.unit axis := by
  obtain ⟨speed, machine, h⟩ := step_g1 strconv s gcmd
  rw [h]
  exact SavedState.gcodePosition_apply _ axis

theorem gcodePosition_g1_given (h : 0 < s.extrudeFactor) (hcoord : s.absoluteCoord = true)
    (hextrude : s.absoluteExtrude = true) {axis : Axis} {raw : String}
    (hraw : gcmd.params axis.letter = some raw) (hparse : strconv.parses raw = true) :
    (s.step strconv (.g1 gcmd)).gcodePosition axis = strconv.parseFloat raw := by
  have hunit := SavedState.unit_ne_zero h axis
  have habs : s.relative axis = false := by
    cases axis <;> simp [SavedState.relative, hcoord, hextrude]
  have htarget : s.target strconv gcmd.params axis =
      strconv.parseFloat raw * s.unit axis + s.basePosition axis := by
    simp [SavedState.target, hraw, hparse, habs, SavedState.scaled_eq]
  rw [gcodePosition_g1, htarget, add_sub_cancel_right, mul_div_cancel_right₀ _ hunit]

end Laws

variable [IsStrictOrderedRing K]

/-- In exact arithmetic the laws hold in every state that is reached with positive factors. -/
theorem coordinate_laws (parse : String → Option K) (parseInt : String → ℤ) (machine : σ)
    (ops : List (Op K σ)) (hops : ∀ op ∈ ops, op.Positive (exactStrconv parse parseInt)) :
    CoordinateLaws (exactStrconv parse parseInt)
      (final (step (exactStrconv parse parseInt)) (loadConfigGCodeMove machine) ops) := by
  have hpositive : (final (step (exactStrconv parse parseInt)) (loadConfigGCodeMove machine)
      ops).factors.Positive :=
    final_of_invariant (I := fun s : GCodeMoveModule K σ => s.factors.Positive)
      (fun s op hs hop => positive_step hs hop) (positive_loadConfigGCodeMove machine)
      (along_of_forall hops)
  have hextrude := hpositive.extrudeFactor
  exact
    { m221 := gcodePosition_m221 hextrude
      m220 := gcodeSpeed_m220
      g92_given := fun _ _ _ h => gcodePosition_g92_given hextrude h
      g92_other := fun _ _ _ _ hgiven haxis => by
        rw [gcodePosition_g92, SavedState.g92Base_other hgiven haxis,
          SavedState.gcodePosition_apply]
      g92_none := fun _ h axis => by
        rw [gcodePosition_g92, SavedState.g92Base_none h, sub_self, zero_div]
      offset_set := fun gcmd axis value h => by
        rw [homingPosition_setGcodeOffset, SavedState.newOffset, h, Option.getD_some]
      offset_adjust := fun gcmd axis value hnone hadjust => by
        rw [homingPosition_setGcodeOffset, SavedState.newOffset, hnone, hadjust]
        exact add_comm _ _
      offset := fun _ hmove axis => gcodePosition_offset hmove axis
      offset_move := fun _ hmove => gcodePosition_offset_move hmove
      g1_given := fun hcoord habs _ _ _ hraw hparse =>
        gcodePosition_g1_given hextrude hcoord habs hraw hparse
      g1_other := fun _ _ hraw => by
        rw [gcodePosition_g1, SavedState.gcodePosition_apply, SavedState.target, hraw] }

/-- `M221 S50`. -/
def halfFlow : DispatchCommand :=
  { command := "M221", commandline := "M221 S50"
    params := fun name => if name = "S" then some "50" else none }

def parseFifty (raw : String) : Option ℚ := if raw = "50" then some 50 else none

theorem coordinate_laws_half_flow :
    0 < newExtrudeFactor (exactStrconv parseFifty fun _ => 0) halfFlow ∧
      CoordinateLaws (exactStrconv parseFifty fun _ => 0)
        (final (step (exactStrconv parseFifty fun _ => 0)) (loadConfigGCodeMove ())
          [.m221 halfFlow, .g91]) := by
  have hflow : 0 < newExtrudeFactor (exactStrconv parseFifty fun _ => 0) halfFlow := by
    decide +kernel
  refine ⟨hflow, coordinate_laws parseFifty (fun _ => 0) () [.m221 halfFlow, .g91] ?_⟩
  intro op hop
  rcases mem_cons.mp hop with rfl | hop
  · exact hflow
  · rw [mem_singleton.mp hop]
    trivial

/-! ### Saving and restoring -/

/-- What the state after a restore has in common with the saved one and with the one before the
restore. -/
structure Restores (strconv : Strconv K) (gcmd : DispatchCommand)
    (saved before after : GCodeMoveModule K σ) : Prop where
  absoluteCoord : after.absoluteCoord = saved.absoluteCoord
  absoluteExtrude : after.absoluteExtrude = saved.absoluteExtrude
  homingPosition : after.homingPosition = saved.homingPosition
  basePosition : ∀ axis, axis ≠ .e → after.basePosition axis = saved.basePosition axis
  speedFactor : after.speedFactor = saved.speedFactor
  extrudeFactor : after.extrudeFactor = saved.extrudeFactor
  gcodeSpeed : after.gcodeSpeed = saved.gcodeSpeed
  gcodePosition_e : after.gcodePosition .e = saved.gcodePosition .e
  /-- The extruder itself is where it was. -/
  lastPosition_e : after.lastPosition .e = before.lastPosition .e
  unmoved : gcmd.getInt strconv "MOVE" 0 = 0 →
    after.lastPosition = before.lastPosition ∧ after.machine = before.machine
  moved : gcmd.getInt strconv "MOVE" 0 ≠ 0 → after.gcodePosition = saved.gcodePosition

theorem restores_of_saved {gcmd : DispatchCommand} {saved : GCodeMoveModule K σ}
    (h : self.savedStates gcmd.stateName = some saved.toSavedState) :
    Restores strconv gcmd saved self (self.step strconv (.restoreGcodeState gcmd)) := by
  have he : (self.toSavedState.restored saved.toSavedState).gcodePosition .e =
      saved.toSavedState.gcodePosition .e := by
    simp only [SavedState.gcodePosition, SavedState.restored, update_self]
    ring
  have hbase : ∀ axis, axis ≠ .e →
      (self.restored saved.toSavedState).basePosition axis = saved.basePosition axis :=
    fun axis haxis => update_of_ne haxis _ _
  obtain ⟨hmove, heq⟩ | ⟨hmove, machine, heq⟩ := step_restoreGcodeState strconv h
  · rw [heq]
    exact ⟨rfl, rfl, rfl, hbase, rfl, rfl, rfl, he, rfl, fun _ => ⟨rfl, rfl⟩,
      fun hmove' => absurd hmove hmove'⟩
  · rw [heq]
    refine ⟨rfl, rfl, rfl, hbase, rfl, rfl, rfl, ?_, rfl, fun hmove' => absurd hmove' hmove, ?_⟩
    · exact he
    · -- the other axes have both their base and their last position back
      intro _
      funext axis
      by_cases haxis : axis = .e
      · rw [haxis]
        exact he
      · rw [SavedState.gcodePosition_apply, SavedState.gcodePosition_apply]
        simp only [hbase axis haxis, update_of_ne haxis]
        rfl

/-- Whatever happens between a save and a restore under the same name, as long as nothing else is
saved under it. -/
theorem restore_exact (parse : String → Option K) (parseInt : String → ℤ)
    (s : GCodeMoveModule K σ) (save restore : DispatchCommand)
    (hname : restore.stateName = save.stateName) (ops : List (Op K σ))
    (hops : ∀ op ∈ ops, ¬ op.SavesUnder save.stateName) :
    Restores (exactStrconv parse parseInt) restore s
      (final (step (exactStrconv parse parseInt)) s (.saveGcodeState save :: ops))
      (final (step (exactStrconv parse parseInt)) s
        (.saveGcodeState save :: ops ++ [.restoreGcodeState restore])) := by
  have hkept : (final (step (exactStrconv parse parseInt)) s
      (.saveGcodeState save :: ops)).savedStates save.stateName = some s.toSavedState := by
    rw [final_cons]
    exact final_of_invariant
      (I := fun t : GCodeMoveModule K σ => t.savedStates save.stateName = some s.toSavedState)
      (fun t op ht hop => (savedStates_step _ hop).trans ht) (update_self _ _ _)
      (along_of_forall hops)
  rw [final_append]
  exact restores_of_saved (hname ▸ hkept)

theorem restore_exact_half_flow :
    Restores (exactStrconv parseFifty fun _ => 0) halfFlow (loadConfigGCodeMove ())
      (final (step (exactStrconv parseFifty fun _ => 0)) (loadConfigGCodeMove ())
        [.saveGcodeState halfFlow, .m221 halfFlow, .g91])
      (final (step (exactStrconv parseFifty fun _ => 0)) (loadConfigGCodeMove ())
        [.saveGcodeState halfFlow, .m221 halfFlow, .g91, .restoreGcodeState halfFlow]) :=
  restore_exact parseFifty (fun _ => 0) (loadConfigGCodeMove ()) halfFlow halfFlow rfl
    [.m221 halfFlow, .g91] (by simp [Op.SavesUnder])

end GCodeMoveModule

end Gcode
