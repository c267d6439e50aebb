/-
The checks of the extruder (`internal/pkg/motion/extrusion.go` and
`extruder_runtime.go`), and what a toolhead move does with their result
(`RunToolheadMove`, `Toolhead.CheckExtruderMove`).

`CheckExtrusionMove` returns an error for a move that the extruder cannot make.  The
interface of the toolhead move has no place for that error, and
`Toolhead.CheckExtruderMove` drops it:

* `checkExtrusionMove_ok_iff` — what moves the check accepts;
* `extrusion_refused_iff` — a refused move is without effect exactly when no move is
  refused.
-/
import KlipperGo.ToolheadInterleaving

open ExactArith Outcome

namespace Motion

structure ExtrusionLimits (K : Type*) where
  canExtrude : Bool
  nozzleDiameter : K
  filamentArea : K
  maxExtrudeRatio : K
  maxEVelocity : K
  maxEAccel : K
  maxEDistance : K

inductive ExtrusionError (K : Type*)
  | belowMinTemp
  | tooLong (distance maxDistance : K)
  | tooLarge (area maxArea : K)
  | noExtruder (err : MoveError K)

/-- `LegacyExtruderRuntime`, as far as moves are concerned.  `Can_extrude` may be nil. -/
structure LegacyExtruderRuntime (K : Type*) where
  nozzleDiameter : K
  filamentArea : K
  maxExtrudeRatio : K
  maxEVelocity : K
  maxEAccel : K
  maxEDist : K
  instantCornerV : K
  canExtrude : Option Bool

inductive Extruder (K : Type*)
  | dummy
  | legacy (runtime : LegacyExtruderRuntime K)

section Defs

variable {K : Type*} [Field K] [LinearOrder K]

/-- The text of the error; `format` writes a number with three digits. -/
def ExtrusionError.message (format : K → String) : ExtrusionError K → String
  | .belowMinTemp =>
    "Extrude below minimum temp\nSee the 'min_extrude_temp' config option for details"
  | .tooLong distance maxDistance =>
    "Extrude only move too long (" ++ format distance ++ "mm vs " ++ format maxDistance ++
      "mm)\nSee the 'max_extrude_only_distance' config option for details"
  | .tooLarge area maxArea =>
    "Move exceeds maximum extrusion (" ++ format area ++ "mm^2 vs " ++ format maxArea ++
      "mm^2)\nSee the 'max_extrude_cross_section' config option for details"
  | .noExtruder err =>
    err.msg ++ ": " ++ format (err.endPos 0) ++ " " ++ format (err.endPos 1) ++ " " ++
      format (err.endPos 2) ++ " [" ++ format (err.endPos 3) ++ "]"

def Move.extrudeOnly (self : Move K) : Prop :=
  self.axesD 0 = 0 ∧ self.axesD 1 = 0 ∨ self.axesR 3 < 0

instance (self : Move K) : Decidable self.extrudeOnly := inferInstanceAs (Decidable (_ ∨ _))

/-- `CheckExtrusionMove`: the move, with its speed limited, or the error. -/
def checkExtrusionMove (move : Move K) (limits : ExtrusionLimits K) :
    Except (ExtrusionError K) (Move K) :=
  let axisR := move.axesR 3
  if !limits.canExtrude then .error .belowMinTemp
  else if move.extrudeOnly then
    if limits.maxEDistance < |move.axesD 3| then
      .error (.tooLong (move.axesD 3) limits.maxEDistance)
    else
      let invExtrudeR := 1 / |axisR|
      .ok (move.limitSpeed (limits.maxEVelocity * invExtrudeR) (limits.maxEAccel * invExtrudeR))
  else if limits.maxExtrudeRatio < axisR then
    if move.axesD 3 ≤ limits.nozzleDiameter * limits.maxExtrudeRatio then .ok move
    else .error (.tooLarge (axisR * limits.filamentArea)
      (limits.maxExtrudeRatio * limits.filamentArea))
  else .ok move

def LegacyExtruderRuntime.limits (self : LegacyExtruderRuntime K) : ExtrusionLimits K where
  canExtrude := self.canExtrude.getD false
  nozzleDiameter := self.nozzleDiameter
  filamentArea := self.filamentArea
  maxExtrudeRatio := self.maxExtrudeRatio
  maxEVelocity := self.maxEVelocity
  maxEAccel := self.maxEAccel
  maxEDistance := self.maxEDist

/-- `Check_move` of the extruders. -/
def Extruder.checkMove : Extruder K → Move K → Except (ExtrusionError K) (Move K)
  -- `NoExtruderMoveError`
  | .dummy, move => .error (.noExtruder (move.moveError "Extrude when no extruder present"))
  | .legacy runtime, move => checkExtrusionMove move runtime.limits

/-- `Calc_junction` of the extruders. -/
def Extruder.junctionCalculator [IsStrictOrderedRing K] : Extruder K → MoveJunctionCalculator K
  | .dummy => dummyExtruder
  | .legacy runtime => legacyExtruder runtime.instantCornerV

/-- The surroundings of a toolhead with this extruder. -/
def Env.withExtruder [IsStrictOrderedRing K] (env : Env K) (extruder : Extruder K)
    (format : K → String) : Env K :=
  { env with
    checkExtruderMove := fun move =>
      match extruder.checkMove move with
      | .ok move => (move, none)
      | .error err => (move, some (err.message format))
    extruder := some extruder.junctionCalculator }

/-- The move that `RunToolheadMove` asks the extruder about, if it does. -/
def Toolhead.askedMove [HasSqrt K] (self : Toolhead K) (env : Env K) (newpos : Coord K)
    (speed : K) : Option (Move K) :=
  let move := newMove self.core.moveConfig self.core.commandedPos newpos speed
  if move.moveD = 0 then none
  else
    match if move.isKinematicMove then env.checkKinematicMove move else .ok move with
    | .error _ => none
    | .ok move => if move.axesD 3 ≠ 0 then some move else none

end Defs

/-! ### What the extruder accepts -/

/-- The extruder is hot, an extrude-only move is not too long, and any other move does
not extrude too much, or not for long. -/
structure ExtrusionLimits.Allows {K : Type*} [Field K] [LinearOrder K] (limits : ExtrusionLimits K)
    (move : Move K) : Prop where
  hot : limits.canExtrude = true
  distance : move.extrudeOnly → |move.axesD 3| ≤ limits.maxEDistance
  crossSection : ¬ move.extrudeOnly → move.axesR 3 ≤ limits.maxExtrudeRatio ∨
    move.axesD 3 ≤ limits.nozzleDiameter * limits.maxExtrudeRatio

def Extruder.Allows {K : Type*} [Field K] [LinearOrder K] : Extruder K → Move K → Prop
  | .dummy, _ => False
  | .legacy runtime, move => runtime.limits.Allows move

section

variable {K : Type*} [Field K] [LinearOrder K]

theorem checkExtrusionMove_ok_iff (move : Move K) (limits : ExtrusionLimits K) :
    (∃ out, checkExtrusionMove move limits = .ok out) ↔ limits.Allows move := by
  rw [checkExtrusionMove]
  by_cases hhot : limits.canExtrude = true
  · rw [if_neg (by simp [hhot])]
    by_cases honly : move.extrudeOnly
    · rw [if_pos honly]
      by_cases hlong : limits.maxEDistance < |move.axesD 3|
      · rw [if_pos hlong]
        refine ⟨by simp, fun h => absurd (h.distance honly) (not_le.mpr hlong)⟩
      · rw [if_neg hlong]
        exact ⟨fun _ => ⟨hhot, fun _ => not_lt.mp hlong, fun h => absurd honly h⟩,
          fun _ => ⟨_, rfl⟩⟩
    · rw [if_neg honly]
      by_cases hratio : limits.maxExtrudeRatio < move.axesR 3
      · rw [if_pos hratio]
        by_cases hshort : move.axesD 3 ≤ limits.nozzleDiameter * limits.maxExtrudeRatio
        · rw [if_pos hshort]
          exact ⟨fun _ => ⟨hhot, fun h => absurd h honly, fun _ => .inr hshort⟩,
            fun _ => ⟨_, rfl⟩⟩
        · rw [if_neg hshort]
          refine ⟨by simp, fun h => ?_⟩
          rcases h.crossSection honly with h | h
          · exact absurd h (not_le.mpr hratio)
          · exact absurd h hshort
      · rw [if_neg hratio]
        exact ⟨fun _ => ⟨hhot, fun h => absurd h honly, fun _ => .inl (not_lt.mp hratio)⟩,
          fun _ => ⟨_, rfl⟩⟩
  · rw [if_pos (by simpa using hhot)]
    exact ⟨by simp, fun h => absurd h.hot hhot⟩

theorem checkMove_ok_iff (extruder : Extruder K) (move : Move K) :
    (∃ out, extruder.checkMove move = .ok out) ↔ extruder.Allows move := by
  cases extruder with
  | dummy => simp [Extruder.checkMove, Extruder.Allows]
  | legacy runtime => exact checkExtrusionMove_ok_iff move runtime.limits

end

/-! ### A move that the extruder refuses -/

/-- The operation fails and leaves the commanded position and the queue as they were. -/
def FailsWithoutEffect {K : Type*} (self : Toolhead K) (out : ToolheadM K (Toolhead K)) : Prop :=
  ∃ panic self', out = .error (panic, self') ∧
    self'.core.commandedPos = self.core.commandedPos ∧ self'.lookahead = self.lookahead

section

variable {K : Type*} [Field K] [LinearOrder K] [FloorRing K] [IsStrictOrderedRing K]

/-- A batch is processed without a look at the queue. -/
theorem keptByBatches_lookahead (env : Env K) :
    KeptByBatches env fun th th' : Toolhead K => th'.lookahead = th.lookahead where
  refl _ := rfl
  trans h h' := h'.trans h
  noteMcu th activity := (noteMcu_retimed th activity).lookahead_eq
  calcPrintTime th := (calcPrintTime_retimed th env).lookahead_eq
  advanceMoveTime th nextPrintTime := by
    obtain ⟨ts, -, h⟩ := advanceMoveTime_retimed th env nextPrintTime
    exact h.lookahead_eq
  logBatch _ _ := rfl
  leaveSpecial _ := rfl

variable [HasSqrt K] {self : Toolhead K} {env : Env K} {newpos : Coord K} {speed : K}
  {e : ToolheadPanic K × Toolhead K}

/-- A flush that panics has not cut the queue yet. -/
theorem flushQueue_error_queue {th : Toolhead K} {lazy : Bool}
    (h : th.flushQueue env lazy = .error e) : e.2.lookahead.queue = th.lookahead.queue := by
  rw [Toolhead.flushQueue] at h
  split at h
  · cases h
  · rcases bind_eq_error h with hmoves | ⟨_, -, hok⟩
    · have hlook := (keptByBatches_lookahead env).processMoves
        { th with lookahead := th.lookahead.setFlushTime lookaheadFlushTime }
        (th.lookahead.flush lazy).2
      rw [hmoves] at hlook
      have hqueue := congrArg LookAheadQueue.queue hlook
      exact hqueue
    · cases hok

variable {move : Move K}

/-- Once a move is to be queued, the operation returns or leaves the queue longer. -/
theorem queueMove_error_length {th : Toolhead K} (h : th.queueMove env move = .error e) :
    e.2.lookahead.queue.length = th.lookahead.queue.length + 1 := by
  rw [Toolhead.queueMove] at h
  split at h
  · rw [flushQueue_error_queue h, LookAheadQueue.addMove]
    split <;> simp
  · cases h

omit [FloorRing K] [IsStrictOrderedRing K] in
/-- A move that the extruder is asked about is queued, whatever the answer. -/
theorem checkedMove_of_asked (h : self.askedMove env newpos speed = some move) :
    (newMove self.core.moveConfig self.core.commandedPos newpos speed).moveD ≠ 0 ∧
      self.checkedMove env newpos speed = .ok (env.checkExtruderMove move).1 := by
  rw [Toolhead.askedMove] at h
  rw [Toolhead.checkedMove]
  generalize newMove self.core.moveConfig self.core.commandedPos newpos speed = m at h ⊢
  by_cases hzero : m.moveD = 0
  · rw [if_pos hzero] at h
    cases h
  · rw [if_neg hzero] at h
    refine ⟨hzero, ?_⟩
    have hasked : ∀ checked : Move K,
        (if checked.axesD 3 ≠ 0 then some checked else none) = some move →
        (if checked.axesD 3 ≠ 0 then (env.checkExtruderMove checked).1 else checked) =
          (env.checkExtruderMove move).1 := by
      intro checked hchecked
      split at hchecked
      · rename_i hextrude
        cases hchecked
        rw [if_pos hextrude]
      · cases hchecked
    by_cases hkin : m.isKinematicMove = true
    · rw [if_pos hkin] at h ⊢
      rcases hcheck : env.checkKinematicMove m with err | checked <;> rw [hcheck] at h
      · cases h
      · exact congrArg Except.ok (hasked checked h)
    · rw [if_neg hkin] at h ⊢
      exact congrArg Except.ok (hasked m h)

theorem not_failsWithoutEffect (h : self.askedMove env newpos speed = some move) :
    ¬ FailsWithoutEffect self (self.move env newpos speed) := by
  rintro ⟨panic, self', hout, -, hlook⟩
  obtain ⟨hzero, hchecked⟩ := checkedMove_of_asked h
  rw [Toolhead.move, if_neg hzero, hchecked] at hout
  rcases bind_eq_error hout with hqueue | ⟨_, -, hok⟩
  · -- the look-ahead was flushed and that failed, but the move is in the queue
    have hlength := queueMove_error_length hqueue
    have hsame := congrArg LookAheadQueue.queue hlook
    rw [hsame] at hlength
    exact absurd hlength (Nat.ne_of_lt (Nat.lt_succ_self _))
  · cases hok

/-- Whenever the extruder refuses the move of the toolhead, the move fails and changes
neither the position nor the queue: that holds if and only if the extruder allows the
move that it is asked about, if it is asked at all. -/
theorem extrusion_refused_iff (self : Toolhead K) (env : Env K) (extruder : Extruder K)
    (format : K → String) (newpos : Coord K) (speed : K) :
    (∀ move err, self.askedMove env newpos speed = some move →
      extruder.checkMove move = .error err →
      FailsWithoutEffect self (self.move (env.withExtruder extruder format) newpos speed)) ↔
    ∀ move, self.askedMove env newpos speed = some move → extruder.Allows move := by
  constructor
  · intro hfails move hasked
    rw [← checkMove_ok_iff]
    rcases hcheck : extruder.checkMove move with err | out
    · exact absurd (hfails move err hasked hcheck) (not_failsWithoutEffect hasked)
    · exact ⟨out, rfl⟩
  · intro hallows move err hasked hcheck
    obtain ⟨out, hok⟩ := (checkMove_ok_iff extruder move).mpr (hallows move hasked)
    rw [hcheck] at hok
    cases hok

end

def unitExtruder (canExtrude : Bool) : Extruder ℚ :=
  .legacy { nozzleDiameter := 1, filamentArea := 1, maxExtrudeRatio := 1, maxEVelocity := 1
            maxEAccel := 1, maxEDist := 50, instantCornerV := 1, canExtrude := some canExtrude }

/-- A hot extruder is asked for one millimetre of filament. -/
theorem extrusion_refused_hot :
    (∃ move, (newToolhead unitSettings true : Toolhead ℚ).askedMove (quietEnv 0) (Pi.single 3 1)
      1 = some move) ∧
    ∀ move err, (newToolhead unitSettings true : Toolhead ℚ).askedMove (quietEnv 0) (Pi.single 3 1)
        1 = some move →
      (unitExtruder true).checkMove move = .error err →
      FailsWithoutEffect (newToolhead unitSettings true : Toolhead ℚ)
        ((newToolhead unitSettings true).move ((quietEnv 0).withExtruder (unitExtruder true)
          fun _ => "1.000") (Pi.single 3 1) 1) := by
  have hok : ((newToolhead unitSettings true : Toolhead ℚ).askedMove (quietEnv 0) (Pi.single 3 1)
      1).map (fun move => ((unitExtruder true).checkMove move).isOk) = some true := by
    decide +kernel
  obtain ⟨move, hmove, hisOk⟩ := Option.map_eq_some_iff.mp hok
  refine ⟨⟨move, hmove⟩, (extrusion_refused_iff _ _ _ _ _ _).mpr fun move' hmove' => ?_⟩
  rw [hmove] at hmove'
  cases hmove'
  rw [← checkMove_ok_iff]
  rcases hcheck : (unitExtruder true).checkMove move with err | out
  · rw [hcheck] at hisOk
    cases hisOk
  · exact ⟨out, rfl⟩

/-- A cold extruder refuses the move, but the move is queued. -/
theorem extrusion_cold :
    ∃ move, (newToolhead unitSettings true : Toolhead ℚ).askedMove (quietEnv 0) (Pi.single 3 1) 1 =
      some move ∧
    (unitExtruder false).checkMove move = .error .belowMinTemp ∧
    ¬ FailsWithoutEffect (newToolhead unitSettings true : Toolhead ℚ)
      ((newToolhead unitSettings true).move ((quietEnv 0).withExtruder (unitExtruder false)
        fun _ => "1.000") (Pi.single 3 1) 1) := by
  have hsome : ((newToolhead unitSettings true : Toolhead ℚ).askedMove (quietEnv 0)
      (Pi.single 3 1) 1).isSome = true := by
    decide +kernel
  obtain ⟨move, hmove⟩ := Option.isSome_iff_exists.mp hsome
  refine ⟨move, hmove, rfl, ?_⟩
  exact not_failsWithoutEffect hmove

end Motion
