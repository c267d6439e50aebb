/-
The commands that change the motion limits
(`internal/pkg/motion/toolhead_commands.go`, `internal/pkg/gcode/command_params.go`,
`internal/pkg/motion/toolhead_control_runtime.go`).

`SET_VELOCITY_LIMIT` and `M204` read their parameters through a reader that puts
a value outside its bounds *on* the bound, so a parameter that must be above zero
is read as zero when it is not.  Here the limits are floating point values with
infinities and not-a-number, since any text may stand in a parameter.

* `usable_iff` — which settings give limits the planner can work with;
* `step_usable_iff` — which commands keep them so.
-/
import KlipperGo.FloatArith
import KlipperGo.ToolheadConfig

open ExactArith FloatArith Runs Option

namespace Motion

open Fp

/-- `gcode.CommandParams`: the text of a missing parameter is empty. -/
structure CommandParams where
  commandline : String
  params : String → String

/-- The limits the commands read and write, as floating point values. -/
abbrev VelocityLimits (K : Type*) := ToolheadVelocityLimitResult (Fp K)

inductive VelocityCommand where
  | setVelocityLimit (command : CommandParams)
  | m204 (command : CommandParams)

namespace VelocityCommands

section Defs

variable {K : Type*} [Field K] [LinearOrder K]

/-- The bounds of `Get_float`: a value past a bound is replaced by the bound. -/
def bounded (val : Fp K) (minval maxval above below : Option (Fp K)) : Fp K :=
  if let some m := minval.filter (fun m => val < m) then m
  else if let some m := maxval.filter (fun m => m < val) then m
  else if let some m := above.filter (fun m => val ≤ m) then m
  else if let some m := below.filter (fun m => m ≤ val) then m
  else val

/-- `CommandParams.Get_float` with a float default.  `parseFloat` is the value the library's
parser returns, which the code takes whether or not there was an error. -/
def getFloat (parseFloat : String → Fp K) (self : CommandParams) (name : String)
    (default : Fp K) (minval maxval above below : Option (Fp K)) : Fp K :=
  if self.params name = "" then default
  else bounded (parseFloat (self.params name)) minval maxval above below

def toOptional (value : Fp K) : Option (Fp K) := if value.isNaN then none else some value

variable [HasSqrt K]

/-- `CalcToolheadJunctionDeviation` on floating point values. -/
def calcToolheadJunctionDeviation (squareCornerVelocity maxAccel requestedAccelToDecel : Fp K) :
    Fp K × Fp K :=
  let scv2 := squareCornerVelocity * squareCornerVelocity
  let junctionDeviation := scv2 * (Fp.num (sqrt 2) - 1) / maxAccel
  let maxAccelToDecel := requestedAccelToDecel.min maxAccel
  (junctionDeviation, maxAccelToDecel)

/-- `ApplyToolheadVelocityLimitUpdate` on floating point values. -/
def applyToolheadVelocityLimitUpdate (settings : ToolheadVelocitySettings (Fp K))
    (update : ToolheadVelocityLimitUpdate (Fp K)) : VelocityLimits K :=
  let settings : ToolheadVelocitySettings (Fp K) :=
    { maxVelocity := update.maxVelocity.getD settings.maxVelocity
      maxAccel := update.maxAccel.getD settings.maxAccel
      requestedAccelToDecel := update.requestedAccelToDecel.getD settings.requestedAccelToDecel
      squareCornerVelocity := update.squareCornerVelocity.getD settings.squareCornerVelocity }
  let limits := calcToolheadJunctionDeviation settings.squareCornerVelocity settings.maxAccel
    settings.requestedAccelToDecel
  { settings := settings, junctionDeviation := limits.1, maxAccelToDecel := limits.2 }

/-- `BuildToolheadInitialVelocityResult` on floating point values. -/
def buildToolheadInitialVelocityResult (settings : ToolheadVelocitySettings (Fp K)) :
    VelocityLimits K :=
  applyToolheadVelocityLimitUpdate settings
    { maxVelocity := none, maxAccel := none, requestedAccelToDecel := none
      squareCornerVelocity := none }

variable (parseFloat : String → Fp K) (context : VelocityLimits K)

/-- `HandleToolheadSetVelocityLimitCommand`: the limits it applies, and whether the command only
asked for them. -/
def handleToolheadSetVelocityLimitCommand (command : CommandParams) : VelocityLimits K × Bool :=
  let maxVelocity := getFloat parseFloat command "VELOCITY" .nan none none (some 0) none
  let maxAccel := getFloat parseFloat command "ACCEL" .nan none none (some 0) none
  let squareCornerVelocity :=
    getFloat parseFloat command "SQUARE_CORNER_VELOCITY" .nan (some 0) none none none
  let requestedAccelToDecel :=
    getFloat parseFloat command "ACCEL_TO_DECEL" .nan none none (some 0) none
  let minimumCruiseRatio :=
    getFloat parseFloat command "MINIMUM_CRUISE_RATIO" .nan (some 0) none none (some 1)
  let effectiveMaxAccel := if maxAccel.isNaN then context.settings.maxAccel else maxAccel
  let requestedAccelToDecelOptional :=
    if minimumCruiseRatio.isNaN then toOptional requestedAccelToDecel
    else some (effectiveMaxAccel * (1 - minimumCruiseRatio))
  let result := applyToolheadVelocityLimitUpdate context.settings
    { maxVelocity := toOptional maxVelocity
      maxAccel := toOptional maxAccel
      requestedAccelToDecel := requestedAccelToDecelOptional
      squareCornerVelocity := toOptional squareCornerVelocity }
  let queryOnly := maxVelocity.isNaN && maxAccel.isNaN && squareCornerVelocity.isNaN &&
    requestedAccelToDecel.isNaN && minimumCruiseRatio.isNaN
  (result, queryOnly)

def applyToolheadAcceleration (accel : Fp K) : VelocityLimits K :=
  applyToolheadVelocityLimitUpdate context.settings
    { maxVelocity := none, maxAccel := some accel, requestedAccelToDecel := none
      squareCornerVelocity := none }

/-- `HandleToolheadM204Command`: the limits after the command, and its response. -/
def handleToolheadM204Command (command : CommandParams) : VelocityLimits K × Option String :=
  let accel := getFloat parseFloat command "S" .nan none none (some 0) none
  if accel.isNaN then
    let p := getFloat parseFloat command "P" .nan none none (some 0) none
    let t := getFloat parseFloat command "T" .nan none none (some 0) none
    if !p.isNaN && !t.isNaN then (applyToolheadAcceleration context (p.min t), none)
    else if !p.isNaN then (applyToolheadAcceleration context p, none)
    else if !t.isNaN then (applyToolheadAcceleration context t, none)
    else (context, some ("Invalid M204 command: " ++ command.commandline))
  else (applyToolheadAcceleration context accel, none)

def step : VelocityCommand → VelocityLimits K
  | .setVelocityLimit command =>
    (handleToolheadSetVelocityLimitCommand parseFloat context command).1
  | .m204 command => (handleToolheadM204Command parseFloat context command).1

end Defs

/-! ### Usable limits -/

section Usable

variable {K : Type*} [Field K] [LinearOrder K]

/-- Limits the planner can work with. -/
structure Usable (limits : VelocityLimits K) : Prop where
  maxVelocity_pos : 0 < limits.settings.maxVelocity
  maxAccel_pos : 0 < limits.settings.maxAccel
  maxAccelToDecel_pos : 0 < limits.maxAccelToDecel
  maxAccelToDecel_le : limits.maxAccelToDecel ≤ limits.settings.maxAccel
  junctionDeviation_finite : limits.junctionDeviation.IsFinite
  junctionDeviation_nonneg : 0 ≤ limits.junctionDeviation

variable [HasSqrt K]

/-- The corner velocity is a number, and neither its square nor the junction deviation computed
from it passes the largest float. -/
def CornerFits (squareCornerVelocity maxAccel : Fp K) : Prop :=
  ∃ v, squareCornerVelocity = .num v ∧ v * v ≤ maxFloat ∧
    ∀ a, maxAccel = .num a → v * v * (sqrt 2 - 1) / a ≤ maxFloat

end Usable

variable {K : Type*} [LinearOrder K]

/-! ### What the reader returns -/

section Reader

variable (parseFloat : String → Fp K) (command : CommandParams) (name : String) (val : Fp K)
  (value : String → Option (Fp K))

/-- The value a parameter is given; a text that reads as not-a-number counts as missing. -/
def given : Option (Fp K) :=
  if command.params name = "" then none else toOptional (parseFloat (command.params name))

theorem isNaN_of_filter {o : Option (Fp K)} {test : Fp K → Bool} {m val : Fp K}
    (ho : .nan ∉ o) (h : o.filter test = some m) (hval : test m = true → val ≠ .nan) :
    m.isNaN = val.isNaN := by
  obtain ⟨hm, htest⟩ := filter_eq_some_iff.mp h
  have hmnan : m ≠ .nan := by
    rintro rfl
    exact ho hm
  simp [Fp.isNaN, hmnan, hval htest]

variable {minval maxval above below : Option (Fp K)}

/-- Comparisons with not-a-number are false, so the bounds let it through and return it for no
other value. -/
theorem isNaN_bounded (hmin : .nan ∉ minval) (hmax : .nan ∉ maxval)
    (habove : .nan ∉ above) (hbelow : .nan ∉ below) :
    (bounded val minval maxval above below).isNaN = val.isNaN := by
  unfold bounded
  split
  · next m h =>
    exact isNaN_of_filter hmin h fun ht hnan =>
      not_nan_lt m (hnan ▸ decide_eq_true_iff.mp ht)
  split
  · next m h =>
    exact isNaN_of_filter hmax h fun ht hnan =>
      not_lt_nan m (hnan ▸ decide_eq_true_iff.mp ht)
  split
  · next m h =>
    exact isNaN_of_filter habove h fun ht hnan =>
      not_nan_le m (hnan ▸ decide_eq_true_iff.mp ht)
  split
  · next m h =>
    exact isNaN_of_filter hbelow h fun ht hnan =>
      not_le_nan m (hnan ▸ decide_eq_true_iff.mp ht)
  · rfl

theorem toOptional_getFloat (hmin : .nan ∉ minval) (hmax : .nan ∉ maxval)
    (habove : .nan ∉ above) (hbelow : .nan ∉ below) :
    toOptional (getFloat parseFloat command name .nan minval maxval above below) =
      (given parseFloat command name).map fun v => bounded v minval maxval above below := by
  unfold getFloat given
  by_cases hmissing : command.params name = ""
  · rw [if_pos hmissing, if_pos hmissing]
    rfl
  · rw [if_neg hmissing, if_neg hmissing]
    unfold toOptional
    rw [isNaN_bounded _ hmin hmax habove hbelow]
    split <;> rfl

theorem ite_isNaN (v d : Fp K) : (if v.isNaN then d else v) = (toOptional v).getD d := by
  unfold toOptional
  split <;> rfl

theorem given_ne_nan {command : CommandParams} {name : String} {v : Fp K}
    (h : v ∈ given parseFloat command name) : v ≠ .nan := by
  unfold given toOptional Fp.isNaN at h
  split at h
  · cases h
  · split at h
    · cases h
    · next hnan =>
      cases h
      simpa using hnan

variable [Field K]

theorem ite_isNaN_ratio (r a : Fp K) (o : Option (Fp K)) :
    (if r.isNaN then o else some (a * (1 - r))) =
      (toOptional r).elim o fun r => some (a * (1 - r)) := by
  unfold toOptional
  split <;> rfl

omit [LinearOrder K] in
theorem nan_notMem_zero : Fp.nan ∉ some (0 : Fp K) := nofun

omit [LinearOrder K] in
theorem nan_notMem_one : Fp.nan ∉ some (1 : Fp K) := nofun

theorem bounded_above_zero : bounded val none none (some 0) none = if val ≤ 0 then 0 else val := by
  by_cases h : val ≤ 0 <;> simp [bounded, Option.filter, h]

theorem zero_lt_bounded_above {val : Fp K} : 0 < bounded val none none (some 0) none ↔ 0 < val := by
  rw [bounded_above_zero]
  cases val with
  | nan => simp [not_nan_le]
  | inf s => cases s <;> simp [zero_def]
  | num x =>
    simp only [zero_def, num_le_num]
    split
    · next h => simpa using h
    · rfl

theorem bounded_above_of_pos {val : Fp K} (h : 0 < val) :
    bounded val none none (some 0) none = val := by
  rw [bounded_above_zero]
  rcases zero_lt_iff.mp h with rfl | ⟨x, hx, rfl⟩
  · rfl
  · rw [if_neg]
    simpa [zero_def] using hx

theorem bounded_min_zero : bounded val (some 0) none none none = if val < 0 then 0 else val := by
  by_cases h : val < 0 <;> simp [bounded, Option.filter, h]

theorem bounded_zero_one : bounded val (some 0) none none (some 1) =
      if val < 0 then 0 else if 1 ≤ val then 1 else val := by
  by_cases hneg : val < 0 <;> by_cases hone : 1 ≤ val <;>
    simp [bounded, Option.filter, hneg, hone]

theorem zero_lt_getD_bounded {d : Fp K} (hd : 0 < d) (o : Option (Fp K)) :
    0 < (o.map (bounded · none none (some 0) none)).getD d ↔ ∀ v ∈ o, 0 < v := by
  cases o with
  | none => simpa using hd
  | some v => simpa using zero_lt_bounded_above

theorem getD_bounded_of_pos (d : Fp K) {o : Option (Fp K)} (h : ∀ v ∈ o, 0 < v) :
    (o.map (bounded · none none (some 0) none)).getD d = o.getD d := by
  cases o with
  | none => rfl
  | some v => exact bounded_above_of_pos (h v rfl)

/-- The acceleration an `M204` command asks for: `S`, or the smaller of `P` and `T`. -/
def m204Accel : Option (Fp K) :=
  (value "S").or
    (match value "P", value "T" with
    | some p, some t => some (p.min t)
    | some p, none => some p
    | none, t => t)

/-- The reader changes the acceleration asked for only when it is not positive. -/
theorem m204Accel_bounded (P : Fp K → Prop) :
    (∀ a ∈ m204Accel (fun name => (value name).map (bounded · none none (some 0) none)),
        0 < a ∧ P a) ↔
      ∀ a ∈ m204Accel value, 0 < a ∧ P a := by
  have hone (v : Fp K) : 0 < bounded v none none (some 0) none ∧
      P (bounded v none none (some 0) none) ↔ 0 < v ∧ P v := by
    rw [zero_lt_bounded_above]
    exact and_congr_right fun hv => by rw [bounded_above_of_pos hv]
  have htwo (p t : Fp K) :
      0 < (bounded p none none (some 0) none).min (bounded t none none (some 0) none) ∧
        P ((bounded p none none (some 0) none).min (bounded t none none (some 0) none)) ↔
      0 < p.min t ∧ P (p.min t) := by
    rw [zero_lt_min_iff, zero_lt_min_iff, zero_lt_bounded_above, zero_lt_bounded_above]
    exact and_congr_right fun h => by
      rw [bounded_above_of_pos h.1, bounded_above_of_pos h.2]
  dsimp only [m204Accel]
  cases value "S" <;> cases value "P" <;> cases value "T" <;> simp [hone, htwo]

variable [IsStrictOrderedRing K]

/-- The part of the acceleration a cruise ratio read by the command leaves. -/
theorem zero_lt_one_sub_ratio {val : Fp K} (h : val ≠ .nan) :
    0 < 1 - bounded val (some 0) none none (some 1) ↔ val < 1 := by
  have hsub (x : K) : 0 < (1 : Fp K) - .num x ↔ x < 1 := by
    show 0 < ofExact (1 - x) ↔ _
    rw [zero_lt_ofExact, sub_pos]
  rw [bounded_zero_one]
  cases val with
  | nan => exact absurd rfl h
  | inf s =>
    cases s
    · exact iff_of_false (fun h => absurd ((hsub 1).mp h) (lt_irrefl 1)) Bool.false_ne_true
    · exact iff_of_true ((hsub 0).mpr zero_lt_one) rfl
  | num x =>
    simp only [zero_def, one_def, num_lt_num, num_le_num]
    split
    · next hneg => exact iff_of_true ((hsub 0).mpr zero_lt_one) (hneg.trans zero_lt_one)
    split
    · next hone =>
      exact iff_of_false (fun h => absurd ((hsub 1).mp h) (lt_irrefl 1)) (not_lt.mpr hone)
    · exact hsub x

/-- With a positive acceleration in force, the deceleration limit asked for is positive exactly
under the two conditions on its parameters. -/
theorem zero_lt_requested_iff {accel old : Fp K} (ha : 0 < accel) (hold : 0 < old)
    (command : CommandParams) :
    0 < ((given parseFloat command "MINIMUM_CRUISE_RATIO").elim
          ((given parseFloat command "ACCEL_TO_DECEL").map (bounded · none none (some 0) none))
          fun r => some (accel * (1 - bounded r (some 0) none none (some 1)))).getD old ↔
      (given parseFloat command "MINIMUM_CRUISE_RATIO" = none →
        ∀ v ∈ given parseFloat command "ACCEL_TO_DECEL", 0 < v) ∧
      ∀ r ∈ given parseFloat command "MINIMUM_CRUISE_RATIO", r < 1 := by
  cases hr : given parseFloat command "MINIMUM_CRUISE_RATIO" with
  | none => simpa using zero_lt_getD_bounded hold _
  | some r =>
    have hnan : r ≠ .nan := given_ne_nan parseFloat (by rw [hr]; rfl)
    simpa [zero_lt_mul_iff ha] using zero_lt_one_sub_ratio hnan

end Reader

variable [Field K] [HasSqrt K]

section

variable (parseFloat : String → Fp K) (context : VelocityLimits K)

/-- The update `SET_VELOCITY_LIMIT` applies, from the values it is given. -/
theorem handleToolheadSetVelocityLimitCommand_eq (command : CommandParams) :
    (handleToolheadSetVelocityLimitCommand parseFloat context command).1 =
      applyToolheadVelocityLimitUpdate context.settings
        { maxVelocity := (given parseFloat command "VELOCITY").map
            (bounded · none none (some 0) none)
          maxAccel := (given parseFloat command "ACCEL").map (bounded · none none (some 0) none)
          requestedAccelToDecel := (given parseFloat command "MINIMUM_CRUISE_RATIO").elim
            ((given parseFloat command "ACCEL_TO_DECEL").map (bounded · none none (some 0) none))
            fun r => some (((given parseFloat command "ACCEL").map
              (bounded · none none (some 0) none)).getD context.settings.maxAccel *
                (1 - bounded r (some 0) none none (some 1)))
          squareCornerVelocity := (given parseFloat command "SQUARE_CORNER_VELOCITY").map
            (bounded · (some 0) none none none) } := by
  have habove (name : String) := toOptional_getFloat parseFloat command name
    (not_mem_none _) (not_mem_none _) nan_notMem_zero (not_mem_none _)
  have hmin (name : String) := toOptional_getFloat parseFloat command name
    nan_notMem_zero (not_mem_none _) (not_mem_none _) (not_mem_none _)
  have hratio (name : String) := toOptional_getFloat parseFloat command name
    nan_notMem_zero (not_mem_none _) (not_mem_none _) nan_notMem_one
  unfold handleToolheadSetVelocityLimitCommand
  simp only [ite_isNaN, ite_isNaN_ratio, habove, hmin, hratio]
  cases given parseFloat command "MINIMUM_CRUISE_RATIO" <;> rfl

/-- `M204` applies the acceleration it reads, and leaves the limits alone when there is none. -/
theorem handleToolheadM204Command_eq (command : CommandParams) :
    (handleToolheadM204Command parseFloat context command).1 =
      (m204Accel fun name => (given parseFloat command name).map
        (bounded · none none (some 0) none)).elim context (applyToolheadAcceleration context) := by
  have habove (name : String) := toOptional_getFloat parseFloat command name
    (not_mem_none _) (not_mem_none _) nan_notMem_zero (not_mem_none _)
  simp only [m204Accel, ← habove]
  unfold handleToolheadM204Command toOptional
  generalize getFloat parseFloat command "S" .nan none none (some 0) none = accel
  generalize getFloat parseFloat command "P" .nan none none (some 0) none = p
  generalize getFloat parseFloat command "T" .nan none none (some 0) none = t
  dsimp only
  cases accel.isNaN <;> cases p.isNaN <;> cases t.isNaN <;> rfl

end

variable [IsStrictOrderedRing K] [LawfulSqrt K]

/-! ### When limits are usable -/

theorem sqrt_two_sub_one_mem : (0 : K) < sqrt 2 - 1 ∧ sqrt 2 - 1 ≤ (1 : K) := by
  have hsq : sqrt (2 : K) ^ 2 = 2 := sq_sqrt zero_le_two
  have h0 : (0 : K) ≤ sqrt 2 := sqrt_nonneg 2
  constructor <;> nlinarith

/-- The factor of the corner velocity's square that the junction deviation is computed from. -/
theorem corner_mul {v : K} (hv : v * v ≤ maxFloat) :
    Fp.num v * Fp.num v * (Fp.num (sqrt 2) - 1) = .num (v * v * (sqrt 2 - 1)) := by
  obtain ⟨hc, hc1⟩ := sqrt_two_sub_one_mem (K := K)
  have hfactor : Fp.num (sqrt (2 : K)) - 1 = .num (sqrt 2 - 1) :=
    ofExact_of_le (by rw [abs_of_pos hc]; exact hc1.trans one_le_maxFloat)
  have hsq : Fp.num v * Fp.num v = .num (v * v) :=
    ofExact_of_le (by rwa [abs_of_nonneg (mul_self_nonneg v)])
  rw [hfactor, hsq]
  refine ofExact_of_le ?_
  rw [abs_of_nonneg (mul_nonneg (mul_self_nonneg v) hc.le)]
  exact (mul_le_of_le_one_right (mul_self_nonneg v) hc1).trans hv

/-- On numbers in range the junction deviation is the one the planner is proved right for. -/
theorem junction_num {v a : K} (hv : v * v ≤ maxFloat) (ha : 0 < a) (req : Fp K) (d : K) :
    (calcToolheadJunctionDeviation (.num v) (.num a) req).1 =
      .ofExact (Motion.calcToolheadJunctionDeviation v a d).1 := by
  show Fp.num v * Fp.num v * (Fp.num (sqrt 2) - 1) / .num a = _
  rw [corner_mul hv]
  exact if_neg ha.ne'

theorem junction_finite_iff {scv accel : Fp K} (ha : 0 < accel) (req : Fp K) :
    (calcToolheadJunctionDeviation scv accel req).1.IsFinite ∧
      0 ≤ (calcToolheadJunctionDeviation scv accel req).1 ↔ CornerFits scv accel := by
  by_cases hscv : (scv * scv).IsFinite
  · -- the corner velocity is a number whose square is in range
    obtain ⟨v, rfl⟩ : scv.IsFinite := by
      by_contra h
      exact not_isFinite_mul h scv hscv
    have hv : v * v ≤ maxFloat := by
      rw [← abs_of_nonneg (mul_self_nonneg v)]
      exact isFinite_ofExact.mp hscv
    rcases zero_lt_iff.mp ha with rfl | ⟨a, hpa, rfl⟩
    · have hzero : (calcToolheadJunctionDeviation (.num v) (.inf false) req).1 = .num 0 := by
        show Fp.num v * Fp.num v * (Fp.num (sqrt 2) - 1) / .inf false = _
        rw [corner_mul hv]
        rfl
      rw [hzero]
      exact iff_of_true ⟨⟨0, rfl⟩, num_le_num.mpr le_rfl⟩ ⟨v, rfl, hv, nofun⟩
    · have hquot : 0 ≤ (Motion.calcToolheadJunctionDeviation v a 0).1 :=
        calcToolheadJunctionDeviation_nonneg hpa 0
      rw [junction_num hv hpa req 0]
      constructor
      · rintro ⟨hfin, -⟩
        refine ⟨v, rfl, hv, fun b hb => ?_⟩
        cases hb
        have hle := isFinite_ofExact.mp hfin
        rwa [abs_of_nonneg hquot] at hle
      · rintro ⟨w, hw, -, hfit⟩
        cases hw
        have hle := hfit a rfl
        rw [ofExact_of_le (by rwa [abs_of_nonneg hquot])]
        exact ⟨⟨_, rfl⟩, num_le_num.mpr hquot⟩
  · refine iff_of_false (fun h => ?_) ?_
    · exact not_isFinite_div (not_isFinite_mul hscv _) accel h.1
    · rintro ⟨v, rfl, hv, -⟩
      exact hscv (isFinite_ofExact.mpr (by rwa [abs_of_nonneg (mul_self_nonneg v)]))

/-- What makes the limits computed from settings usable. -/
theorem usable_iff (settings : ToolheadVelocitySettings (Fp K))
    (update : ToolheadVelocityLimitUpdate (Fp K)) :
    Usable (applyToolheadVelocityLimitUpdate settings update) ↔
      0 < update.maxVelocity.getD settings.maxVelocity ∧
      0 < update.maxAccel.getD settings.maxAccel ∧
      0 < update.requestedAccelToDecel.getD settings.requestedAccelToDecel ∧
      CornerFits (update.squareCornerVelocity.getD settings.squareCornerVelocity)
        (update.maxAccel.getD settings.maxAccel) := by
  constructor
  · rintro ⟨hv, ha, hd, -, hfin, hnonneg⟩
    exact ⟨hv, ha, (zero_lt_min_iff.mp hd).1,
      (junction_finite_iff ha settings.requestedAccelToDecel).mp ⟨hfin, hnonneg⟩⟩
  · rintro ⟨hv, ha, hd, hfit⟩
    have hmin := zero_lt_min_iff.mpr ⟨hd, ha⟩
    obtain ⟨hfin, hnonneg⟩ :=
      (junction_finite_iff ha settings.requestedAccelToDecel).mpr hfit
    exact ⟨hv, ha, hmin, min_le_right hmin, hfin, hnonneg⟩

/-! ### Commands that keep the limits usable -/

section Steps

variable (parseFloat : String → Fp K)

/-- The given values `SET_VELOCITY_LIMIT` reads unchanged and computes usable limits from.  The
corner velocity is read as zero when it is negative; a cruise ratio takes the place of the
deceleration limit. -/
structure SetVelocityLimitAccepted (context : VelocityLimits K) (command : CommandParams) :
    Prop where
  velocity : ∀ v ∈ given parseFloat command "VELOCITY", 0 < v
  accel : ∀ v ∈ given parseFloat command "ACCEL", 0 < v
  accelToDecel : given parseFloat command "MINIMUM_CRUISE_RATIO" = none →
    ∀ v ∈ given parseFloat command "ACCEL_TO_DECEL", 0 < v
  cruiseRatio : ∀ r ∈ given parseFloat command "MINIMUM_CRUISE_RATIO", r < 1
  corner : CornerFits
    (((given parseFloat command "SQUARE_CORNER_VELOCITY").map
      fun v => if v < 0 then 0 else v).getD context.settings.squareCornerVelocity)
    ((given parseFloat command "ACCEL").getD context.settings.maxAccel)

variable (context : VelocityLimits K)

/-- The commands that keep usable limits usable. -/
def Accepted : VelocityCommand → Prop
  | .setVelocityLimit command => SetVelocityLimitAccepted parseFloat context command
  | .m204 command => ∀ a ∈ m204Accel (given parseFloat command),
      0 < a ∧ CornerFits context.settings.squareCornerVelocity a

/-- The settings that every further command starts from. -/
structure Inv (context : VelocityLimits K) : Prop where
  usable : Usable context
  requestedAccelToDecel_pos : 0 < context.settings.requestedAccelToDecel

theorem inv_apply {settings : ToolheadVelocitySettings (Fp K)}
    {update : ToolheadVelocityLimitUpdate (Fp K)}
    (h : Usable (applyToolheadVelocityLimitUpdate settings update)) :
    Inv (applyToolheadVelocityLimitUpdate settings update) :=
  ⟨h, ((usable_iff settings update).mp h).2.2.1⟩

variable {context : VelocityLimits K}

theorem setVelocityLimit_usable_iff (h : Inv context) (command : CommandParams) :
    Usable (handleToolheadSetVelocityLimitCommand parseFloat context command).1 ↔
      SetVelocityLimitAccepted parseFloat context command := by
  rw [handleToolheadSetVelocityLimitCommand_eq, usable_iff]
  have haccel := zero_lt_getD_bounded h.usable.maxAccel_pos (given parseFloat command "ACCEL")
  constructor
  · rintro ⟨hv, ha, hd, hfit⟩
    obtain ⟨hdecel, hratio⟩ :=
      (zero_lt_requested_iff parseFloat ha h.requestedAccelToDecel_pos command).mp hd
    refine ⟨(zero_lt_getD_bounded h.usable.maxVelocity_pos _).mp hv, haccel.mp ha, hdecel,
      hratio, ?_⟩
    rw [← getD_bounded_of_pos _ (haccel.mp ha)]
    simpa only [bounded_min_zero] using hfit
  · intro hok
    have ha := haccel.mpr hok.accel
    refine ⟨(zero_lt_getD_bounded h.usable.maxVelocity_pos _).mpr hok.velocity, ha,
      (zero_lt_requested_iff parseFloat ha h.requestedAccelToDecel_pos command).mpr
        ⟨hok.accelToDecel, hok.cruiseRatio⟩, ?_⟩
    have hfit := hok.corner
    rw [← getD_bounded_of_pos _ hok.accel] at hfit
    simpa only [bounded_min_zero] using hfit

theorem m204_usable_iff (h : Inv context) (command : CommandParams) :
    Usable (handleToolheadM204Command parseFloat context command).1 ↔
      ∀ a ∈ m204Accel (given parseFloat command),
        0 < a ∧ CornerFits context.settings.squareCornerVelocity a := by
  rw [handleToolheadM204Command_eq, ← m204Accel_bounded]
  cases m204Accel fun name => (given parseFloat command name).map
      (bounded · none none (some 0) none) with
  | none => simpa using h.usable
  | some a =>
    have hiff := usable_iff context.settings
      { maxVelocity := none, maxAccel := some a, requestedAccelToDecel := none
        squareCornerVelocity := none }
    simpa [applyToolheadAcceleration, h.usable.maxVelocity_pos, h.requestedAccelToDecel_pos]
      using hiff

theorem step_usable_iff (h : Inv context) (command : VelocityCommand) :
    Usable (step parseFloat context command) ↔ Accepted parseFloat context command := by
  cases command with
  | setVelocityLimit command => exact setVelocityLimit_usable_iff parseFloat h command
  | m204 command => exact m204_usable_iff parseFloat h command

theorem inv_step (h : Inv context) (command : VelocityCommand)
    (husable : Usable (step parseFloat context command)) :
    Inv (step parseFloat context command) := by
  cases command with
  | setVelocityLimit command => exact inv_apply husable
  | m204 command =>
    simp only [step, handleToolheadM204Command_eq] at husable ⊢
    cases hread : m204Accel fun name => (given parseFloat command name).map
        (bounded · none none (some 0) none) with
    | none => exact h
    | some a =>
      rw [hread] at husable
      exact inv_apply husable

/-- From usable limits, the limits stay usable along a run of commands exactly when every command
of it gives only values that the reader does not move to a bound. -/
theorem limits_usable_iff (settings : ToolheadVelocitySettings (Fp K))
    (hstart : Usable (buildToolheadInitialVelocityResult settings))
    (commands : List VelocityCommand) :
    Along (step parseFloat) (fun limits command => Usable (step parseFloat limits command))
        (buildToolheadInitialVelocityResult settings) commands ↔
      Along (step parseFloat) (Accepted parseFloat)
        (buildToolheadInitialVelocityResult settings) commands :=
  along_iff_of_invariant (I := Inv) (fun _ command h => inv_step parseFloat h command)
    (fun _ command h => step_usable_iff parseFloat h command) (inv_apply hstart)

end Steps

def slowSettings (K : Type*) [Field K] : ToolheadVelocitySettings (Fp K) where
  maxVelocity := .num 10
  maxAccel := .num 1000
  requestedAccelToDecel := .num 20
  squareCornerVelocity := .num 1

def oneParameter (commandline name text : String) : CommandParams where
  commandline := commandline
  params := fun n => if n = name then text else ""

theorem cornerFits_one {a : K} (ha : 1 ≤ a) : CornerFits (.num 1) (.num a) := by
  obtain ⟨hc, hc1⟩ := sqrt_two_sub_one_mem (K := K)
  refine ⟨1, rfl, by simpa using one_le_maxFloat, ?_⟩
  intro b hb
  cases hb
  refine le_trans ?_ one_le_maxFloat
  rw [div_le_one (zero_lt_one.trans_le ha)]
  linarith

theorem limits_usable_slower : Usable (buildToolheadInitialVelocityResult (slowSettings ℝ)) ∧
      Along (step fun _ => .num 10)
        (fun limits command => Usable (step (fun _ => .num 10) limits command))
        (buildToolheadInitialVelocityResult (slowSettings ℝ))
        [.m204 (oneParameter "M204 S10" "S" "10")] := by
  have hstart : Usable (buildToolheadInitialVelocityResult (slowSettings ℝ)) := by
    refine (usable_iff _ _).mpr ⟨?_, ?_, ?_, cornerFits_one (by norm_num)⟩ <;>
      exact num_lt_num.mpr (by norm_num)
  refine ⟨hstart, (limits_usable_iff _ _ hstart _).mpr ⟨?_, trivial⟩⟩
  intro a ha
  have ha : a = .num 10 := by
    exact (mem_some.mp ha).symm
  subst ha
  exact ⟨num_lt_num.mpr (by norm_num), cornerFits_one (by norm_num)⟩

/-- An acceleration of zero is put on the bound it must be above, and stays. -/
theorem limits_accel_zero : Usable (buildToolheadInitialVelocityResult (slowSettings ℚ)) ∧
      ¬ 0 < (step (fun _ => (0 : Fp ℚ)) (buildToolheadInitialVelocityResult (slowSettings ℚ))
        (.setVelocityLimit (oneParameter "SET_VELOCITY_LIMIT ACCEL=0" "ACCEL" "0"))
          ).settings.maxAccel := by
  refine ⟨⟨?_, ?_, ?_, ?_, ⟨0, ?_⟩, ?_⟩, ?_⟩ <;> decide +kernel

end VelocityCommands

end Motion
