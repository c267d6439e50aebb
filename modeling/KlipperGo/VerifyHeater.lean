/-
Detection of heaters that do not heat (`internal/pkg/heater/verify.go`).

Once per second the verifier compares a heater's temperature with its target.
While the heater approaches a new target the verifier only asks for some gain
within some time, and moves its goal when the gain is there; when the heater
does not approach, the distance to the target adds up until it is too much.

* `check_below` — what a check does to a heater below its target;
* `Sound.check` — what holds of a verifier after any history;
* `faults_of_steady`, `faults_of_approaching` — how long a fault can take
  from each state, without gain;
* `heating_fault_detected` — and so from every state.
-/
import KlipperGo.ExactArith
import KlipperGo.Runs

open Runs List

namespace Heaters

structure VerifyParams (K : Type*) where
  heaterName : String
  hysteresis : K
  maxError : K
  heatingGain : K
  checkGainTime : K

structure VerifyHeater (K : Type*) extends VerifyParams K where
  approachingTarget : Bool
  startingApproach : Bool
  lastTarget : K
  goalTemp : K
  errorValue : K
  goalSystime : K

structure Check (K : Type*) where
  eventtime : K
  temp : K
  target : K

variable {K : Type*}

def VerifyParams.faultMessage (self : VerifyParams K) : String :=
  "Heater " ++ self.heaterName ++ " not heating at expected rate"

theorem faultMessage_ne (params : VerifyParams K) : params.faultMessage ≠ "" := by
  unfold VerifyParams.faultMessage
  intro h
  simp at h

variable [Field K]

def never : K := 9999999999999999

def newVerifyHeater (params : VerifyParams K) : VerifyHeater K where
  toVerifyParams := params
  approachingTarget := false
  startingApproach := false
  lastTarget := 0
  goalTemp := 0
  errorValue := 0
  goalSystime := never

namespace VerifyHeater

variable [LinearOrder K] (self : VerifyHeater K) (c : Check K)

/-- `Check` of a heater that is off or in range. -/
def inRange : VerifyHeater K :=
  { self with
    approachingTarget := false
    startingApproach := false
    errorValue := if c.temp ≤ c.target + self.hysteresis then 0 else self.errorValue
    lastTarget := c.target }

/-- `Check` of a heater that approaches its target. -/
def approach : VerifyHeater K :=
  if self.goalTemp ≤ c.temp then
    { self with
      startingApproach := false
      errorValue := 0
      goalTemp := c.temp + self.heatingGain
      goalSystime := c.eventtime + self.checkGainTime }
  else if self.goalSystime ≤ c.eventtime then { self with approachingTarget := false }
  else if self.startingApproach then
    { self with goalTemp := min self.goalTemp (c.temp + self.heatingGain) }
  else self

/-- The error of a check below the target is added up. -/
def addError : VerifyHeater K :=
  { self with errorValue := self.errorValue + (c.target - self.hysteresis - c.temp) }

/-- `Check`: the next time to check, and the message of the fault, empty if there is none. -/
def check : VerifyHeater K × K × String :=
  if c.target - self.hysteresis ≤ c.temp ∨ c.target ≤ 0 then
    (self.inRange c, c.eventtime + 1, "")
  else
    let self := self.addError c
    if self.approachingTarget then
      ({ self.approach c with lastTarget := c.target }, c.eventtime + 1, "")
    else if c.target ≠ self.lastTarget then
      ({ self with
          approachingTarget := true
          startingApproach := true
          goalTemp := c.temp + self.heatingGain
          goalSystime := c.eventtime + self.checkGainTime
          lastTarget := c.target }, c.eventtime + 1, "")
    else if self.maxError ≤ self.errorValue then (self, never, self.faultMessage)
    else ({ self with lastTarget := c.target }, c.eventtime + 1, "")

def FaultsIn : VerifyHeater K → List (Check K) → Prop
  | _, [] => False
  | self, c :: checks => (self.check c).2.2 ≠ "" ∨ FaultsIn (self.check c).1 checks

/-! ### A heater below its target -/

/-- What a check of a heater below its target does when it reports no fault. -/
inductive BelowStep (v : VerifyHeater K) (c : Check K) : VerifyHeater K → Prop where
  | started (hoff : v.approachingTarget = false) :
    BelowStep v c { v.addError c with
      approachingTarget := true
      startingApproach := true
      goalTemp := c.temp + v.heatingGain
      goalSystime := c.eventtime + v.checkGainTime
      lastTarget := c.target }
  | steady (hoff : v.approachingTarget = false)
      (herr : (v.addError c).errorValue < v.maxError) :
    BelowStep v c { v.addError c with
      lastTarget := c.target }
  | gained (hon : v.approachingTarget = true) (hgoal : v.goalTemp ≤ c.temp) :
    BelowStep v c { v with
      startingApproach := false
      errorValue := 0
      goalTemp := c.temp + v.heatingGain
      goalSystime := c.eventtime + v.checkGainTime
      lastTarget := c.target }
  | stalled (hon : v.approachingTarget = true) (hgoal : c.temp < v.goalTemp) :
    BelowStep v c { v.addError c with
      approachingTarget := false
      lastTarget := c.target }
  | waiting (goal : K) (hon : v.approachingTarget = true) (hgoal : c.temp < v.goalTemp)
      (htime : c.eventtime < v.goalSystime)
      (hmin : min v.goalTemp (c.temp + v.heatingGain) ≤ goal) :
    BelowStep v c { v.addError c with
      goalTemp := goal
      lastTarget := c.target }

variable {v : VerifyHeater K} {c : Check K}

theorem approach_below (hon : v.approachingTarget = true) :
    BelowStep v c { (v.addError c).approach c with lastTarget := c.target } := by
  unfold approach
  split_ifs with hgoal htime hstart
  · exact .gained hon hgoal
  · exact .stalled hon (not_le.mp hgoal)
  · exact .waiting _ hon (not_le.mp hgoal) (not_le.mp htime) le_rfl
  · exact .waiting _ hon (not_le.mp hgoal) (not_le.mp htime) (min_le_left _ _)

theorem check_below (hbelow : c.temp < c.target - v.hysteresis) (htarget : 0 < c.target) :
    (v.check c).2.2 ≠ "" ∨ BelowStep v c (v.check c).1 := by
  unfold check
  rw [if_neg (not_or.mpr ⟨not_le.mpr hbelow, not_le.mpr htarget⟩)]
  dsimp only
  split_ifs with hon hnew herr
  · exact .inr (approach_below hon)
  · exact .inr (.started (Bool.eq_false_iff.mpr hon))
  · exact .inl (faultMessage_ne _)
  · exact .inr (.steady (Bool.eq_false_iff.mpr hon) (not_le.mp herr))

/-- A fault is found in the checks if it is found after each step the first one can make. -/
theorem faultsIn_cons {checks : List (Check K)} (hbelow : c.temp < c.target - v.hysteresis)
    (htarget : 0 < c.target) (h : ∀ v', BelowStep v c v' → v'.FaultsIn checks) :
    v.FaultsIn (c :: checks) := by
  rcases check_below hbelow htarget with hfault | hstep
  · exact .inl hfault
  · exact .inr (h _ hstep)

/-- A check that is not the first one for its target does not start an approach. -/
theorem check_steady (hoff : v.approachingTarget = false) (hlast : v.lastTarget = c.target)
    (hbelow : c.temp < c.target - v.hysteresis) (htarget : 0 < c.target) :
    (v.check c).2.2 ≠ "" ∨ (v.addError c).errorValue < v.maxError ∧
      (v.check c).1 = { v.addError c with lastTarget := c.target } := by
  unfold check
  rw [if_neg (not_or.mpr ⟨not_le.mpr hbelow, not_le.mpr htarget⟩)]
  rw [if_neg (by simp [addError, hoff]), if_neg (by simp [addError, hlast])]
  split_ifs with herr
  · exact .inl (faultMessage_ne _)
  · exact .inr ⟨not_le.mp herr, rfl⟩

/-! ### Any history -/

/-- What holds of a verifier after checks up to the time `t`. -/
structure Sound (params : VerifyParams K) (t : K) (v : VerifyHeater K) : Prop where
  params_eq : v.toVerifyParams = params
  errorValue_nonneg : 0 ≤ v.errorValue
  goalSystime_le : v.approachingTarget = true → v.goalSystime ≤ t + params.checkGainTime

variable [IsStrictOrderedRing K] {params : VerifyParams K} {t : K}

theorem Sound.approach (h : Sound params t v) (hon : v.approachingTarget = true)
    (hc : c.eventtime ≤ t) : Sound params t (v.approach c) := by
  obtain ⟨rfl, herr, hgoal⟩ := h
  unfold VerifyHeater.approach
  split_ifs
  · exact ⟨rfl, le_rfl, fun _ => add_le_add_left hc _⟩
  · exact ⟨rfl, herr, fun h => absurd h (by simp)⟩
  · exact ⟨rfl, herr, fun _ => hgoal hon⟩
  · exact ⟨rfl, herr, hgoal⟩

theorem Sound.check (h : Sound params t v) (hc : c.eventtime ≤ t) :
    Sound params t (v.check c).1 := by
  obtain ⟨rfl, herr, hgoal⟩ := h
  unfold VerifyHeater.check
  split_ifs with hrange
  · refine ⟨rfl, ?_, fun h => absurd h (by simp [inRange])⟩
    exact iteInduction (motive := fun x : K => 0 ≤ x) (fun _ => le_rfl) (fun _ => herr)
  · have hadd : 0 ≤ (v.addError c).errorValue := by
      have := not_le.mp (not_or.mp hrange).1
      unfold addError
      linarith
    dsimp only
    split_ifs with hon
    · obtain ⟨heq, hnonneg, hle⟩ := Sound.approach (v := v.addError c) ⟨rfl, hadd, hgoal⟩ hon hc
      exact ⟨heq, hnonneg, hle⟩
    · exact ⟨rfl, hadd, fun _ => add_le_add_left hc _⟩
    · exact ⟨rfl, hadd, fun h => absurd h hon⟩
    · exact ⟨rfl, hadd, fun h => absurd h hon⟩

/-! ### A heater that does not gain -/

/-- The checks of a period with one target, once per second from `t` on. -/
def everySecond (target : K) : K → List K → List (Check K)
  | _, [] => []
  | t, temp :: temps => ⟨t, temp, target⟩ :: everySecond target (t + 1) temps

/-- Every temperature is `d` below what the target asks for, and none has the gain over an
earlier one. -/
structure Cold (params : VerifyParams K) (target d : K) (temps : List K) : Prop where
  below : ∀ temp ∈ temps, temp + d ≤ target - params.hysteresis
  noGain : temps.Pairwise fun temp temp' => temp' < temp + params.heatingGain

section

variable {target d : K} {temp : K} {temps : List K} {n m : ℕ}

omit [IsStrictOrderedRing K] in
theorem Cold.tail (h : Cold params target d (temp :: temps)) : Cold params target d temps :=
  ⟨fun x hx => h.below x (by simp [hx]), (pairwise_cons.mp h.noGain).2⟩

theorem Cold.head_lt (h : Cold params target d (temp :: temps)) (hd : 0 < d) :
    temp < target - params.hysteresis := by
  have := h.below temp (by simp)
  linarith

/-- Errors add up, at least `d` at a time. -/
theorem faults_of_steady (htarget : 0 < target) (hd : 0 < d) (hparams : v.toVerifyParams = params)
    (hoff : v.approachingTarget = false) (hlast : v.lastTarget = target) (hn : 0 < n)
    (herr : params.maxError ≤ v.errorValue + n * d) (hcold : Cold params target d temps)
    (hlen : n ≤ temps.length) : v.FaultsIn (everySecond target t temps) := by
  induction n generalizing v t temps with
  | zero => exact absurd hn (lt_irrefl 0)
  | succ n ih =>
    subst hparams
    obtain ⟨temp, temps, rfl⟩ := exists_cons_of_length_pos (by omega : 0 < temps.length)
    have hbelow := hcold.below temp (by simp)
    have hadd : v.errorValue + d ≤ (v.addError ⟨t, temp, target⟩).errorValue := by
      unfold addError
      linarith
    rcases check_steady (c := ⟨t, temp, target⟩) hoff hlast (hcold.head_lt hd) htarget with
      hfault | ⟨hlt, heq⟩
    · exact .inl hfault
    · push_cast at herr
      right
      rw [heq]
      refine ih rfl hoff rfl ?_ ?_ hcold.tail (by simpa using hlen)
      · -- with nothing left to add, this check would have reported the fault
        rcases Nat.eq_zero_or_pos n with rfl | hpos
        · push_cast at herr
          linarith
        · exact hpos
      · linarith

/-- While the goal's time has not come, some of it is left at the next check. -/
theorem exists_pred_of_waiting {goalSystime : K} (hwait : t < goalSystime)
    (htime : goalSystime ≤ t + m) : ∃ m', m = m' + 1 ∧ goalSystime ≤ t + 1 + m' := by
  rcases m with _ | m
  · rw [Nat.cast_zero, add_zero] at htime
    exact absurd hwait (not_lt.mpr htime)
  · refine ⟨m, rfl, ?_⟩
    push_cast at htime
    linarith

variable [FloorRing K]

/-- The time given for a gain, in checks, after the one that starts it. -/
theorem gainTime_le (t : K) :
    t + params.checkGainTime ≤ t + 1 + (⌈params.checkGainTime⌉₊ - 1 : ℕ) := by
  have hceil := Nat.le_ceil params.checkGainTime
  have hsub : ⌈params.checkGainTime⌉₊ ≤ 1 + (⌈params.checkGainTime⌉₊ - 1) := by omega
  have hcast : (⌈params.checkGainTime⌉₊ : K) ≤ 1 + (⌈params.checkGainTime⌉₊ - 1 : ℕ) := by
    exact_mod_cast hsub
  linarith

/-- An approach whose goal stays out of reach ends at its time.  One that is left over from before
may reach its goal once, if there are checks to spare. -/
theorem faults_of_approaching {k : ℕ} (htarget : 0 < target) (hd : 0 < d) (hn : 0 < n)
    (herr : params.maxError ≤ n * d) (hparams : v.toVerifyParams = params)
    (hon : v.approachingTarget = true) (hnonneg : 0 ≤ v.errorValue)
    (hreach : (∀ temp ∈ temps, temp < v.goalTemp) ∨ ⌈params.checkGainTime⌉₊ - 1 + 1 ≤ k)
    (htime : v.goalSystime ≤ t + m) (hcold : Cold params target d temps)
    (hlen : m + 1 + k + n ≤ temps.length) : v.FaultsIn (everySecond target t temps) := by
  induction temps generalizing v t m k with
  | nil => simp at hlen
  | cons temp temps ih =>
    subst hparams
    have hbelow := hcold.head_lt hd
    have hadd := add_nonneg hnonneg (sub_nonneg.mpr hbelow.le)
    have hgain := (pairwise_cons.mp hcold.noGain).1
    rw [length_cons] at hlen
    refine faultsIn_cons hbelow htarget fun v' hstep => ?_
    rcases hstep with hoff | ⟨hoff, -⟩ | ⟨-, hgoal⟩ | ⟨-, -⟩ | ⟨goal, -, -, hwait, hmin⟩
    · exact absurd (hon.symm.trans hoff) (by simp)
    · exact absurd (hon.symm.trans hoff) (by simp)
    · rcases hreach with hreach | hspare
      · exact absurd hgoal (not_le.mpr (hreach temp (by simp)))
      · -- the new goal is a gain over this temperature, which no later one has
        exact ih (k := 0) rfl hon le_rfl (.inl hgain) (gainTime_le t) hcold.tail (by omega)
    · exact faults_of_steady htarget hd rfl rfl rfl hn (herr.trans (le_add_of_nonneg_left hadd))
        hcold.tail (by omega)
    · obtain ⟨m, rfl, hleft⟩ := exists_pred_of_waiting hwait htime
      refine ih rfl hon hadd (hreach.imp_left fun hreach x hx => ?_) hleft hcold.tail (by omega)
      -- the goal may have moved down, but not below a gain over this temperature
      exact lt_of_lt_of_le (lt_min (hreach x (by simp [hx])) (hgain x hx)) hmin

/-- From every state a history can leave behind. -/
theorem Sound.faults (h : Sound params t v) (htarget : 0 < target) (hd : 0 < d) (hn : 0 < n)
    (herr : params.maxError ≤ n * d) (hcold : Cold params target d temps)
    (hlen : 2 * ⌈params.checkGainTime⌉₊ + 2 + n ≤ temps.length) :
    v.FaultsIn (everySecond target t temps) := by
  by_cases hon : v.approachingTarget = true
  · refine faults_of_approaching htarget hd hn herr h.params_eq hon h.errorValue_nonneg
      (.inr le_rfl) (m := ⌈params.checkGainTime⌉₊) ?_ hcold (by omega)
    exact (h.goalSystime_le hon).trans (by gcongr; exact Nat.le_ceil _)
  · obtain ⟨temp, temps, rfl⟩ := exists_cons_of_length_pos (by omega : 0 < temps.length)
    obtain ⟨rfl, hnonneg, -⟩ := h
    have hbelow := hcold.head_lt hd
    have hadd := add_nonneg hnonneg (sub_nonneg.mpr hbelow.le)
    rw [length_cons] at hlen
    refine faultsIn_cons hbelow htarget fun v' hstep => ?_
    rcases hstep with - | - | ⟨hon', -⟩ | ⟨hon', -⟩ | ⟨-, hon', -⟩
    · exact faults_of_approaching (k := 0) htarget hd hn herr rfl rfl hadd
        (.inl (pairwise_cons.mp hcold.noGain).1) (gainTime_le t) hcold.tail (by omega)
    · exact faults_of_steady htarget hd rfl (Bool.eq_false_iff.mpr hon) rfl hn
        (herr.trans (le_add_of_nonneg_left hadd)) hcold.tail (by omega)
    · exact absurd hon' hon
    · exact absurd hon' hon
    · exact absurd hon' hon

end

/-- A heater that fails to heat is detected, whatever has been before. -/
theorem heating_fault_detected [FloorRing K] (params : VerifyParams K) (history : List (Check K))
    (t target d : K) (temps : List K) (hhistory : ∀ c ∈ history, c.eventtime ≤ t)
    (htarget : 0 < target) (hd : 0 < d)
    (hbelow : ∀ temp ∈ temps, temp ≤ target - params.hysteresis - d)
    (hnoGain : temps.Pairwise fun temp temp' => ¬ temp + params.heatingGain ≤ temp')
    (hlen : temps.length = 2 * ⌈params.checkGainTime⌉₊ + ⌈params.maxError / d⌉₊ + 3) :
    (final (fun v c => (v.check c).1) (newVerifyHeater params) history).FaultsIn
      (everySecond target t temps) := by
  have hsound : Sound params t
      (final (fun v c => (v.check c).1) (newVerifyHeater params) history) :=
    final_of_invariant (I := Sound params t) (G := fun _ c => c.eventtime ≤ t)
      (fun _ _ hv hc => hv.check hc) ⟨rfl, le_rfl, fun h => absurd h (by simp [newVerifyHeater])⟩
      (along_of_forall hhistory)
  have hcold : Cold params target d temps :=
    ⟨fun x hx => by linarith [hbelow x hx], hnoGain.imp fun h => not_le.mp h⟩
  refine hsound.faults (n := max 1 ⌈params.maxError / d⌉₊) htarget hd (by simp) ?_ hcold (by omega)
  have hceil := Nat.le_ceil (params.maxError / d)
  have hmax : (⌈params.maxError / d⌉₊ : K) ≤ (max 1 ⌈params.maxError / d⌉₊ : ℕ) := by
    exact_mod_cast le_max_right _ _
  exact (div_le_iff₀ hd).mp (hceil.trans hmax)

theorem heating_fault_detected_flat :
    (newVerifyHeater ⟨"extruder", 5, 10, 2, 1⟩ : VerifyHeater ℚ).FaultsIn
      (everySecond 200 0 (replicate 6 20)) :=
  heating_fault_detected ⟨"extruder", 5, 10, 2, 1⟩ [] 0 200 10 (replicate 6 20) (by simp)
    (by norm_num) (by norm_num) (by norm_num) (by norm_num) (by norm_num)

end VerifyHeater

end Heaters
