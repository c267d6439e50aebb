/-
Heaters and their control (`internal/pkg/heater/heaters_module.go`).

A heater asks its control, bang-bang or PID, for a power at every temperature
reading.  The power is sent to the pin only now and then: a change below a
dead band is held back as long as the pin is off or was set recently enough,
since a pin that is on and not set again within `MAX_HEAT_TIME` is an error on
the micro-controller.  Readings and changes of the target come in any order.

* `Control.temperatureUpdate_mem` — the controls ask for powers within the bounds;
* `Regulated.step` — what holds whatever the times are;
* `Refreshed.read` — a pin that is on is set again in time.
-/
import KlipperGo.ExactArith
import KlipperGo.Runs

open ExactArith Runs List

namespace Heaters

open Set

structure ControlBangBang (K : Type*) where
  heaterMaxPower : K
  maxDelta : K
  heating : Bool

structure ControlPID (K : Type*) where
  heaterMaxPower : K
  kp : K
  ki : K
  kd : K
  minDerivTime : K
  tempIntegMax : K
  prevTemp : K
  prevTempTime : K
  prevTempDeriv : K
  prevTempInteg : K

inductive Control (K : Type*) where
  | bangBang (control : ControlBangBang K)
  | pid (control : ControlPID K)

def Control.heaterMaxPower {K : Type*} : Control K → K
  | bangBang control => control.heaterMaxPower
  | pid control => control.heaterMaxPower

/-- `Heater`, with the calls of `SetPWM` it has made: a time and a value each.  The control was made
for the heater, and the delay of a sensor's reports is not negative. -/
structure Heater (K : Type*) [Field K] [LinearOrder K] where
  minTemp : K
  maxTemp : K
  pwmDelay : K
  minExtrudeTemp : K
  canExtrude : Bool
  maxPower : K
  invSmoothTime : K
  lastTemp : K
  smoothedTemp : K
  targetTemp : K
  lastTempTime : K
  nextPwmTime : K
  lastPwmValue : K
  control : Control K
  commands : List (K × K)
  pwmDelay_nonneg : 0 ≤ pwmDelay
  control_maxPower : control.heaterMaxPower = maxPower

variable {K : Type*} [Field K]

def maxHeatTime : K := 5

def ambientTemp : K := 25

def pidParamBase : K := 255

variable (maxPower smoothTime : K)

def newControlBangBang (maxDelta : K) : ControlBangBang K where
  heaterMaxPower := maxPower
  maxDelta := maxDelta
  heating := false

variable [LinearOrder K]

/-- `NewControlPID`, with the gains of the configuration. -/
def newControlPID (pidKp pidKi pidKd : K) : ControlPID K where
  heaterMaxPower := maxPower
  kp := pidKp / pidParamBase
  ki := pidKi / pidParamBase
  kd := pidKd / pidParamBase
  minDerivTime := smoothTime
  tempIntegMax := if pidKi / pidParamBase ≠ 0 then maxPower / (pidKi / pidParamBase) else 0
  prevTemp := ambientTemp
  prevTempTime := 0
  prevTempDeriv := 0
  prevTempInteg := 0

/-! ### The controls -/

/-- `Temperature_update` of the bang-bang control: the control after it, and the power it asks
for. -/
def ControlBangBang.temperatureUpdate (self : ControlBangBang K) (temp targetTemp : K) :
    ControlBangBang K × K :=
  let heating :=
    if self.heating = true ∧ targetTemp + self.maxDelta ≤ temp then false
    else if self.heating = false ∧ temp ≤ targetTemp - self.maxDelta then true
    else self.heating
  ({ self with heating }, if heating then self.heaterMaxPower else 0)

def ControlPID.temperatureUpdate (self : ControlPID K) (readTime temp targetTemp : K) :
    ControlPID K × K :=
  let timeDiff := readTime - self.prevTempTime
  let tempDiff := temp - self.prevTemp
  let tempDeriv :=
    if self.minDerivTime ≤ timeDiff then tempDiff / timeDiff
    else (self.prevTempDeriv * (self.minDerivTime - timeDiff) + tempDiff) / self.minDerivTime
  let tempErr := targetTemp - temp
  let tempInteg := max 0 (min self.tempIntegMax (self.prevTempInteg + tempErr * timeDiff))
  let co := self.kp * tempErr + self.ki * tempInteg - self.kd * tempDeriv
  let boundedCo := max 0 (min self.heaterMaxPower co)
  ({ self with
      prevTemp := temp
      prevTempTime := readTime
      prevTempDeriv := tempDeriv
      prevTempInteg := if co = boundedCo then tempInteg else self.prevTempInteg },
    boundedCo)

def Control.temperatureUpdate (readTime temp targetTemp : K) : Control K → Control K × K
  | bangBang control =>
    let (control, value) := control.temperatureUpdate temp targetTemp
    (.bangBang control, value)
  | pid control =>
    let (control, value) := control.temperatureUpdate readTime temp targetTemp
    (.pid control, value)

def Control.IntegBounded : Control K → Prop
  | bangBang _ => True
  | pid control => control.prevTempInteg ∈ uIcc 0 control.tempIntegMax

theorem Control.temperatureUpdate_maxPower (readTime temp targetTemp : K) (self : Control K) :
    (self.temperatureUpdate readTime temp targetTemp).1.heaterMaxPower = self.heaterMaxPower := by
  cases self <;> rfl

/-- Cut off at both ends, a number is between them, in whichever order they come. -/
theorem max_min_mem_uIcc (a x : K) : max 0 (min a x) ∈ uIcc 0 a := by
  rw [mem_uIcc]
  rcases le_total 0 a with ha | ha
  · exact .inl ⟨le_max_left _ _, max_le ha (min_le_left _ _)⟩
  · refine .inr ⟨ha.trans (le_max_left _ _), ?_⟩
    exact max_le le_rfl ((min_le_left _ _).trans ha)

theorem Control.temperatureUpdate_mem (readTime temp targetTemp : K) (self : Control K) :
    (self.temperatureUpdate readTime temp targetTemp).2 ∈ uIcc 0 self.heaterMaxPower := by
  cases self with
  | bangBang control =>
    exact iteInduction (motive := (· ∈ uIcc 0 control.heaterMaxPower))
      (fun _ => right_mem_uIcc) (fun _ => left_mem_uIcc)
  | pid control => exact max_min_mem_uIcc _ _

theorem Control.IntegBounded.temperatureUpdate {self : Control K} (h : self.IntegBounded)
    (readTime temp targetTemp : K) :
    (self.temperatureUpdate readTime temp targetTemp).1.IntegBounded := by
  cases self with
  | bangBang control => trivial
  | pid control =>
    -- the integral is only taken over while the output is not cut off
    exact iteInduction (motive := (· ∈ uIcc 0 control.tempIntegMax))
      (fun _ => max_min_mem_uIcc _ _) (fun _ => h)

/-! ### The heater -/

namespace Heater

variable (self : Heater K) (readTime temp : K)

def setPwm (value : K) : Heater K :=
  let value := if self.targetTemp ≤ 0 then 0 else value
  if (readTime < self.nextPwmTime ∨ self.lastPwmValue = 0) ∧
      |value - self.lastPwmValue| < 1 / 20 then self
  else
    let pwmTime := readTime + self.pwmDelay
    { self with
      nextPwmTime := pwmTime + 3 / 4 * maxHeatTime
      lastPwmValue := value
      commands := self.commands ++ [(pwmTime, value)] }

/-- The reading of the control in `Temperature_callback`. -/
def controlUpdate : Heater K :=
  let update := self.control.temperatureUpdate readTime temp self.targetTemp
  { self with
    control := update.1
    control_maxPower :=
      (Control.temperatureUpdate_maxPower _ _ _ _).trans self.control_maxPower }.setPwm
      readTime update.2

def temperatureCallback : Heater K :=
  let timeDiff := readTime - self.lastTempTime
  let self := { self with lastTemp := temp, lastTempTime := readTime }.controlUpdate readTime temp
  let tempDiff := temp - self.smoothedTemp
  let adjTime := min (timeDiff * self.invSmoothTime) 1
  let smoothedTemp := self.smoothedTemp + tempDiff * adjTime
  { self with smoothedTemp, canExtrude := decide (self.minExtrudeTemp ≤ smoothedTemp) }

/-- The panic of `Set_temp`: the requested temperature, and the range it is out of. -/
structure OutOfRange (K : Type*) where
  degrees : K
  minTemp : K
  maxTemp : K

def setTemp (degrees : K) : Except (OutOfRange K) (Heater K) :=
  if degrees ≠ 0 ∧ (degrees < self.minTemp ∨ self.maxTemp < degrees) then
    .error ⟨degrees, self.minTemp, self.maxTemp⟩
  else .ok { self with targetTemp := degrees }

def alterTarget (targetTemp : K) : Heater K :=
  { self with
    targetTemp := if targetTemp ≠ 0 then max self.minTemp (min self.maxTemp targetTemp)
      else targetTemp }

end Heater

/-- The `control` option of a heater, with the options that go with it. -/
inductive ControlConfig (K : Type*) where
  | watermark (maxDelta : K)
  | pid (pidKp pidKi pidKd : K)

/-- What `NewHeater` reads from the configuration, the sensor and the start arguments. -/
structure HeaterConfig (K : Type*) [Zero K] [LE K] where
  minTemp : K
  maxTemp : K
  reportTimeDelta : K
  reportTimeDelta_nonneg : 0 ≤ reportTimeDelta
  minExtrudeTemp : K
  debugoutput : Bool
  maxPower : K
  smoothTime : K
  control : ControlConfig K

def newControl : ControlConfig K → Control K
  | .watermark maxDelta => .bangBang (newControlBangBang maxPower maxDelta)
  | .pid pidKp pidKi pidKd => .pid (newControlPID maxPower smoothTime pidKp pidKi pidKd)

def newHeater (config : HeaterConfig K) : Heater K where
  minTemp := config.minTemp
  maxTemp := config.maxTemp
  pwmDelay := config.reportTimeDelta
  minExtrudeTemp := config.minExtrudeTemp
  canExtrude := decide (config.minExtrudeTemp ≤ 0) || config.debugoutput
  maxPower := config.maxPower
  invSmoothTime := 1 / config.smoothTime
  lastTemp := 0
  smoothedTemp := 0
  targetTemp := 0
  lastTempTime := 0
  nextPwmTime := 0
  lastPwmValue := 0
  control := newControl config.maxPower config.smoothTime config.control
  commands := []
  pwmDelay_nonneg := config.reportTimeDelta_nonneg
  control_maxPower := by cases config.control <;> rfl

/-- A temperature reading, or a call that changes the target. -/
inductive Event (K : Type*) where
  | reading (readTime temp : K)
  | setTemp (degrees : K)
  | alterTarget (targetTemp : K)

def Event.readTime : Event K → Option K
  | reading readTime _ => some readTime
  | setTemp _ => none
  | alterTarget _ => none

/-- A target out of range is refused with a panic, and the heater stays as it is. -/
def Heater.step (self : Heater K) : Event K → Heater K
  | .reading readTime temp => self.temperatureCallback readTime temp
  | .setTemp degrees =>
    match self.setTemp degrees with
    | .ok self' => self'
    | .error _ => self
  | .alterTarget targetTemp => self.alterTarget targetTemp

/-! ### One reading -/

namespace Heater

variable {self self' : Heater K} {readTime temp value : K}

/-- A power is held back, or sent; with the target at zero it is zero. -/
theorem setPwm_cases (self : Heater K) (readTime value : K) :
    (self.setPwm readTime value = self ∧ (readTime < self.nextPwmTime ∨ self.lastPwmValue = 0)) ∨
    self.setPwm readTime value =
      { self with
        nextPwmTime := readTime + self.pwmDelay + 3 / 4 * maxHeatTime
        lastPwmValue := if self.targetTemp ≤ 0 then 0 else value
        commands := self.commands ++
          [(readTime + self.pwmDelay, if self.targetTemp ≤ 0 then 0 else value)] } := by
  unfold setPwm
  generalize (if self.targetTemp ≤ 0 then 0 else value) = v
  dsimp only
  split
  · next h => exact .inl ⟨rfl, h.1⟩
  · exact .inr rfl

/-- What a reading does to the pin: a power is held back, or sent. -/
inductive PwmStep (h h' : Heater K) (readTime : K) : Prop where
  | held (commands : h'.commands = h.commands) (last : h'.lastPwmValue = h.lastPwmValue)
      (next : h'.nextPwmTime = h.nextPwmTime)
      (early : readTime < h.nextPwmTime ∨ h.lastPwmValue = 0)
  | sent (v : K) (mem : v ∈ uIcc 0 h.maxPower) (zero : h.targetTemp ≤ 0 → v = 0)
      (commands : h'.commands = h.commands ++ [(readTime + h.pwmDelay, v)])
      (last : h'.lastPwmValue = v)
      (next : h'.nextPwmTime = readTime + h.pwmDelay + 3 / 4 * maxHeatTime)

/-- What a reading does to the rest. -/
structure ReadStep (h h' : Heater K) (readTime : K) : Prop where
  maxPower : h'.maxPower = h.maxPower
  pwmDelay : h'.pwmDelay = h.pwmDelay
  targetTemp : h'.targetTemp = h.targetTemp
  lastTempTime : h'.lastTempTime = readTime
  integ : h.control.IntegBounded → h'.control.IntegBounded
  pwm : PwmStep h h' readTime

theorem readStep_temperatureCallback (self : Heater K) (readTime temp : K) :
    ReadStep self (self.temperatureCallback readTime temp) readTime := by
  have hmem := Control.temperatureUpdate_mem readTime temp self.targetTemp self.control
  rw [self.control_maxPower] at hmem
  have hinteg := fun h : self.control.IntegBounded =>
    h.temperatureUpdate readTime temp self.targetTemp
  unfold temperatureCallback controlUpdate
  dsimp only
  set heater : Heater K :=
    { self with
      lastTemp := temp, lastTempTime := readTime
      control := (self.control.temperatureUpdate readTime temp self.targetTemp).1
      control_maxPower := (Control.temperatureUpdate_maxPower _ _ _ _).trans self.control_maxPower }
  generalize (self.control.temperatureUpdate readTime temp self.targetTemp).2 = value at hmem ⊢
  rcases setPwm_cases heater readTime value with ⟨heq, hearly⟩ | heq
  · rw [heq]
    exact ⟨rfl, rfl, rfl, rfl, hinteg, .held rfl rfl rfl hearly⟩
  · rw [heq]
    refine ⟨rfl, rfl, rfl, rfl, hinteg, .sent _ ?_ (fun h => if_pos h) rfl rfl rfl⟩
    exact iteInduction (motive := (· ∈ uIcc 0 self.maxPower)) (fun _ => left_mem_uIcc)
      (fun _ => hmem)

/-- A call that changes the target changes nothing else. -/
theorem step_of_not_reading (self : Heater K) {e : Event K} (h : e.readTime = none) :
    ∃ targetTemp, self.step e = { self with targetTemp } := by
  cases e with
  | reading readTime temp => cases h
  | setTemp degrees =>
    unfold step setTemp
    dsimp only
    split_ifs
    · exact ⟨self.targetTemp, rfl⟩
    · exact ⟨degrees, rfl⟩
  | alterTarget targetTemp => exact ⟨_, rfl⟩

theorem readStep_of_reading (self : Heater K) {e : Event K} (h : e.readTime = some readTime) :
    ReadStep self (self.step e) readTime := by
  cases e with
  | reading r temp =>
    cases h
    exact readStep_temperatureCallback self _ temp
  | setTemp degrees => cases h
  | alterTarget targetTemp => cases h

/-! ### Whatever the times are -/

/-- The powers sent and the integral are within their bounds, and the heater knows what it sent
last. -/
structure Regulated (h : Heater K) : Prop where
  commands_mem : ∀ c ∈ h.commands, c.2 ∈ uIcc 0 h.maxPower
  integ : h.control.IntegBounded
  last : ∀ c ∈ h.commands.getLast?, h.lastPwmValue = c.2 ∧
    h.nextPwmTime = c.1 + 3 / 4 * maxHeatTime

theorem regulated_newHeater (config : HeaterConfig K) : (newHeater config).Regulated where
  commands_mem := by simp [newHeater]
  integ := by
    unfold newHeater newControl
    dsimp only
    split
    · trivial
    · exact left_mem_uIcc
  last := by simp [newHeater]

theorem Regulated.read (hself : self.Regulated) (h : ReadStep self self' readTime) :
    self'.Regulated := by
  rcases h with
    ⟨hpower, -, -, -, hinteg, ⟨hcmds, hlast, hnext, -⟩ | ⟨v, hv, -, hcmds, hlast, hnext⟩⟩
  · refine ⟨?_, hinteg hself.integ, ?_⟩
    · rw [hcmds, hpower]
      exact hself.commands_mem
    · rw [hcmds, hlast, hnext]
      exact hself.last
  · refine ⟨?_, hinteg hself.integ, ?_⟩
    · rw [hcmds, hpower]
      intro c hc
      rcases mem_append.mp hc with hc | hc
      · exact hself.commands_mem c hc
      · rw [mem_singleton.mp hc]
        exact hv
    · rw [hcmds, hlast, hnext]
      simp

theorem Regulated.step (hself : self.Regulated) (e : Event K) : (self.step e).Regulated := by
  rcases he : e.readTime with _ | readTime
  · obtain ⟨targetTemp, heq⟩ := step_of_not_reading self he
    rw [heq]
    exact ⟨hself.commands_mem, hself.integ, hself.last⟩
  · exact hself.read (readStep_of_reading self he)

theorem step_setup (e : Event K) :
    (self.step e).maxPower = self.maxPower ∧ (self.step e).pwmDelay = self.pwmDelay := by
  rcases he : e.readTime with _ | readTime
  · obtain ⟨targetTemp, heq⟩ := step_of_not_reading self he
    rw [heq]
    exact ⟨rfl, rfl⟩
  · have h := readStep_of_reading self he
    exact ⟨h.maxPower, h.pwmDelay⟩

/-! ### The pin is set again in time -/

def Paced (interval : K) (readTimes : List K) : Prop :=
  readTimes.IsChain fun r r' => r < r' ∧ r' ≤ r + interval

/-- After a power that is not zero, the next one comes in time. -/
def InTime (commands : List (K × K)) : Prop :=
  commands.IsChain fun c c' => c.2 ≠ 0 → c'.1 ≤ c.1 + maxHeatTime

/-- While the pin is on, the next power is not due yet, and will be soon enough. -/
structure Refreshed (h : Heater K) : Prop where
  inTime : InTime h.commands
  notDue : h.lastPwmValue ≠ 0 → h.lastTempTime < h.nextPwmTime
  dueSoon : h.lastPwmValue ≠ 0 → h.nextPwmTime ≤ h.lastTempTime + h.pwmDelay + 3 / 4 * maxHeatTime

variable [IsStrictOrderedRing K] {interval : K}

theorem Refreshed.read (hself : self.Refreshed) (hreg : self.Regulated)
    (h : ReadStep self self' readTime) (hdelay : self.pwmDelay + interval ≤ maxHeatTime / 4)
    (hpaced : self.lastPwmValue = 0 ∨
      self.lastTempTime < readTime ∧ readTime ≤ self.lastTempTime + interval) :
    self'.Refreshed := by
  have hnonneg := self.pwmDelay_nonneg
  have hmax : (maxHeatTime : K) = 5 := rfl
  rcases h with ⟨-, hd, -, htime, -, ⟨hcmds, hlast, hnext, hearly⟩ | ⟨v, -, -, hcmds, -, hnext⟩⟩
  · refine ⟨?_, ?_, ?_⟩
    · rw [hcmds]
      exact hself.inTime
    · rw [hlast, hnext, htime]
      intro hon
      exact hearly.resolve_right hon
    · rw [hlast, hnext, htime, hd]
      intro hon
      have hsoon := hself.dueSoon hon
      have hlt := (hpaced.resolve_left hon).1
      linarith
  · refine ⟨?_, ?_, ?_⟩
    · -- the reading before this one was not late for the power sent last
      rw [hcmds]
      refine isChain_append.mpr ⟨hself.inTime, isChain_singleton _, ?_⟩
      intro c hc c' hc' hon
      obtain ⟨hcval, hcnext⟩ := hreg.last c hc
      rw [← hcval] at hon
      have hnot := hself.notDue hon
      have hle := (hpaced.resolve_left hon).2
      simp only [head?_cons, Option.mem_def, Option.some.injEq] at hc'
      rw [← hc']
      linarith
    · intro _
      linarith
    · intro _
      rw [hnext, htime, hd]

omit [IsStrictOrderedRing K] in
theorem Refreshed.target (hself : self.Refreshed) (targetTemp : K) :
    ({ self with targetTemp } : Heater K).Refreshed :=
  ⟨hself.inTime, hself.notDue, hself.dueSoon⟩

/-- The readings of a run are paced, and so is the first of them unless the pin is off. -/
theorem refreshed_final {events : List (Event K)} (hself : self.Refreshed) (hreg : self.Regulated)
    (hdelay : self.pwmDelay + interval ≤ maxHeatTime / 4)
    (hpaced : Paced interval (events.filterMap Event.readTime)) (hfirst : self.lastPwmValue = 0 ∨
      Paced interval (self.lastTempTime :: events.filterMap Event.readTime)) :
    (final step self events).Refreshed := by
  induction events generalizing self with
  | nil => exact hself
  | cons e events ih =>
    have hdelay' : (self.step e).pwmDelay + interval ≤ maxHeatTime / 4 := by
      rw [(step_setup e).2]
      exact hdelay
    rcases he : e.readTime with _ | readTime
    · rw [filterMap_cons_none he] at hpaced hfirst
      obtain ⟨targetTemp, heq⟩ := step_of_not_reading self he
      refine ih ?_ (hreg.step e) hdelay' hpaced ?_
      · rw [heq]
        exact hself.target targetTemp
      · rw [heq]
        exact hfirst
    · rw [filterMap_cons_some he] at hpaced hfirst
      have hread := readStep_of_reading self he
      refine ih (hself.read hreg hread hdelay ?_) (hreg.step e) hdelay' hpaced.tail ?_
      · rcases hfirst with hoff | hchain
        · exact .inl hoff
        · exact .inr (isChain_cons_cons.mp hchain).1
      · rw [hread.lastTempTime]
        exact .inr hpaced

/-! ### The target at zero -/

/-- From `h` to `h'` only zeros were sent; the pin is off, or nothing was sent. -/
structure Cooling (h h' : Heater K) : Prop where
  zeros : ∃ zs, h'.commands = h.commands ++ zs ∧ ∀ z ∈ zs, z.2 = 0
  off : h'.lastPwmValue = 0 ∨ h'.lastPwmValue = h.lastPwmValue ∧ h'.nextPwmTime = h.nextPwmTime

omit [IsStrictOrderedRing K] in
theorem Cooling.trans {self'' : Heater K} (h : Cooling self self') (h' : Cooling self' self'') :
    Cooling self self'' := by
  obtain ⟨zs, hzs, hz⟩ := h.zeros
  obtain ⟨zs', hzs', hz'⟩ := h'.zeros
  refine ⟨⟨zs ++ zs', by rw [hzs', hzs, append_assoc], ?_⟩, ?_⟩
  · intro z hmem
    exact (mem_append.mp hmem).elim (hz z) (hz' z)
  · rcases h'.off with hoff | ⟨hlast, hnext⟩
    · exact .inl hoff
    · rw [hlast, hnext]
      exact h.off

omit [IsStrictOrderedRing K] in
theorem cooling_step (e : Event K) (h : self.targetTemp ≤ 0) : Cooling self (self.step e) := by
  rcases he : e.readTime with _ | readTime
  · obtain ⟨targetTemp, heq⟩ := step_of_not_reading self he
    rw [heq]
    exact ⟨⟨[], by simp, by simp⟩, .inr ⟨rfl, rfl⟩⟩
  · rcases (readStep_of_reading self he).pwm with
      ⟨hcmds, hlast, hnext, -⟩ | ⟨v, -, hv, hcmds, hlast, -⟩
    · exact ⟨⟨[], by rw [hcmds, append_nil], by simp⟩, .inr ⟨hlast, hnext⟩⟩
    · exact ⟨⟨_, hcmds, by simp [hv h]⟩, .inl (hlast.trans (hv h))⟩

omit [IsStrictOrderedRing K] in
theorem cooling_final {events : List (Event K)} (h : self.targetTemp = 0)
    (hzero : Along step (fun s e => (s.step e).targetTemp = 0) self events) :
    Cooling self (final step self events) := by
  induction events generalizing self with
  | nil => exact ⟨⟨[], by simp, by simp⟩, .inr ⟨rfl, rfl⟩⟩
  | cons e events ih => exact (cooling_step e h.le).trans (ih hzero.1 hzero.2)

/-- A pin that only zeros were sent to is off once a power would have been due. -/
theorem Cooling.off_of_due (h : Cooling self self') (hself : self.Refreshed)
    (hself' : self'.Refreshed) (hdelay : self.pwmDelay ≤ maxHeatTime / 4)
    (hlong : self.lastTempTime + maxHeatTime ≤ self'.lastTempTime) : self'.lastPwmValue = 0 := by
  by_contra hon
  -- nothing was sent, so the time the next power is due has not changed
  obtain ⟨hlast, hnext⟩ := h.off.resolve_left hon
  have hnot := hself'.notDue hon
  have hsoon := hself.dueSoon (hlast ▸ hon)
  linarith

/-! ### Whole runs -/

/-- Powers and integral stay within their bounds.  If the readings are close enough to each other,
a pin that is on is set again in time, and with the target at zero it goes off in the same time. -/
theorem heater_output_safe (config : HeaterConfig K) (events : List (Event K)) :
    let heater := final step (newHeater config) events
    (∀ c ∈ heater.commands, c.2 ∈ uIcc 0 config.maxPower) ∧
    heater.control.IntegBounded ∧
    ∀ interval, 0 ≤ interval → config.reportTimeDelta + interval ≤ maxHeatTime / 4 →
      (Paced interval (events.filterMap Event.readTime) →
        InTime heater.commands ∧ ∀ c ∈ heater.commands.getLast?, c.2 ≠ 0 →
          heater.lastTempTime + config.reportTimeDelta ≤ c.1 + maxHeatTime) ∧
      ∀ later, Paced interval ((events ++ later).filterMap Event.readTime) →
        heater.targetTemp = 0 →
        Along step (fun s e => (s.step e).targetTemp = 0) heater later →
        let heater' := final step heater later
        (∃ zs, heater'.commands = heater.commands ++ zs ∧ ∀ z ∈ zs, z.2 = 0) ∧
        (heater.lastTempTime + maxHeatTime ≤ heater'.lastTempTime →
          heater'.lastPwmValue = 0) := by
  have hreg := final_of_kept (fun _ e hs => hs.step e) (regulated_newHeater config)
  have hsetup : ∀ es, (final step (newHeater config) es).maxPower = config.maxPower ∧
      (final step (newHeater config) es).pwmDelay = config.reportTimeDelta :=
    final_of_kept (I := fun s : Heater K =>
      s.maxPower = config.maxPower ∧ s.pwmDelay = config.reportTimeDelta)
      (fun s e hs => ⟨(step_setup e).1.trans hs.1, (step_setup e).2.trans hs.2⟩) ⟨rfl, rfl⟩
  have hnew : (newHeater config).Refreshed :=
    ⟨isChain_nil, fun hon => absurd rfl hon, fun hon => absurd rfl hon⟩
  refine ⟨?_, (hreg events).integ, ?_⟩
  · rw [← (hsetup events).1]
    exact (hreg events).commands_mem
  · intro interval hinterval hdelay
    have href : ∀ es : List (Event K), Paced interval (es.filterMap Event.readTime) →
        (final step (newHeater config) es).Refreshed :=
      fun es hpaced => refreshed_final hnew (regulated_newHeater config) hdelay hpaced (.inl rfl)
    refine ⟨fun hpaced => ⟨(href events hpaced).inTime, ?_⟩, ?_⟩
    · intro c hc hon
      obtain ⟨hval, hnext⟩ := (hreg events).last c hc
      have hnot := (href events hpaced).notDue (hval ▸ hon)
      linarith
    · intro later hpaced htarget hzero
      have hbefore := href events (by
        rw [filterMap_append] at hpaced
        exact (isChain_append.mp hpaced).1)
      have hafter := href (events ++ later) hpaced
      rw [final_append] at hafter
      have hcool := cooling_final htarget hzero
      refine ⟨hcool.zeros, hcool.off_of_due hbefore hafter ?_⟩
      rw [(hsetup events).2]
      linarith

def sampleConfig : HeaterConfig ℚ where
  minTemp := 0
  maxTemp := 300
  reportTimeDelta := 3 / 10
  reportTimeDelta_nonneg := by norm_num
  minExtrudeTemp := 170
  debugoutput := false
  maxPower := 1
  smoothTime := 1
  control := .pid 20 1 100

/-- The power is refreshed while the heater is on, and taken off after the target is zero. -/
theorem heater_output_safe_sample :
    let readings := [1, 19 / 10, 14 / 5, 37 / 10, 23 / 5, 11 / 2].map (.reading · 25)
    let events := .setTemp 200 :: readings ++ [.setTemp 0]
    let heater := final step (newHeater sampleConfig) events
    let heater' := final step heater [.reading (32 / 5) 25]
    heater'.commands = [(13 / 10, 1), (29 / 5, 1), (67 / 10, 0)] ∧ InTime heater.commands ∧
      ∃ zs, heater'.commands = heater.commands ++ zs ∧ ∀ z ∈ zs, z.2 = 0 := by
  intro readings events heater heater'
  obtain ⟨hpaced, hzero⟩ := (heater_output_safe sampleConfig events).2.2 (9 / 10) (by norm_num)
    (by norm_num [sampleConfig, maxHeatTime])
  refine ⟨by decide +kernel, (hpaced ?_).1, (hzero [.reading (32 / 5) 25] ?_ ?_ ?_).1⟩
  · show Paced (9 / 10) [1, 19 / 10, 14 / 5, 37 / 10, 23 / 5, 11 / 2]
    norm_num [Paced]
  · show Paced (9 / 10) [1, 19 / 10, 14 / 5, 37 / 10, 23 / 5, 11 / 2, 32 / 5]
    norm_num [Paced]
  · decide +kernel
  · exact ⟨by decide +kernel, trivial⟩

end Heater

end Heaters
