/-
Clock synchronisation with the micro-controllers
(`internal/pkg/serialhdl/clocksync.go`).

A micro-controller counts its clock in 64 bits and sends the low 32 of them.
The synchroniser keeps the last clock it knows, in an `int64`, and widens what
it receives against it; on the way it keeps an estimate of the frequency, over
exact arithmetic here.  The secondary synchroniser repeats the code of the main
one and adds an adjustment against it.

* `extendClock_ofInt` — one sample is widened to the true clock;
* `clock32ToClock64_ofInt` — so is any clock within half a period of the last one;
* `connect_lastClock` — and connecting starts from a true value.
-/
import KlipperGo.ExactArith
import KlipperGo.Runs
import KlipperGo.WordArith

open ExactArith Runs WordArith Int64

namespace Serialhdl

structure ClockParams (K : Type*) where
  clock : Int64
  sentTime : K
  receiveTime : K

structure UptimeParams (K : Type*) where
  high : Int64
  clock : Int64
  sentTime : K

structure ClockEst (K : Type*) where
  freq : K
  convTime : K
  convClock : Int64
  lastClock : Int64

structure ClockSync (K : Type*) where
  queriesPending : ℕ
  mcuFreq : K
  lastClock : Int64
  /-- Sample time, clock and frequency. -/
  clockEst : K × K × K
  minHalfRtt : K
  minRttTime : K
  timeAvg : K
  timeVariance : K
  clockAvg : K
  clockCovariance : K
  predictionVariance : K
  lastPredictionTime : K

section

variable {K : Type*} [Field K]

def rttAge : K := 1 / 100000 / (60 * 60)

def decay : K := 1 / 30

def transmitExtra : K := 1 / 1000

def newClockSync : ClockSync K where
  queriesPending := 0
  mcuFreq := 1
  lastClock := 0
  clockEst := (0, 0, 0)
  minHalfRtt := 9999999999 / 10
  minRttTime := 0
  timeAvg := 0
  timeVariance := 0
  clockAvg := 0
  clockCovariance := 0
  predictionVariance := 0
  lastPredictionTime := 0

/-- The 64-bit clock that `_handle_clock` reads out of a response. -/
def extendClock (lastClock clock32 : Int64) : Int64 :=
  let clock := (lastClock &&& ~~~0xffffffff) ||| clock32
  if clock < lastClock then clock + 0x100000000 else clock

namespace ClockSync

variable [LinearOrder K]

/-- The shortest half round trip, which ages. -/
def noteRoundTrip (self : ClockSync K) (sentTime receiveTime : K) : ClockSync K :=
  let halfRTT := (receiveTime - sentTime) * (1 / 2)
  let agedRTT := (sentTime - self.minRttTime) * rttAge
  if halfRTT < self.minHalfRtt + agedRTT then
    { self with minHalfRtt := halfRTT, minRttTime := sentTime }
  else self

variable [FloorRing K] (self : ClockSync K) (clock : Int64) (sentTime : K)

def expClock : Int64 :=
  ofInt (trunc ((sentTime - self.timeAvg) * self.clockEst.2.2 + self.clockAvg))

/-- The comparison with the prediction; a sample that comes far too late is dropped. -/
def notePrediction : Option (ClockSync K) :=
  let expClock := self.expClock sentTime
  let clockDiff2 : K := ((clock - expClock).toInt : K) ^ 2
  if 25 * self.predictionVariance < clockDiff2 ∧
      (5 / 10000 * self.mcuFreq) ^ 2 < clockDiff2 then
    if expClock < clock ∧ sentTime < self.lastPredictionTime + 10 then none
    else some { self with predictionVariance := (1 / 1000 * self.mcuFreq) ^ 2 }
  else
    some { self with
      lastPredictionTime := sentTime
      predictionVariance := (1 - decay) * (self.predictionVariance + clockDiff2 * decay) }

/-- The linear regression of clocks over times, and what is sent to the serial queue. -/
def updateEstimate [HasSqrt K] (self : ClockSync K) (clock : Int64) (sentTime : K) :
    ClockSync K × ClockEst K :=
  let diffSentTime := sentTime - self.timeAvg
  let timeAvg := self.timeAvg + decay * diffSentTime
  let timeVariance := (1 - decay) * (self.timeVariance + diffSentTime ^ 2 * decay)
  let diffClock : K := ((clock - ofInt (trunc self.clockAvg)).toInt : K)
  let clockAvg := self.clockAvg + decay * diffClock
  let clockCovariance := (1 - decay) * (self.clockCovariance + diffSentTime * diffClock * decay)
  let newFreq := clockCovariance / timeVariance
  let predStddev := sqrt self.predictionVariance
  ({ self with
      timeAvg, timeVariance, clockAvg, clockCovariance
      clockEst := (timeAvg + self.minHalfRtt, clockAvg, newFreq) },
    { freq := newFreq
      convTime := timeAvg + transmitExtra
      convClock := ofInt (trunc (clockAvg - 3 * predStddev))
      lastClock := clock })

/-- `_handle_clock`, with the call of `Set_clock_est` that it makes, if any. -/
def handleClock [HasSqrt K] (self : ClockSync K) (params : ClockParams K) :
    ClockSync K × Option (ClockEst K) :=
  let clock := extendClock self.lastClock params.clock
  let self := { self with queriesPending := 0, lastClock := clock }
  if params.sentTime = 0 then (self, none)
  else
    let self := self.noteRoundTrip params.sentTime params.receiveTime
    match self.notePrediction clock params.sentTime with
    | none => (self, none)
    | some self =>
      let (self, est) := self.updateEstimate clock params.sentTime
      (self, some est)

/-- One round of the loop in `Connect`. -/
def pollClock [HasSqrt K] (self : ClockSync K) (params : ClockParams K) : ClockSync K :=
  ({ self with lastPredictionTime := -9999 }.handleClock params).1

/-- `Connect`, with the answers to its queries. -/
def connect [HasSqrt K] (self : ClockSync K) (clockFreq : K) (uptime : UptimeParams K)
    (responses : Fin 8 → ClockParams K) : ClockSync K :=
  let lastClock := (uptime.high <<< 32) ||| uptime.clock
  let clockAvg : K := (lastClock.toInt : K)
  let self := { self with
    mcuFreq := clockFreq
    lastClock
    clockAvg
    timeAvg := uptime.sentTime
    clockEst := (uptime.sentTime, clockAvg, clockFreq)
    predictionVariance := (1 / 1000 * clockFreq) ^ 2 }
  final pollClock self (List.ofFn responses)

def getClock (eventtime : K) : Int64 :=
  let (sampleTime, clock, freq) := self.clockEst
  ofInt (trunc (clock + (eventtime - sampleTime) * freq))

omit [LinearOrder K] [FloorRing K] in
def clock32ToClock64 (self : ClockSync K) (clock32 : Int64) : Int64 :=
  let clockDiff := (self.lastClock - clock32) &&& 0xffffffff
  if clockDiff &&& 0x80000000 = 0x80000000 then self.lastClock + 0x100000000 - clockDiff
  else self.lastClock - clockDiff

end ClockSync

/-! ### The secondary synchroniser -/

/-- `SecondarySync`: the fields of `ClockSync`, and the adjustment to the main clock. -/
structure SecondarySync (K : Type*) extends ClockSync K where
  /-- Offset and frequency. -/
  clockAdj : K × K
  lastSyncTime : K

namespace SecondarySync

def clock32ToClock64 (self : SecondarySync K) (clock32 : Int64) : Int64 :=
  self.toClockSync.clock32ToClock64 clock32

variable [LinearOrder K] [FloorRing K]

def handleClock [HasSqrt K] (self : SecondarySync K) (params : ClockParams K) :
    SecondarySync K × Option (ClockEst K) :=
  let (sync, est) := self.toClockSync.handleClock params
  ({ self with toClockSync := sync }, est)

def getClock (self : SecondarySync K) (eventtime : K) : Int64 :=
  self.toClockSync.getClock eventtime

variable (self : SecondarySync K)

def printTimeToClock (printTime : K) : Int64 :=
  let (adjustedOffset, adjustedFreq) := self.clockAdj
  ofInt (trunc ((printTime - adjustedOffset) * adjustedFreq))

def clockToPrintTime (clock : Int64) : K :=
  let (adjustedOffset, adjustedFreq) := self.clockAdj
  (clock.toInt : K) / adjustedFreq + adjustedOffset

/-- `Calibrate_clock`, against the main synchroniser. -/
def calibrateClock (mainSync : ClockSync K) (printTime eventtime : K) : SecondarySync K :=
  let (serTime, serClock, serFreq) := mainSync.clockEst
  let mainMcuFreq := mainSync.mcuFreq
  let estMainClock := (eventtime - serTime) * serFreq + serClock
  let estPrintTime := estMainClock / mainMcuFreq
  let sync1PrintTime := max printTime estPrintTime
  let sync2PrintTime := max (max (sync1PrintTime + 4) self.lastSyncTime)
    (printTime + 5 / 2 * (printTime - estPrintTime))
  let sync2MainClock := sync2PrintTime * mainMcuFreq
  let sync2SysTime := serTime + (sync2MainClock - serClock) / serFreq
  let sync1Clock := self.printTimeToClock sync1PrintTime
  let sync2Clock := self.getClock sync2SysTime
  let adjustedFreq := ((sync2Clock - sync1Clock).toInt : K) / (sync2PrintTime - sync1PrintTime)
  let adjustedOffset := sync1PrintTime - (sync1Clock.toInt : K) / adjustedFreq
  { self with clockAdj := (adjustedOffset, adjustedFreq), lastSyncTime := sync2PrintTime }

end SecondarySync

end

/-! ### The clock behind 32 bits -/

theorem extendClock_ofInt {l c : ℤ} (hle : l ≤ c) (hlt : c < l + 2 ^ 32) :
    extendClock (ofInt l) (ofInt (c % 2 ^ 32)) = ofInt c := by
  have hl := toNat_ofInt l
  have hc := toNat_ofInt (c % 2 ^ 32)
  have hcarry : (0x100000000 : Int64).toBitVec.toNat = 2 ^ 32 := by decide
  have hjoin := toNat_joinLow (ofInt l) (ofInt (c % 2 ^ 32)) (by omega)
  unfold extendClock
  set clock := (ofInt l &&& ~~~0xffffffff) ||| ofInt (c % 2 ^ 32)
  have hless := lt_iff_of_div_eq (x := clock) (y := ofInt l) (by omega)
  apply eq_ofInt
  by_cases h : clock < ofInt l
  · -- the low half has started again
    rw [hless] at h
    simp only [if_pos (hless.mpr h)]
    rw [Int64.toBitVec_add, BitVec.toNat_add, hcarry]
    omega
  · simp only [if_neg h]
    rw [hless] at h
    omega

theorem clock32ToClock64_ofInt {K : Type*} {self : ClockSync K} {l c : ℤ}
    (hself : self.lastClock = ofInt l) (hgt : l - 2 ^ 31 < c) (hle : c ≤ l + 2 ^ 31) :
    self.clock32ToClock64 (ofInt (c % 2 ^ 32)) = ofInt c := by
  have hdiff : (self.lastClock - ofInt (c % 2 ^ 32)) &&& 0xffffffff =
      ofInt ((l - c) % 2 ^ 32) := by
    rw [hself, ← ofInt_sub, ofInt_and_low]
    congr 1
    omega
  have hhigh := ofInt_and_high (d := (l - c) % 2 ^ 32) (by omega) (by omega)
  have hcarry : (0x100000000 : Int64) = ofInt (2 ^ 32) := by decide
  unfold ClockSync.clock32ToClock64
  simp only [hdiff, hhigh]
  rw [hself, hcarry, ← ofInt_add, ← ofInt_sub, ← ofInt_sub]
  -- the highest bit of the difference says on which side of the last clock `c` is
  by_cases h : 2 ^ 31 ≤ (l - c) % 2 ^ 32
  · rw [if_pos h]
    congr 1
    omega
  · rw [if_neg h]
    congr 1
    omega

/-- An `uptime` response gives both halves. -/
theorem joinHalves_ofInt (l : ℤ) :
    (ofInt (l / 2 ^ 32) <<< 32) ||| ofInt (l % 2 ^ 32) = ofInt l := by
  have hhigh := toNat_ofInt (l / 2 ^ 32)
  have hlow := toNat_ofInt (l % 2 ^ 32)
  have hshift : (ofInt (l / 2 ^ 32) <<< 32).toBitVec =
      (ofInt (l / 2 ^ 32)).toBitVec <<< 32 := rfl
  have hhalf : (ofInt (l / 2 ^ 32) <<< 32).toBitVec.toNat =
      2 ^ 32 * ((ofInt (l / 2 ^ 32)).toBitVec.toNat % 2 ^ 32) := by
    rw [hshift, BitVec.toNat_shiftLeft, Nat.shiftLeft_eq]
    omega
  apply eq_ofInt
  rw [Int64.toBitVec_or, BitVec.toNat_or, hhalf, ← Nat.two_pow_add_eq_or_of_lt (by omega)]
  omega

/-! ### Runs of clock samples -/

/-- A `clock` response, sent when the clock stood at `clock`. -/
structure Sample (K : Type*) where
  clock : ℤ
  sentTime : K
  receiveTime : K

namespace Sample

variable {K : Type*}

/-- The response carries the low 32 bits. -/
def params (e : Sample K) : ClockParams K where
  clock := ofInt (e.clock % 2 ^ 32)
  sentTime := e.sentTime
  receiveTime := e.receiveTime

/-- From `l` on the clock does not go back, and two samples are less than a period apart. -/
def Advances (l : ℤ) (samples : List (Sample K)) : Prop :=
  (l :: samples.map clock).IsChain fun c c' => c ≤ c' ∧ c' < c + 2 ^ 32

end Sample

section

variable {K S : Type*} {step : S → Sample K → S} (lastClock : S → Int64) {samples : List (Sample K)}

/-- A system that widens every sample keeps the true clock. -/
theorem along_lastClock
    (hstep : ∀ s e, lastClock (step s e) = extendClock (lastClock s) e.params.clock)
    {s : S} {l : ℤ} (hs : lastClock s = ofInt l) (hadv : Sample.Advances l samples) :
    Along step (fun s e => lastClock (step s e) = ofInt e.clock) s samples := by
  induction samples generalizing s l with
  | nil => exact trivial
  | cons e samples ih =>
    obtain ⟨⟨hle, hlt⟩, htail⟩ := List.isChain_cons_cons.mp hadv
    have he : lastClock (step s e) = ofInt e.clock := by
      rw [hstep, hs]
      exact extendClock_ofInt hle hlt
    exact ⟨he, ih he htail⟩

theorem final_lastClock
    (hstep : ∀ s e, lastClock (step s e) = extendClock (lastClock s) e.params.clock)
    {s : S} {l : ℤ} (hs : lastClock s = ofInt l) (hadv : Sample.Advances l samples) :
    lastClock (final step s samples) = ofInt ((samples.map Sample.clock).getLastD l) := by
  induction samples generalizing s l with
  | nil => exact hs
  | cons e samples ih =>
    have he := (along_lastClock lastClock hstep hs hadv).1
    have htail := (List.isChain_cons_cons.mp hadv).2
    rw [final_cons, ih he htail, List.map_cons, List.getLastD_cons]

end

section

variable {K : Type*}

/-- The stored clock is `l`, and 32 bits of a clock near `l` are widened to it. -/
def ClockSync.Exact (self : ClockSync K) (l : ℤ) : Prop :=
  self.lastClock = ofInt l ∧ ∀ c, l - 2 ^ 31 < c → c ≤ l + 2 ^ 31 →
    self.clock32ToClock64 (ofInt (c % 2 ^ 32)) = ofInt c

def SecondarySync.Exact (self : SecondarySync K) (l : ℤ) : Prop :=
  self.lastClock = ofInt l ∧ ∀ c, l - 2 ^ 31 < c → c ≤ l + 2 ^ 31 →
    self.clock32ToClock64 (ofInt (c % 2 ^ 32)) = ofInt c

theorem ClockSync.exact_iff {self : ClockSync K} {l : ℤ} :
    self.Exact l ↔ self.lastClock = ofInt l :=
  ⟨fun h => h.1, fun h => ⟨h, fun _ hgt hle => clock32ToClock64_ofInt h hgt hle⟩⟩

theorem SecondarySync.exact_iff {self : SecondarySync K} {l : ℤ} :
    self.Exact l ↔ self.lastClock = ofInt l := @ClockSync.exact_iff K self.toClockSync l

variable [Field K] [LinearOrder K]

theorem ClockSync.noteRoundTrip_lastClock (self : ClockSync K) (sentTime receiveTime : K) :
    (self.noteRoundTrip sentTime receiveTime).lastClock = self.lastClock := by
  unfold noteRoundTrip
  dsimp only
  split <;> rfl

variable [FloorRing K]

theorem ClockSync.notePrediction_lastClock {self self' : ClockSync K} {clock : Int64}
    {sentTime : K} (h : self.notePrediction clock sentTime = some self') :
    self'.lastClock = self.lastClock := by
  unfold notePrediction at h
  dsimp only at h
  split at h
  · split at h
    · cases h
    · cases h
      rfl
  · cases h
    rfl

variable [HasSqrt K]

def ClockSync.sample (self : ClockSync K) (e : Sample K) : ClockSync K :=
  (self.handleClock e.params).1

def SecondarySync.sample (self : SecondarySync K) (e : Sample K) : SecondarySync K :=
  (self.handleClock e.params).1

/-- Whatever the estimate makes of a response, the clock is stored. -/
theorem ClockSync.handleClock_lastClock (self : ClockSync K) (params : ClockParams K) :
    (self.handleClock params).1.lastClock = extendClock self.lastClock params.clock := by
  unfold handleClock
  dsimp only
  split
  · -- the time of sending is not known
    rfl
  · split
    · exact noteRoundTrip_lastClock _ _ _
    · next h =>
      exact (notePrediction_lastClock h).trans (noteRoundTrip_lastClock _ _ _)

/-- The stored clock is exact after every sample, and what both synchronisers do is the same. -/
theorem clock_extension_exact (main : ClockSync K) (secondary : SecondarySync K) (l : ℤ)
    (hmain : main.lastClock = ofInt l) (hsecondary : secondary.lastClock = ofInt l)
    (samples : List (Sample K)) (hadv : Sample.Advances l samples) :
    (main.Exact l ∧ Along ClockSync.sample (fun s e => (s.sample e).Exact e.clock) main samples) ∧
    (secondary.Exact l ∧
      Along SecondarySync.sample (fun s e => (s.sample e).Exact e.clock) secondary samples) ∧
    (main = secondary.toClockSync →
      final ClockSync.sample main samples =
        (final SecondarySync.sample secondary samples).toClockSync) := by
  refine ⟨⟨ClockSync.exact_iff.mpr hmain, ?_⟩, ⟨SecondarySync.exact_iff.mpr hsecondary, ?_⟩, ?_⟩
  · simp only [ClockSync.exact_iff]
    exact along_lastClock ClockSync.lastClock (fun s e => s.handleClock_lastClock e.params)
      hmain hadv
  · simp only [SecondarySync.exact_iff]
    exact along_lastClock (fun s : SecondarySync K => s.lastClock)
      (fun s e => s.toClockSync.handleClock_lastClock e.params) hsecondary hadv
  · rintro rfl
    exact final_of_simulation
      (R := fun (s : ClockSync K) (s' : SecondarySync K) => s = s'.toClockSync)
      (G := fun _ => True) (by rintro s s' e rfl -; rfl) rfl (fun _ _ => trivial)

theorem clock_extension_exact_wrap :
    Along ClockSync.sample (fun s e => (s.sample e).Exact e.clock) (newClockSync : ClockSync ℚ)
      [⟨2 ^ 32 - 1, 0, 0⟩, ⟨2 ^ 32 + 5, 1, 2⟩] :=
  (clock_extension_exact newClockSync ⟨newClockSync, (0, 1), 0⟩ 0 (by decide) (by decide)
    [⟨2 ^ 32 - 1, 0, 0⟩, ⟨2 ^ 32 + 5, 1, 2⟩] (by simp [Sample.Advances])).1.2

/-- Connecting asks for all 64 bits first, so the stored clock is then exact. -/
theorem connect_lastClock (self : ClockSync K) (clockFreq sentTime : K) (l : ℤ)
    (samples : Fin 8 → Sample K) (hadv : Sample.Advances l (List.ofFn samples)) :
    (self.connect clockFreq ⟨ofInt (l / 2 ^ 32), ofInt (l % 2 ^ 32), sentTime⟩
      fun i => (samples i).params).Exact (((List.ofFn samples).map Sample.clock).getLastD l) := by
  have hpoll : ∀ (s : ClockSync K) (e : Sample K),
      (s.pollClock e.params).lastClock = extendClock s.lastClock e.params.clock :=
    fun s e => ClockSync.handleClock_lastClock _ e.params
  rw [ClockSync.exact_iff]
  unfold ClockSync.connect final
  exact final_lastClock ClockSync.lastClock hpoll (joinHalves_ofInt l) hadv

theorem connect_lastClock_wrap : ((newClockSync : ClockSync ℚ).connect 16
    ⟨ofInt (4294967295 / 2 ^ 32), ofInt (4294967295 % 2 ^ 32), 0⟩ fun _ =>
      (⟨4294967296, 0, 0⟩ : Sample ℚ).params).Exact 4294967296 :=
  connect_lastClock newClockSync 16 0 4294967295 (fun _ => ⟨4294967296, 0, 0⟩)
    (by simp [Sample.Advances, List.ofFn_succ])

end

/-! ### Calibration -/

namespace SecondarySync

variable {K : Type*} [Field K] [LinearOrder K]

/-- The print times of the two synchronisation points of `Calibrate_clock`. -/
def syncTimes (self : SecondarySync K) (mainSync : ClockSync K) (printTime eventtime : K) : K × K :=
  let (serTime, serClock, serFreq) := mainSync.clockEst
  let estPrintTime := ((eventtime - serTime) * serFreq + serClock) / mainSync.mcuFreq
  let sync1PrintTime := max printTime estPrintTime
  (sync1PrintTime, max (max (sync1PrintTime + 4) self.lastSyncTime)
    (printTime + 5 / 2 * (printTime - estPrintTime)))

variable [FloorRing K]

/-- The clock that is estimated for the second point. -/
def sync2Clock (self : SecondarySync K) (mainSync : ClockSync K) (sync2PrintTime : K) : Int64 :=
  let (serTime, serClock, serFreq) := mainSync.clockEst
  self.getClock (serTime + (sync2PrintTime * mainSync.mcuFreq - serClock) / serFreq)

/-- What happens to a secondary synchroniser: it is calibrated, or it gets a `clock` response. -/
inductive Event (K : Type*) where
  | calibrateClock (mainSync : ClockSync K) (printTime eventtime : K)
  | handleClock (params : ClockParams K)

def step [HasSqrt K] (self : SecondarySync K) : Event K → SecondarySync K
  | .calibrateClock mainSync printTime eventtime => self.calibrateClock mainSync printTime eventtime
  | .handleClock params => (self.handleClock params).1

/-- The new mapping goes through both points, and through the first one the old mapping went too. -/
structure Continuous (old new : SecondarySync K) (sync1PrintTime sync2PrintTime : K)
    (sync2Clock : Int64) : Prop where
  first : new.printTimeToClock sync1PrintTime = old.printTimeToClock sync1PrintTime
  second : new.printTimeToClock sync2PrintTime = sync2Clock
  apart : 4 ≤ sync2PrintTime - sync1PrintTime
  back : new.clockToPrintTime (old.printTimeToClock sync1PrintTime) = sync1PrintTime

/-- A calibration whose two points have different clocks is continuous. -/
def CalibratesContinuously [HasSqrt K] (self : SecondarySync K) : Event K → Prop
  | .calibrateClock mainSync printTime eventtime =>
    let (sync1PrintTime, sync2PrintTime) := self.syncTimes mainSync printTime eventtime
    self.sync2Clock mainSync sync2PrintTime ≠ self.printTimeToClock sync1PrintTime →
      Continuous self (self.calibrateClock mainSync printTime eventtime) sync1PrintTime
        sync2PrintTime (self.sync2Clock mainSync sync2PrintTime)
  | .handleClock _ => True

/-- A mapping of slope `(c₂ - c₁) / (t₂ - t₁)` through `(t₁, c₁)`. -/
theorem continuous_of_clockAdj [IsStrictOrderedRing K] {old new : SecondarySync K} {t₁ t₂ : K}
    {c₂ : Int64} (hc : c₂ ≠ old.printTimeToClock t₁) (ht : 4 ≤ t₂ - t₁) (hnew : new.clockAdj =
      (t₁ - ((old.printTimeToClock t₁).toInt : K) /
          (((c₂ - old.printTimeToClock t₁).toInt : K) / (t₂ - t₁)),
        ((c₂ - old.printTimeToClock t₁).toInt : K) / (t₂ - t₁))) :
    Continuous old new t₁ t₂ c₂ := by
  set c₁ := old.printTimeToClock t₁
  have hdiff : ((c₂ - c₁).toInt : K) ≠ 0 := by
    rw [Int.cast_ne_zero]
    intro hzero
    have hsub : c₂ - c₁ = 0 := toInt_inj.mp (hzero.trans toInt_zero.symm)
    exact hc ((Int64.sub_eq_iff_eq_add.mp hsub).trans (Int64.zero_add c₁))
  have hspan : t₂ - t₁ ≠ 0 := by
    intro hzero
    rw [hzero] at ht
    exact absurd ht (by norm_num)
  refine ⟨?_, ?_, ht, ?_⟩
  · rw [printTimeToClock, hnew]
    dsimp only
    rw [sub_sub_cancel, div_mul_cancel₀ _ (div_ne_zero hdiff hspan), trunc_intCast, ofInt_toInt]
  · -- the difference may wrap around, and is then put back
    have hsum : (t₂ - (t₁ - (c₁.toInt : K) / (((c₂ - c₁).toInt : K) / (t₂ - t₁)))) *
        (((c₂ - c₁).toInt : K) / (t₂ - t₁)) = (((c₂ - c₁).toInt + c₁.toInt : ℤ) : K) := by
      rw [Int.cast_add]
      field_simp
      ring
    rw [printTimeToClock, hnew]
    dsimp only
    rw [hsum, trunc_intCast, ofInt_add, ofInt_toInt, ofInt_toInt, Int64.sub_add_cancel]
  · rw [clockToPrintTime, hnew]
    dsimp only
    rw [add_sub_cancel]

/-- Along every run every calibration is continuous. -/
theorem calibration_continuous [IsStrictOrderedRing K] [HasSqrt K] (self : SecondarySync K)
    (events : List (Event K)) :
    Along step CalibratesContinuously self events := by
  refine along_of_kept (I := fun _ => True) (fun _ _ _ => trivial) (fun s e _ => ?_) trivial events
  rcases e with ⟨mainSync, printTime, eventtime⟩ | params
  · intro hclocks
    refine continuous_of_clockAdj hclocks ?_ rfl
    exact le_sub_iff_add_le'.mpr ((le_max_left _ _).trans (le_max_left _ _))
  · trivial

/-- Two clocks of one frequency, calibrated once. -/
theorem calibration_continuous_once :
    let clock : ClockSync ℚ := { newClockSync with mcuFreq := 100, clockEst := (0, 0, 100) }
    Along step CalibratesContinuously ⟨clock, (0, 100), 0⟩ [.calibrateClock clock 1 2] :=
  calibration_continuous _ _

end SecondarySync

end Serialhdl
