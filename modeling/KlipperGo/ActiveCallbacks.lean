/-
Callbacks that wait until a stepper is active (`Generate_steps` of
`internal/pkg/mcu/legacy_stepper.go`, `GenerateSteps` of `timing.go`).

The callbacks are copied into a temporary state, run if the stepper is found
active, and what is left of the copy is written back.  A callback may register
others on the stepper while it runs; registrations are numbered in the order
they are made.

* `runCallbacks_of_quiet`, `runCallbacks_registered` — what running the callbacks leaves;
* `generateSteps_served_iff` — with such registrations, something is lost.
-/
import KlipperGo.Runs
import Mathlib.Algebra.Order.Ring.Int
import Mathlib.Data.List.Range

open Runs

namespace Mcu

/-- The callbacks of a `LegacyStepper`, by their registrations, and how many registrations there
have been. -/
structure StepperCallbacks where
  activeCallbacks : List ℕ
  registered : ℕ
  deriving DecidableEq

/-- What a callback does when it is run: it registers callbacks on the stepper, and may panic. -/
structure CallbackRun where
  registers : ℕ
  panics : Bool

namespace StepperCallbacks

/-- `Add_active_callback`, some times in a row. -/
def addActiveCallbacks (self : StepperCallbacks) (n : ℕ) : StepperCallbacks :=
  { activeCallbacks := self.activeCallbacks ++ List.range' self.registered n
    registered := self.registered + n }

/-- The loop over the copied callbacks: the stepper after it, the callbacks that were run, and
whether the last of them panicked. -/
def runCallbacks (run : ℕ → CallbackRun) :
    StepperCallbacks → List ℕ → StepperCallbacks × List ℕ × Bool
  | self, [] => (self, [], false)
  | self, cb :: callbacks =>
    let self := self.addActiveCallbacks (run cb).registers
    if (run cb).panics then (self, [cb], true)
    else
      let (self, called, panicked) := runCallbacks run self callbacks
      (self, cb :: called, panicked)

variable {K : Type*} [Zero K] [LinearOrder K]

/-- `Generate_steps` up to where the steps are generated, with the callbacks that it runs.  What is
written back is what the temporary state holds: nothing once the callbacks are run.  After a panic
nothing is written back. -/
def generateSteps (self : StepperCallbacks) (activeTime : K) (run : ℕ → CallbackRun) :
    StepperCallbacks × List ℕ :=
  if self.activeCallbacks ≠ [] ∧ 0 < activeTime then
    match self.runCallbacks run self.activeCallbacks with
    | (self, called, true) => (self, called)
    | (self, called, false) => ({ self with activeCallbacks := [] }, called)
  else (self, [])

end StepperCallbacks

/-- A registration from outside, or step generation with what `CheckActive` finds. -/
inductive CallbackEvent (K : Type*) where
  | addActiveCallback
  | generateSteps (activeTime : K) (run : ℕ → CallbackRun)

/-- A stepper, and the registrations made since the last step generation that found it active
began. -/
structure WaitingStepper where
  stepper : StepperCallbacks
  awaiting : List ℕ
  deriving DecidableEq

namespace WaitingStepper

variable {K : Type*} [Zero K] [LinearOrder K]

def newStepper : WaitingStepper := ⟨⟨[], 0⟩, []⟩

variable (self : WaitingStepper)

def called : CallbackEvent K → List ℕ
  | .addActiveCallback => []
  | .generateSteps activeTime run => (self.stepper.generateSteps activeTime run).2

def step : CallbackEvent K → WaitingStepper
  | .addActiveCallback =>
    ⟨self.stepper.addActiveCallbacks 1, self.awaiting ++ [self.stepper.registered]⟩
  | .generateSteps activeTime run =>
    let stepper := (self.stepper.generateSteps activeTime run).1
    let made := stepper.registered - self.stepper.registered
    ⟨stepper, if 0 < activeTime then List.range' self.stepper.registered made else self.awaiting⟩

/-- The callbacks that an event should run: all that wait, if the stepper is found active. -/
def due : CallbackEvent K → List ℕ
  | .addActiveCallback => []
  | .generateSteps activeTime _ => if 0 < activeTime then self.awaiting else []

/-- The event runs the callbacks that are due, and none that still waits is lost. -/
def Served (e : CallbackEvent K) : Prop :=
  self.called e = self.due e ∧ (self.step e).stepper.activeCallbacks = (self.step e).awaiting

def Quiet : CallbackEvent K → Prop
  | .addActiveCallback => True
  | .generateSteps activeTime run => 0 < activeTime →
    ∀ cb ∈ self.stepper.activeCallbacks, (run cb).registers = 0 ∧ (run cb).panics = false

end WaitingStepper

namespace StepperCallbacks

variable {run : ℕ → CallbackRun} {callbacks : List ℕ} (self : StepperCallbacks)

theorem addActiveCallbacks_zero : self.addActiveCallbacks 0 = self := by
  simp [addActiveCallbacks]

theorem addActiveCallbacks_add (m n : ℕ) :
    (self.addActiveCallbacks m).addActiveCallbacks n = self.addActiveCallbacks (m + n) := by
  simp [addActiveCallbacks, ← List.range'_append_1, Nat.add_assoc]

theorem runCallbacks_of_quiet
    (h : ∀ cb ∈ callbacks, (run cb).registers = 0 ∧ (run cb).panics = false) :
    self.runCallbacks run callbacks = (self, callbacks, false) := by
  induction callbacks with
  | nil => rfl
  | cons cb callbacks ih =>
    obtain ⟨hcb, hrest⟩ := List.forall_mem_cons.mp h
    simp [runCallbacks, hcb.1, hcb.2, addActiveCallbacks_zero, ih hrest]

/-- Running callbacks adds registrations; if it adds none and nothing panics, all were quiet. -/
theorem runCallbacks_registered (run : ℕ → CallbackRun) (callbacks : List ℕ)
    (self : StepperCallbacks) :
    ∃ n called panicked,
      self.runCallbacks run callbacks = (self.addActiveCallbacks n, called, panicked) ∧
      (panicked = false → n = 0 →
        ∀ cb ∈ callbacks, (run cb).registers = 0 ∧ (run cb).panics = false) := by
  induction callbacks generalizing self with
  | nil => exact ⟨0, [], false, by rw [addActiveCallbacks_zero]; rfl, by simp⟩
  | cons cb callbacks ih =>
    rcases hp : (run cb).panics with _ | _
    · obtain ⟨n, called, panicked, hrun, hquiet⟩ := ih (self.addActiveCallbacks (run cb).registers)
      refine ⟨(run cb).registers + n, cb :: called, panicked, ?_, fun hpanicked hn => ?_⟩
      · simp [runCallbacks, hp, hrun, addActiveCallbacks_add]
      · exact List.forall_mem_cons.mpr ⟨⟨by omega, hp⟩, hquiet hpanicked (by omega)⟩
    · exact ⟨(run cb).registers, [cb], true, by simp [runCallbacks, hp], by simp⟩

end StepperCallbacks

namespace WaitingStepper

variable {K : Type*} [Zero K] [LinearOrder K] {self : WaitingStepper}

theorem generateSteps_served_iff (h : self.stepper.activeCallbacks = self.awaiting) (activeTime : K)
    (run : ℕ → CallbackRun) :
    self.Served (.generateSteps activeTime run) ↔ self.Quiet (.generateSteps activeTime run) := by
  obtain ⟨stepper, awaiting⟩ := self
  obtain rfl : stepper.activeCallbacks = awaiting := h
  by_cases hactive : 0 < activeTime
  · rcases hcallbacks : stepper.activeCallbacks with _ | ⟨cb, callbacks⟩
    · -- there is nothing to run
      simp [Served, Quiet, called, due, step, StepperCallbacks.generateSteps, hcallbacks]
    · obtain ⟨n, called', panicked, hrun, hquiet⟩ :=
        StepperCallbacks.runCallbacks_registered run stepper.activeCallbacks stepper
      have hne : stepper.activeCallbacks ≠ [] := by simp [hcallbacks]
      rw [← hcallbacks]
      constructor
      · rintro ⟨-, hkept⟩ -
        rcases panicked with _ | _
        · -- what was registered meanwhile has been overwritten
          simp [step, StepperCallbacks.generateSteps, hne, hactive, hrun,
            StepperCallbacks.addActiveCallbacks] at hkept
          exact hquiet rfl hkept
        · -- the callbacks that were run are still there
          simp [step, StepperCallbacks.generateSteps, hne, hactive, hrun,
            StepperCallbacks.addActiveCallbacks] at hkept
      · intro hq
        have hall := StepperCallbacks.runCallbacks_of_quiet stepper (hq hactive)
        simp [Served, called, due, step, StepperCallbacks.generateSteps, hne, hactive, hall]
  · simp [Served, Quiet, called, due, step, StepperCallbacks.generateSteps, hactive]

/-- Along a run the callbacks are served exactly if none of them registers others or panics while
it is run. -/
theorem active_callbacks_served_iff (events : List (CallbackEvent K)) :
    Along step Served newStepper events ↔ Along step Quiet newStepper events := by
  refine along_iff_of_invariant
    (I := fun s : WaitingStepper => s.stepper.activeCallbacks = s.awaiting)
    (fun s e _ hserved => hserved.2) (fun s e hs => ?_) rfl
  rcases e with _ | ⟨activeTime, run⟩
  · simp [Served, Quiet, called, due, step, StepperCallbacks.addActiveCallbacks, hs]
  · exact generateSteps_served_iff hs activeTime run

/-- A callback that registers one on the stepper: the new one is not there when the stepper is
found active again. -/
theorem registered_while_run_lost :
    let first := CallbackEvent.generateSteps (1 : ℤ) fun _ => ⟨1, false⟩
    let second := CallbackEvent.generateSteps (2 : ℤ) fun _ => ⟨0, false⟩
    let self := final step newStepper [.addActiveCallback, first]
    self.due second = [1] ∧ self.called second = [] ∧
      ¬ Along step Served newStepper [.addActiveCallback, first, second] := by
  refine ⟨by decide, by decide, ?_⟩
  rintro ⟨-, ⟨-, hkept⟩, -⟩
  exact absurd hkept (by decide)

end WaitingStepper

end Mcu
