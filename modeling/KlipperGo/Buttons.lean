/-
Buttons on the pins of a micro-controller (`internal/pkg/io/buttons.go`).

The micro-controller sends the samples of the pins until they are acknowledged.  A message has
the low byte of the index of its first sample; the host finds out which of its samples are new,
acknowledges them and schedules their handling.
-/
import KlipperGo.GoRuntime
import KlipperGo.Returns
import KlipperGo.Runs
import Mathlib.Data.BitVec

open GoRuntime List Outcome

namespace Buttons

structure ButtonPinConfig where
  invert : Bool

/-- The pins of each callback. -/
abbrev Groups := List (List ButtonPinConfig)

/-- A callback is known by its place. -/
structure DigitalButtonCallback where
  mask : BitVec 64
  shift : ℕ

structure DigitalButtonState where
  pinCount : ℕ
  invertMask : BitVec 64
  lastButton : BitVec 64
  ackCount : ℤ
  callbacks : List DigitalButtonCallback

namespace DigitalButtonState

def newDigitalButtonState : DigitalButtonState := ⟨0, 0, 0, 0, []⟩

/-- One pin of `AddPins`, with the mask so far. -/
def addPin (self : DigitalButtonState × BitVec 64) (pin : ButtonPinConfig) :
    DigitalButtonState × BitVec 64 :=
  let bit := 1#64 <<< self.1.pinCount
  ({ self.1 with
      invertMask := if pin.invert then self.1.invertMask ||| bit else self.1.invertMask
      pinCount := self.1.pinCount + 1 }, self.2 ||| bit)

variable (self : DigitalButtonState)

def addPins (pins : List ButtonPinConfig) : DigitalButtonState :=
  let added := pins.foldl addPin (self, 0#64)
  { added.1 with callbacks := added.1.callbacks ++ [⟨added.2, self.pinCount⟩] }

/-- `HandleButtonsState`, with what is acknowledged and the work that is scheduled.  There is no
result if the slice of the new samples is out of range. -/
def handleButtonsState (msgAckCount : ℤ) (buttons : List (BitVec 64)) :
    Option (List ℤ × List (BitVec 64) × DigitalButtonState) :=
  let ackDiff := (self.ackCount - msgAckCount) % 256
  let ackDiff := if 128 ≤ ackDiff then ackDiff - 256 else ackDiff
  let fullAckCount := self.ackCount - ackDiff
  let newCount := fullAckCount + buttons.length - self.ackCount
  if newCount ≤ 0 then some ([], [], self)
  else if buttons.length < newCount then none
  else some ([newCount], buttons.drop (buttons.length - newCount).toNat,
    { self with ackCount := self.ackCount + newCount })

/-- `HandleButton`, with the callbacks that are called: their place, the time and the value. -/
def handleButton {K : Type} (eventtime : K) (button : BitVec 64) :
    List (ℕ × K × BitVec 64) × DigitalButtonState :=
  let button := button ^^^ self.invertMask
  let changed := button ^^^ self.lastButton
  (self.callbacks.zipIdx.filterMap fun (item, j) =>
    if changed &&& item.mask ≠ 0#64 then
      some (j, eventtime, (button &&& item.mask).sshiftRight item.shift)
    else none,
  { self with lastButton := button })

end DigitalButtonState

open DigitalButtonState

/-! ### The pins of the callbacks -/

variable {K : Type} {groups : Groups} {samples : ℕ → BitVec 64} {i j n : ℕ}

/-- The state with the pins of each callback. -/
def configured (groups : Groups) : DigitalButtonState :=
  groups.foldl addPins newDigitalButtonState

/-- The pin is one of the callback. -/
def PinOf (groups : Groups) (j i : ℕ) : Prop :=
  (groups.take j).flatten.length ≤ i ∧ i < (groups.take (j + 1)).flatten.length

def inverted (groups : Groups) (i : ℕ) : Bool :=
  groups.flatten[i]?.any (·.invert)

theorem getLsbD_bit (hi : i < 64) (k : ℕ) : (1#64 <<< k).getLsbD i = decide (i = k) := by
  by_cases hlt : i < k
  · simp [hlt, hlt.ne]
  · have heq : i - k = 0 ↔ i = k := by omega
    simp [hi, hlt, heq]

/-- What the loop over the pins does. -/
structure Added (st : DigitalButtonState) (pins : List ButtonPinConfig)
    (added : DigitalButtonState × BitVec 64) : Prop where
  pinCount : added.1.pinCount = st.pinCount + pins.length
  others : { added.1 with pinCount := st.pinCount, invertMask := st.invertMask } = st
  mask : ∀ i < 64, (added.2.getLsbD i ↔ st.pinCount ≤ i ∧ i < st.pinCount + pins.length)
  invertMask : ∀ i < 64, added.1.invertMask.getLsbD i = (st.invertMask.getLsbD i ||
    (decide (st.pinCount ≤ i) && pins[i - st.pinCount]?.any (·.invert)))

theorem added_foldl (st : DigitalButtonState) (pins : List ButtonPinConfig) :
    Added st pins (pins.foldl addPin (st, 0#64)) := by
  induction pins using reverseRecOn with
  | nil => exact ⟨rfl, rfl, fun i _ => by simp, by simp⟩
  | append_singleton pins pin ih =>
    rw [foldl_concat]
    refine ⟨?_, ih.others, fun i hi => ?_, fun i hi => ?_⟩
    · simp [addPin, ih.pinCount, Nat.add_assoc]
    · simp only [addPin, BitVec.getLsbD_or, getLsbD_bit hi, ih.pinCount, Bool.or_eq_true,
        ih.mask i hi, decide_eq_true_eq, length_append, length_singleton]
      omega
    · have hold := ih.invertMask i hi
      simp only [addPin, ih.pinCount]
      grind

/-- The masks have the bits of the pins, and of the inverted ones. -/
structure Configured (groups : Groups) (st : DigitalButtonState) : Prop where
  pinCount : st.pinCount = groups.flatten.length
  lastButton : st.lastButton = 0#64
  ackCount : st.ackCount = 0
  length : st.callbacks.length = groups.length
  mask : ∀ j item, st.callbacks[j]? = some item → ∀ i < 64, (item.mask.getLsbD i ↔ PinOf groups j i)
  invertMask : ∀ i < 64, st.invertMask.getLsbD i = inverted groups i

theorem configured_spec (groups : Groups) : Configured groups (configured groups) := by
  induction groups using reverseRecOn with
  | nil =>
    exact ⟨rfl, rfl, rfl, rfl, by simp [configured, newDigitalButtonState],
      by simp [configured, newDigitalButtonState, inverted]⟩
  | append_singleton groups pins ih =>
    have hstep : configured (groups ++ [pins]) = (configured groups).addPins pins :=
      foldl_concat _ _ _ _
    have hadded := added_foldl (configured groups) pins
    have hcallbacks : (pins.foldl addPin (configured groups, 0#64)).1.callbacks =
        (configured groups).callbacks := (congrArg callbacks hadded.others :)
    rw [hstep]
    refine ⟨?_, (congrArg lastButton hadded.others).trans ih.lastButton,
      (congrArg ackCount hadded.others).trans ih.ackCount, ?_, fun j item hitem i hi => ?_,
      fun i hi => ?_⟩
    · simp [addPins, hadded.pinCount, ih.pinCount]
    · simp [addPins, hcallbacks, ih.length]
    · simp only [addPins, hcallbacks] at hitem
      rcases Nat.lt_or_ge j groups.length with hj | hj
      · rw [getElem?_append_left (by rwa [ih.length])] at hitem
        rw [ih.mask j item hitem i hi, PinOf, PinOf, take_append_of_le_length hj.le,
          take_append_of_le_length hj]
      · rw [getElem?_append_right (by rwa [ih.length]), ih.length] at hitem
        rw [getElem?_singleton] at hitem
        split_ifs at hitem with hzero
        cases hitem
        obtain rfl : j = groups.length := by omega
        rw [hadded.mask i hi, ih.pinCount, PinOf, take_left, take_of_length_le (by simp),
          flatten_append, flatten_singleton, length_append]
    · show (pins.foldl addPin (configured groups, 0#64)).1.invertMask.getLsbD i = _
      rw [hadded.invertMask i hi, ih.invertMask i hi, ih.pinCount, inverted, inverted]
      grind

/-! ### Runs of messages and scheduled work -/

structure ButtonRun (K : Type) where
  state : DigitalButtonState
  acks : List ℤ
  scheduled : List (BitVec 64)
  handled : List (BitVec 64)
  /-- The callbacks that were called for each handled sample. -/
  calls : List (List (ℕ × K × BitVec 64))
  panicked : Bool

inductive ButtonEvent (K : Type) where
  | message (start count : ℕ)
  | work (eventtime : K)

def ButtonRun.start (groups : Groups) : ButtonRun K :=
  ⟨configured groups, [], [], [], [], false⟩

/-- A message has samples of the stream.  The scheduled work is done in order. -/
def ButtonRun.step (samples : ℕ → BitVec 64) (s : ButtonRun K) : ButtonEvent K → ButtonRun K
  | .message start count =>
    match s.state.handleButtonsState (start % 256 : ℕ) ((range' start count).map samples) with
    | none => { s with panicked := true }
    | some (acks, work, state) =>
      { s with state, acks := s.acks ++ acks, scheduled := s.scheduled ++ work }
  | .work eventtime =>
    match s.scheduled with
    | [] => s
    | button :: scheduled =>
      let (calls, state) := s.state.handleButton eventtime button
      { s with state, scheduled, handled := s.handled ++ [button], calls := s.calls ++ [calls] }

/-- A message starts at most 127 samples before the acknowledged count. -/
def InWindow (s : ButtonRun K) : ButtonEvent K → Prop
  | .message start _ => start ≤ s.state.ackCount ∧ s.state.ackCount ≤ start + 127
  | .work _ => True

/-- The corrected value of a pin before a sample; at first the pins are off. -/
def level (groups : Groups) (samples : ℕ → BitVec 64) : ℕ → ℕ → Bool
  | 0, _ => false
  | n + 1, i => (samples n).getLsbD i ^^ inverted groups i

/-- What was sent, handled and called in a run over a stream of samples. -/
structure Handled (groups : Groups) (samples : ℕ → BitVec 64) (s : ButtonRun K) : Prop where
  returned : s.panicked = false
  ackCount : s.state.ackCount = (s.handled ++ s.scheduled).length
  inOrder : s.handled ++ s.scheduled = (range (s.handled ++ s.scheduled).length).map samples
  acks : s.acks.sum = s.state.ackCount
  length : s.calls.length = s.handled.length
  calls : ∀ n calls, s.calls[n]? = some calls → ∀ j < groups.length,
    ((∃ call ∈ calls, call.1 = j) ↔
      ∃ i < 64, PinOf groups j i ∧ level groups samples n i ≠ level groups samples (n + 1) i)
  callbacks : s.state.callbacks = (configured groups).callbacks
  invertMask : s.state.invertMask = (configured groups).invertMask
  lastButton : ∀ i < 64, s.state.lastButton.getLsbD i = level groups samples s.handled.length i

theorem changed_iff (v u mask : BitVec 64) :
    (v ^^^ u) &&& mask ≠ 0#64 ↔ ∃ i < 64, mask.getLsbD i ∧ u.getLsbD i ≠ v.getLsbD i := by
  rw [Ne, BitVec.eq_of_getLsbD_eq_iff]
  simp only [BitVec.getLsbD_and, BitVec.getLsbD_xor, BitVec.getLsbD_zero, not_forall, exists_prop]
  refine exists_congr fun i => and_congr_right fun hi => ?_
  cases mask.getLsbD i <;> cases u.getLsbD i <;> cases v.getLsbD i <;> decide

variable {s : ButtonRun K}

/-- A callback is called if one of its pins has changed. -/
theorem called_iff (h : Handled groups samples s) (eventtime : K) (hj : j < groups.length) :
    (∃ call ∈ (s.state.handleButton eventtime (samples s.handled.length)).1, call.1 = j) ↔
      ∃ i < 64, PinOf groups j i ∧ level groups samples s.handled.length i ≠
        level groups samples (s.handled.length + 1) i := by
  have hspec := configured_spec groups
  obtain ⟨item, hitem⟩ : ∃ item, s.state.callbacks[j]? = some item :=
    ⟨_, getElem?_eq_getElem (by rwa [h.callbacks, hspec.length])⟩
  have hcall : (∃ call ∈ (s.state.handleButton eventtime (samples s.handled.length)).1,
      call.1 = j) ↔ (samples s.handled.length ^^^ s.state.invertMask ^^^ s.state.lastButton) &&&
        item.mask ≠ 0#64 := by
    constructor
    · rintro ⟨call, hcall, rfl⟩
      obtain ⟨⟨item', j⟩, hmem, hsome⟩ := mem_filterMap.mp hcall
      dsimp only at hsome
      split_ifs at hsome with hne
      cases hsome
      cases hitem.symm.trans (mem_zipIdx_iff_getElem?.mp hmem)
      exact hne
    · intro hne
      exact ⟨_, mem_filterMap.mpr
        ⟨(item, j), mem_zipIdx_iff_getElem?.mpr hitem, if_pos hne⟩, rfl⟩
  rw [hcall, changed_iff]
  refine exists_congr fun i => and_congr_right fun hi => ?_
  rw [hspec.mask j item (h.callbacks ▸ hitem) i hi, h.lastButton i hi, BitVec.getLsbD_xor,
    h.invertMask, hspec.invertMask i hi]
  rfl

/-- Of a message in the window, the samples that were not acknowledged are taken. -/
theorem handleButtonsState_eq {st : DigitalButtonState} {start : ℕ} (samples : ℕ → BitVec 64)
    (count : ℕ) (hn : st.ackCount = n) (hle : start ≤ n) (hwindow : n ≤ start + 127) :
    ∃ acks, st.handleButtonsState (start % 256 : ℕ)
      ((range' start count).map samples) =
        some (acks, (range' n (start + count - n)).map samples,
          { st with ackCount := (n + (start + count - n) : ℕ) }) ∧
      acks.sum = (start + count - n : ℕ) := by
  have hdiff : ((n : ℤ) - (start % 256 : ℕ)) % 256 = n - start := by omega
  have hnot : ¬ 128 ≤ (n : ℤ) - start := by omega
  simp only [handleButtonsState, hn, hdiff, if_neg hnot, length_map, length_range']
  by_cases hcount : start + count ≤ n
  · rw [if_pos (by omega), Nat.sub_eq_zero_of_le hcount]
    exact ⟨[], by simp [← hn], rfl⟩
  · have hnew : (n : ℤ) - (n - start) + count - n = (start + count - n : ℕ) := by omega
    have hdrop : ((count : ℤ) - (start + count - n : ℕ)).toNat = n - start := by omega
    rw [hnew, if_neg (by omega), if_neg (by omega), hdrop, ← map_drop, drop_range',
      show start + (n - start) * 1 = n by omega,
      show count - (n - start) = start + count - n by omega]
    exact ⟨_, rfl, by simp⟩

/-- A message in the window of the counter is taken for the new samples in it. -/
theorem handled_step {e : ButtonEvent K} (h : Handled groups samples s) (he : InWindow s e) :
    Handled groups samples (s.step samples e) := by
  cases e with
  | message start count =>
    obtain ⟨hle, hwindow⟩ := he
    rw [h.ackCount] at hle hwindow
    obtain ⟨acks, hmessage, hsum⟩ := handleButtonsState_eq samples count h.ackCount
      (by exact_mod_cast hle) (by exact_mod_cast hwindow)
    simp only [ButtonRun.step, hmessage]
    refine ⟨h.returned, ?_, ?_, ?_, h.length, h.calls, h.callbacks, h.invertMask, h.lastButton⟩
    · rw [← append_assoc, @length_append _ _ (map _ _), length_map, length_range']
    · rw [← append_assoc, @length_append _ _ (map _ _), length_map,
        length_range', range_eq_range', ← range'_append_1, map_append,
        ← range_eq_range', ← h.inOrder, Nat.zero_add]
    · rw [sum_append, h.acks, hsum, h.ackCount, Nat.cast_add]
  | work eventtime =>
    cases hwork : s.scheduled with
    | nil => simpa [ButtonRun.step, hwork] using h
    | cons button scheduled =>
      have hsame : s.handled ++ [button] ++ scheduled = s.handled ++ s.scheduled := by simp [hwork]
      have hbutton : button = samples s.handled.length := by
        have hget := congrArg (·[s.handled.length]?) h.inOrder
        simpa [hwork] using hget
      simp only [ButtonRun.step, hwork]
      refine ⟨h.returned, by rw [hsame]; exact h.ackCount, by rw [hsame]; exact h.inOrder, h.acks,
        by simp [h.length], fun n calls hcalls j hj => ?_, h.callbacks, h.invertMask,
        fun i hi => ?_⟩
      · rcases Nat.lt_or_ge n s.calls.length with hn | hn
        · rw [getElem?_append_left hn] at hcalls
          exact h.calls n calls hcalls j hj
        · rw [getElem?_append_right hn, getElem?_singleton, h.length] at hcalls
          split_ifs at hcalls with hzero
          cases hcalls
          obtain rfl : n = s.handled.length := by have := h.length; omega
          rw [hbutton, called_iff h eventtime hj]
      · rw [hbutton, length_append]
        simp [handleButton, level, h.invertMask, (configured_spec groups).invertMask i hi]

/-- One more than the last sample in any of the messages. -/
def sent : List (ButtonEvent K) → ℕ
  | [] => 0
  | .message start count :: es => max (start + count) (sent es)
  | .work _ :: es => sent es

/-- All samples up to the last one sent are acknowledged. -/
theorem ackCount_final {es : List (ButtonEvent K)} (h : Handled groups samples s)
    (hes : Runs.Along (ButtonRun.step samples) InWindow s es) :
    (Runs.final (ButtonRun.step samples) s es).state.ackCount =
      max s.state.ackCount (sent es : ℕ) := by
  induction es generalizing s with
  | nil =>
    rw [Runs.final_nil, sent, h.ackCount]
    exact (max_eq_left (Int.natCast_nonneg _)).symm
  | cons e es ih =>
    rw [Runs.final_cons, ih (handled_step h hes.1) hes.2]
    cases e with
    | message start count =>
      obtain ⟨hle, hwindow⟩ := hes.1
      rw [h.ackCount] at hle hwindow
      obtain ⟨acks, hmessage, -⟩ := handleButtonsState_eq samples count h.ackCount
        (by exact_mod_cast hle) (by exact_mod_cast hwindow)
      simp only [ButtonRun.step, hmessage, sent, h.ackCount]
      omega
    | work eventtime =>
      cases hwork : s.scheduled with
      | nil => simp only [ButtonRun.step, hwork, sent]
      | cons button scheduled => simp only [ButtonRun.step, hwork, sent, handleButton]

/-- **Every sample is handled exactly once**, up to the last one that was sent. -/
theorem samples_handled_once (groups : Groups) (samples : ℕ → BitVec 64) (es : List (ButtonEvent K))
    (h : Runs.Along (ButtonRun.step samples) InWindow (.start groups) es) :
    Handled groups samples (Runs.final (ButtonRun.step samples) (.start groups) es) ∧
      (Runs.final (ButtonRun.step samples) (.start groups) es).state.ackCount = sent es := by
  have hspec := configured_spec groups
  have hstart : Handled groups samples (.start groups : ButtonRun K) := by
    refine ⟨rfl, hspec.ackCount, rfl, hspec.ackCount.symm, rfl, by simp [ButtonRun.start], rfl, rfl,
      fun i _ => ?_⟩
    show (configured groups).lastButton.getLsbD i = false
    rw [hspec.lastButton, BitVec.getLsbD_zero]
  refine ⟨Runs.final_of_invariant (fun s e => handled_step) hstart h, ?_⟩
  rw [ackCount_final hstart h, hstart.ackCount]
  exact max_eq_right (Int.natCast_nonneg _)

theorem samples_handled_once_overlap :
    let s : ButtonRun ℕ := Runs.final (ButtonRun.step (BitVec.ofNat 64))
      (.start [[⟨false⟩], [⟨true⟩]]) [.message 0 2, .work 5, .message 1 3]
    Handled [[⟨false⟩], [⟨true⟩]] (BitVec.ofNat 64) s ∧ s.state.ackCount = 4 :=
  samples_handled_once _ _ _ ⟨⟨by decide, by decide⟩, trivial, ⟨by decide, by decide⟩, trivial⟩

/-! ### Rotary encoders -/

inductive Rotation where
  | cw
  | ccw
  deriving DecidableEq

/-- The encoder; its callbacks are known by their direction. -/
structure RotaryEncoder where
  encoderState : ℕ
  states : List (List ℕ)
  rDirCW : ℕ
  rDirCCW : ℕ
  rDirMask : ℕ
  deriving DecidableEq

namespace RotaryEncoder

/-- `Encoder_callback`, with the callback that it makes. -/
def encoderCallback (self : RotaryEncoder) (state : ℕ) :
    Except Panic (RotaryEncoder × Option Rotation) := do
  let row ← index self.states (self.encoderState &&& 0xf)
  let es ← index row (state &&& 0x3)
  return ({ self with encoderState := es },
    if es &&& self.rDirMask = self.rDirCW then some .cw
    else if es &&& self.rDirMask = self.rDirCCW then some .ccw
    else none)

def newFullStepRotaryEncoder : RotaryEncoder :=
  let (rStart, rDirCW, rDirCCW) := (0x0, 0x10, 0x20)
  let (rCWFinal, rCWBegin, rCWNext) := (0x1, 0x2, 0x3)
  let (rCCWBegin, rCCWFinal, rCCWNext) := (0x4, 0x5, 0x6)
  { encoderState := rStart, rDirCW, rDirCCW, rDirMask := 0x30
    states :=
      [[rStart, rCWBegin, rCCWBegin, rStart],
        [rCWNext, rStart, rCWFinal, rStart ||| rDirCW],
        [rCWNext, rCWBegin, rStart, rStart],
        [rCWNext, rCWBegin, rCWFinal, rStart],
        [rCCWNext, rStart, rCCWBegin, rStart],
        [rCCWNext, rCCWFinal, rStart, rStart ||| rDirCCW],
        [rCCWNext, rCCWFinal, rCCWBegin, rStart]] }

def newHalfStepRotaryEncoder : RotaryEncoder :=
  let (rStart, rDirCW, rDirCCW) := (0x0, 0x10, 0x20)
  let (rCCWBegin, rCWBegin, rStartM) := (0x1, 0x2, 0x3)
  let (rCWBeginM, rCCWBeginM) := (0x4, 0x5)
  { encoderState := rStart, rDirCW, rDirCCW, rDirMask := 0x30
    states :=
      [[rStartM, rCWBegin, rCCWBegin, rStart],
        [rStartM ||| rDirCCW, rStart, rCCWBegin, rStart],
        [rStartM ||| rDirCW, rCWBegin, rStart, rStart],
        [rStartM, rCCWBeginM, rCWBeginM, rStart],
        [rStartM, rStartM, rCWBeginM, rStart ||| rDirCW],
        [rStartM, rCCWBeginM, rStartM, rStart ||| rDirCCW]] }

end RotaryEncoder

/-- The encoder, its two pins, the quarters of a cycle that were turned, and the clockwise minus
the counter-clockwise callbacks. -/
structure Walk where
  encoder : RotaryEncoder
  pins : ℕ
  turned : ℤ
  counted : ℤ

def Rotation.sign : Option Rotation → ℤ
  | some .cw => 1
  | some .ccw => -1
  | none => 0

/-- The change of the high or the low pin.  Clockwise the pins are 11, 01, 00 and 10 in turn. -/
def quarter (pins : ℕ) (high : Bool) : ℤ := if (pins = 0 ∨ pins = 3) ↔ high then 1 else -1

namespace Walk

variable (encoder : RotaryEncoder)

def start : Walk := ⟨encoder, 0b11, 0, 0⟩

variable (unit : ℤ) (phases : List Phase) (w : Walk)

def step (high : Bool) : Except Panic Walk := do
  let pins := w.pins ^^^ if high then 0b10 else 0b01
  let (encoder, rotation) ← w.encoder.encoderCallback pins
  return ⟨encoder, pins, w.turned + quarter w.pins high, w.counted + Rotation.sign rotation⟩

/-- A state of the encoder with the pins it stands for, and the quarters not counted yet. -/
structure Phase where
  encoderState : ℕ
  pins : ℕ
  uncounted : ℤ
  deriving DecidableEq

/-- The walk is in one of the phases. -/
def In : Prop :=
  ∃ p ∈ phases, w.encoder = { encoder with encoderState := p.encoderState } ∧ w.pins = p.pins ∧
    w.turned = unit * w.counted + p.uncounted

/-- The changes of the pins lead from phase to phase, and no quarter is lost. -/
theorem in_run
    (hphases : ∀ p ∈ phases, ∀ high, ∃ q ∈ phases, ∃ rotation ∈ [none, some .cw, some .ccw],
      q.pins = (p.pins ^^^ if high then 0b10 else 0b01) ∧
      ({ encoder with encoderState := p.encoderState }).encoderCallback q.pins =
        .ok ({ encoder with encoderState := q.encoderState }, rotation) ∧
      p.uncounted + quarter p.pins high = q.uncounted + unit * Rotation.sign rotation)
    (hstart : (start encoder).In encoder unit phases) (walk : List Bool) :
    Returns (walk.foldlM step (start encoder)) (In encoder unit phases) := by
  refine returns_foldlM (fun w high h => ?_) hstart walk
  obtain ⟨p, hp, hencoder, hpins, hturned⟩ := h
  obtain ⟨q, hq, rotation, -, hq', hcall, hcount⟩ := hphases p hp high
  refine ⟨⟨_, q.pins, w.turned + quarter w.pins high, w.counted + Rotation.sign rotation⟩,
    ?_, q, hq, rfl, rfl, ?_⟩
  · rw [step, hencoder, hpins, ← hq', hcall]
    rfl
  · show w.turned + quarter w.pins high = unit * (w.counted + Rotation.sign rotation) + q.uncounted
    rw [hturned, hpins, mul_add]
    omega

theorem In.turned_eq {encoder : RotaryEncoder} {unit : ℤ} {phases : List Phase} {w : Walk}
    (h : w.In encoder unit phases) (hrest : ∀ p ∈ phases, p.pins = w.pins → p.uncounted = 0) :
    w.turned = unit * w.counted := by
  obtain ⟨p, hp, -, hpins, hturned⟩ := h
  rw [hturned, hrest p hp hpins.symm, add_zero]

def fullPhases : List Phase :=
  [⟨0, 3, 0⟩, ⟨0x10, 3, 0⟩, ⟨0x20, 3, 0⟩, ⟨2, 1, 1⟩, ⟨3, 0, 2⟩, ⟨1, 2, 3⟩, ⟨4, 2, -1⟩, ⟨6, 0, -2⟩,
    ⟨5, 1, -3⟩]

def halfPhases : List Phase :=
  [⟨0, 3, 0⟩, ⟨0x10, 3, 0⟩, ⟨0x20, 3, 0⟩, ⟨3, 0, 0⟩, ⟨0x13, 0, 0⟩, ⟨0x23, 0, 0⟩, ⟨2, 1, 1⟩,
    ⟨1, 2, -1⟩, ⟨4, 2, 1⟩, ⟨5, 1, -1⟩]

/-- At rest the callbacks count the cycles, or the half cycles, that were turned. -/
theorem net_rotation_counted (walk : List Bool) :
    Returns (walk.foldlM step (start .newFullStepRotaryEncoder))
      (fun w => w.pins = 0b11 → w.turned = 4 * w.counted) ∧
    Returns (walk.foldlM step (start .newHalfStepRotaryEncoder))
      (fun w => w.pins = 0b11 ∨ w.pins = 0b00 → w.turned = 2 * w.counted) := by
  have hfull := in_run .newFullStepRotaryEncoder 4 fullPhases (by decide)
    ⟨⟨0, 3, 0⟩, by decide, rfl, rfl, rfl⟩ walk
  have hhalf := in_run .newHalfStepRotaryEncoder 2 halfPhases (by decide)
    ⟨⟨0, 3, 0⟩, by decide, rfl, rfl, rfl⟩ walk
  refine ⟨hfull.mono fun w h hpins => h.turned_eq ?_, hhalf.mono fun w h hpins => h.turned_eq ?_⟩
  · rw [hpins]
    decide
  · rcases hpins with hpins | hpins <;> rw [hpins] <;> decide

end Walk

end Buttons
