/-
Temperature tables (`internal/pkg/heater/adc_algorithms.go`).

A table is sorted by the first component of its samples, from the greatest down,
and turned into segments; a sample on the line of the segment before it is left
out.  A lookup searches for the segment of a key, the reverse one for that of a
value.  Resistance tables are looked up by resistance.  Voltage tables are built
with the temperature as the key, and looked up by the measured voltage all the
same.

* `newLinearInterpolate_falling`, `newLinearInterpolate_of_rises` — which tables are built;
* `interpolate_eq`, `reverseInterpolate_eq` — what the lookups return, and how far they reach;
* `table_converts_iff` — which tables convert correctly, and for which inputs.
-/
import KlipperGo.PiecewiseLinear
import KlipperGo.Returns
import KlipperGo.SortSearch
import Mathlib.Data.List.Sort

open GoRuntime Outcome PiecewiseLinear SortSearch List

namespace Heaters

section Defs

variable {K : Type} [Field K] [LinearOrder K]

structure LinearInterpolate (K : Type) where
  keys : List K
  slopes : List (K × K)
  deriving DecidableEq

/-- The key behind all others. -/
def endKey : K := ((9999999999999 : ℕ) : K)

/-- The table under construction, with the last key and value. -/
structure TableBuild (K : Type) where
  last : Option (K × K)
  keys : List K
  slopes : List (K × K)

/-- One sample of the loop of `NewLinearInterpolate`. -/
def addSample (self : TableBuild K) (item : K × K) : Except String (TableBuild K) :=
  let key := item.2
  let value := item.1
  match self.last with
  | none => .ok { self with last := some (key, value) }
  | some last =>
    if key ≤ last.1 then .error "duplicate value"
    else
      let slopeGain := (value - last.2) / (key - last.1)
      let slopeOffset := last.2 - last.1 * slopeGain
      if self.slopes.getLast? = some (slopeGain, slopeOffset) then .ok self
      else
        .ok { last := some (key, value), keys := self.keys ++ [key]
              slopes := self.slopes ++ [(slopeGain, slopeOffset)] }

variable (self : LinearInterpolate K) (pullup : K) (samples : List (K × K))

def newLinearInterpolate : Except String (LinearInterpolate K) :=
  (bubbleSort Prod.fst samples).foldlM addSample { last := none, keys := [], slopes := [] } >>=
    fun self =>
      if self.keys = [] then .error "dneed at least two samples"
      else
        .ok { keys := self.keys ++ [endKey]
              slopes := self.slopes ++ self.slopes.getLast?.toList }

def LinearInterpolate.interpolate (key : K) : Except Panic K :=
  searchLoop self.keys key 0 self.keys.length >>= fun low =>
    index self.slopes low >>= fun slope => .ok (key * slope.1 + slope.2)

def LinearInterpolate.reverseInterpolate (value : K) : Except Panic K :=
  let values := zipWith (fun key slope => key * slope.1 + slope.2) self.keys self.slopes
  index values 0 >>= fun first =>
    index values (values.length - 2) >>= fun beforeLast =>
      let valid :=
        if first < beforeLast then indicesOf (fun v => value ≤ v) values
        else indicesOf (fun v => v ≤ value) values
      index valid 0 >>= fun validPos =>
        index self.slopes (min validPos (values.length - 1)) >>= fun slope =>
          .ok ((value - slope.2) / slope.1)

/-- The two implementations of `Linear`. -/
inductive Linear (K : Type) where
  | voltage (li : LinearInterpolate K)
  | resistance (pullup : K) (li : LinearInterpolate K)
  deriving DecidableEq

/-- The resistance that `Calc_temp` computes from a reading. -/
def resistanceOf (adc : K) : K :=
  let adc := max (((1 : ℕ) : K) / ((100000 : ℕ) : K))
    (min (((99999 : ℕ) : K) / ((100000 : ℕ) : K)) adc)
  pullup * adc / (((1 : ℕ) : K) - adc)

def Linear.calcTemp : Linear K → K → Except Panic K
  | .voltage li, adc => li.interpolate adc
  | .resistance pullup li, adc => li.interpolate (resistanceOf pullup adc)

def Linear.calcAdc : Linear K → K → Except Panic K
  | .voltage li, temp => li.reverseInterpolate temp
  | .resistance pullup li, temp => li.reverseInterpolate temp >>= fun r => .ok (r / (pullup + r))

def tableError (err configName : String) : String :=
  "adc_temperature " ++ err ++ " in heater " ++ configName

/-- `NewLinearVoltage`, for samples of a temperature and a voltage. -/
def newLinearVoltage (adcVoltage voltageOffset : K) (params : List (K × K)) (configName : String) :
    Except String (Linear K) :=
  let sample := params.filterMap fun item =>
    let adc := (item.2 - voltageOffset) / adcVoltage
    if adc < 0 ∨ 1 < adc then none else some (adc, item.1)
  match newLinearInterpolate sample with
  | .error err => .error (tableError err configName)
  | .ok li => .ok (.voltage li)

/-- `NewLinearResistance`, for samples of a temperature and a resistance. -/
def newLinearResistance (configName : String) : Except String (Linear K) :=
  match newLinearInterpolate samples with
  | .error err => .error (tableError err configName)
  | .ok li => .ok (.resistance pullup li)

end Defs

variable {K : Type} [Field K] [LinearOrder K]

/-! ### Construction -/

/-- The table of the segments through the knots. -/
def tableOf (p q : K × K) (rest : List (K × K)) : LinearInterpolate K :=
  { keys := (q :: rest).map Prod.fst ++ [endKey]
    slopes := slopes p q rest ++ [lastSlope p q rest] }

/-- A sample right of the last one is left out if it is on the line of the last segment, and
starts a new segment otherwise. -/
theorem addSample_eq {p q s : K × K} (hpq : p.1 < q.1) (hqs : q.1 < s.1) (keys : List K)
    (slopes : List (K × K)) :
    addSample { last := some q, keys := keys, slopes := slopes ++ [(gain p q, offset p q)] }
        s.swap =
      .ok (if line p q s.1 = s.2 then
        { last := some q, keys := keys, slopes := slopes ++ [(gain p q, offset p q)] }
      else
        { last := some s, keys := keys ++ [s.1]
          slopes := slopes ++ [(gain p q, offset p q)] ++ [(gain q s, offset q s)] }) := by
  have hiff := line_eq_iff hpq.ne hqs.ne
  have htest : (slopes ++ [(gain p q, offset p q)]).getLast? = some (gain q s, offset q s) ↔
      line p q s.1 = s.2 := by
    rw [getLast?_concat, Option.some_inj, Prod.mk.injEq, ← hiff, eq_comm, eq_comm (a := offset p q)]
  rw [addSample]
  simp only [Prod.fst_swap, Prod.snd_swap]
  rw [if_neg (not_le.mpr hqs)]
  change (if (slopes ++ [(gain p q, offset p q)]).getLast? = some (gain q s, offset q s) then _
    else _) = _
  by_cases hs : line p q s.1 = s.2
  · rw [if_pos hs, if_pos (htest.mpr hs)]
  · rw [if_neg hs, if_neg (fun h => hs (htest.mp h))]
    rfl

variable {rest : List (K × K)}

theorem foldlM_addSample {p q : K × K} (h : Falling (p :: q :: rest)) (keys : List K)
    (sl : List (K × K)) :
    (rest.map Prod.swap).foldlM addSample
        { last := some q, keys := keys ++ [q.1], slopes := sl ++ [(gain p q, offset p q)] } =
      .ok { last := some (lastKnot q (thin p q rest))
            keys := keys ++ (q :: thin p q rest).map Prod.fst
            slopes := sl ++ slopes p q (thin p q rest) } := by
  induction rest generalizing p q keys sl with
  | nil => rfl
  | cons s rest ih =>
    have hqs := h.tail.head.1
    rw [map_cons, foldlM_cons, addSample_eq h.head.1 hqs, thin]
    change foldlM addSample _ _ = _
    by_cases hs : line p q s.1 = s.2
    · -- the last key stays, so the next sample is compared with the same segment
      rw [if_pos hs, if_pos hs]
      have hsub := ((sublist_cons_self s rest).cons_cons q).cons_cons p
      exact ih (List.Pairwise.sublist hsub h) keys sl
    · rw [if_neg hs, if_neg hs, ih h.tail (keys ++ [q.1]) (sl ++ [(gain p q, offset p q)])]
      simp [slopes, lastKnot]

theorem newLinearInterpolate_falling {samples : List (K × K)} {p q : K × K}
    (hsort : bubbleSort Prod.fst samples = (p :: q :: rest).map Prod.swap)
    (h : Falling (p :: q :: rest)) :
    newLinearInterpolate samples = .ok (tableOf p q (thin p q rest)) := by
  have hfirst : addSample { last := none, keys := [], slopes := [] } p.swap =
      .ok { last := some p, keys := [], slopes := [] } := rfl
  have hsecond : addSample { last := some p, keys := [], slopes := [] } q.swap =
      .ok { last := some q, keys := [q.1], slopes := [(gain p q, offset p q)] } := by
    rw [addSample]
    simp only [Prod.fst_swap, Prod.snd_swap]
    rw [if_neg (not_le.mpr h.head.1)]
    rfl
  have hloop := foldlM_addSample h [] []
  simp only [nil_append] at hloop
  rw [newLinearInterpolate, hsort, map_cons, map_cons, foldlM_cons, hfirst]
  change (foldlM addSample _ _ >>= _) = _
  rw [foldlM_cons, hsecond]
  change (foldlM addSample _ _ >>= _) = _
  rw [hloop]
  change Except.ok (LinearInterpolate.mk _ (slopes p q (thin p q rest) ++
    (slopes p q (thin p q rest)).getLast?.toList)) = _
  rw [getLast?_slopes]
  rfl

theorem newLinearInterpolate_rising {samples : List (K × K)} {a b : K × K}
    (hsort : bubbleSort Prod.fst samples = a :: b :: rest)
    (h : b.2 ≤ a.2) : newLinearInterpolate samples = .error "duplicate value" := by
  have hfirst : addSample { last := none, keys := [], slopes := [] } a =
      .ok { last := some (a.2, a.1), keys := [], slopes := [] } := rfl
  have hsecond : addSample { last := some (a.2, a.1), keys := [], slopes := [] } b =
      .error "duplicate value" := by
    rw [addSample]
    simp only
    rw [if_pos h]
  rw [newLinearInterpolate, hsort, foldlM_cons, hfirst]
  change (foldlM addSample _ _ >>= _) = _
  rw [foldlM_cons, hsecond]
  rfl

omit [Field K] in
theorem falling_of_perm {points l : List (K × K)} (hperm : l.Perm points)
    (h : points.Pairwise fun a b => a.1 < b.1 ∧ b.2 < a.2 ∨ b.1 < a.1 ∧ a.2 < b.2)
    (hsorted : l.Pairwise fun a b => a.1 ≤ b.1 ∨ b.2 ≤ a.2) : Falling l := by
  have hl := (hperm.pairwise_iff fun hab => hab.symm).mpr h
  refine (hl.and hsorted).imp ?_
  rintro a b ⟨hab | hab, hle | hle⟩
  · exact hab
  · exact hab
  · exact absurd hle (not_le.mpr hab.1)
  · exact absurd hle (not_le.mpr hab.2)

omit [Field K] in
/-- If the values fall with the keys, the loop sees the points from left to right. -/
theorem bubbleSort_falling {points : List (K × K)}
    (h : points.Pairwise fun a b => a.1 < b.1 ∧ b.2 < a.2 ∨ b.1 < a.1 ∧ a.2 < b.2) :
    Falling (points.mergeSort fun a b => a.1 ≤ b.1) ∧
      bubbleSort Prod.fst (points.map Prod.swap) =
        (points.mergeSort fun a b => a.1 ≤ b.1).map Prod.swap := by
  obtain ⟨hperm, hdown⟩ := bubbleSort_spec (v := Prod.fst) (points.map Prod.swap)
  have hswap := hperm.map Prod.swap
  rw [map_map, Prod.swap_swap_eq, map_id] at hswap
  have hmerge := mergeSort_perm points fun a b => decide (a.1 ≤ b.1)
  have hup : (points.mergeSort fun a b => a.1 ≤ b.1).Pairwise
      fun a b => decide (a.1 ≤ b.1) = true :=
    pairwise_mergeSort (fun a b c hab hbc => by simp at *; exact hab.trans hbc)
      (fun a b => by simpa using le_total a.1 b.1) points
  have hfalling := falling_of_perm hmerge h (hup.imp fun hab => .inl (of_decide_eq_true hab))
  have hbubble := falling_of_perm hswap h (pairwise_map.mpr (hdown.imp .inr))
  refine ⟨hfalling, ?_⟩
  -- both orders are strict, so the two lists are the same
  rw [← (hswap.trans hmerge.symm).eq_of_pairwise ?_ hbubble hfalling, map_map,
    Prod.swap_swap_eq, map_id]
  intro a b _ _ hab hba
  exact absurd hab.1 (not_lt.mpr hba.1.le)

/-- If the values rise with the keys, the second point seen is left of the first. -/
theorem newLinearInterpolate_of_rises {points : List (K × K)} (hlen : 2 ≤ points.length)
    (h : points.Pairwise fun a b => a.1 < b.1 ∧ a.2 < b.2 ∨ b.1 < a.1 ∧ b.2 < a.2) :
    newLinearInterpolate (points.map Prod.swap) = .error "duplicate value" := by
  obtain ⟨hperm, hdown⟩ := bubbleSort_spec (v := Prod.fst) (points.map Prod.swap)
  have hrises : (points.map Prod.swap).Pairwise fun a b =>
      a.2 < b.2 ∧ a.1 < b.1 ∨ b.2 < a.2 ∧ b.1 < a.1 := pairwise_map.mpr h
  rw [← hperm.pairwise_iff Or.symm] at hrises
  have hlength := hperm.length_eq
  rw [length_map] at hlength
  rcases hsort : bubbleSort Prod.fst (points.map Prod.swap) with _ | ⟨a, _ | ⟨b, rest⟩⟩
  · rw [hsort] at hlength
    simp only [length_nil] at hlength
    omega
  · rw [hsort] at hlength
    simp only [length_singleton] at hlength
    omega
  · rw [hsort] at hdown hrises
    refine newLinearInterpolate_rising hsort ?_
    have hle := rel_of_pairwise_cons hdown mem_cons_self
    rcases rel_of_pairwise_cons hrises mem_cons_self with hab | hab
    · exact absurd hle (not_le.mpr hab.2)
    · exact hab.1.le

/-! ### Lookups -/

section Lookups

variable {p q : K × K} {rest : List (K × K)}

/-- How far the lookup reaches: to the last knot, or to the key behind all others. -/
def reachOf (q : K × K) (rest : List (K × K)) : K := max (lastKnot q rest).1 endKey

variable (h : Falling (p :: q :: rest))
include h

theorem le_reachOf_iff (x : K) : x ≤ reachOf q rest ↔ (∃ k ∈ q :: rest, x ≤ k.1) ∨ x ≤ endKey := by
  rw [reachOf, le_max_iff]
  refine or_congr_left ⟨fun hx => ⟨lastKnot q rest, lastKnot_mem q rest, hx⟩, ?_⟩
  rintro ⟨k, hk, hx⟩
  exact hx.trans (h.le_lastKnot k hk).1

theorem interpolate_eq (x : K) : (tableOf p q rest).interpolate x =
      if x ≤ reachOf q rest then .ok (polyline p q rest x)
      else .error (.indexOutOfRange (rest.length + 2) (rest.length + 2)) := by
  have hkeys := pairwise_map.mpr (h.tail.imp And.left)
  have hfind := findIdx_map_concat (fun k => decide (x ≤ k)) Prod.fst (q :: rest) endKey
  simp only [decide_eq_true_eq] at hfind
  rw [LinearInterpolate.interpolate, tableOf]
  rw [searchLoop_concat hkeys endKey x]
  change (index (slopes p q rest ++ [lastSlope p q rest]) _ >>= _) = _
  rw [hfind]
  by_cases hx : x ≤ reachOf q rest
  · rw [if_pos hx, if_pos ((le_reachOf_iff h x).mp hx),
      index_of_getElem? (getElem?_slopes_findIdx _ p q rest)]
    rfl
  · -- the search has passed the last key, and there is no slope behind it
    have hlength : (slopes p q rest ++ [lastSlope p q rest]).length = rest.length + 2 := by
      rw [length_append, length_slopes, length_singleton]
    rw [if_neg hx, if_neg (fun hex => hx ((le_reachOf_iff h x).mpr hex)), index,
      getElem?_eq_none (by rw [hlength, length_cons]), hlength, length_cons]
    rfl

/-- The values of the reverse search: those of the knots, and the last line at the last key. -/
theorem zipWith_tableOf :
    zipWith (fun key slope => key * slope.1 + slope.2) (tableOf p q rest).keys
        (tableOf p q rest).slopes =
      (q :: rest).map Prod.snd ++
        [endKey * (lastSlope p q rest).1 + (lastSlope p q rest).2] := by
  have hlength : ((q :: rest).map Prod.fst).length = (slopes p q rest).length := by
    rw [length_map, length_slopes, length_cons]
  rw [tableOf, zipWith_append hlength, zipWith_slopes h]
  rfl

variable [IsStrictOrderedRing K]

theorem reverseInterpolate_eq (y : K) : (tableOf p q rest).reverseInterpolate y =
      if polyline p q rest (reachOf q rest) ≤ y then .ok (inverse p q rest y)
      else .error (.indexOutOfRange 0 0) := by
  set values := (q :: rest).map Prod.snd ++
    [endKey * (lastSlope p q rest).1 + (lastSlope p q rest).2] with hvalues
  have hlength : values.length = rest.length + 2 := by
    rw [hvalues, length_append, length_map, length_cons, length_singleton]
  have hbefore : index values (values.length - 2) = .ok (lastKnot q rest).2 := by
    refine index_of_getElem? ?_
    rw [hlength, Nat.add_sub_cancel, hvalues,
      getElem?_append_left (by rw [length_map]; exact Nat.lt_succ_self _),
      getElem?_map, getElem?_length_knots]
    rfl
  have hfalls := not_lt.mpr (h.le_lastKnot q mem_cons_self).2
  have hfind := findIdx_map_concat (fun v => decide (v ≤ y)) Prod.snd (q :: rest)
    (endKey * (lastSlope p q rest).1 + (lastSlope p q rest).2)
  simp only [decide_eq_true_eq] at hfind
  have hzero := getElem?_indicesOf_zero (fun v => decide (v ≤ y)) values
  rw [LinearInterpolate.reverseInterpolate, zipWith_tableOf h, ← hvalues]
  rw [hbefore]
  change (index (if q.2 < (lastKnot q rest).2 then _ else _) 0 >>= _) = _
  rw [if_neg hfalls]
  by_cases hy : polyline p q rest (reachOf q rest) ≤ y
  · have hle : (q :: rest).findIdx (fun k => decide (k.2 ≤ y)) ≤ rest.length + 1 :=
      findIdx_le_length
    rw [if_pos ((polyline_max_le_iff h endKey y).mp hy)] at hfind
    rw [hfind, if_pos (by omega)] at hzero
    rw [if_pos hy, index_of_getElem? hzero]
    change (index (slopes p q rest ++ [lastSlope p q rest]) (min _ _) >>= _) = _
    rw [min_eq_left (by omega), index_of_getElem? (getElem?_slopes_findIdx _ p q rest)]
    rfl
  · -- no value is that low, and the first of the valid indices is read all the same
    rw [if_neg (fun hex => hy ((polyline_max_le_iff h endKey y).mpr hex))] at hfind
    rw [hfind, if_neg (by rw [hlength, length_cons]; omega)] at hzero
    have hempty := eq_nil_of_length_eq_zero (Nat.le_zero.mp (List.getElem?_eq_none_iff.mp hzero))
    rw [if_neg hy, hempty]
    rfl

end Lookups

/-! ### The divider -/

section

variable [IsStrictOrderedRing K]

/-- The limits keep a reading exactly if it is within them. -/
theorem resistanceOf_divider_iff {pullup r : K} (hpullup : 0 < pullup) (hr : 0 < r) :
    resistanceOf pullup (r / (pullup + r)) = r ↔
      pullup ≤ ((99999 : ℕ) : K) * r ∧ r ≤ ((99999 : ℕ) : K) * pullup := by
  have hsum : 0 < pullup + r := add_pos hpullup hr
  rw [resistanceOf]
  set low : K := ((1 : ℕ) : K) / ((100000 : ℕ) : K) with hlow
  set high : K := ((99999 : ℕ) : K) / ((100000 : ℕ) : K) with hhigh
  set adc := max low (min high (r / (pullup + r))) with hadc
  have hlimits : low ≤ high := by
    norm_num
  have hone : high < 1 := by
    norm_num
  have hlt : 0 < 1 - adc := by
    rw [sub_pos]
    exact max_lt (hlimits.trans_lt hone) ((min_le_left _ _).trans_lt hone)
  have hvalue : pullup * adc / (((1 : ℕ) : K) - adc) = r ↔ adc = r / (pullup + r) := by
    rw [Nat.cast_one, div_eq_iff hlt.ne', eq_div_iff hsum.ne']
    constructor <;> intro h <;> linarith
  have hwithin : adc = r / (pullup + r) ↔ low ≤ r / (pullup + r) ∧ r / (pullup + r) ≤ high := by
    constructor
    · intro h
      rw [← h]
      exact ⟨le_max_left _ _, max_le hlimits (min_le_left _ _)⟩
    · rintro ⟨h₁, h₂⟩
      rw [hadc, min_eq_right h₂, max_eq_right h₁]
  rw [hvalue, hwithin, hlow, hhigh]
  refine and_congr ?_ ?_
  · rw [div_le_div_iff₀ (by norm_num) hsum]
    constructor <;> intro h <;> push_cast at h ⊢ <;> linarith
  · rw [div_le_div_iff₀ hsum (by norm_num)]
    constructor <;> intro h <;> push_cast at h ⊢ <;> linarith

/-- Different resistances have different readings. -/
theorem divider_eq_iff {pullup r : K} (hpullup : 0 < pullup) (hr : 0 < r) (r' : K) :
    r' / (pullup + r') = r / (pullup + r) ↔ r' = r := by
  have hsum : 0 < pullup + r := add_pos hpullup hr
  refine ⟨fun h => ?_, fun h => by rw [h]⟩
  have hne : pullup + r' ≠ 0 := by
    intro hzero
    rw [hzero, div_zero] at h
    exact (div_pos hr hsum).ne h
  rw [div_eq_div_iff hne hsum.ne'] at h
  have hmul : r' * pullup = r * pullup := by linarith
  exact mul_right_cancel₀ hpullup.ne' hmul

end

/-! ### Sensors -/

/-- A sensor's samples, each a temperature and the voltage or the resistance measured at it. -/
inductive SensorTable (K : Type) where
  | voltage (adcVoltage voltageOffset : K) (params : List (K × K))
  | resistance (pullup : K) (samples : List (K × K))

namespace SensorTable

def create : SensorTable K → String → Except String (Linear K)
  | voltage adcVoltage voltageOffset params => newLinearVoltage adcVoltage voltageOffset params
  | resistance pullup samples => newLinearResistance pullup samples

def samples : SensorTable K → List (K × K)
  | voltage _ _ params => params
  | resistance _ samples => samples

/-- The measured quantity: the voltage as a share of the reference, or the resistance. -/
def measured : SensorTable K → K × K → K
  | voltage adcVoltage voltageOffset _, item => (item.2 - voltageOffset) / adcVoltage
  | resistance _ _, item => item.2

/-- The reading of the converter for a measured quantity. -/
def readingOf : SensorTable K → K → K
  | voltage _ _ _, adc => adc
  | resistance pullup _, r => r / (pullup + r)

variable (table : SensorTable K)

def Rises : Prop :=
  table.samples.Pairwise fun a b =>
    table.measured a < table.measured b ∧ a.1 < b.1 ∨
      table.measured b < table.measured a ∧ b.1 < a.1

def Falls : Prop :=
  table.samples.Pairwise fun a b =>
    table.measured a < table.measured b ∧ b.1 < a.1 ∨
      table.measured b < table.measured a ∧ a.1 < b.1

/-- The shares are between zero and one, or the resistances are positive. -/
def InRange : SensorTable K → Prop
  | voltage adcVoltage voltageOffset params =>
    ∀ item ∈ params, 0 ≤ (item.2 - voltageOffset) / adcVoltage ∧
      (item.2 - voltageOffset) / adcVoltage ≤ 1
  | resistance pullup samples => 0 < pullup ∧ ∀ item ∈ samples, 0 < item.2

/-- At least two samples with strictly monotone temperatures. -/
def Valid : Prop :=
  2 ≤ table.samples.length ∧ (table.Rises ∨ table.Falls) ∧ table.InRange

/-- The table is built, converts each sample both ways, and converts the reading `x` and the
temperature `y` without a panic. -/
def Converts (configName : String) (x y : K) : Prop :=
  ∃ linear, table.create configName = .ok linear ∧
    (∀ item ∈ table.samples,
      linear.calcTemp (table.readingOf (table.measured item)) = .ok item.1 ∧
        linear.calcAdc item.1 = .ok (table.readingOf (table.measured item))) ∧
    (∃ temp, linear.calcTemp x = .ok temp) ∧ ∃ adc, linear.calcAdc y = .ok adc

/-! ### The curve of a table -/

/-- The samples as keys and values.  The key of a voltage sample is its temperature. -/
def points : SensorTable K → List (K × K)
  | voltage adcVoltage voltageOffset params =>
    params.map fun item => (item.1, (item.2 - voltageOffset) / adcVoltage)
  | resistance _ samples => samples.map Prod.swap

/-- The points from left to right. -/
def knots : List (K × K) :=
  table.points.mergeSort fun a b => a.1 ≤ b.1

/-- The piecewise linear curve through the knots that are kept. -/
def curve (x : K) : K :=
  match table.knots with
  | p :: q :: rest => polyline p q (thin p q rest) x
  | _ => 0

/-- How far the curve is looked up. -/
def reach : K :=
  match table.knots with
  | p :: q :: rest => reachOf q (thin p q rest)
  | _ => 0

/-- Only a straight end of the knots is left out. -/
def EndsStraight : Prop :=
  match table.knots with
  | p :: q :: rest => StraightEnd p q rest
  | _ => True

/-- The key that a reading is looked up by. -/
def keyOf : SensorTable K → K → K
  | voltage _ _ _, adc => adc
  | resistance pullup _, adc => resistanceOf pullup adc

/-- What a table with falling temperatures must meet to convert its samples: for voltages, the
mirror image of each sample is on the curve as well; for resistances, no sample is left out
between others, and the resistances are within the limits of the divider and of the lookup. -/
def Fits : Prop :=
  match table with
  | voltage _ _ params => ∀ item ∈ params, table.curve (table.measured item) = item.1
  | resistance pullup samples =>
    table.EndsStraight ∧ ∀ item ∈ samples, pullup ≤ ((99999 : ℕ) : K) * item.2 ∧
      item.2 ≤ ((99999 : ℕ) : K) * pullup ∧ item.2 ≤ table.reach

/-- The lookups reach the reading `x` and the temperature `y`. -/
def Reaches (x y : K) : Prop :=
  table.keyOf x ≤ table.reach ∧ table.curve table.reach ≤ y

/-- The conversion with a table of segments. -/
def linear : SensorTable K → LinearInterpolate K → Linear K
  | voltage _ _ _, li => .voltage li
  | resistance pullup _, li => .resistance pullup li

theorem calcTemp_linear (li : LinearInterpolate K) (x : K) :
    (table.linear li).calcTemp x = li.interpolate (table.keyOf x) := by
  cases table <;> rfl

theorem calcAdc_linear (li : LinearInterpolate K) (y : K) : (table.linear li).calcAdc y =
      li.reverseInterpolate y >>= fun m => .ok (table.readingOf m) := by
  cases table with
  | voltage adcVoltage voltageOffset params =>
    exact (bind_pure (li.reverseInterpolate y)).symm
  | resistance pullup samples => rfl

/-- No sample in range is ignored. -/
theorem sample_voltage {adcVoltage voltageOffset : K} {params : List (K × K)}
    (h : (voltage adcVoltage voltageOffset params).InRange) :
    (params.filterMap fun item =>
        let adc := (item.2 - voltageOffset) / adcVoltage
        if adc < 0 ∨ 1 < adc then none else some (adc, item.1)) =
      (voltage adcVoltage voltageOffset params).points.map Prod.swap := by
  rw [points, map_map, ← filterMap_eq_map]
  refine filterMap_congr fun item hitem => ?_
  obtain ⟨hlow, hhigh⟩ := h item hitem
  exact if_neg (not_or.mpr ⟨not_lt.mpr hlow, not_lt.mpr hhigh⟩)

theorem create_eq {table : SensorTable K} (h : table.InRange) (configName : String) :
    table.create configName = match newLinearInterpolate (table.points.map Prod.swap) with
      | .error err => .error (tableError err configName)
      | .ok li => .ok (table.linear li) := by
  cases table with
  | voltage adcVoltage voltageOffset params =>
    rw [create, newLinearVoltage, sample_voltage h]
    rfl
  | resistance pullup samples =>
    rw [points, map_map, Prod.swap_swap_eq, map_id, create, newLinearResistance]
    rfl

omit [LinearOrder K] in
theorem length_points : table.points.length = table.samples.length := by
  cases table <;> exact length_map _

theorem points_of_rises {table : SensorTable K} (h : table.Rises) :
    table.points.Pairwise fun a b => a.1 < b.1 ∧ a.2 < b.2 ∨ b.1 < a.1 ∧ b.2 < a.2 := by
  cases table with
  | voltage adcVoltage voltageOffset params =>
    exact pairwise_map.mpr (h.imp fun hab => hab.imp And.symm And.symm)
  | resistance pullup samples => exact pairwise_map.mpr h

theorem points_of_falls {table : SensorTable K} (h : table.Falls) :
    table.points.Pairwise fun a b => a.1 < b.1 ∧ b.2 < a.2 ∨ b.1 < a.1 ∧ a.2 < b.2 := by
  cases table with
  | voltage adcVoltage voltageOffset params =>
    exact pairwise_map.mpr (h.imp fun hab => hab.symm.imp And.symm And.symm)
  | resistance pullup samples => exact pairwise_map.mpr h

theorem not_falls_of_rises {table : SensorTable K} (hlen : 2 ≤ table.samples.length)
    (hrises : table.Rises) : ¬ table.Falls := by
  intro hfalls
  rw [Rises] at hrises
  rw [Falls] at hfalls
  rcases hsamples : table.samples with _ | ⟨a, _ | ⟨b, rest⟩⟩
  · simp [hsamples] at hlen
  · simp [hsamples] at hlen
  · rw [hsamples] at hrises hfalls
    have hr := rel_of_pairwise_cons hrises mem_cons_self
    have hf := rel_of_pairwise_cons hfalls mem_cons_self
    rcases hr with hr | hr <;> rcases hf with hf | hf
    · exact lt_asymm hr.2 hf.2
    · exact lt_asymm hr.1 hf.1
    · exact lt_asymm hr.1 hf.1
    · exact lt_asymm hr.2 hf.2

/-- A conversion follows the curve of its table, as far as that reaches. -/
structure Follows (table : SensorTable K) (linear : Linear K) (inv : K → K) : Prop where
  calcTemp_eq_ok : ∀ x temp, linear.calcTemp x = .ok temp ↔
    table.keyOf x ≤ table.reach ∧ table.curve (table.keyOf x) = temp
  calcAdc_eq_ok : ∀ y adc, linear.calcAdc y = .ok adc ↔
    table.curve table.reach ≤ y ∧ table.readingOf (inv y) = adc
  strictAnti : StrictAnti table.curve
  inv_eq_iff : ∀ x y, inv y = x ↔ table.curve x = y
  endKey_le : endKey ≤ table.reach
  through : (∀ s ∈ table.points, table.curve s.1 = s.2) ↔ table.EndsStraight

variable [IsStrictOrderedRing K]

/-- A table with falling temperatures is built. -/
theorem exists_follows {table : SensorTable K} (hlen : 2 ≤ table.samples.length)
    (hfalls : table.Falls) (hrange : table.InRange) (configName : String) :
    ∃ linear inv, table.create configName = .ok linear ∧ table.Follows linear inv := by
  obtain ⟨hfalling, hsort⟩ := bubbleSort_falling (points_of_falls hfalls)
  have hperm := mergeSort_perm table.points fun a b => decide (a.1 ≤ b.1)
  have hlength := hperm.length_eq.trans table.length_points
  change Falling table.knots at hfalling
  change table.knots.Perm table.points at hperm
  change bubbleSort Prod.fst _ = table.knots.map Prod.swap at hsort
  change table.knots.length = _ at hlength
  rcases hknots : table.knots with _ | ⟨p, _ | ⟨q, rest⟩⟩
  · rw [hknots, length_nil] at hlength
    omega
  · rw [hknots, length_singleton] at hlength
    omega
  rw [hknots] at hfalling hperm hsort
  have hli := newLinearInterpolate_falling hsort hfalling
  have hcurve : table.curve = polyline p q (thin p q rest) := by
    funext x
    rw [curve, hknots]
  have hreach : table.reach = reachOf q (thin p q rest) := by rw [reach, hknots]
  have hstraight : table.EndsStraight ↔ StraightEnd p q rest := by rw [EndsStraight, hknots]
  refine ⟨_, inverse p q (thin p q rest), by rw [create_eq hrange, hli], ?_⟩
  constructor
  · intro x temp
    rw [calcTemp_linear, interpolate_eq hfalling.thin, hcurve, hreach]
    by_cases hx : table.keyOf x ≤ reachOf q (thin p q rest)
    · rw [if_pos hx, Except.ok.injEq, and_iff_right hx]
    · rw [if_neg hx]
      exact iff_of_false nofun (fun hex => hx hex.1)
  · intro y adc
    rw [calcAdc_linear, reverseInterpolate_eq hfalling.thin, hcurve, hreach]
    by_cases hy : polyline p q (thin p q rest) (reachOf q (thin p q rest)) ≤ y
    · rw [if_pos hy, and_iff_right hy]
      exact Iff.of_eq (Except.ok.injEq _ _)
    · rw [if_neg hy]
      exact iff_of_false nofun (fun hex => hy hex.1)
  · rw [hcurve]
    exact polyline_strictAnti hfalling.thin
  · intro x y
    rw [hcurve]
    exact inverse_eq_iff hfalling.thin
  · rw [hreach]
    exact le_max_right _ _
  · rw [hcurve, hstraight, ← polyline_thin_iff hfalling]
    exact forall_congr' fun s => imp_congr_left hperm.mem_iff.symm

/-- What the conversion of all samples comes down to. -/
theorem Follows.samples_iff {table : SensorTable K} {linear : Linear K} {inv : K → K}
    (h : table.Follows linear inv) (hrange : table.InRange) :
    (∀ item ∈ table.samples,
      linear.calcTemp (table.readingOf (table.measured item)) = .ok item.1 ∧
        linear.calcAdc item.1 = .ok (table.readingOf (table.measured item))) ↔ table.Fits := by
  simp only [h.calcTemp_eq_ok, h.calcAdc_eq_ok]
  have hbelow {m temp : K} (hm : m ≤ table.reach) (hcurve : table.curve m = temp) :
      table.curve table.reach ≤ temp := hcurve ▸ h.strictAnti.antitone hm
  cases table with
  | voltage adcVoltage voltageOffset params =>
    refine forall₂_congr fun item hitem => ?_
    constructor
    · rintro ⟨⟨_, hcurve⟩, _⟩
      exact hcurve
    · intro hcurve
      have hone : (1 : K) ≤ endKey := by
        rw [endKey]
        norm_num
      have hreach := ((hrange item hitem).2.trans hone).trans h.endKey_le
      exact ⟨⟨hreach, hcurve⟩, hbelow hreach hcurve, (h.inv_eq_iff _ _).mpr hcurve⟩
  | resistance pullup samples =>
    obtain ⟨hpullup, hpos⟩ := hrange
    have hthrough : (∀ item ∈ samples, (resistance pullup samples).curve item.2 = item.1) ↔
        (resistance pullup samples).EndsStraight := by
      rw [← h.through, points, forall_mem_map]
      rfl
    change (∀ item ∈ samples, (resistanceOf pullup (item.2 / (pullup + item.2)) ≤ _ ∧
      (resistance pullup samples).curve (resistanceOf pullup (item.2 / (pullup + item.2))) = _) ∧
      _ ≤ item.1 ∧ inv item.1 / (pullup + inv item.1) = item.2 / (pullup + item.2)) ↔ _ ∧ _
    rw [← hthrough, ← forall₂_and]
    refine forall₂_congr fun item hitem => ?_
    have hr := hpos item hitem
    rw [divider_eq_iff hpullup hr, h.inv_eq_iff, ← and_assoc (a := pullup ≤ _),
      ← resistanceOf_divider_iff hpullup hr]
    constructor
    · -- the reading and the resistance have the same temperature, so they are the same key
      rintro ⟨⟨hreach, htemp⟩, _, hcurve⟩
      have hkey := h.strictAnti.injective (htemp.trans hcurve.symm)
      exact ⟨hcurve, hkey, (congrArg (· ≤ _) hkey).mp hreach⟩
    · rintro ⟨hcurve, hkey, hreach⟩
      rw [hkey]
      exact ⟨⟨hreach, hcurve⟩, hbelow hreach hcurve, hcurve⟩

/-- A table with rising temperatures is never built.  One with falling temperatures converts its
samples if it fits; a reading or a temperature beyond its reach is a panic. -/
theorem table_converts_iff (hvalid : table.Valid) (configName : String) (x y : K) :
    table.Converts configName x y ↔ table.Falls ∧ table.Fits ∧ table.Reaches x y := by
  obtain ⟨hlen, hmono, hrange⟩ := hvalid
  rcases hmono with hrises | hfalls
  · have hli := newLinearInterpolate_of_rises (table.length_points.symm ▸ hlen)
      (points_of_rises hrises)
    refine iff_of_false ?_ (fun h => not_falls_of_rises hlen hrises h.1)
    rintro ⟨linear, hcreate, -⟩
    rw [create_eq hrange, hli] at hcreate
    cases hcreate
  · obtain ⟨linear, inv, hcreate, hfollows⟩ := exists_follows hlen hfalls hrange configName
    rw [and_iff_right hfalls, ← hfollows.samples_iff hrange, Reaches]
    constructor
    · rintro ⟨linear', hcreate', hsamples, ⟨temp, htemp⟩, adc, hadc⟩
      cases hcreate.symm.trans hcreate'
      exact ⟨hsamples, ((hfollows.calcTemp_eq_ok x temp).mp htemp).1,
        ((hfollows.calcAdc_eq_ok y adc).mp hadc).1⟩
    · rintro ⟨hsamples, hx, hy⟩
      exact ⟨linear, hcreate, hsamples, ⟨_, (hfollows.calcTemp_eq_ok x _).mpr ⟨hx, rfl⟩⟩,
        _, (hfollows.calcAdc_eq_ok y _).mpr ⟨hy, rfl⟩⟩

/-- A thermistor, with a reading at half the supply voltage. -/
theorem table_converts_iff_thermistor :
    (resistance 4700 [(25, 1000), (100, 500)] : SensorTable ℚ).Valid ∧
      (resistance 4700 [(25, 1000), (100, 500)] : SensorTable ℚ).Converts
        "heater_generic chamber" (1 / 2) 25 := by
  have hknots : (resistance 4700 [(25, 1000), (100, 500)] : SensorTable ℚ).knots =
      [(500, 100), (1000, 25)] := by
    norm_num [knots, points, List.mergeSort, List.merge]
  have hreach : (resistance 4700 [(25, 1000), (100, 500)] : SensorTable ℚ).reach =
      9999999999999 := by
    rw [reach, hknots]
    norm_num [reachOf, lastKnot, thin, endKey]
  have hfalls : (resistance 4700 [(25, 1000), (100, 500)] : SensorTable ℚ).Falls := by
    norm_num [Falls, samples, measured]
  have hvalid : (resistance 4700 [(25, 1000), (100, 500)] : SensorTable ℚ).Valid :=
    ⟨le_rfl, .inr hfalls, by norm_num [InRange]⟩
  refine ⟨hvalid, (table_converts_iff _ hvalid _ _ _).mpr ⟨hfalls, ⟨?_, ?_⟩, ?_, ?_⟩⟩
  · rw [EndsStraight, hknots]
    trivial
  · rw [hreach]
    norm_num
  · rw [hreach]
    norm_num [keyOf, resistanceOf]
  · rw [hreach, curve, hknots]
    norm_num [polyline, PiecewiseLinear.segment, thin, gain, offset]

/-- The first two samples of the `AD595` table are refused. -/
theorem ad595_not_built : (voltage 5 0 [(0, 27 / 10000), (10, 101 / 1000)] : SensorTable ℚ).Valid ∧
      (voltage 5 0 [(0, 27 / 10000), (10, 101 / 1000)] : SensorTable ℚ).create "extruder" =
        .error "adc_temperature duplicate value in heater extruder" := by
  refine ⟨⟨le_rfl, .inl ?_, ?_⟩, ?_⟩
  · norm_num [Rises, samples, measured]
  · norm_num [InRange]
  · decide +kernel

end SensorTable

end Heaters
