/-
The look-ahead queue (`LookAheadQueue` of `internal/pkg/motion/move_queue.go`).

`LookAheadQueue.flush` plans the queued moves in two passes.  The backward pass
(`backwardPass`, one `backwardStep` for each index from the last move to the
first) computes the largest speed at each junction for two velocity profiles,
assigns a cruise speed to the moves that can accelerate, and in lazy mode finds
the prefix of the queue that no later move can change.  The forward pass
(`forwardPass`) gives the remaining moves the cruise speed of their predecessor
and stores the result with `Move.setJunction`.

Over it stands the description the proofs use, one function of the moves
*behind* a junction for each variable of the backward pass:

* `startV2`, `mcrV2` — the junction speeds of the two profiles.

`backwardPass_for` connects the two; `plan` is the list of moves a full flush
hands to the callback (`flush_full`).
-/
import KlipperGo.BackwardReach
import KlipperGo.Move

open ExactArith BackwardReach List

namespace Motion

section Defs

variable {K : Type*} [Field K] [LinearOrder K]

def lookaheadFlushTime : K := 3 / 20

/-- `junctionNode`; the source's flag `HasCruiseV2` is `cruiseV2.isSome`. -/
structure JunctionNode (K : Type*) where
  move : Move K
  startV2 : K
  cruiseV2 : Option K
  nextStartV2 : K

/-- The variables of the backward loop of `Flush`. -/
structure PassState (K : Type*) where
  nextStartV2 : K
  nextMcrStartV2 : K
  peakCruiseV2 : K
  pendingCruiseAssign : ℕ
  flushCount : ℕ
  updateFlushCount : Bool

/-- One iteration of the backward loop, at index `i`. -/
def backwardStep (i : ℕ) (move : Move K) (st : PassState K) : PassState K × JunctionNode K :=
  let nextStartV2 := st.nextStartV2
  let reachableStartV2 := nextStartV2 + move.deltaV2
  let startV2 := min move.maxStartV2 reachableStartV2
  let pendingCruiseAssign := st.pendingCruiseAssign + 1
  let reachableMcrStartV2 := st.nextMcrStartV2 + move.mcrDeltaV2
  let mcrStartV2 := min move.maxMcrStartV2 reachableMcrStartV2
  if mcrStartV2 < reachableMcrStartV2 then
    -- the move can accelerate
    let st := if st.nextMcrStartV2 < mcrStartV2 + move.mcrDeltaV2 ∨ 1 < pendingCruiseAssign then
        -- it can also decelerate, or it stands before moves that only do
        let st := if st.updateFlushCount = true ∧ st.peakCruiseV2 ≠ 0 then
            { st with flushCount := i + pendingCruiseAssign, updateFlushCount := false }
          else st
        { st with peakCruiseV2 := (mcrStartV2 + reachableMcrStartV2) / 2 }
      else st
    let cruiseV2 := customMin [(startV2 + reachableStartV2) / 2, move.maxCruiseV2, st.peakCruiseV2]
    ({ st with
        nextStartV2 := startV2, nextMcrStartV2 := mcrStartV2, pendingCruiseAssign := 0 },
      { move := move, startV2 := startV2, cruiseV2 := some cruiseV2, nextStartV2 := nextStartV2 })
  else
    ({ st with
        nextStartV2 := startV2, nextMcrStartV2 := mcrStartV2,
        pendingCruiseAssign := pendingCruiseAssign },
      { move := move, startV2 := startV2, cruiseV2 := none, nextStartV2 := nextStartV2 })

/-- The backward loop over the moves from index `i` on, of a queue of `n`. -/
def backwardPass (lazy : Bool) (n : ℕ) : ℕ → List (Move K) → PassState K × List (JunctionNode K)
  | _, [] =>
    ({ nextStartV2 := 0, nextMcrStartV2 := 0, peakCruiseV2 := 0, pendingCruiseAssign := 0,
       flushCount := n, updateFlushCount := lazy }, [])
  | i, move :: rest =>
    let pass := backwardPass lazy n (i + 1) rest
    let out := backwardStep i move pass.1
    (out.1, out.2 :: pass.2)

/-- The forward loop of `Flush`. -/
def forwardPass [HasSqrt K] : K → List (JunctionNode K) → List (Move K)
  | _, [] => []
  | prevCruiseV2, node :: nodes =>
    let cruiseV2 := node.cruiseV2.getD (min prevCruiseV2 node.startV2)
    node.move.setJunction (min node.startV2 cruiseV2) cruiseV2 (min node.nextStartV2 cruiseV2)
      :: forwardPass cruiseV2 nodes

structure LookAheadQueue (K : Type*) where
  queue : List (Move K)
  junctionFlush : K

def newMoveQueue : LookAheadQueue K := { queue := [], junctionFlush := lookaheadFlushTime }

def LookAheadQueue.reset (_ : LookAheadQueue K) : LookAheadQueue K := newMoveQueue

variable (self : LookAheadQueue K)

def LookAheadQueue.setFlushTime (flushTime : K) : LookAheadQueue K :=
  { self with junctionFlush := flushTime }

def LookAheadQueue.getLast : Option (Move K) := self.queue.getLast?

/-- `LookAheadQueue.Flush`: the queue that remains and the batch handed to
`Process_moves`.  The batch is empty exactly when the callback is not called. -/
def LookAheadQueue.flush [HasSqrt K] (lazy : Bool) : LookAheadQueue K × List (Move K) :=
  let self := { self with junctionFlush := lookaheadFlushTime }
  let pass := backwardPass lazy self.queue.length 0 self.queue
  if pass.1.updateFlushCount = true ∨ pass.1.flushCount = 0 then (self, [])
  else
    ({ self with queue := self.queue.drop pass.1.flushCount },
      forwardPass 0 (pass.2.take pass.1.flushCount))

/-- `LookAheadQueue.Add_move`: the queue with the move, and whether it asks for a
lazy flush. -/
def LookAheadQueue.addMove [HasSqrt K] (move : Move K)
    (extruder : Option (MoveJunctionCalculator K)) : LookAheadQueue K × Bool :=
  match self.queue.getLast? with
  | none => ({ self with queue := self.queue ++ [move] }, false)
  | some prevMove =>
    let move := move.calcJunction prevMove extruder
    let junctionFlush := self.junctionFlush - move.minMoveT
    ({ queue := self.queue ++ [move], junctionFlush := junctionFlush }, junctionFlush ≤ 0)

end Defs

/-! ### The backward pass, as functions of the moves behind a junction -/

variable {K : Type*} [Field K] [LinearOrder K]

/-- Squared speed at the junction in front of the moves. -/
def startV2 : List (Move K) → K := reach Move.maxStartV2 Move.deltaV2

/-- The same for the minimum-cruise-ratio profile. -/
def mcrV2 : List (Move K) → K := reach Move.maxMcrStartV2 Move.mcrDeltaV2

variable (m : Move K) {st : PassState K} (n i : ℕ) (l : List (Move K)) (r : List (Move K))

/-- The move can accelerate in front of the moves `r`: its start speed is its own
limit, not what `r` lets it slow down from. -/
def Accelerates : Prop :=
  Slack Move.maxMcrStartV2 Move.mcrDeltaV2 m r

instance (m : Move K) (r : List (Move K)) : Decidable (Accelerates m r) :=
  inferInstanceAs (Decidable (_ < _))

/-- The leading moves that cannot accelerate: they wait for a cruise speed. -/
def delayed : List (Move K) → List (Move K)
  | [] => []
  | m :: r => if Accelerates m r then [] else m :: delayed r

/-- An accelerating move in front of `r` is a new peak of the speed profile. -/
def NewPeak : Prop :=
  mcrV2 r < mcrV2 (m :: r) + m.mcrDeltaV2 ∨ delayed r ≠ []

instance (m : Move K) (r : List (Move K)) : Decidable (NewPeak m r) :=
  inferInstanceAs (Decidable (_ ∨ _))

/-- The peak that the accelerating moves at the head of the list share. -/
def peakV2 : List (Move K) → K
  | [] => 0
  | m :: r =>
    if Accelerates m r ∧ NewPeak m r then (mcrV2 (m :: r) + (mcrV2 r + m.mcrDeltaV2)) / 2
    else peakV2 r

/-- The cruise speed that the backward pass gives an accelerating move. -/
def cruiseV2 : K :=
  min ((startV2 (m :: r) + (startV2 r + m.deltaV2)) / 2) (min m.maxCruiseV2 (peakV2 (m :: r)))

/-- The node of the move `m` in front of the moves `r`. -/
def nodeOf : JunctionNode K where
  move := m
  startV2 := startV2 (m :: r)
  cruiseV2 := if Accelerates m r then some (cruiseV2 m r) else none
  nextStartV2 := startV2 r

def nodes : List (Move K) → List (JunctionNode K)
  | [] => []
  | m :: r => nodeOf m r :: nodes r

/-- The moves a full flush releases. -/
def plan [HasSqrt K] (l : List (Move K)) : List (Move K) := forwardPass 0 (nodes l)

@[simp] theorem startV2_nil : startV2 ([] : List (Move K)) = 0 := rfl

@[simp] theorem mcrV2_nil : mcrV2 ([] : List (Move K)) = 0 := rfl

theorem startV2_cons : startV2 (m :: r) = min m.maxStartV2 (startV2 r + m.deltaV2) := rfl

theorem mcrV2_cons : mcrV2 (m :: r) = min m.maxMcrStartV2 (mcrV2 r + m.mcrDeltaV2) := rfl

theorem accelerates_iff : mcrV2 (m :: r) < mcrV2 r + m.mcrDeltaV2 ↔ Accelerates m r := by
  rw [mcrV2_cons, min_lt_iff, or_iff_left (lt_irrefl _)]
  rfl

variable {r : List (Move K)} {m : Move K}

theorem mcrV2_of_accelerates (h : Accelerates m r) :
    mcrV2 (m :: r) = m.maxMcrStartV2 := reach_of_slack h

theorem mcrV2_of_not_accelerates (h : ¬ Accelerates m r) :
    mcrV2 (m :: r) = mcrV2 r + m.mcrDeltaV2 := min_eq_right (not_lt.mp h)

@[simp] theorem nodes_length : (nodes l).length = l.length := by
  induction l with
  | nil => rfl
  | cons m r ih => simp [nodes, ih]

/-! ### The backward pass computes them -/

/-- The state `st` is the one the backward loop has in front of the moves `l`,
the flush count apart. -/
structure PassState.For (st : PassState K) (l : List (Move K)) : Prop where
  nextStartV2_eq : st.nextStartV2 = startV2 l
  nextMcrStartV2_eq : st.nextMcrStartV2 = mcrV2 l
  peakCruiseV2_eq : st.peakCruiseV2 = peakV2 l
  pendingCruiseAssign_eq : st.pendingCruiseAssign = (delayed l).length

theorem newPeak_iff (h : st.For r) :
    (st.nextMcrStartV2 < min m.maxMcrStartV2 (st.nextMcrStartV2 + m.mcrDeltaV2) + m.mcrDeltaV2 ∨
      1 < st.pendingCruiseAssign + 1) ↔ NewPeak m r := by
  rw [h.nextMcrStartV2_eq, h.pendingCruiseAssign_eq, NewPeak, mcrV2_cons, ne_eq,
    ← length_eq_zero_iff, Nat.lt_add_left_iff_pos, Nat.pos_iff_ne_zero]

/-- One iteration of the backward loop: the new state and the node. -/
theorem backwardStep_for (h : st.For r) (i : ℕ) :
    (backwardStep i m st).1.For (m :: r) ∧ (backwardStep i m st).2 = nodeOf m r := by
  have hnew := newPeak_iff (m := m) h
  have hacc := accelerates_iff m r
  have hstart : startV2 (m :: r) = min m.maxStartV2 (st.nextStartV2 + m.deltaV2) := by
    rw [startV2_cons, h.nextStartV2_eq]
  have hmcr : mcrV2 (m :: r) = min m.maxMcrStartV2 (st.nextMcrStartV2 + m.mcrDeltaV2) := by
    rw [mcrV2_cons, h.nextMcrStartV2_eq]
  rw [hmcr, ← h.nextMcrStartV2_eq] at hacc
  -- the three branches of the loop body: a new peak, the old peak, a delayed move
  by_cases ha : Accelerates m r
  · by_cases hp : NewPeak m r
    · have hpeak : peakV2 (m :: r) = (min m.maxMcrStartV2 (st.nextMcrStartV2 + m.mcrDeltaV2) +
          (st.nextMcrStartV2 + m.mcrDeltaV2)) / 2 := by
        rw [peakV2, if_pos ⟨ha, hp⟩, hmcr, h.nextMcrStartV2_eq]
      rw [backwardStep, if_pos (hacc.mpr ha), if_pos (hnew.mpr hp)]
      refine ⟨⟨hstart.symm, hmcr.symm, hpeak.symm, ?_⟩, ?_⟩
      · simp [delayed, ha]
      · simp [nodeOf, ha, cruiseV2, hstart, hpeak, h.nextStartV2_eq]
    · have hpeak : peakV2 (m :: r) = st.peakCruiseV2 := by
        rw [peakV2, if_neg (fun hn => hp hn.2), h.peakCruiseV2_eq]
      rw [backwardStep, if_pos (hacc.mpr ha), if_neg (fun hn => hp (hnew.mp hn))]
      refine ⟨⟨hstart.symm, hmcr.symm, hpeak.symm, ?_⟩, ?_⟩
      · simp [delayed, ha]
      · simp [nodeOf, ha, cruiseV2, hstart, hpeak, h.nextStartV2_eq]
  · have hpeak : peakV2 (m :: r) = st.peakCruiseV2 := by
      rw [peakV2, if_neg (fun hn => ha hn.1), h.peakCruiseV2_eq]
    rw [backwardStep, if_neg (fun hn => ha (hacc.mp hn))]
    refine ⟨⟨hstart.symm, hmcr.symm, hpeak.symm, ?_⟩, ?_⟩
    · simp [delayed, ha, h.pendingCruiseAssign_eq]
    · simp [nodeOf, ha, hstart, h.nextStartV2_eq]

theorem backwardPass_for (lazy : Bool) (n i : ℕ) (l : List (Move K)) :
    (backwardPass lazy n i l).1.For l ∧ (backwardPass lazy n i l).2 = nodes l := by
  -- the loop runs from the last move to the first, as the induction does
  induction l generalizing i with
  | nil => exact ⟨⟨rfl, rfl, rfl, rfl⟩, rfl⟩
  | cons m r ih =>
    obtain ⟨hfor, hnodes⟩ := ih (i + 1)
    obtain ⟨hfor', hnode⟩ := backwardStep_for hfor i (m := m)
    refine ⟨hfor', ?_⟩
    rw [backwardPass, nodes, ← hnode, ← hnodes]

/-- What an iteration of the backward loop does to the flush count: a second peak
ends the search of a lazy flush. -/
theorem backwardStep_flushCount (h : st.For r) (i : ℕ) :
    (Accelerates m r ∧ NewPeak m r ∧ st.updateFlushCount = true ∧ peakV2 r ≠ 0 ∧
      (backwardStep i m st).1.updateFlushCount = false ∧
      (backwardStep i m st).1.flushCount = i + ((delayed r).length + 1)) ∨
    ((backwardStep i m st).1.updateFlushCount = st.updateFlushCount ∧
      (backwardStep i m st).1.flushCount = st.flushCount) := by
  have hnew := newPeak_iff (m := m) h
  have hacc := accelerates_iff m r
  rw [mcrV2_cons, ← h.nextMcrStartV2_eq] at hacc
  by_cases ha : Accelerates m r
  · by_cases hp : NewPeak m r
    · rw [backwardStep, if_pos (hacc.mpr ha), if_pos (hnew.mpr hp), h.peakCruiseV2_eq]
      by_cases hu : st.updateFlushCount = true ∧ peakV2 r ≠ 0
      · rw [if_pos hu, h.pendingCruiseAssign_eq]
        exact .inl ⟨ha, hp, hu.1, hu.2, rfl, rfl⟩
      · rw [if_neg hu]
        exact .inr ⟨rfl, rfl⟩
    · rw [backwardStep, if_pos (hacc.mpr ha), if_neg (fun hn => hp (hnew.mp hn))]
      exact .inr ⟨rfl, rfl⟩
  · rw [backwardStep, if_neg (fun hn => ha (hacc.mp hn))]
    exact .inr ⟨rfl, rfl⟩

/-! ### Full and lazy flushes -/

theorem backwardPass_full : (backwardPass false n i l).1.updateFlushCount = false ∧
    (backwardPass false n i l).1.flushCount = n := by
  induction l generalizing i with
  | nil => exact ⟨rfl, rfl⟩
  | cons m r ih =>
    obtain ⟨hu, hc⟩ := ih (i + 1)
    rcases backwardStep_flushCount (m := m) (backwardPass_for false n (i + 1) r).1 i with
      ⟨_, _, hu', _⟩ | ⟨h1, h2⟩
    · -- a full flush does not search for a boundary
      rw [hu] at hu'
      exact absurd hu' (by simp)
    · exact ⟨h1.trans hu, h2.trans hc⟩

/-- A full flush empties the queue and releases its plan. -/
theorem flush_full [HasSqrt K] (q : LookAheadQueue K) :
    q.flush false = (newMoveQueue, plan q.queue) := by
  obtain ⟨hu, hc⟩ := backwardPass_full q.queue.length 0 q.queue
  have hnodes := (backwardPass_for false q.queue.length 0 q.queue).2
  rw [LookAheadQueue.flush]
  rw [hu, hc, hnodes]
  cases hq : q.queue with
  | nil => simp [newMoveQueue, plan, nodes, forwardPass]
  | cons m r =>
    rw [if_neg (by simp), ← hq, drop_length, plan, take_of_length_le (by rw [nodes_length])]
    rfl

/-- The queue splits at the first move that can accelerate, if there is one. -/
theorem delayed_split :
    (delayed l = l ∧ peakV2 l = 0) ∨ ∃ h b, l = delayed l ++ h :: b ∧ Accelerates h b := by
  induction l with
  | nil => exact .inl ⟨rfl, rfl⟩
  | cons m r ih =>
    by_cases ha : Accelerates m r
    · exact .inr ⟨m, r, by simp [delayed, ha], ha⟩
    · rw [delayed, if_neg ha, peakV2, if_neg (fun h => ha h.1)]
      rcases ih with ⟨hd, hp⟩ | ⟨h, b, hr, hh⟩
      · exact .inl ⟨by rw [hd], hp⟩
      · refine .inr ⟨h, b, ?_, hh⟩
        rw [cons_append, ← hr]

/-- The boundary a lazy flush finds: the released moves `a` end with an
accelerating move that is a peak, followed only by delayed moves; the first move
kept accelerates. -/
structure Cut (a : List (Move K)) (h : Move K) (b : List (Move K)) : Prop where
  accelerates : Accelerates h b
  exists_peak : ∃ a' m d, a = a' ++ m :: d ∧ delayed (d ++ h :: b) = d ∧
    Accelerates m (d ++ h :: b) ∧ NewPeak m (d ++ h :: b)

theorem backwardPass_lazy : (backwardPass true n i l).1.updateFlushCount = true ∨
    ((backwardPass true n i l).1.updateFlushCount = false ∧
      ∃ a h b, l = a ++ h :: b ∧ Cut a h b ∧
        (backwardPass true n i l).1.flushCount = i + a.length) := by
  induction l generalizing i with
  | nil => exact .inl rfl
  | cons m r ih =>
    rcases backwardStep_flushCount (m := m) (backwardPass_for true n (i + 1) r).1 i with
      ⟨ha, hp, _, hpeak, hu, hc⟩ | ⟨hu, hc⟩
    · -- the cut is found here: the moves behind `m` start with the delayed ones
      refine .inr ⟨hu, ?_⟩
      rcases delayed_split r with ⟨_, hzero⟩ | ⟨h, b, hr, hh⟩
      · exact absurd hzero hpeak
      · refine ⟨m :: delayed r, h, b, ?_, ⟨hh, [], m, delayed r, rfl, ?_⟩, ?_⟩
        · rw [cons_append, ← hr]
        · rw [← hr]
          exact ⟨rfl, ha, hp⟩
        · exact hc
    · -- it was found further behind, or not yet
      rcases ih (i + 1) with hr | ⟨hr, a, h, b, hl, hcut, hcount⟩
      · exact .inl (hu.trans hr)
      · refine .inr ⟨hu.trans hr, m :: a, h, b, by rw [hl]; rfl, ?_, ?_⟩
        · obtain ⟨hh, a', m', d, rfl, hrest⟩ := hcut
          exact ⟨hh, m :: a', m', d, rfl, hrest⟩
        · refine hc.trans (hcount.trans ?_)
          rw [length_cons]
          omega

theorem forwardPass_take [HasSqrt K] (prevCruiseV2 : K) (ns : List (JunctionNode K)) (k : ℕ) :
    forwardPass prevCruiseV2 (ns.take k) = (forwardPass prevCruiseV2 ns).take k := by
  induction ns generalizing prevCruiseV2 k with
  | nil => simp [forwardPass]
  | cons n ns ih =>
    cases k with
    | zero => rfl
    | succ k => simp only [take_succ_cons, forwardPass, ih]

/-- A lazy flush keeps the queue, or releases the planned moves in front of a
cut. -/
theorem flush_lazy [HasSqrt K] (q : LookAheadQueue K) :
    q.flush true = ({ q with junctionFlush := lookaheadFlushTime }, []) ∨
    ∃ a h b, q.queue = a ++ h :: b ∧ Cut a h b ∧
      q.flush true =
        ({ queue := h :: b, junctionFlush := lookaheadFlushTime },
          (plan q.queue).take a.length) := by
  have hnodes := (backwardPass_for true q.queue.length 0 q.queue).2
  rw [LookAheadQueue.flush]
  rcases backwardPass_lazy q.queue.length 0 q.queue with hu | ⟨hu, a, h, b, hq, hcut, hcount⟩
  · rw [if_pos (.inl hu)]
    exact .inl rfl
  · refine .inr ⟨a, h, b, hq, hcut, ?_⟩
    obtain ⟨_, a', m, d, ha, _⟩ := hcut
    have hpos : a.length ≠ 0 := by
      rw [ha]
      simp
    rw [hu, hcount, hnodes, Nat.zero_add, if_neg (by simp [hpos]), forwardPass_take, plan]
    rw [hq, drop_left]

end Motion
