/-
Runs of the look-ahead queue.

A run adds moves and flushes the queue, lazily or completely, in any order.
What the queue does over a whole run is compared with an ideal planner that
never flushes lazily: it keeps every move since the last full flush
(`Ideal.segment`) and plans them together.

* `refines_run` — a planner and its ideal stay related along every run: what the
  planner has released is final, and what it keeps is planned as the ideal
  planner plans it, whatever is added later.
-/
import KlipperGo.Plan
import KlipperGo.Runs

open ExactArith List

namespace Motion

open Move Runs

section Defs

variable {K : Type*} [Field K] [LinearOrder K] [HasSqrt K]

inductive PlannerOp (K : Type*) [Field K] [LinearOrder K]
  | addMove (move : Move K) (extruder : Option (MoveJunctionCalculator K))
  | flush (lazy : Bool)

/-- The queue, and all the moves it has handed to `Process_moves`. -/
structure Planner (K : Type*) where
  queue : LookAheadQueue K
  released : List (Move K)

def Planner.start : Planner K := { queue := newMoveQueue, released := [] }

def Planner.step (s : Planner K) : PlannerOp K → Planner K
  | .addMove move extruder => { s with queue := (s.queue.addMove move extruder).1 }
  | .flush lazy =>
    let out := s.queue.flush lazy
    { queue := out.1, released := s.released ++ out.2 }

variable (ops : List (PlannerOp K))

def Planner.run : Planner K := final Planner.step Planner.start ops

/-- The moves with `move` added, its junction computed. -/
def enqueue (l : List (Move K)) (move : Move K) (extruder : Option (MoveJunctionCalculator K)) :
    List (Move K) :=
  match l.getLast? with
  | none => l ++ [move]
  | some prevMove => l ++ [move.calcJunction prevMove extruder]

/-- The ideal planner: the moves released by full flushes, and those queued since. -/
structure Ideal (K : Type*) where
  finished : List (Move K)
  segment : List (Move K)

def Ideal.start : Ideal K := { finished := [], segment := [] }

def Ideal.step (i : Ideal K) : PlannerOp K → Ideal K
  | .addMove move extruder => { i with segment := enqueue i.segment move extruder }
  | .flush true => i
  | .flush false => { finished := i.finished ++ plan i.segment, segment := [] }

def Ideal.run : Ideal K := final Ideal.step Ideal.start ops

/-- What is asked of an operation: moves are built by the program. -/
def PlannerOp.Admissible (SpeedOk : K → Prop) : PlannerOp K → Prop
  | .addMove move _ => Built SpeedOk move
  | .flush _ => True

def added : List (PlannerOp K) → List (Move K)
  | [] => []
  | .addMove move _ :: ops => move :: added ops
  | .flush _ :: ops => added ops

def withoutFlushes : List (PlannerOp K) :=
  ops.filter fun
    | .addMove _ _ => true
    | .flush _ => false

/-- A move as it was requested: without the junction limits and the speeds that
the planner computes. -/
def Move.request (m : Move K) : Move K :=
  { m with
    maxStartV2 := 0, maxMcrStartV2 := 0, maxSmoothedV2 := 0
    startV := 0, cruiseV := 0, endV := 0, accelT := 0, cruiseT := 0, decelT := 0 }

end Defs

variable {K : Type*} [Field K] [LinearOrder K] [HasSqrt K]

theorem addMove_queue (q : LookAheadQueue K) (m : Move K)
    (extruder : Option (MoveJunctionCalculator K)) :
    (q.addMove m extruder).1.queue = enqueue q.queue m extruder := by
  rw [LookAheadQueue.addMove, enqueue]
  cases q.queue.getLast? <;> rfl

/-- The junction of a new move depends on the last move only. -/
theorem enqueue_append {t : List (Move K)} (ht : t ≠ []) (a : List (Move K)) (m : Move K)
    (extruder : Option (MoveJunctionCalculator K)) :
    ∃ m', enqueue t m extruder = t ++ [m'] ∧ enqueue (a ++ t) m extruder = a ++ t ++ [m'] := by
  obtain ⟨t', p, rfl⟩ := (eq_nil_or_concat t).resolve_left ht
  refine ⟨m.calcJunction p extruder, ?_, ?_⟩
  · simp [enqueue]
  · rw [concat_eq_append, ← append_assoc, enqueue, getLast?_concat]

/-! ### The planner refines the ideal one -/

/-- A planner and its ideal.  `agrees` is the invariant: what is released is
final, and the moves kept are planned as part of the whole segment, also with
any moves `c` added behind them. -/
structure Refines (s : Planner K) (i : Ideal K) : Prop where
  segment : Segment i.segment
  suffix : ∃ a, i.segment = a ++ s.queue.queue
  keeps : i.segment ≠ [] → s.queue.queue ≠ []
  agrees : ∀ c, Planable (i.segment ++ c) →
    i.finished ++ plan (i.segment ++ c) = s.released ++ plan (s.queue.queue ++ c)

section

variable {s : Planner K} {i : Ideal K}

theorem refines_start : Refines (Planner.start : Planner K) Ideal.start where
  segment := ⟨⟨by simp [Ideal.start], isChain_nil⟩, by simp [Ideal.start],
    by simp [Ideal.start]⟩
  suffix := ⟨[], rfl⟩
  keeps h := absurd rfl h
  agrees _ _ := rfl

/-- Once the segment is finished, both planners have released the same moves. -/
theorem Refines.released_eq (h : Refines s i) (hi : i.segment = []) : s.released = i.finished := by
  obtain ⟨a, ha⟩ := h.suffix
  rw [hi] at ha
  have hq : s.queue.queue = [] := (append_eq_nil_iff.mp ha.symm).2
  have hagree := h.agrees [] (by simpa using h.segment.toPlanable)
  rw [hi, hq] at hagree
  simpa [plan, nodes, forwardPass] using hagree.symm

/-- What is released is the beginning of what the ideal planner would release. -/
theorem Refines.released_append (h : Refines s i) :
    ∃ rest, i.finished ++ plan i.segment = s.released ++ rest := by
  have hagree := h.agrees [] (by simpa using h.segment.toPlanable)
  rw [append_nil, append_nil] at hagree
  exact ⟨_, hagree⟩

theorem Refines.fullFlush (h : Refines s i) :
    Refines (s.step (.flush false)) (i.step (.flush false)) := by
  have hagree := h.agrees [] (by simpa using h.segment.toPlanable)
  rw [append_nil, append_nil] at hagree
  have hstep : s.step (.flush false) = ⟨newMoveQueue, s.released ++ plan s.queue.queue⟩ := by
    rw [Planner.step, flush_full]
  -- both start over with an empty segment
  rw [hstep, ← hagree]
  exact ⟨refines_start.segment, ⟨[], rfl⟩, fun hne => absurd rfl hne, fun _ _ => rfl⟩

variable [IsStrictOrderedRing K]

theorem Refines.lazyFlush (h : Refines s i) : Refines (s.step (.flush true)) i := by
  obtain ⟨a, ha⟩ := h.suffix
  rcases flush_lazy s.queue with hsame | ⟨a', m, b, hq, hcut, hflush⟩
  · have hstep : s.step (.flush true) =
        ⟨{ s.queue with junctionFlush := lookaheadFlushTime }, s.released⟩ := by
      rw [Planner.step, hsame, append_nil]
    rw [hstep]
    exact { h with }
  · -- the moves in front of the cut are released, and the cut is final
    have hstep : s.step (.flush true) = ⟨⟨m :: b, lookaheadFlushTime⟩,
        s.released ++ (plan s.queue.queue).take a'.length⟩ := by
      rw [Planner.step, hflush]
    rw [hstep]
    refine ⟨h.segment, ⟨a ++ a', ?_⟩, fun _ => by simp, ?_⟩
    · rw [ha, hq, append_assoc]
    · intro c hc
      have hpl : Planable (a' ++ m :: b ++ c) := by
        rw [ha, hq, append_assoc a] at hc
        exact hc.right
      rw [h.agrees c hc, hq, plan_cut hpl hcut, append_assoc]

variable [LawfulSqrt K] {SpeedOk : K → Prop}

/-- Adding a move the program built keeps a segment one. -/
theorem Segment.enqueue {l : List (Move K)} {m : Move K} (hl : Segment l)
    (hm : Built SpeedOk m) (extruder : Option (MoveJunctionCalculator K)) :
    Segment (enqueue l m extruder) := by
  have hw := hm.wellFormed
  have hr := hm.atRest
  rcases eq_nil_or_concat l with rfl | ⟨l, p, rfl⟩
  · -- the first move of a segment has no junction: it starts from rest
    refine ⟨⟨?_, isChain_singleton m⟩, ?_, ?_⟩
    · simpa [Motion.enqueue] using hw.limited_of_atRest hr
    · simpa [Motion.enqueue] using hw
    · simpa [Motion.enqueue] using hr
  · rw [concat_eq_append] at hl ⊢
    have hp : p ∈ l ++ [p] := by simp
    obtain ⟨hlim, hlink⟩ :=
      calcJunction_linked hw hr (hl.wellFormed p hp) (hl.limited p hp) extruder
    have heq : Motion.enqueue (l ++ [p]) m extruder = l ++ [p] ++ [m.calcJunction p extruder] := by
      rw [Motion.enqueue, getLast?_concat]
    rw [heq]
    refine ⟨⟨?_, ?_⟩, ?_, ?_⟩
    · intro x hx
      rcases mem_append.mp hx with hx | hx
      · exact hl.limited x hx
      · rw [mem_singleton.mp hx]
        exact hlim
    · refine IsChain.append hl.linked (isChain_singleton _) ?_
      simpa using hlink
    · intro x hx
      rcases mem_append.mp hx with hx | hx
      · exact hl.wellFormed x hx
      · rw [mem_singleton.mp hx]
        rw [calcJunction]
        split
        · exact hw
        · exact { hw with }
    · intro x hx
      refine hl.rested x ?_
      cases l <;> simpa using hx

theorem Refines.addMove {m : Move K} (h : Refines s i)
    (hm : Built SpeedOk m) (extruder : Option (MoveJunctionCalculator K)) :
    Refines (s.step (.addMove m extruder)) (i.step (.addMove m extruder)) := by
  have hseg := h.segment.enqueue hm extruder
  obtain ⟨a, ha⟩ := h.suffix
  -- both queues get the same new move
  obtain ⟨m', hq, hi⟩ : ∃ m', (s.queue.addMove m extruder).1.queue = s.queue.queue ++ [m'] ∧
      enqueue i.segment m extruder = i.segment ++ [m'] := by
    rw [addMove_queue]
    by_cases hnil : s.queue.queue = []
    · have hinil : i.segment = [] := by
        by_contra hne
        exact h.keeps hne hnil
      rw [hnil, hinil]
      exact ⟨m, rfl, rfl⟩
    · rw [ha]
      exact enqueue_append hnil a m extruder
  rw [hi] at hseg
  have hstep : i.step (.addMove m extruder) = { i with segment := i.segment ++ [m'] } := by
    rw [Ideal.step, hi]
  rw [hstep]
  refine ⟨hseg, ⟨a, ?_⟩, ?_, ?_⟩
  · show i.segment ++ [m'] = a ++ (s.queue.addMove m extruder).1.queue
    rw [hq, ha, append_assoc]
  · intro _
    show (s.queue.addMove m extruder).1.queue ≠ []
    rw [hq]
    simp
  · -- the new move is the first of those that may still come
    intro c hc
    have hagree := h.agrees (m' :: c) (by simpa using hc)
    show i.finished ++ plan (i.segment ++ [m'] ++ c)
      = s.released ++ plan ((s.queue.addMove m extruder).1.queue ++ c)
    rw [hq, append_assoc, append_assoc]
    exact hagree

theorem Refines.step {op : PlannerOp K} (h : Refines s i)
    (hop : op.Admissible SpeedOk) : Refines (s.step op) (i.step op) := by
  match op, hop with
  | .addMove m extruder, hm => exact h.addMove hm extruder
  | .flush true, _ => exact h.lazyFlush
  | .flush false, _ => exact h.fullFlush

/-- **The planner refines the ideal planner along every run.** -/
theorem refines_run {ops : List (PlannerOp K)}
    (hops : ∀ op ∈ ops, op.Admissible SpeedOk) : Refines (Planner.run ops) (Ideal.run ops) :=
  final_of_simulation (fun _ _ _ h hop => h.step hop) refines_start hops

end

/-! ### The schedule of the lazy flushes does not matter -/

section

variable {K : Type*} [Field K] [LinearOrder K] [HasSqrt K] (l : List (Move K)) (m : Move K)
  (ops : List (PlannerOp K))

theorem calcJunction_request (p : Move K) (extruder : Option (MoveJunctionCalculator K)) :
    (m.calcJunction p extruder).request = m.request := by
  rw [calcJunction]
  split <;> rfl

theorem enqueue_request (extruder : Option (MoveJunctionCalculator K)) :
    (enqueue l m extruder).map request = l.map request ++ [m.request] := by
  rw [enqueue]
  cases l.getLast? with
  | none => simp
  | some p => simp [calcJunction_request]

theorem forwardPass_request (prevCruiseV2 : K) (l : List (Move K)) :
    (forwardPass prevCruiseV2 (nodes l)).map request = l.map request := by
  induction l generalizing prevCruiseV2 with
  | nil => rfl
  | cons m r ih =>
    rw [forwardPass_nodes_cons, map_cons, map_cons, ih]
    rfl

theorem plan_request : (plan l).map request = l.map request :=
  forwardPass_request 0 l

/-- No move is lost, repeated or reordered. -/
theorem ideal_request :
    ((Ideal.run ops).finished ++ (Ideal.run ops).segment).map request
      = (added ops).map request := by
  -- the induction needs any state to start from
  suffices hgen : ∀ i : Ideal K,
      ((final Ideal.step i ops).finished ++ (final Ideal.step i ops).segment).map
        request = (i.finished ++ i.segment).map request ++ (added ops).map request by
    exact hgen Ideal.start
  induction ops with
  | nil => intro i; simp [added]
  | cons op ops ih =>
    intro i
    rw [final_cons, ih]
    match op with
    | .addMove m extruder => simp [Ideal.step, enqueue_request, added]
    | .flush true => rfl
    | .flush false => simp [Ideal.step, plan_request, added]

/-- The ideal planner does not notice lazy flushes. -/
theorem ideal_withoutFlushes {ops : List (PlannerOp K)} (hops : .flush false ∉ ops) :
    Ideal.run (withoutFlushes ops) = Ideal.run ops := by
  suffices hgen : ∀ i : Ideal K, final Ideal.step i (withoutFlushes ops)
      = final Ideal.step i ops from hgen Ideal.start
  induction ops with
  | nil => exact fun _ => rfl
  | cons op ops ih =>
    intro i
    have ih := ih fun h => hops (by simp [h])
    match op, hops with
    | .addMove m extruder, _ => exact ih _
    | .flush true, _ => exact ih i
    | .flush false, hops => exact absurd (by simp) hops

theorem planner_run_append (op : PlannerOp K) :
    Planner.run (ops ++ [op]) = (Planner.run ops).step op := by
  rw [Planner.run, final, foldl_append]
  rfl

end

section

variable [IsStrictOrderedRing K] [LawfulSqrt K] {ops : List (PlannerOp K)} {SpeedOk : K → Prop}

/-- A final full flush releases what the ideal planner releases. -/
theorem released_fullFlush (hops : ∀ op ∈ ops, op.Admissible SpeedOk) :
    (Planner.run (ops ++ [.flush false])).released
      = (Ideal.run ops).finished ++ plan (Ideal.run ops).segment := by
  rw [planner_run_append]
  exact (refines_run hops).fullFlush.released_eq rfl

end

variable (ops : List (PlannerOp ℝ))

/-- **Planning does not depend on the flush schedule.**  Adding moves with any
lazy flushes in between and flushing at the end releases the same moves, with the
same speeds, as adding them all and flushing once; and they are the moves added,
each once and in order. -/
theorem released_flush_schedule
    (hops : ∀ op ∈ ops, op.Admissible fun _ => True) (hlazy : .flush false ∉ ops) :
    (Planner.run (ops ++ [.flush false])).released
        = (Planner.run (withoutFlushes ops ++ [.flush false])).released ∧
      (Planner.run (ops ++ [.flush false])).released.map request
        = (added ops).map request := by
  have hwithout : ∀ op ∈ withoutFlushes ops, op.Admissible fun _ => True :=
    fun op hop => hops op (mem_of_mem_filter hop)
  rw [released_fullFlush hops, released_fullFlush hwithout, ideal_withoutFlushes hlazy]
  refine ⟨rfl, ?_⟩
  rw [← ideal_request, map_append, plan_request, map_append]

theorem released_flush_schedule_unitMove :
    (Planner.run [.addMove (unitMove ℝ) none, .flush true, .addMove (unitMove ℝ) none,
      .flush false]).released
      = (Planner.run [.addMove (unitMove ℝ) none, .addMove (unitMove ℝ) none,
        .flush false]).released := by
  refine (released_flush_schedule
    [.addMove (unitMove ℝ) none, .flush true, .addMove (unitMove ℝ) none] ?_ ?_).1
  · have hm := unitMove_built.mono fun _ _ => trivial
    simp [PlannerOp.Admissible, hm]
  · simp

/-! ### Released moves can be driven -/

/-- The moves of the ideal planner: those it has finished can be driven, run on
from one to the next and end at rest, and those it keeps have a speed to go at. -/
structure Ideal.Driven (i : Ideal K) : Prop where
  segment : Segment i.segment
  speeds : ∀ m ∈ i.segment, 0 < m.maxCruiseV2
  feasible : ∀ m ∈ i.finished, m.Feasible
  continuous : ContinuousVelocity i.finished
  stops : ∀ m ∈ i.finished.getLast?, m.endV = 0

section

variable [IsStrictOrderedRing K] [LawfulSqrt K] {i : Ideal K}

omit [LinearOrder K] [HasSqrt K] [IsStrictOrderedRing K] [LawfulSqrt K] in
theorem ContinuousVelocity.append {l r : List (Move K)} (hl : ContinuousVelocity l)
    (hr : ContinuousVelocity r) (hlast : ∀ m ∈ l.getLast?, m.endV = 0)
    (hhead : ∀ m ∈ r.head?, m.startV = 0) : ContinuousVelocity (l ++ r) :=
  IsChain.append hl hr fun p hp m hm => (hlast p hp).trans (hhead m hm).symm

/-- Everything the ideal planner has, planned to the end. -/
theorem Ideal.Driven.planned (h : i.Driven) : (∀ m ∈ i.finished ++ plan i.segment, m.Feasible) ∧
    ContinuousVelocity (i.finished ++ plan i.segment) ∧
    ∀ m ∈ (i.finished ++ plan i.segment).getLast?, m.endV = 0 := by
  have hfeasible := plan_feasible h.segment h.speeds
  obtain ⟨hcont, hhead, hlast⟩ := plan_continuous h.segment h.speeds
  refine ⟨?_, h.continuous.append hcont h.stops hhead, ?_⟩
  · intro m hm
    exact (mem_append.mp hm).elim (h.feasible m) (hfeasible m)
  · intro m hm
    rw [getLast?_append] at hm
    rcases hp : (plan i.segment).getLast? with _ | x
    · rw [hp] at hm
      exact h.stops m hm
    · rw [hp] at hm
      exact hlast m (hp.trans hm)

theorem Ideal.Driven.step {op : PlannerOp K} (h : i.Driven)
    (hop : op.Admissible fun v => 0 < v) : (i.step op).Driven := by
  match op, hop with
  | .addMove m extruder, hm =>
    refine { h with segment := h.segment.enqueue hm extruder, speeds := ?_ }
    have hpos := hm.maxCruiseV2_pos
    show ∀ x ∈ enqueue i.segment m extruder, 0 < x.maxCruiseV2
    rw [enqueue]
    cases i.segment.getLast? with
    | none => simpa [or_imp, forall_and] using ⟨h.speeds, hpos⟩
    | some p => simpa [or_imp, forall_and, calcJunction_fields.1] using ⟨h.speeds, hpos⟩
  | .flush true, _ => exact h
  | .flush false, _ =>
    obtain ⟨hfeasible, hcont, hlast⟩ := h.planned
    exact ⟨refines_start.segment, by simp [Ideal.step], hfeasible, hcont, hlast⟩

theorem ideal_driven {ops : List (PlannerOp K)}
    (hops : ∀ op ∈ ops, op.Admissible fun v => 0 < v) : (Ideal.run ops).Driven := by
  refine final_of_invariant (fun _ _ h hop => h.step hop) ?_ (along_of_forall hops)
  exact ⟨refines_start.segment, by simp [Ideal.start], by simp [Ideal.start],
    isChain_nil, by simp [Ideal.start]⟩

end

/-- **Every released move can be driven**, over any run of added moves and
flushes. -/
theorem released_feasible
    (hops : ∀ op ∈ ops, op.Admissible fun v => 0 < v) :
    ∀ m ∈ (Planner.run ops).released, m.Feasible := by
  intro m hm
  obtain ⟨rest, hrest⟩ := (refines_run hops).released_append
  refine (ideal_driven hops).planned.1 m ?_
  rw [hrest]
  exact mem_append_left _ hm

theorem released_feasible_unitMove :
    ∃ m, (Planner.run [.addMove (unitMove ℝ) none, .flush false]).released = [m] ∧ m.Feasible := by
  have hops : ∀ op ∈ [PlannerOp.addMove (unitMove ℝ) none], op.Admissible fun v => 0 < v := by
    simp [PlannerOp.Admissible, unitMove_built]
  have hrequest : (Planner.run [.addMove (unitMove ℝ) none, .flush false]).released.map request
      = [(unitMove ℝ).request] := by
    show (Planner.run ([.addMove (unitMove ℝ) none] ++ [.flush false])).released.map _ = _
    rw [released_fullFlush hops, map_append, plan_request]
    rfl
  obtain ⟨m, hm, -⟩ := map_eq_singleton_iff.mp hrequest
  refine ⟨m, hm, released_feasible [.addMove (unitMove ℝ) none, .flush false] ?_ m ?_⟩
  · simp [PlannerOp.Admissible, unitMove_built]
  · rw [hm]
    exact mem_singleton_self m

/-! ### The velocity is continuous -/

/-- **The commanded velocity is continuous over the whole run**, also between
moves released by different flushes, and a full flush ends at rest. -/
theorem released_continuous
    (hops : ∀ op ∈ ops, op.Admissible fun v => 0 < v) :
    ContinuousVelocity (Planner.run ops).released ∧
      ∀ m ∈ (Planner.run (ops ++ [.flush false])).released.getLast?, m.endV = 0 := by
  obtain ⟨_, hcont, hlast⟩ := (ideal_driven hops).planned
  constructor
  · obtain ⟨rest, hrest⟩ := (refines_run hops).released_append
    rw [hrest] at hcont
    exact hcont.left_of_append
  · rw [released_fullFlush hops]
    exact hlast

theorem released_continuous_unitMove :
    let ops := [.addMove (unitMove ℝ) none, .flush true, .addMove (unitMove ℝ) none]
    let released := (Planner.run (ops ++ [.flush false])).released
    released.map request = [(unitMove ℝ).request, (unitMove ℝ).request] ∧
      ContinuousVelocity released ∧ ∀ m ∈ released.getLast?, m.endV = 0 := by
  intro ops released
  have hops : ∀ op ∈ ops, op.Admissible fun v => 0 < v := by
    simp [ops, PlannerOp.Admissible, unitMove_built]
  refine ⟨?_, (released_continuous (ops ++ [.flush false]) ?_).1, (released_continuous ops hops).2⟩
  · show (Planner.run (ops ++ [.flush false])).released.map _ = _
    rw [released_fullFlush hops, map_append, plan_request, ← map_append, ideal_request]
    rfl
  · exact forall_mem_append.mpr ⟨hops, by simp [PlannerOp.Admissible]⟩

end Motion
