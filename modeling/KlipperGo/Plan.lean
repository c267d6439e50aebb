/-
The plan of a queue.

A queue is *planable* when every move has its limits in order and consecutive
moves are linked by a junction.  For such queues this file proves

* `plan_cut` — the moves in front of a cut are final: whatever is added behind
  the queue, they are planned as they are now, and the moves behind the cut are
  planned as if they stood alone;
* `plan_feasible` — the speeds the two passes assign can be driven;
* `plan_continuous` — every move ends at the speed the next one starts with,
  the first starts and the last ends at rest.

The key to the first two is `startV2_of_boundary`: at a cut the slower profile
and the full one meet in the junction limit, which no later move changes.
-/
import KlipperGo.LookAhead

open ExactArith BackwardReach List

namespace Motion

variable {K : Type*} [Field K] [LinearOrder K]

/-- The queues the planner is used on. -/
structure Planable (l : List (Move K)) : Prop where
  limited : ∀ m ∈ l, m.Limited
  linked : l.IsChain Linked

section

variable {m : Move K} {r c : List (Move K)}

theorem Planable.tail (hl : Planable (m :: r)) : Planable r :=
  ⟨fun x hx => hl.limited x (by simp [hx]), hl.linked.tail⟩

theorem Planable.head (hl : Planable (m :: r)) : m.Limited := hl.limited m (by simp)

theorem Planable.left (hl : Planable (r ++ c)) : Planable r :=
  ⟨fun x hx => hl.limited x (by simp [hx]), hl.linked.left_of_append⟩

theorem Planable.right (hl : Planable (r ++ c)) : Planable c :=
  ⟨fun x hx => hl.limited x (by simp [hx]), hl.linked.right_of_append⟩

theorem Move.Limited.maxStartV2_nonneg (hm : m.Limited) : 0 ≤ m.maxStartV2 :=
  hm.maxMcrStartV2_nonneg.trans hm.maxMcrStartV2_le

end

/-! ### Queues the backward pass cannot tell apart -/

/-- The backward pass cannot tell `r` from `r'`, the peak apart. -/
structure Agree (r r' : List (Move K)) : Prop where
  startV2_eq : startV2 r = startV2 r'
  mcrV2_eq : mcrV2 r = mcrV2 r'
  delayed_iff : delayed r = [] ↔ delayed r' = []

section

variable {m : Move K} {r r' : List (Move K)}

variable (h : Agree r r')
include h

theorem Agree.accelerates_iff : Accelerates m r ↔ Accelerates m r' := by
  rw [← Motion.accelerates_iff, ← Motion.accelerates_iff, mcrV2_cons, mcrV2_cons, h.mcrV2_eq]

theorem Agree.cons : Agree (m :: r) (m :: r') where
  startV2_eq := by rw [startV2_cons, startV2_cons, h.startV2_eq]
  mcrV2_eq := by rw [mcrV2_cons, mcrV2_cons, h.mcrV2_eq]
  delayed_iff := by
    rw [delayed, delayed]
    by_cases ha : Accelerates m r
    · rw [if_pos ha, if_pos (h.accelerates_iff.mp ha)]
    · rw [if_neg ha, if_neg (fun h' => ha (h.accelerates_iff.mpr h'))]
      simp

theorem Agree.newPeak_iff : NewPeak m r ↔ NewPeak m r' := by
  rw [NewPeak, NewPeak, (h.cons (m := m)).mcrV2_eq, h.mcrV2_eq, ne_eq, h.delayed_iff]

/-- With the same peak in front, the node of a move is the same too. -/
theorem Agree.nodeOf_eq (hpeak : Accelerates m r → peakV2 (m :: r) = peakV2 (m :: r')) :
    nodeOf m r = nodeOf m r' := by
  rw [nodeOf, nodeOf, (h.cons (m := m)).startV2_eq, h.startV2_eq]
  by_cases ha : Accelerates m r
  · rw [if_pos ha, if_pos (h.accelerates_iff.mp ha), cruiseV2, cruiseV2, hpeak ha,
      (h.cons (m := m)).startV2_eq, h.startV2_eq]
  · rw [if_neg ha, if_neg (fun h' => ha (h.accelerates_iff.mpr h'))]

theorem Agree.peakV2_eq (hpeak : ¬ (Accelerates m r ∧ NewPeak m r) → peakV2 r = peakV2 r') :
    peakV2 (m :: r) = peakV2 (m :: r') := by
  rw [peakV2, peakV2, (h.cons (m := m)).mcrV2_eq, h.mcrV2_eq]
  by_cases ha : Accelerates m r ∧ NewPeak m r
  · rw [if_pos ha, if_pos ⟨h.accelerates_iff.mp ha.1, h.newPeak_iff.mp ha.2⟩]
  · rw [if_neg ha, if_neg (fun h' => ha ⟨h.accelerates_iff.mpr h'.1, h.newPeak_iff.mpr h'.2⟩)]
    exact hpeak ha

end

/-- The moves `a` get the same nodes in front of `r` and of `r'`. -/
def SameNodes (a r r' : List (Move K)) : Prop :=
  ∃ ns, ns.length = a.length ∧ nodes (a ++ r) = ns ++ nodes r ∧ nodes (a ++ r') = ns ++ nodes r'

section

variable {m : Move K} {a r r' : List (Move K)}

theorem SameNodes.cons (h : SameNodes a r r') (hm : nodeOf m (a ++ r) = nodeOf m (a ++ r')) :
    SameNodes (m :: a) r r' := by
  obtain ⟨ns, hlen, h1, h2⟩ := h
  refine ⟨nodeOf m (a ++ r) :: ns, by simp [hlen], ?_, ?_⟩
  · rw [cons_append, nodes, h1]
    rfl
  · rw [cons_append, nodes, h2, ← hm]
    rfl

/-- Delayed moves do not look at the peak. -/
theorem sameNodes_of_delayed (h : Agree r r') : ∀ {d : List (Move K)}, delayed (d ++ r) = d →
    Agree (d ++ r) (d ++ r') ∧ SameNodes d r r'
  | [], _ => ⟨h, [], rfl, rfl, rfl⟩
  | m :: d, hd => by
    rw [cons_append, delayed] at hd
    split at hd
    · -- an accelerating move is not delayed, nor is anything in front of it
      exact absurd hd (by simp)
    · next hna =>
      obtain ⟨hagree, hsame⟩ := sameNodes_of_delayed h (cons_inj_right _ |>.mp hd)
      exact ⟨hagree.cons, hsame.cons (hagree.nodeOf_eq fun ha => absurd ha hna)⟩

/-- With the peak agreed upon, everything in front is planned alike. -/
theorem sameNodes_of_peak (h : Agree r r') (hpeak : peakV2 r = peakV2 r') :
    ∀ a : List (Move K), (Agree (a ++ r) (a ++ r') ∧ peakV2 (a ++ r) = peakV2 (a ++ r')) ∧
      SameNodes a r r'
  | [] => ⟨⟨h, hpeak⟩, [], rfl, rfl, rfl⟩
  | m :: a => by
    obtain ⟨⟨hagree, hp⟩, hsame⟩ := sameNodes_of_peak h hpeak a
    have hp' := hagree.peakV2_eq (m := m) fun _ => hp
    exact ⟨⟨hagree.cons, hp'⟩, hsame.cons (hagree.nodeOf_eq fun _ => hp')⟩

theorem SameNodes.append {a' : List (Move K)} (h : SameNodes a' (a ++ r) (a ++ r'))
    (h' : SameNodes a r r') : SameNodes (a' ++ a) r r' := by
  obtain ⟨ns, hlen, h1, h2⟩ := h
  obtain ⟨ns', hlen', h1', h2'⟩ := h'
  refine ⟨ns ++ ns', by simp [hlen, hlen'], ?_, ?_⟩
  · rw [append_assoc, h1, h1', append_assoc]
  · rw [append_assoc, h2, h2', append_assoc]

end

/-! ### Speeds at a junction -/

variable [IsStrictOrderedRing K]

section

variable {m h : Move K} {r b c l : List (Move K)}

theorem startV2_nonneg (hl : Planable l) : 0 ≤ startV2 l :=
  reach_nonneg fun x hx => ⟨(hl.limited x hx).maxStartV2_nonneg, (hl.limited x hx).deltaV2_pos.le⟩

theorem mcrV2_nonneg (hl : Planable l) : 0 ≤ mcrV2 l :=
  reach_nonneg fun x hx =>
    ⟨(hl.limited x hx).maxMcrStartV2_nonneg, (hl.limited x hx).mcrDeltaV2_pos.le⟩

/-- The minimum-cruise-ratio profile is the slower one. -/
theorem mcrV2_le_startV2 (hl : Planable l) : mcrV2 l ≤ startV2 l :=
  reach_mono (fun x hx => (hl.limited x hx).deltaV2_pos.le) fun x hx =>
    have hx := hl.limited x hx
    ⟨hx.maxMcrStartV2_nonneg, hx.maxMcrStartV2_le, hx.mcr_slower⟩

theorem Accelerates.append (hs : Accelerates m r) (hl : Planable (r ++ c)) :
    Accelerates m (r ++ c) :=
  Slack.append hs fun x hx =>
    ⟨(hl.limited x hx).maxMcrStartV2_nonneg, (hl.limited x hx).mcrDeltaV2_pos.le⟩

/-- The speed behind a move is one the move may cruise at and can accelerate to. -/
theorem startV2_next_le (hl : Planable (m :: r)) :
    startV2 r ≤ m.maxCruiseV2 ∧ startV2 r ≤ startV2 (m :: r) + m.deltaV2 := by
  have hm := hl.head
  have hnn := startV2_nonneg hl
  have hd := hm.deltaV2_pos
  cases r with
  | nil =>
    -- behind the last move the machine stands still
    have h1 := hm.maxStartV2_nonneg
    have h2 := hm.maxStartV2_le
    rw [startV2_nil] at *
    exact ⟨by linarith, by linarith⟩
  | cons n r =>
    have hlink := (isChain_cons_cons.mp hl.linked).1
    have hn : startV2 (n :: r) ≤ n.maxStartV2 := reach_le_lim _ _ _ _
    -- the junction limit of `n` already respects what `m` can do
    refine ⟨hn.trans hlink.start_le_cruise, ?_⟩
    rw [startV2_cons m]
    have h1 := hlink.start_le_add
    rcases min_choice m.maxStartV2 (startV2 (n :: r) + m.deltaV2) with h | h <;> linarith

/-- An accelerating move reaches the minimum-cruise-ratio speed behind it. -/
theorem mcrV2_next_le (hl : Planable (m :: r)) (ha : Accelerates m r) :
    mcrV2 r ≤ mcrV2 (m :: r) + m.mcrDeltaV2 := by
  have hm := hl.head
  rw [mcrV2_of_accelerates ha]
  cases r with
  | nil =>
    exact add_nonneg hm.maxMcrStartV2_nonneg hm.mcrDeltaV2_pos.le
  | cons n r =>
    have hlink := (isChain_cons_cons.mp hl.linked).1
    have hn : mcrV2 (n :: r) ≤ n.maxMcrStartV2 := reach_le_lim _ _ _ _
    rw [hlink.mcr_eq] at hn
    exact hn.trans (min_le_right _ _)

/-- At the end of a deceleration the two profiles meet: the start speed of the
accelerating move `h` is its junction limit, in both profiles. -/
theorem startV2_of_boundary (hl : Planable (m :: h :: b)) (hh : Accelerates h b)
    (hm : ¬ Accelerates m (h :: b) ∨ mcrV2 (h :: b) < mcrV2 (m :: h :: b) + m.mcrDeltaV2) :
    startV2 (h :: b) = h.maxStartV2 ∧ mcrV2 (h :: b) = h.maxStartV2 := by
  have hmcr := mcrV2_of_accelerates hh
  have hlim := hl.tail.head
  have hδ := hl.head.mcrDeltaV2_pos
  have hlink := (isChain_cons_cons.mp hl.linked).1
  -- the predecessor does not limit the slower profile at `h`
  have hlt : h.maxMcrStartV2 < m.maxMcrStartV2 + m.mcrDeltaV2 := by
    rcases hm with hm | hm
    · have hle : mcrV2 (h :: b) + m.mcrDeltaV2 ≤ m.maxMcrStartV2 := not_lt.mp hm
      linarith
    · have hle : mcrV2 (m :: h :: b) ≤ m.maxMcrStartV2 := reach_le_lim _ _ _ _
      linarith
  have heq : h.maxMcrStartV2 = h.maxStartV2 := by
    rcases min_choice h.maxStartV2 (m.maxMcrStartV2 + m.mcrDeltaV2) with hc | hc
    · rw [hlink.mcr_eq, hc]
    · rw [hlink.mcr_eq, hc] at hlt
      exact absurd hlt (lt_irrefl _)
  refine ⟨?_, hmcr.trans heq⟩
  -- the faster profile gains at least as much over `h`, so the limit cuts it too
  rw [startV2_cons]
  refine min_eq_left ?_
  have hnn := startV2_nonneg hl.tail.tail
  have hd := hlim.deltaV2_pos
  rcases hlim.mcr_slower with hzero | hslow
  · linarith
  · have hacc : h.maxMcrStartV2 < mcrV2 b + h.mcrDeltaV2 := hh
    have hle := mcrV2_le_startV2 hl.tail.tail
    linarith

end

/-! ### The moves in front of a cut are final -/

section

variable {h p : Move K} {a b c d e r : List (Move K)}

omit [IsStrictOrderedRing K] in
theorem not_accelerates_of_delayed (hd : delayed ((d ++ p :: e) ++ r) = d ++ p :: e) :
    ¬ Accelerates p (e ++ r) := by
  induction d with
  | nil =>
    intro ha
    rw [nil_append, cons_append, delayed, if_pos ha] at hd
    exact absurd hd (by simp)
  | cons m d ih =>
    rw [cons_append, cons_append, delayed] at hd
    split at hd
    · exact absurd hd (by simp)
    · exact ih (cons_inj_right _ |>.mp hd)

theorem startV2_of_cut (hl : Planable (a ++ h :: b)) (hc : Cut a h b) :
    startV2 (h :: b) = h.maxStartV2 := by
  obtain ⟨hh, a', m, d, rfl, hd, hm, hp⟩ := hc
  have hl' : Planable (m :: (d ++ h :: b)) := by
    rw [append_assoc] at hl
    exact hl.right
  -- the move before `h` is the peak itself, or the last delayed move
  rcases eq_nil_or_concat d with rfl | ⟨d', p, rfl⟩
  · refine (startV2_of_boundary hl' hh (.inr ?_)).1
    have hnil : delayed (h :: b) = [] := by rw [delayed, if_pos hh]
    rcases hp with hp | hp
    · exact hp
    · exact absurd hnil hp
  · rw [concat_eq_append] at hd hl'
    have hnp : ¬ Accelerates p (h :: b) := not_accelerates_of_delayed (e := []) hd
    have hl'' : Planable (p :: h :: b) := by
      have := hl'.tail
      rw [append_assoc] at this
      exact this.right
    exact (startV2_of_boundary hl'' hh (.inl hnp)).1

/-- Moves added behind the queue do not show in front of a cut. -/
theorem agree_of_cut (hl : Planable (a ++ h :: b ++ c)) (hc : Cut a h b) :
    Agree (h :: b) (h :: b ++ c) := by
  have hstart := startV2_of_cut hl.left hc
  have hl' : Planable (h :: b ++ c) := by
    rw [append_assoc] at hl
    exact hl.right
  have hh := hc.accelerates
  have hh' : Accelerates h (b ++ c) := hh.append hl'.tail
  -- moves behind the queue only raise the speed at `h`, which is at its limit already
  refine ⟨le_antisymm ?_ ?_, ?_, ?_⟩
  · exact reach_le_append fun x hx =>
      ⟨(hl'.limited x hx).maxStartV2_nonneg, (hl'.limited x hx).deltaV2_pos.le⟩
  · rw [hstart]
    exact reach_le_lim _ _ _ _
  · rw [cons_append, mcrV2_of_accelerates hh, mcrV2_of_accelerates hh']
  · rw [cons_append, delayed, delayed, if_pos hh, if_pos hh']

theorem sameNodes_of_cut (hl : Planable (a ++ h :: b ++ c)) (hc : Cut a h b) :
    SameNodes a (h :: b) (h :: b ++ c) := by
  have hagree := agree_of_cut hl hc
  obtain ⟨_, a', m, d, rfl, hd, hm, hp⟩ := hc
  obtain ⟨hagree', hdelayed⟩ := sameNodes_of_delayed hagree hd
  -- at the peak the two passes take the same new peak, whatever they had before
  have hpeak := hagree'.peakV2_eq (m := m) fun hn => absurd ⟨hm, hp⟩ hn
  have hmd := hdelayed.cons (hagree'.nodeOf_eq fun _ => hpeak)
  exact (sameNodes_of_peak hagree'.cons hpeak a').2.append hmd

end

section

variable [HasSqrt K] {h : Move K} {a b c : List (Move K)}

omit [IsStrictOrderedRing K] in
@[simp] theorem forwardPass_length (prevCruiseV2 : K) (ns : List (JunctionNode K)) :
    (forwardPass prevCruiseV2 ns).length = ns.length := by
  induction ns generalizing prevCruiseV2 with
  | nil => rfl
  | cons n ns ih => simp [forwardPass, ih]

omit [IsStrictOrderedRing K] in
/-- A node with a cruise speed of its own does not look at the moves before it. -/
theorem forwardPass_append (prevCruiseV2 : K) (ns : List (JunctionNode K)) {n : JunctionNode K}
    (hn : n.cruiseV2.isSome) (ns' : List (JunctionNode K)) :
    forwardPass prevCruiseV2 (ns ++ n :: ns')
      = forwardPass prevCruiseV2 ns ++ forwardPass 0 (n :: ns') := by
  induction ns generalizing prevCruiseV2 with
  | nil =>
    obtain ⟨v, hv⟩ := Option.isSome_iff_exists.mp hn
    simp [forwardPass, hv]
  | cons x ns ih => simp [forwardPass, ih]

/-- **The moves in front of a cut are final.** -/
theorem plan_cut (hl : Planable (a ++ h :: b ++ c)) (hc : Cut a h b) :
    plan (a ++ h :: b ++ c) = (plan (a ++ h :: b)).take a.length ++ plan (h :: b ++ c) := by
  obtain ⟨ns, hlen, h1, h2⟩ := sameNodes_of_cut hl hc
  have hl' : Planable (h :: b ++ c) := by
    rw [append_assoc] at hl
    exact hl.right
  -- `h` has a cruise speed of its own, so the forward pass starts anew at it
  have hn : (nodeOf h b).cruiseV2.isSome := by simp [nodeOf, hc.accelerates]
  have hn' : (nodeOf h (b ++ c)).cruiseV2.isSome := by
    simp [nodeOf, hc.accelerates.append hl'.tail]
  rw [append_assoc, plan, h2, cons_append, nodes, forwardPass_append _ _ hn', plan, h1, nodes,
    forwardPass_append _ _ hn, ← hlen, take_left' (forwardPass_length _ _), plan, nodes]

end

/-! ### The peak -/

section

variable {m n : Move K} {r : List (Move K)}

/-- The peak of an accelerating move lies above the speed it starts with. -/
theorem peakV2_spec (hl : Planable (m :: r)) (ha : Accelerates m r) :
    0 < peakV2 (m :: r) ∧ mcrV2 (m :: r) ≤ peakV2 (m :: r) := by
  induction r generalizing m with
  | nil =>
    have hM := mcrV2_nonneg hl
    have hδ := hl.head.mcrDeltaV2_pos
    have hlt := (accelerates_iff m []).mpr ha
    have hnew : NewPeak m [] := by
      left
      rw [mcrV2_nil]
      linarith
    rw [peakV2, if_pos ⟨ha, hnew⟩]
    rw [mcrV2_nil] at hlt ⊢
    exact ⟨by linarith, by linarith⟩
  | cons n r ih =>
    have hM := mcrV2_nonneg hl
    have hlt := (accelerates_iff m (n :: r)).mpr ha
    by_cases hp : NewPeak m (n :: r)
    · rw [peakV2, if_pos ⟨ha, hp⟩]
      exact ⟨by linarith, by linarith⟩
    · -- the peak is that of the next move, which starts faster than `m`
      rw [NewPeak, not_or, not_lt, not_not] at hp
      have hn : Accelerates n r := by
        by_contra hn
        rw [delayed, if_neg hn] at hp
        exact absurd hp.2 (by simp)
      obtain ⟨hpos, hle⟩ := ih hl.tail hn
      rw [peakV2, if_neg fun h => h.2.elim (not_lt.mpr hp.1) (fun h => h hp.2)]
      exact ⟨hpos, by linarith⟩

/-- A new peak also lies above the speed behind the move. -/
theorem mcrV2_next_le_peakV2 (hl : Planable (m :: r)) (ha : Accelerates m r)
    (hp : NewPeak m r) : mcrV2 r ≤ peakV2 (m :: r) := by
  have hle := mcrV2_next_le hl ha
  rw [peakV2, if_pos ⟨ha, hp⟩]
  linarith

/-- At both ends of an accelerating move only the peak cuts the cruise speed. -/
theorem min_cruiseV2 (hl : Planable (m :: r)) :
    min (startV2 (m :: r)) (cruiseV2 m r) = min (startV2 (m :: r)) (peakV2 (m :: r)) ∧
    min (startV2 r) (cruiseV2 m r) = min (startV2 r) (peakV2 (m :: r)) := by
  obtain ⟨h1, h2⟩ := startV2_next_le hl
  have h3 : startV2 (m :: r) ≤ m.maxStartV2 := reach_le_lim _ _ _ _
  have h4 : startV2 (m :: r) ≤ startV2 r + m.deltaV2 := reach_le_add _ _ _ _
  have h5 := hl.head.maxStartV2_le
  have hcut : ∀ v : K, v ≤ (startV2 (m :: r) + (startV2 r + m.deltaV2)) / 2 →
      v ≤ m.maxCruiseV2 → min v (cruiseV2 m r) = min v (peakV2 (m :: r)) := by
    intro v hv hv'
    rw [cruiseV2, ← min_assoc, min_eq_left hv, ← min_assoc, min_eq_left hv']
  exact ⟨hcut _ (by linarith) (by linarith), hcut _ (by linarith) h1⟩

end

/-! ### The speeds the forward pass assigns -/

/-- The cruise speed the forward pass gives to `m` in front of `r`. -/
def assignedV2 (prevCruiseV2 : K) (m : Move K) (r : List (Move K)) : K :=
  if Accelerates m r then cruiseV2 m r else min prevCruiseV2 (startV2 (m :: r))

/-- The moves `l` can be entered from a move that cruises at `prevCruiseV2`. -/
def Entered (prevCruiseV2 : K) (l : List (Move K)) : Prop :=
  delayed l ≠ [] → mcrV2 l ≤ prevCruiseV2

/-- Squared speeds at which a move can be driven. -/
structure Drivable (m : Move K) (startV2 cruiseV2 endV2 : K) : Prop where
  start_nonneg : 0 ≤ startV2
  end_nonneg : 0 ≤ endV2
  start_le : startV2 ≤ cruiseV2
  end_le : endV2 ≤ cruiseV2
  cruise_pos : 0 < cruiseV2
  cruise_le : cruiseV2 ≤ m.maxCruiseV2
  start_le_limit : startV2 ≤ m.maxStartV2
  fits : (cruiseV2 - startV2) + (cruiseV2 - endV2) ≤ m.deltaV2

section

variable {m n : Move K} {r : List (Move K)} {prevCruiseV2 : K}

omit [IsStrictOrderedRing K] in
theorem entered_of_accelerates (ha : Accelerates m r) (prevCruiseV2 : K) :
    Entered prevCruiseV2 (m :: r) := by
  intro hd
  rw [delayed, if_pos ha] at hd
  exact absurd rfl hd

omit [IsStrictOrderedRing K] in
theorem Entered.mcrV2_le (he : Entered prevCruiseV2 (m :: r)) (ha : ¬ Accelerates m r) :
    mcrV2 (m :: r) ≤ prevCruiseV2 := by
  refine he ?_
  rw [delayed, if_neg ha]
  simp

theorem assignedV2_pos (hl : Planable (m :: r)) (hm : 0 < m.maxCruiseV2)
    (he : Entered prevCruiseV2 (m :: r)) : 0 < assignedV2 prevCruiseV2 m r := by
  have hδ := hl.head.deltaV2_pos
  have hs := startV2_nonneg hl
  have hr := startV2_nonneg hl.tail
  rw [assignedV2]
  split
  · next ha =>
    exact lt_min (by linarith) (lt_min hm (peakV2_spec hl ha).1)
  · next ha =>
    -- a delayed move is left faster than at rest, and entered faster than that
    have hmcr : 0 < mcrV2 (m :: r) := by
      rw [mcrV2_of_not_accelerates ha]
      exact add_pos_of_nonneg_of_pos (mcrV2_nonneg hl.tail) hl.head.mcrDeltaV2_pos
    exact lt_min (hmcr.trans_le (he.mcrV2_le ha)) (hmcr.trans_le (mcrV2_le_startV2 hl))

theorem assignedV2_drivable (hl : Planable (m :: r)) (hm : 0 < m.maxCruiseV2)
    (he : Entered prevCruiseV2 (m :: r)) :
    Drivable m (min (startV2 (m :: r)) (assignedV2 prevCruiseV2 m r))
      (assignedV2 prevCruiseV2 m r) (min (startV2 r) (assignedV2 prevCruiseV2 m r)) := by
  have hpos := assignedV2_pos hl hm he
  obtain ⟨_, h2⟩ := startV2_next_le hl
  have h3 : startV2 (m :: r) ≤ m.maxStartV2 := reach_le_lim _ _ _ _
  have h4 : startV2 (m :: r) ≤ startV2 r + m.deltaV2 := reach_le_add _ _ _ _
  have h5 := hl.head.maxStartV2_le
  -- accelerating to the cruise speed and braking from it uses up the move at most
  have hcruise : assignedV2 prevCruiseV2 m r ≤ m.maxCruiseV2 ∧
      2 * assignedV2 prevCruiseV2 m r ≤ startV2 (m :: r) + (startV2 r + m.deltaV2) := by
    rw [assignedV2]
    split
    · have hc : cruiseV2 m r ≤ (startV2 (m :: r) + (startV2 r + m.deltaV2)) / 2 := min_le_left _ _
      exact ⟨(min_le_right _ _).trans (min_le_left _ _), by linarith⟩
    · have hc : min prevCruiseV2 (startV2 (m :: r)) ≤ startV2 (m :: r) := min_le_right _ _
      exact ⟨by linarith, by linarith⟩
  obtain ⟨hmax, hfit⟩ := hcruise
  refine ⟨le_min (startV2_nonneg hl) hpos.le, le_min (startV2_nonneg hl.tail) hpos.le,
    min_le_right _ _, min_le_right _ _, hpos, hmax, (min_le_left _ _).trans h3, ?_⟩
  -- what is left to gain or lose is cut off where the cruise speed is the lower one
  rcases min_choice (startV2 (m :: r)) (assignedV2 prevCruiseV2 m r) with hs | hs <;>
    rcases min_choice (startV2 r) (assignedV2 prevCruiseV2 m r) with he | he <;>
    rw [hs, he] <;> linarith

/-- The cruise speed of a move is one its successor can be entered from. -/
theorem assignedV2_entered (hl : Planable (m :: r)) (he : Entered prevCruiseV2 (m :: r)) :
    Entered (assignedV2 prevCruiseV2 m r) r := by
  intro hd
  have hle := mcrV2_le_startV2 hl.tail
  obtain ⟨h1, h2⟩ := startV2_next_le hl
  rw [assignedV2]
  split
  · next ha =>
    have hpeak := mcrV2_next_le_peakV2 hl ha (.inr hd)
    exact le_min (by linarith) (le_min (by linarith) hpeak)
  · next ha =>
    have hmcr := mcrV2_of_not_accelerates ha
    have hδ := hl.head.mcrDeltaV2_pos
    have h3 := he.mcrV2_le ha
    have h4 := mcrV2_le_startV2 hl
    exact le_min (by linarith) (by linarith)

/-- **The two clips at a junction agree**: the end speed of `m` and the start
speed of `n` are cut off at the same value. -/
theorem assignedV2_junction (hl : Planable (m :: n :: r))
    (he : Entered prevCruiseV2 (m :: n :: r)) :
    min (startV2 (n :: r)) (assignedV2 prevCruiseV2 m (n :: r)) =
      min (startV2 (n :: r)) (assignedV2 (assignedV2 prevCruiseV2 m (n :: r)) n r) := by
  by_cases hn : Accelerates n r
  · -- only the peak of `n` can cut its start speed
    rw [assignedV2.eq_1 _ n, if_pos hn, (min_cruiseV2 hl.tail).1]
    have hpeak := (peakV2_spec hl.tail hn).2
    by_cases ha : Accelerates m (n :: r)
    · rw [assignedV2, if_pos ha, (min_cruiseV2 hl).2]
      by_cases hp : NewPeak m (n :: r)
      · -- the speed at the junction is below both peaks
        have hlt : mcrV2 (n :: r) < mcrV2 (m :: n :: r) + m.mcrDeltaV2 := by
          refine hp.resolve_right ?_
          rw [delayed, if_pos hn]
          simp
        obtain ⟨hs, hmcr⟩ := startV2_of_boundary hl hn (.inr hlt)
        have hpeak' := mcrV2_next_le_peakV2 hl ha hp
        rw [min_eq_left (by linarith), min_eq_left (by linarith)]
      · -- without a new peak the two moves share one
        rw [peakV2.eq_2 m, if_neg fun h => hp h.2]
    · -- `m` brakes all the way to the junction, where the profiles meet
      obtain ⟨hs, hmcr⟩ := startV2_of_boundary hl hn (.inl ha)
      have h1 := mcrV2_of_not_accelerates ha
      have h2 := hl.head.mcrDeltaV2_pos
      have h3 := he.mcrV2_le ha
      have h4 := mcrV2_le_startV2 hl
      rw [assignedV2, if_neg ha, min_eq_left (le_min (by linarith) (by linarith)),
        min_eq_left (by linarith)]
  · -- `n` takes over the cruise speed of `m`
    rw [assignedV2.eq_1 _ n, if_neg hn, min_comm (assignedV2 prevCruiseV2 m (n :: r)),
      ← min_assoc, min_self]

end

/-! ### Plans are feasible and continuous -/

section

variable [HasSqrt K]

def Move.accelD (m : Move K) : K := (m.cruiseV ^ 2 - m.startV ^ 2) * (1 / 2 / m.accel)

def Move.decelD (m : Move K) : K := (m.cruiseV ^ 2 - m.endV ^ 2) * (1 / 2 / m.accel)

/-- A planned move that can be driven.  The last two fields say that the phase
times are those of the distances: no division by zero stands behind them. -/
structure Move.Feasible (m : Move K) : Prop where
  start_nonneg : 0 ≤ m.startV
  end_nonneg : 0 ≤ m.endV
  start_le_cruise : m.startV ≤ m.cruiseV
  end_le_cruise : m.endV ≤ m.cruiseV
  cruise_pos : 0 < m.cruiseV
  cruise_le_limit : m.cruiseV ^ 2 ≤ m.maxCruiseV2
  start_le_limit : m.startV ^ 2 ≤ m.maxStartV2
  distances_fit : 0 ≤ m.accelD ∧ 0 ≤ m.decelD ∧ m.accelD + m.decelD ≤ m.moveD
  times_nonneg : 0 ≤ m.accelT ∧ 0 ≤ m.cruiseT ∧ 0 ≤ m.decelT
  ramps : m.startV + m.accel * m.accelT = m.cruiseV ∧ m.endV + m.accel * m.decelT = m.cruiseV
  covers : (m.startV + m.cruiseV) / 2 * m.accelT + m.cruiseV * m.cruiseT +
    (m.endV + m.cruiseV) / 2 * m.decelT = m.moveD

variable [LawfulSqrt K] {m : Move K}

omit [HasSqrt K] [LawfulSqrt K] in
/-- A ramp between two speeds of the trapezoid. -/
private theorem ramp_time {a v c : K} (ha : 0 < a) (hv : 0 ≤ v) (hc : 0 < c) :
    v + a * ((c ^ 2 - v ^ 2) * (1 / 2 / a) / ((v + c) * (1 / 2))) = c := by
  field_simp
  ring

theorem setJunction_feasible {startV2 cruiseV2 endV2 : K} (hm : m.WellFormed)
    (h : Drivable m startV2 cruiseV2 endV2) : (m.setJunction startV2 cruiseV2 endV2).Feasible := by
  have hs := sq_sqrt h.start_nonneg
  have he := sq_sqrt h.end_nonneg
  have hc := sq_sqrt h.cruise_pos.le
  have hs0 := sqrt_nonneg startV2
  have he0 := sqrt_nonneg endV2
  have hc0 := sqrt_pos h.cruise_pos
  have ha := hm.accel_pos
  -- a difference of squared speeds times `1 / 2 / m.accel` is a distance
  have hinv : 0 < 1 / 2 / m.accel := by positivity
  have haccel := mul_nonneg (sub_nonneg.mpr h.start_le) hinv.le
  have hdecel := mul_nonneg (sub_nonneg.mpr h.end_le) hinv.le
  have hfit : (cruiseV2 - startV2) * (1 / 2 / m.accel) + (cruiseV2 - endV2) * (1 / 2 / m.accel)
      ≤ m.moveD := by
    have hle := mul_le_mul_of_nonneg_right h.fits hinv.le
    have hd : m.deltaV2 * (1 / 2 / m.accel) = m.moveD := by
      rw [hm.deltaV2_eq]
      field_simp
    linarith
  refine ⟨hs0, he0, sqrt_le_sqrt h.start_nonneg h.start_le, sqrt_le_sqrt h.end_nonneg h.end_le,
    hc0, hc.trans_le h.cruise_le, hs.trans_le h.start_le_limit, ?_, ?_, ?_, ?_⟩
  · simp only [Move.accelD, Move.decelD, Move.setJunction]
    rw [hs, he, hc]
    exact ⟨haccel, hdecel, hfit⟩
  · refine ⟨div_nonneg haccel (by positivity), div_nonneg ?_ hc0.le,
      div_nonneg hdecel (by positivity)⟩
    linarith
  · have h1 := ramp_time ha hs0 hc0
    have h2 := ramp_time ha he0 hc0
    rw [hc, hs] at h1
    rw [hc, he] at h2
    exact ⟨h1, h2⟩
  · simp only [Move.setJunction]
    field_simp
    ring

end

section

variable [HasSqrt K] {m : Move K} {r l : List (Move K)} {prevCruiseV2 : K}

omit [IsStrictOrderedRing K] in
/-- The forward pass over the nodes of the backward pass, move by move. -/
theorem forwardPass_nodes_cons (prevCruiseV2 : K) (m : Move K) (r : List (Move K)) :
    forwardPass prevCruiseV2 (nodes (m :: r)) =
      m.setJunction (min (startV2 (m :: r)) (assignedV2 prevCruiseV2 m r))
        (assignedV2 prevCruiseV2 m r) (min (startV2 r) (assignedV2 prevCruiseV2 m r))
      :: forwardPass (assignedV2 prevCruiseV2 m r) (nodes r) := by
  rw [nodes, forwardPass, nodeOf, assignedV2]
  by_cases ha : Accelerates m r
  · rw [if_pos ha, if_pos ha]
    rfl
  · rw [if_neg ha, if_neg ha]
    rfl

theorem forwardPass_feasible [LawfulSqrt K] (hl : Planable l) (he : Entered prevCruiseV2 l)
    (hl' : ∀ m ∈ l, m.WellFormed ∧ 0 < m.maxCruiseV2) :
    ∀ m ∈ forwardPass prevCruiseV2 (nodes l), m.Feasible := by
  -- `Entered` is what the pass carries from one move to the next
  induction l generalizing prevCruiseV2 with
  | nil => simp [nodes, forwardPass]
  | cons m r ih =>
    obtain ⟨hm, hpos⟩ := hl' m (by simp)
    rw [forwardPass_nodes_cons, forall_mem_cons]
    exact ⟨setJunction_feasible hm (assignedV2_drivable hl hpos he),
      ih hl.tail (assignedV2_entered hl he) fun x hx => hl' x (by simp [hx])⟩

def ContinuousVelocity (l : List (Move K)) : Prop := l.IsChain fun p m => p.endV = m.startV

theorem forwardPass_continuous (hl : Planable l) (he : Entered prevCruiseV2 l) :
    ContinuousVelocity (forwardPass prevCruiseV2 (nodes l)) := by
  induction l generalizing prevCruiseV2 with
  | nil => exact List.IsChain.nil
  | cons m r ih =>
    have hr := ih hl.tail (assignedV2_entered hl he)
    rw [forwardPass_nodes_cons]
    cases r with
    | nil => exact List.IsChain.singleton _
    | cons n r =>
      rw [forwardPass_nodes_cons] at hr ⊢
      refine List.IsChain.cons_cons ?_ hr
      exact congrArg sqrt (assignedV2_junction hl he)

theorem forwardPass_last [LawfulSqrt K] (hl : Planable l) (he : Entered prevCruiseV2 l)
    (hpos : ∀ m ∈ l, 0 < m.maxCruiseV2) :
    ∀ m ∈ (forwardPass prevCruiseV2 (nodes l)).getLast?, m.endV = 0 := by
  induction l generalizing prevCruiseV2 with
  | nil => simp [nodes, forwardPass]
  | cons m r ih =>
    have hr := ih hl.tail (assignedV2_entered hl he) fun x hx => hpos x (by simp [hx])
    rw [forwardPass_nodes_cons]
    cases r with
    | nil =>
      have hc := assignedV2_pos hl (hpos m (by simp)) he
      simp [nodes, forwardPass, Move.setJunction, min_eq_left hc.le]
    | cons n r =>
      rw [forwardPass_nodes_cons] at hr ⊢
      rwa [getLast?_cons_cons]

end

/-- The moves queued since the queue was last empty. -/
structure Segment (l : List (Move K)) : Prop extends Planable l where
  wellFormed : ∀ m ∈ l, m.WellFormed
  rested : ∀ m ∈ l.head?, m.AtRest

variable [HasSqrt K] [LawfulSqrt K] {l : List (Move K)}

omit [HasSqrt K] [LawfulSqrt K] in
/-- The first move starts from rest, so it can accelerate. -/
theorem Segment.entered (hl : Segment l) : Entered 0 l := by
  cases l with
  | nil => exact fun h => absurd rfl h
  | cons m r =>
    refine entered_of_accelerates ?_ 0
    show m.maxMcrStartV2 < mcrV2 r + m.mcrDeltaV2
    rw [(hl.rested m rfl).2]
    exact add_pos_of_nonneg_of_pos (mcrV2_nonneg hl.tail) hl.head.mcrDeltaV2_pos

/-- **Every planned move can be driven.** -/
theorem plan_feasible (hl : Segment l) (hpos : ∀ m ∈ l, 0 < m.maxCruiseV2) :
    ∀ m ∈ plan l, m.Feasible :=
  forwardPass_feasible hl.toPlanable hl.entered fun m hm => ⟨hl.wellFormed m hm, hpos m hm⟩

/-- **A plan is continuous, and at rest at both ends.** -/
theorem plan_continuous (hl : Segment l) (hpos : ∀ m ∈ l, 0 < m.maxCruiseV2) :
    ContinuousVelocity (plan l) ∧ (∀ m ∈ (plan l).head?, m.startV = 0) ∧
      ∀ m ∈ (plan l).getLast?, m.endV = 0 := by
  refine ⟨forwardPass_continuous hl.toPlanable hl.entered, ?_,
    forwardPass_last hl.toPlanable hl.entered hpos⟩
  cases l with
  | nil => simp [plan, nodes, forwardPass]
  | cons m r =>
    have hzero : startV2 (m :: r) = 0 := by
      rw [startV2_cons, (hl.rested m rfl).1]
      exact min_eq_left (add_nonneg (startV2_nonneg hl.tail) hl.head.deltaV2_pos.le)
    have hc := assignedV2_pos hl.toPlanable (hpos m (by simp)) hl.entered
    rw [plan, forwardPass_nodes_cons]
    simp [Move.setJunction, hzero, min_eq_left hc.le]

end Motion
