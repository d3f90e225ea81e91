import FlowPlan.Proofs.Order.Outcome

/-!
# Order — lines

A line is a topological order whose neighbours are related.  Everything about its relation can be
read off positions: one element leads to another exactly if it stands in front of it
(`IsLine.transGen_iff`).  With one more pair, which leads from `x` to `y`, a line stays a line if
`x` stands in front of `y` (`IsLine.withPair`); else what stands from `y` through `x` is exactly
what is on cycles (`IsLine.cycle_withPair_iff`).

Where any two nodes are joined by a way of dependencies, no two are ever ready at once, so that
ordering finds an order or a cycle.

* `isLine_of_order`: an order that is found is a line, where comparable nodes depend on each other.
* `order_eq_ok_of_isLine`: a line of the dependencies is found.
* `order_eq_cycleDetected`: cycles are found, where any two nodes are joined.
-/

namespace FlowPlan
open Relation

/-! ### Positions -/

section Position

variable {α : Type} [BEq α] [LawfulBEq α] {xs : List α} {x y : α}

/-- A list of distinct elements is sorted by their positions. -/
theorem pairwise_idxOf_lt (nodup : xs.Nodup) : xs.Pairwise fun x y => xs.idxOf x < xs.idxOf y := by
  rw [List.pairwise_iff_getElem]
  intro i j hi hj lt
  rw [nodup.idxOf_getElem i hi, nodup.idxOf_getElem j hj]
  exact lt

theorem StandsBefore.idxOf_lt (nodup : xs.Nodup) (h : StandsBefore xs x y) :
    xs.idxOf x < xs.idxOf y :=
  List.pairwise_iff_forall_sublist.1 (pairwise_idxOf_lt nodup) h

/-- What holds of any two elements in their order holds by position. -/
theorem rel_of_idxOf_lt {R : α → α → Prop} (pairs : xs.Pairwise R) (mem : y ∈ xs)
    (lt : xs.idxOf x < xs.idxOf y) : R x y := by
  have hy : xs.idxOf y < xs.length := List.idxOf_lt_length_of_mem mem
  have related := List.pairwise_iff_getElem.1 pairs _ _ (lt.trans hy) hy lt
  rwa [List.getElem_idxOf, List.getElem_idxOf] at related

end Position

/-! ### Lines -/

/-- A topological order whose neighbours are related. -/
structure IsLine {α : Type} (nodes : List α) (R : α → α → Prop) (order : List α) : Prop
    extends IsTopologicalOrder nodes R order where
  chain : order.IsChain R

/-- The relation with one more pair. -/
def WithPair {α : Type} (R : α → α → Prop) (x y a b : α) : Prop :=
  R a b ∨ a = x ∧ b = y

/-- A way takes the new pair or does not; if it does, it may take it once. -/
theorem transGen_withPair_iff {α : Type} {R : α → α → Prop} {x y a b : α} :
    TransGen (WithPair R x y) a b ↔ TransGen R a b ∨ ReflTransGen R a x ∧ ReflTransGen R y b := by
  constructor
  · intro way
    induction way with
    | single r =>
      rcases r with r | ⟨rfl, rfl⟩
      · exact .inl (.single r)
      · exact .inr ⟨.refl, .refl⟩
    | tail _ r ih =>
      rcases r with r | ⟨rfl, rfl⟩
      · rcases ih with old | ⟨before, after⟩
        · exact .inl (old.tail r)
        · exact .inr ⟨before, after.tail r⟩
      · rcases ih with old | ⟨before, -⟩
        · exact .inr ⟨old.to_reflTransGen, .refl⟩
        · exact .inr ⟨before, .refl⟩
  · have old : ∀ a b, R a b → WithPair R x y a b := fun _ _ r => .inl r
    rintro (way | ⟨before, after⟩)
    · exact TransGen.mono old a b way
    · have new : TransGen (WithPair R x y) x y := .single (.inr ⟨rfl, rfl⟩)
      exact TransGen.trans_right (ReflTransGen.mono old a x before)
        (new.trans_left (ReflTransGen.mono old y b after))

namespace IsLine

variable {α : Type} {nodes order : List α} {R : α → α → Prop} {x y z : α}

theorem pairwise_transGen (line : IsLine nodes R order) : order.Pairwise (TransGen R) :=
  List.isChain_iff_pairwise.1 (line.chain.imp fun _ _ r => .single r)

variable [BEq α] [LawfulBEq α]

/-- **Ways lead along the line.** -/
theorem transGen_iff (line : IsLine nodes R order) (on : IsRelationOn nodes R) (mem : y ∈ nodes) :
    TransGen R x y ↔ order.idxOf x < order.idxOf y := by
  constructor
  · intro way
    exact (line.standsBefore_of_transGen on way).idxOf_lt (line.nodup on)
  · intro lt
    exact rel_of_idxOf_lt line.pairwise_transGen (line.perm.mem_iff.2 mem) lt

theorem reflTransGen_iff (line : IsLine nodes R order) (on : IsRelationOn nodes R)
    (mem : y ∈ nodes) : ReflTransGen R x y ↔ order.idxOf x ≤ order.idxOf y := by
  rw [reflTransGen_iff_eq_or_transGen, line.transGen_iff on mem, le_iff_eq_or_lt,
    eq_comm (b := order.idxOf y), List.idxOf_inj (line.perm.mem_iff.2 mem)]

/-- Any two elements are joined by a way. -/
theorem joined (line : IsLine nodes R order) (on : IsRelationOn nodes R) (memx : x ∈ nodes)
    (memy : y ∈ nodes) (ne : x ≠ y) : TransGen R x y ∨ TransGen R y x := by
  rw [line.transGen_iff on memy, line.transGen_iff on memx]
  refine lt_or_gt_of_ne fun same => ne ?_
  exact (List.idxOf_inj (line.perm.mem_iff.2 memx)).1 same

/-- A line stays a line with a pair that leads forward. -/
theorem withPair (line : IsLine nodes R order) (mem : y ∈ nodes)
    (lt : order.idxOf x < order.idxOf y) : IsLine nodes (WithPair R x y) order where
  perm := line.perm
  forward := by
    rintro a b (r | ⟨rfl, rfl⟩)
    · exact line.forward a b r
    · have inOrder : order.Pairwise (StandsBefore order) := List.pairwise_iff_forall_sublist.2 id
      exact rel_of_idxOf_lt inOrder (line.perm.mem_iff.2 mem) lt
  chain := line.chain.imp fun _ _ r => .inl r

/-- **A pair that leads back closes cycles through all that stands between**, and through nothing
else. -/
theorem cycle_withPair_iff (line : IsLine nodes R order) (on : IsRelationOn nodes R)
    (memx : x ∈ nodes) (memz : z ∈ nodes) :
    TransGen (WithPair R x y) z z ↔
      order.idxOf y ≤ order.idxOf z ∧ order.idxOf z ≤ order.idxOf x := by
  rw [transGen_withPair_iff, line.reflTransGen_iff on memx, line.reflTransGen_iff on memz, and_comm]
  exact or_iff_right (line.acyclic on z)

end IsLine

/-! ### Ordering a line -/

namespace Dependencies

variable {d : Dependencies} {p : Progress} {x y : NodeId} {order : List NodeId}

/-- Whatever leads to a ready node is placed. -/
theorem Tracks.mem_placed_of_transGen (h : d.Tracks p) (ready : y ∈ p.ready)
    (way : TransGen d.Before x y) : x ∈ p.placed :=
  h.placed.closedBackwards.mem_of_transGen (fun _ => h.mem_placed_of_before ready) way

/-- Any two nodes are joined by a way of dependencies. -/
def Joined (d : Dependencies) : Prop :=
  ∀ x ∈ d.nodes, ∀ y ∈ d.nodes, x ≠ y → TransGen d.Before x y ∨ TransGen d.Before y x

/-- Where any two nodes are joined, no order is ambiguous: of two ready nodes neither could lead to
the other. -/
theorem order_ne_ambiguousOrder (wf : d.WellFormed) (joined : d.Joined) (x y : NodeId) :
    d.order ≠ .error (.ambiguousOrder x y) := by
  intro h
  obtain ⟨p, tracks, stands, -⟩ := ready_of_ambiguousOrder wf h
  obtain ⟨memx, leftx, -⟩ := (tracks.mem_ready x).1 stands.mem_left
  obtain ⟨memy, lefty, -⟩ := (tracks.mem_ready y).1 stands.mem_right
  rcases joined x memx y memy (stands.ne tracks.nodup_ready) with way | way
  · exact leftx (tracks.mem_placed_of_transGen stands.mem_right way)
  · exact lefty (tracks.mem_placed_of_transGen stands.mem_left way)

/-- **An order that is found is a line**, where comparable nodes depend on each other. -/
theorem isLine_of_order (wf : d.WellFormed) (hd : d.ComparableDepend) (h : d.order = .ok order) :
    IsLine d.nodes d.Before order := by
  have outcome := outcome_order wf
  rw [h] at outcome
  cases outcome with
  | ordered reached _ all =>
    exact
      { isTopologicalOrder_of_reaches wf reached all with
        chain := (isChain_of_reaches wf hd reached).1 }

/-- **A line of the dependencies is the order that is found.** -/
theorem order_eq_ok_of_isLine (wf : d.WellFormed) (line : IsLine d.nodes d.Before order) :
    d.order = .ok order := by
  have joined : d.Joined := fun x memx y memy => line.joined wf.on memx memy
  have unambiguous := order_ne_ambiguousOrder wf joined
  have outcome := outcome_order wf
  generalize d.order = result at outcome unambiguous ⊢
  cases outcome with
  | ordered reached _ all =>
    have found := isTopologicalOrder_of_reaches wf reached all
    rw [line.eq_of_isChain wf.on line.chain found]
  | stalled reached stopped some =>
    exact absurd (line.acyclic wf.on) (not_acyclic_of_stalled wf reached stopped some)
  | ambiguous => exact absurd rfl (unambiguous _ _)

/-- Cycles are found, where any two nodes are joined. -/
theorem order_eq_cycleDetected (wf : d.WellFormed) (joined : d.Joined)
    (cyclic : ¬Acyclic d.Before) : d.order = .error (.cycleDetected d.cycleMembers) := by
  have unambiguous := order_ne_ambiguousOrder wf joined
  have outcome := outcome_order wf
  generalize d.order = result at outcome unambiguous ⊢
  cases outcome with
  | ordered reached _ all =>
    have found := isTopologicalOrder_of_reaches wf reached all
    exact absurd (found.acyclic wf.on) cyclic
  | stalled => rfl
  | ambiguous => exact absurd rfl (unambiguous _ _)

end Dependencies

end FlowPlan
