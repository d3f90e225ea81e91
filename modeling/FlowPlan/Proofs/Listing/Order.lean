import FlowPlan.Proofs.Order.Cycles

/-!
# Listing — the order

Nodes are placed from a queue that starts in graph order and fills as the dependencies were noted,
so that the listing of a graph decides where a node stands in the queue.  Where comparable nodes
depend on each other this decides nothing else: a queue of two nodes is ambiguous whichever stands
first, and a queue of one leaves no choice.  Two listings of the same dependencies are therefore
placed in step.

* `Relists`: the same dependencies in another listing.
* `Relists.run_inStep`: what is placed from either listing is the same.
* `Relists.order_agree`: the outcomes of ordering agree, but for the order in which an error lists
  nodes, and for the pair that an ambiguity names.
-/

namespace FlowPlan

/-- The same order, or the same nodes on cycles, or an ambiguity in both. -/
inductive OutcomesAgree : Except PlanError (List NodeId) → Except PlanError (List NodeId) → Prop
    where
  | ordered (order : List NodeId) : OutcomesAgree (.ok order) (.ok order)
  | cyclic {xs ys : List NodeId} (same : xs.Perm ys) :
      OutcomesAgree (.error (.cycleDetected xs)) (.error (.cycleDetected ys))
  | ambiguous (x y z w : NodeId) :
      OutcomesAgree (.error (.ambiguousOrder x y)) (.error (.ambiguousOrder z w))

theorem OutcomesAgree.eq_ok {a b : Except PlanError (List NodeId)} (agree : OutcomesAgree a b)
    {order : List NodeId} (ok : a = .ok order) : b = .ok order := by
  cases agree with
  | ordered => exact ok
  | cyclic | ambiguous => cases ok

namespace Dependencies

variable {d e : Dependencies} {p q : Progress} {current : NodeId}

/-! ### One step -/

theorem run_of_ready_eq_singleton (queue : p.ready = [current]) (steps : Nat) :
    d.run (steps + 1) p = d.run steps (p.place d current []) :=
  run_of_ordered queue (by simp [queue, incomparable?]) steps

/-- Two ready nodes end the placing. -/
theorem ComparableDepend.run_eq_ambiguousOrder (hd : d.ComparableDepend) (h : d.Tracks p)
    {next : NodeId} {rest : List NodeId} (queue : p.ready = current :: next :: rest)
    (steps : Nat) : ∃ x y, d.run (steps + 1) p = .error (.ambiguousOrder x y) := by
  cases ordered : d.incomparable? p.ready with
  | none => exact absurd (hd.rest_eq_nil h queue ordered) (List.cons_ne_nil next rest)
  | some pair => exact ⟨pair.1, pair.2, run_of_incomparable ordered steps⟩

/-! ### Two listings -/

/-- The same nodes and the same dependencies, in whatever listing. -/
structure Relists (d e : Dependencies) : Prop where
  nodes : d.nodes.Perm e.nodes
  before : d.Before = e.Before

namespace Relists

/-- Where the same nodes are placed, the same are ready. -/
theorem ready_perm (relists : d.Relists e) (hp : d.Tracks p) (hq : e.Tracks q)
    (placed : p.placed = q.placed) : p.ready.Perm q.ready := by
  refine (List.perm_ext_iff_of_nodup hp.nodup_ready hq.nodup_ready).2 fun y => ?_
  rw [hp.mem_ready, hq.mem_ready, pending_eq_zero_iff, pending_eq_zero_iff, relists.before,
    relists.nodes.mem_iff, placed]

/-- **Two listings are placed in step.** -/
theorem run_inStep (relists : d.Relists e) (wfd : d.WellFormed) (wfe : e.WellFormed)
    (hd : d.ComparableDepend) (he : e.ComparableDepend) (reached : d.Reaches p)
    (reached' : e.Reaches q) (placed : p.placed = q.placed) (steps : Nat) :
    (∃ p' q', d.run steps p = .ok p' ∧ e.run steps q = .ok q' ∧ p'.placed = q'.placed) ∨
      ∃ x y z w, d.run steps p = .error (.ambiguousOrder x y) ∧
        e.run steps q = .error (.ambiguousOrder z w) := by
  induction steps generalizing p q with
  | zero => exact .inl ⟨p, q, rfl, rfl, placed⟩
  | succ steps ih =>
    have tracks := tracks_of_reaches wfd reached
    have tracks' := tracks_of_reaches wfe reached'
    have same := relists.ready_perm tracks tracks' placed
    match queue : p.ready, queue' : q.ready with
    | [], [] =>
      exact .inl ⟨p, q, run_of_ready_eq_nil queue _, run_of_ready_eq_nil queue' _, placed⟩
    | [current], [other] =>
      rw [queue, queue', List.singleton_perm_singleton] at same
      subst same
      rw [run_of_ready_eq_singleton queue, run_of_ready_eq_singleton queue']
      refine ih (.place reached queue ?_) (.place reached' queue' ?_) ?_
      · simp [queue, incomparable?]
      · simp [queue', incomparable?]
      · rw [(place_eq wfd p current []).1, (place_eq wfe q current []).1, placed]
    | _ :: _ :: _, _ :: _ :: _ =>
      obtain ⟨x, y, stuck⟩ := hd.run_eq_ambiguousOrder tracks queue steps
      obtain ⟨z, w, stuck'⟩ := he.run_eq_ambiguousOrder tracks' queue' steps
      exact .inr ⟨x, y, z, w, stuck, stuck'⟩
    | [], _ :: _ | _ :: _, [] | [_], _ :: _ :: _ | _ :: _ :: _, [_] =>
      -- the queues would differ in length
      rw [queue, queue'] at same
      simpa using same.length_eq

/-- The nodes on cycles are the same in both listings. -/
theorem cycleMembers_perm (relists : d.Relists e) (wfd : d.WellFormed) (wfe : e.WellFormed) :
    d.cycleMembers.Perm e.cycleMembers := by
  have strong := isStrongComponents_components wfd
  have strong' := isStrongComponents_components wfe
  refine (List.perm_ext_iff_of_nodup (nodup_onCycles wfd strong) (nodup_onCycles wfe strong')).2 ?_
  intro x
  rw [mem_onCycles_iff wfd strong, mem_onCycles_iff wfe strong', relists.before]

/-- **The outcomes of ordering agree.** -/
theorem order_agree (relists : d.Relists e) (wfd : d.WellFormed) (wfe : e.WellFormed)
    (hd : d.ComparableDepend) (he : e.ComparableDepend) : OutcomesAgree d.order e.order := by
  have length := relists.nodes.length_eq
  rcases relists.run_inStep wfd wfe hd he .initial .initial rfl e.nodes.length with
    ⟨p, q, run, run', placed⟩ | ⟨x, y, z, w, run, run'⟩
  · rw [← length] at run
    rw [order_of_run_eq_ok run, order_of_run_eq_ok run', placed, length]
    split
    · exact .ordered q.placed
    · exact .cyclic (relists.cycleMembers_perm wfd wfe)
  · rw [← length] at run
    rw [order_of_run_eq_error run, order_of_run_eq_error run']
    exact .ambiguous x y z w

end Relists

end Dependencies

end FlowPlan
