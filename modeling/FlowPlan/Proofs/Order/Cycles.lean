import Mathlib.Data.List.Flatten
import Mathlib.Data.List.Permutation
import FlowPlan.Proofs.Order.Line

/-!
# Order — cycles

That there is a cycle is found by placing nodes until no more can be placed; which nodes are on
cycles is read off the strongly connected components.  The two agree.  What is left over when
placing stalls may be more than what is reported, since nodes behind a cycle never become ready
either, but it always hides a cycle (`not_acyclic_of_stalled`), and the report holds exactly the
nodes that a way of dependencies leads back to.

* `mem_dependents_iff`: exploring finds what a node leads to, and stops in time.
* `IsStrongComponents`: what is asked of strongly connected components, whoever finds them;
  `isStrongComponents_components` says that exploring does.
* `mem_onCycles_iff`: a component of two nodes, or of one that depends on itself, is a component
  whose every node is on a cycle.
* `order_detects_cycles`: the outcomes of ordering, for any strongly connected components.
-/

namespace FlowPlan
open Relation

/-! ### Exploring -/

namespace Dependencies

variable {d : Dependencies} {x y z : NodeId} {frontier seen : List NodeId}

/-- The seen nodes are some that `x` leads to, its successors among them, and all whose successors
have not been looked at are on the frontier. -/
structure Explores (d : Dependencies) (x : NodeId) (frontier seen : List NodeId) : Prop where
  nodup : seen.Nodup
  subset : seen ⊆ d.nodes
  frontier_subset : frontier ⊆ seen
  reached : ∀ y ∈ seen, TransGen d.Before x y
  started : ∀ y, d.Before x y → y ∈ seen
  closed : ∀ y ∈ seen, y ∈ frontier ∨ ∀ z, d.Before y z → z ∈ seen

/-- The search begins with the successors of a node. -/
theorem explores_successors (wf : d.WellFormed) (x : NodeId) :
    d.Explores x (d.successors x) (d.successors x) where
  nodup := nodup_successors wf x
  subset := fun y mem => wf.on.target_mem x y (mem_successors.1 mem)
  frontier_subset := List.Subset.refl _
  reached := fun _ mem => .single (mem_successors.1 mem)
  started := fun _ before => mem_successors.2 before
  closed := fun _ mem => .inl mem

/-- Looking at the successors of one node. -/
theorem Explores.step (wf : d.WellFormed) (h : d.Explores x (y :: frontier) seen) :
    d.Explores x (frontier ++ (d.successors y).filter (· ∉ seen))
      (seen ++ (d.successors y).filter (· ∉ seen)) := by
  have atHead : y ∈ seen := h.frontier_subset List.mem_cons_self
  have unseen {z : NodeId} (mem : z ∈ (d.successors y).filter (· ∉ seen)) :
      d.Before y z ∧ z ∉ seen := by
    simpa [mem_successors] using mem
  constructor
  case nodup =>
    refine List.nodup_append.2 ⟨h.nodup, (nodup_successors wf y).filter _, ?_⟩
    rintro z old _ new rfl
    exact (unseen new).2 old
  case subset =>
    refine List.append_subset.2 ⟨h.subset, fun z new => ?_⟩
    exact wf.on.target_mem y z (unseen new).1
  case frontier_subset =>
    refine List.append_subset.2 ⟨fun z old => ?_, List.subset_append_right _ _⟩
    exact List.mem_append_left _ (h.frontier_subset (List.mem_cons_of_mem _ old))
  case reached =>
    intro z mem
    rcases List.mem_append.1 mem with old | new
    · exact h.reached z old
    · exact (h.reached y atHead).tail (unseen new).1
  case started => exact fun z before => List.mem_append_left _ (h.started z before)
  case closed =>
    intro z mem
    rcases List.mem_append.1 mem with old | new
    · rcases h.closed z old with waits | closed
      · rcases List.mem_cons.1 waits with rfl | waits
        · -- the node that was looked at
          refine .inr fun w before => ?_
          by_cases known : w ∈ seen
          · exact List.mem_append_left _ known
          · refine List.mem_append_right _ (List.mem_filter.2 ⟨mem_successors.2 before, ?_⟩)
            simpa using known
        · exact .inl (List.mem_append_left _ waits)
      · exact .inr fun w before => List.mem_append_left _ (closed w before)
    · exact .inl (List.mem_append_right _ new)

/-- With an empty frontier, everything has been seen. -/
theorem Explores.mem_iff_of_nil (h : d.Explores x [] seen) : z ∈ seen ↔ TransGen d.Before x z := by
  refine ⟨h.reached z, fun way => ?_⟩
  induction way with
  | single before => exact h.started _ before
  | tail _ before ih =>
    rcases h.closed _ ih with waits | closed
    · cases waits
    · exact closed _ before

/-- Exploring ends with an empty frontier: every step takes a node off it, and what a step puts on
it had not been seen. -/
theorem Explores.mem_explore_iff (wf : d.WellFormed) (h : d.Explores x frontier seen) {steps : Nat}
    (enough : frontier.length + d.nodes.length ≤ steps + seen.length) :
    z ∈ d.explore steps frontier seen ↔ TransGen d.Before x z := by
  induction steps generalizing frontier seen with
  | zero =>
    have bound : seen.length ≤ d.nodes.length := (h.nodup.subperm h.subset).length_le
    obtain rfl : frontier = [] := List.length_eq_zero_iff.1 (by omega)
    exact h.mem_iff_of_nil
  | succ steps ih =>
    cases frontier with
    | nil => exact h.mem_iff_of_nil
    | cons y frontier =>
      refine ih (h.step wf) ?_
      simp only [List.length_append, List.length_cons] at enough ⊢
      omega

/-- **Exploring finds exactly the nodes that a node leads to.** -/
theorem mem_dependents_iff (wf : d.WellFormed) : y ∈ d.dependents x ↔ TransGen d.Before x y :=
  (explores_successors wf x).mem_explore_iff wf (by omega)

end Dependencies

/-! ### Strongly connected components -/

/-- Each of the two leads to the other, or they are the same. -/
def Mutual {α : Type} (R : α → α → Prop) (x y : α) : Prop :=
  ReflTransGen R x y ∧ ReflTransGen R y x

namespace Mutual

variable {α : Type} {R : α → α → Prop} {x y z : α}

theorem refl (x : α) : Mutual R x x :=
  ⟨.refl, .refl⟩

theorem symm (h : Mutual R x y) : Mutual R y x :=
  ⟨h.2, h.1⟩

theorem trans (h : Mutual R x y) (k : Mutual R y z) : Mutual R x z :=
  ⟨h.1.trans k.1, k.2.trans h.2⟩

/-- Two nodes reach each other if they are one, or if there are ways both ways. -/
theorem eq_or_transGen : Mutual R x y ↔ y = x ∨ TransGen R x y ∧ TransGen R y x := by
  rw [Mutual, reflTransGen_iff_eq_or_transGen, reflTransGen_iff_eq_or_transGen]
  constructor
  · rintro ⟨same | forth, same' | back⟩
    · exact .inl same
    · exact .inl same
    · exact .inl same'.symm
    · exact .inr ⟨forth, back⟩
  · rintro (same | ⟨forth, back⟩)
    · exact ⟨.inl same, .inl same.symm⟩
    · exact ⟨.inr forth, .inr back⟩

end Mutual

/-- The strongly connected components of a relation: every node stands in exactly one of them, once,
and along with exactly those nodes that it leads to and that lead back. -/
structure IsStrongComponents {α : Type} (nodes : List α) (R : α → α → Prop)
    (components : List (List α)) : Prop where
  perm : components.flatten.Perm nodes
  mem_iff : ∀ c ∈ components, ∀ x ∈ c, ∀ y, y ∈ c ↔ Mutual R x y

namespace Dependencies

variable {d : Dependencies} {x y : NodeId} {components : List (List NodeId)}

/-- The component of a node has the nodes that it reaches and that reach it. -/
theorem mem_component_iff (wf : d.WellFormed) (mem : x ∈ d.nodes) :
    y ∈ d.component x ↔ Mutual d.Before x y := by
  simp only [component, List.mem_filter, Bool.or_eq_true, Bool.and_eq_true, decide_eq_true_eq,
    mem_dependents_iff wf, Mutual.eq_or_transGen]
  refine ⟨And.right, fun both => ⟨?_, both⟩⟩
  rcases both with rfl | ⟨forth, -⟩
  · exact mem
  · obtain ⟨z, -, before⟩ := TransGen.tail'_iff.1 forth
    exact wf.on.target_mem z y before

theorem nodup_component (wf : d.WellFormed) (x : NodeId) : (d.component x).Nodup :=
  wf.on.nodup.filter _

/-- Nodes that lead to each other have one component. -/
theorem component_eq_of_mutual (wf : d.WellFormed) (memx : x ∈ d.nodes) (memy : y ∈ d.nodes)
    (both : Mutual d.Before x y) : d.component x = d.component y := by
  refine List.filter_congr fun z mem => ?_
  have same : z ∈ d.component x ↔ z ∈ d.component y := by
    rw [mem_component_iff wf memx, mem_component_iff wf memy]
    exact ⟨both.symm.trans, both.trans⟩
  simpa only [component, List.mem_filter, mem, true_and, ← Bool.eq_iff_iff] using same

theorem mem_components_iff {c : List NodeId} :
    c ∈ d.components ↔ ∃ x ∈ d.nodes, d.component x = c := by
  rw [components, List.mem_eraseDups, List.mem_map]

/-- **Exploring finds strongly connected components.** -/
theorem isStrongComponents_components (wf : d.WellFormed) :
    IsStrongComponents d.nodes d.Before d.components := by
  -- Components that share a node are one, and each is listed once.
  have apart : d.components.Pairwise List.Disjoint := by
    refine List.Pairwise.imp_of_mem ?_ (nodup_eraseDups (d.nodes.map d.component))
    intro a b left right ne z memLeft memRight
    obtain ⟨x, memx, rfl⟩ := mem_components_iff.1 left
    obtain ⟨y, memy, rfl⟩ := mem_components_iff.1 right
    have forth := (mem_component_iff wf memx).1 memLeft
    have back := (mem_component_iff wf memy).1 memRight
    exact ne (component_eq_of_mutual wf memx memy (forth.trans back.symm))
  constructor
  case perm =>
    refine (List.perm_ext_iff_of_nodup (List.nodup_flatten.2 ⟨?_, apart⟩) wf.on.nodup).2 ?_
    · intro c mem
      obtain ⟨x, -, rfl⟩ := mem_components_iff.1 mem
      exact nodup_component wf x
    · intro y
      rw [List.mem_flatten]
      constructor
      · rintro ⟨c, mem, inside⟩
        obtain ⟨x, -, rfl⟩ := mem_components_iff.1 mem
        exact (List.mem_filter.1 inside).1
      · intro mem
        exact ⟨_, mem_components_iff.2 ⟨y, mem, rfl⟩, (mem_component_iff wf mem).2 (.refl y)⟩
  case mem_iff =>
    intro c mem x inside y
    obtain ⟨w, memw, rfl⟩ := mem_components_iff.1 mem
    have both := (mem_component_iff wf memw).1 inside
    rw [mem_component_iff wf memw]
    exact ⟨both.symm.trans, both.trans⟩

/-! ### Nodes on cycles -/

theorem nodup_of_mem_components (wf : d.WellFormed)
    (strong : IsStrongComponents d.nodes d.Before components) {c : List NodeId}
    (mem : c ∈ components) : c.Nodup :=
  (List.nodup_flatten.1 (strong.perm.nodup_iff.2 wf.on.nodup)).1 c mem

/-- The test of a component tells whether its nodes are on cycles. -/
theorem isCyclic_iff (wf : d.WellFormed) (strong : IsStrongComponents d.nodes d.Before components)
    {c : List NodeId} (mem : c ∈ components) (inside : x ∈ c) :
    d.isCyclic c ↔ TransGen d.Before x x := by
  have others := strong.mem_iff c mem x inside
  simp only [isCyclic, Bool.or_eq_true, Option.any_eq_true, decide_eq_true_eq]
  constructor
  · rintro (two | ⟨first, atHead, itself⟩)
    · -- a second node leads there and back
      rw [← List.toFinset_card_of_nodup (nodup_of_mem_components wf strong mem)] at two
      obtain ⟨y, insideToo, ne⟩ := Finset.exists_mem_ne two x
      rw [List.mem_toFinset] at insideToo
      obtain ⟨forth, back⟩ := (Mutual.eq_or_transGen.1 ((others y).1 insideToo)).resolve_left ne
      exact forth.trans back
    · -- the way to the head and back passes through its cycle
      have both := (others first).1 (List.mem_of_mem_head? atHead)
      exact TransGen.trans_right both.1 (TransGen.trans_left (.single itself) both.2)
  · intro cycle
    obtain ⟨y, before, back⟩ := TransGen.head'_iff.1 cycle
    have insideToo : y ∈ c := (others y).2 ⟨.single before, back⟩
    by_cases two : 1 < c.length
    · exact .inl two
    · -- the only node is its own successor
      obtain ⟨a, rfl⟩ := List.length_eq_one_iff.1
        (le_antisymm (Nat.le_of_not_lt two) (List.length_pos_of_mem inside))
      obtain rfl := List.mem_singleton.1 inside
      obtain rfl := List.mem_singleton.1 insideToo
      exact .inr ⟨y, rfl, before⟩

/-- **A node is reported exactly if there is a way from it back to itself.** -/
theorem mem_onCycles_iff (wf : d.WellFormed)
    (strong : IsStrongComponents d.nodes d.Before components) :
    x ∈ d.onCycles components ↔ TransGen d.Before x x := by
  rw [onCycles, List.mem_mergeSort, List.mem_flatten]
  constructor
  · rintro ⟨c, mem, inside⟩
    obtain ⟨mem, cyclic⟩ := List.mem_filter.1 mem
    exact (isCyclic_iff wf strong mem inside).1 cyclic
  · intro cycle
    obtain ⟨y, -, before⟩ := TransGen.tail'_iff.1 cycle
    have listed : x ∈ components.flatten := strong.perm.mem_iff.2 (wf.on.target_mem y x before)
    obtain ⟨c, mem, inside⟩ := List.mem_flatten.1 listed
    exact ⟨c, List.mem_filter.2 ⟨mem, (isCyclic_iff wf strong mem inside).2 cycle⟩, inside⟩

/-- The nodes are reported in the order of the graph. -/
theorem sorted_onCycles (d : Dependencies) (components : List (List NodeId)) :
    (d.onCycles components).Pairwise fun x y => d.nodes.idxOf x ≤ d.nodes.idxOf y := by
  refine (List.pairwise_mergeSort ?_ ?_ _).imp of_decide_eq_true
  · intro x y z le le'
    simp only [decide_eq_true_eq] at le le' ⊢
    exact le.trans le'
  · intro x y
    simp only [Bool.or_eq_true, decide_eq_true_eq]
    exact le_total _ _

theorem nodup_onCycles (wf : d.WellFormed)
    (strong : IsStrongComponents d.nodes d.Before components) : (d.onCycles components).Nodup := by
  refine (List.mergeSort_perm _ _).nodup_iff.2 ?_
  refine List.Nodup.sublist ?_ (strong.perm.nodup_iff.2 wf.on.nodup)
  exact List.Sublist.flatten List.filter_sublist

/-- **The nodes on cycles, in graph order**, are what is reported. -/
theorem onCycles_eq_filter (wf : d.WellFormed)
    (strong : IsStrongComponents d.nodes d.Before components) {p : NodeId → Bool}
    (h : ∀ x ∈ d.nodes, p x ↔ TransGen d.Before x x) :
    d.onCycles components = d.nodes.filter p := by
  have perm : (d.onCycles components).Perm (d.nodes.filter p) := by
    refine (List.perm_ext_iff_of_nodup (nodup_onCycles wf strong) (wf.on.nodup.filter p)).2 ?_
    intro x
    rw [mem_onCycles_iff wf strong, List.mem_filter]
    constructor
    · intro cycle
      obtain ⟨y, -, before⟩ := TransGen.tail'_iff.1 cycle
      have mem := wf.on.target_mem y x before
      exact ⟨mem, (h x mem).2 cycle⟩
    · rintro ⟨mem, holds⟩
      exact (h x mem).1 holds
  -- Both lists are sorted by position, and no two nodes share one.
  have sorted : (d.nodes.filter p).Pairwise fun x y => d.nodes.idxOf x ≤ d.nodes.idxOf y :=
    ((pairwise_idxOf_lt wf.on.nodup).imp le_of_lt).filter p
  refine perm.eq_of_pairwise ?_ (d.sorted_onCycles components) sorted
  intro x y _ memy le ge
  have mem : y ∈ d.nodes := (List.mem_filter.1 memy).1
  exact ((List.idxOf_inj mem).1 (le_antisymm ge le)).symm

/-- The members of cycles are the nodes that can be told to be on one, in the order of the graph. -/
theorem cycleMembers_eq_filter (wf : d.WellFormed) {p : NodeId → Bool}
    (h : ∀ x ∈ d.nodes, p x ↔ TransGen d.Before x x) : d.cycleMembers = d.nodes.filter p :=
  onCycles_eq_filter wf (isStrongComponents_components wf) h

/-- Whoever finds the strongly connected components, the outcome of ordering is the same. -/
theorem orderBy_eq_order (wf : d.WellFormed) {find : Dependencies → List (List NodeId)}
    (strong : IsStrongComponents d.nodes d.Before (find d)) : orderBy find d = d.order := by
  classical
  have same : d.onCycles (find d) = d.onCycles d.components := by
    have mem (x : NodeId) (_ : x ∈ d.nodes) :
        decide (TransGen d.Before x x) = true ↔ TransGen d.Before x x := decide_eq_true_iff
    rw [onCycles_eq_filter wf strong mem,
      onCycles_eq_filter wf (isStrongComponents_components wf) mem]
  rw [order, orderBy, orderBy, same]

end Dependencies

namespace FlowGraph
open Dependencies

variable {g : FlowGraph} {nodes : List NodeId}

/-- A cycle is reported with its members. -/
theorem eq_cycleMembers_of_cycleDetected
    (h : g.dependencies.order = .error (.cycleDetected nodes)) :
    nodes = g.dependencies.cycleMembers := by
  have outcome := outcome_order g.wellFormed_dependencies
  rw [h] at outcome
  cases outcome
  rfl

theorem cycleMembers_eq_dependencies_filter {p : NodeId → Bool}
    (h : ∀ n ∈ g.operations, p n.id ↔ TransGen g.Dependency n.id n.id) :
    g.dependencies.cycleMembers = (g.operations.map OperationNode.id).filter p := by
  refine cycleMembers_eq_filter g.wellFormed_dependencies fun x mem => ?_
  obtain ⟨n, operation, rfl⟩ := List.mem_map.1 mem
  rw [before_dependencies]
  exact h n operation

/-- **Cycles are detected exactly**, whichever way strongly connected components are found: there is
no order if the dependencies contain a cycle and no report of cycles if they contain none, and a
report lists the nodes on cycles, all of them and no others, once each and in graph order. -/
theorem order_detects_cycles (g : FlowGraph) (find : Dependencies → List (List NodeId))
    (strong : IsStrongComponents (g.operations.map OperationNode.id) g.Dependency
      (find g.dependencies)) :
    (¬Acyclic g.Dependency → ∀ order, orderBy find g.dependencies ≠ .ok order) ∧
    (Acyclic g.Dependency →
      ∀ nodes, orderBy find g.dependencies ≠ .error (.cycleDetected nodes)) ∧
    ∀ nodes, orderBy find g.dependencies = .error (.cycleDetected nodes) →
      nodes ≠ [] ∧ nodes.Nodup ∧ nodes.Sublist (g.operations.map OperationNode.id) ∧
        ∀ x, x ∈ nodes ↔ TransGen g.Dependency x x := by
  have wf := g.wellFormed_dependencies
  rw [← before_dependencies] at strong
  rw [orderBy_eq_order wf strong]
  refine ⟨fun cyclic order h => ?_, fun acyclic nodes h => ?_, fun nodes h => ?_⟩
  · exact cyclic ((isLinearization_of_order h).acyclic g.isRelationOn_dependency)
  · exact not_acyclic_of_cycleDetected h acyclic
  · -- What is reported goes by the library's own components, whatever `find` is.
    classical
    have cyclic : ∃ x, TransGen g.Dependency x x :=
      not_forall_not.1 (not_acyclic_of_cycleDetected h)
    obtain rfl := eq_cycleMembers_of_cycleDetected h
    have members (x : NodeId) : x ∈ g.dependencies.cycleMembers ↔ TransGen g.Dependency x x := by
      rw [← before_dependencies]
      exact mem_onCycles_iff wf (isStrongComponents_components wf)
    refine ⟨?_, nodup_onCycles wf (isStrongComponents_components wf), ?_, members⟩
    · obtain ⟨x, cycle⟩ := cyclic
      exact List.ne_nil_of_mem ((members x).2 cycle)
    · rw [cycleMembers_eq_dependencies_filter (p := fun x => TransGen g.Dependency x x)
        fun n _ => decide_eq_true_iff]
      exact List.filter_sublist

/-- A cycle of two operations, with one in front of it and one behind. -/
def loopInTheMiddle : FlowGraph where
  nodes := ["A", "B", "C", "D"].map fun id =>
    .operation ((OperationNode.new id .emitLog).withInput (.parameter "in" .string)
      |>.withOutput ⟨Handle.result, .string, none⟩)
  edges :=
    [.control "A" "B", .control "B" "C", .control "C" "B", .between "C" Handle.result "D" "in"]
  nodup_ids := by decide

/-- Neither the operation in front of the cycle nor the one behind it is reported. -/
theorem loopInTheMiddle_cycle_detected :
    IsStrongComponents ["A", "B", "C", "D"] loopInTheMiddle.Dependency
        loopInTheMiddle.dependencies.components ∧
      orderBy components loopInTheMiddle.dependencies = .error (.cycleDetected ["B", "C"]) ∧
      ∀ x, x ∈ ["B", "C"] ↔ TransGen loopInTheMiddle.Dependency x x := by
  have strong := isStrongComponents_components loopInTheMiddle.wellFormed_dependencies
  rw [before_dependencies] at strong
  have detected : orderBy components loopInTheMiddle.dependencies =
      .error (.cycleDetected ["B", "C"]) := by cbv
  have report := (order_detects_cycles loopInTheMiddle components strong).2.2 _ detected
  exact ⟨strong, detected, report.2.2.2⟩

end FlowGraph

end FlowPlan
