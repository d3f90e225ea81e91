import FlowPlan.Plan.Dependencies
import FlowPlan.Plan.Error

/-!
# Plan — schedule

The order in which operations run.  Nodes are placed one at a time, from a queue of those whose
predecessors are all placed: first in, first out, started in graph order and filled as the
dependencies were noted.  Whenever two nodes are ready at once, a link between them has to fix
their order; if none does, the order is ambiguous and no order is chosen.  If nodes are left when
the queue is empty, the dependencies contain a cycle.

* `Progress`: what is placed, what is ready, and how many predecessors the others wait for.
* `Dependencies.order`: the order, or why there is none.  `Dependencies.orderBy` leaves open how
  strongly connected components are found.
-/

namespace FlowPlan

/-- How far the placing of nodes has come. -/
structure Progress where
  /-- The placed nodes, in order. -/
  placed : List NodeId
  /-- The queue of nodes whose predecessors are all placed. -/
  ready : List NodeId
  /-- For every node, how many of its predecessors are not placed. -/
  waiting : OrderedMap NodeId Nat
  deriving DecidableEq

namespace Progress

/-- One predecessor of the node has been placed; if it was the last one, the node is ready. -/
def release (p : Progress) (next : NodeId) : Progress :=
  match p.waiting.get? next with
  | none => p
  | some n =>
    { p with
      waiting := p.waiting.modify next fun n => n - 1
      ready := if n - 1 = 0 then p.ready ++ [next] else p.ready }

/-- Places the node at the head of the queue and releases what depends on it. -/
def place (d : Dependencies) (p : Progress) (current : NodeId) (rest : List NodeId) : Progress :=
  (d.successors current).foldl release { p with placed := p.placed ++ [current], ready := rest }

end Progress

namespace Dependencies

/-- Nothing is placed, and the nodes without predecessors are ready. -/
def initial (d : Dependencies) : Progress where
  placed := []
  ready := d.nodes.filter fun id => d.inDegree id = 0
  waiting := .ofList (d.nodes.map fun id => (id, d.inDegree id))

/-- The first two nodes of a queue between which no link fixes the order. -/
def incomparable? (d : Dependencies) : List NodeId → Option (NodeId × NodeId)
  | [] => none
  | x :: rest =>
    match rest.find? fun y => !d.isComparable x y with
    | some y => some (x, y)
    | none => d.incomparable? rest

/-- Places at most `steps` nodes, until the queue is empty. -/
def run (d : Dependencies) : (steps : Nat) → Progress → Except PlanError Progress
  | 0, p => .ok p
  | steps + 1, p =>
    match p.ready with
    | [] => .ok p
    | current :: rest =>
      match d.incomparable? (current :: rest) with
      | some (x, y) => .error (.ambiguousOrder x y)
      | none => d.run steps (p.place d current rest)

/-- The order in which the operations run, where `components` finds strongly connected components;
they are asked for only to name the nodes on cycles. -/
def orderBy (components : Dependencies → List (List NodeId)) (d : Dependencies) :
    Except PlanError (List NodeId) := do
  let p ← d.run d.nodes.length d.initial
  if p.placed.length = d.nodes.length then .ok p.placed
  else .error (.cycleDetected (d.onCycles (components d)))

/-- The order in which the operations run. -/
def order (d : Dependencies) : Except PlanError (List NodeId) :=
  orderBy components d

end Dependencies

end FlowPlan
