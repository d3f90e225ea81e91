import FlowPlan.Flow.Graph

/-!
# Plan — dependencies

What the edges of a graph say about the order of its operations.  Only edges between two operations
with both handles count, and of these the control edges and the data edges that land on a declared
input.

One pass over the edges notes for every operation its links: the first control edge that leaves it
and the first that reaches it, and for each input the source of the last data edge that lands on
it.  A second pass over the operations turns the links into dependencies: a node depends on the
sources of its inputs, and a control successor depends on the node.  A source whose control
successor is the node itself is not noted again for its data.

* `FlowGraph.dependencies`: the outcome of both passes.
* `Dependencies.successors`, `Dependencies.inDegree`: the relation `edges`, seen from one node.
* `Dependencies.isComparable`: two nodes between which a link fixes the order.
* `Dependencies.components`: the strongly connected components of the relation.
* `Dependencies.cycleMembers`: the nodes of those components that cycles run through.
-/

namespace FlowPlan

/-- What is left of a list without its repetitions has none. -/
theorem nodup_eraseDups {α : Type} [BEq α] [LawfulBEq α] : ∀ xs : List α, xs.eraseDups.Nodup
  | [] => List.nodup_nil
  | x :: xs => by
    rw [List.eraseDups_cons]
    exact List.nodup_cons.2 ⟨by simp, nodup_eraseDups (xs.filter fun y => !y == x)⟩
termination_by xs => xs.length
decreasing_by exact Nat.lt_succ_of_le (List.length_filter_le _ _)

/-! ### Links -/

/-- The links of one operation. -/
structure Links where
  /-- The node whose exit leads to this one's entry. -/
  entryPoint : Option NodeId
  /-- The node whose entry this one's exit leads to. -/
  exitPoint : Option NodeId
  /-- The operations that feed this one's inputs, by input name. -/
  inputSources : OrderedMap String NodeId
  deriving DecidableEq

namespace Links

/-- The links of an operation that no edge touches. -/
def none : Links :=
  ⟨.none, .none, .empty⟩

/-- Notes a control successor, unless there is one. -/
def leadTo (l : Links) (successor : NodeId) : Links :=
  { l with exitPoint := l.exitPoint <|> some successor }

/-- Notes a control predecessor, unless there is one. -/
def follow (l : Links) (predecessor : NodeId) : Links :=
  { l with entryPoint := l.entryPoint <|> some predecessor }

/-- Notes the source of an input, instead of an earlier one. -/
def feed (l : Links) (input : String) (source : NodeId) : Links :=
  { l with inputSources := l.inputSources.insert input source }

end Links

/-- The links of the operations of a graph. -/
abbrev LinkTable := OrderedMap NodeId Links

namespace LinkTable

/-- Notes an edge between two operations that has both handles. -/
def noteLink (t : LinkTable) (g : FlowGraph) (e : Edge) (targetHandle : String) : LinkTable :=
  if e.isControl then
    (t.modify e.source (·.leadTo e.target)).modify e.target (·.follow e.source)
  else if e.isData && g.declaresInput e.target targetHandle then
    t.modify e.target (·.feed targetHandle e.source)
  else t

/-- Notes an edge, if it has both handles and joins operations of the table. -/
def noteEdge (g : FlowGraph) (t : LinkTable) (e : Edge) : LinkTable :=
  match e.sourceHandle, e.targetHandle with
  | some _, some targetHandle =>
    if e.source ∈ t.keys ∧ e.target ∈ t.keys then t.noteLink g e targetHandle else t
  | _, _ => t

/-- The links of a node; a node that is no operation has none. -/
def linksOf (t : LinkTable) (id : NodeId) : Links :=
  (t.get? id).getD .none

end LinkTable

/-- The links of all operations. -/
def FlowGraph.links (g : FlowGraph) : LinkTable :=
  g.edges.foldl (LinkTable.noteEdge g) (.ofList (g.operations.map fun n => (n.id, .none)))

/-! ### Dependencies -/

/-- The sources of an operation's inputs, in the order of the inputs, without those whose control
successor is the operation itself. -/
def LinkTable.dataSources (t : LinkTable) (n : OperationNode) : List NodeId :=
  (n.inputs.filterMap fun i => (t.linksOf n.id).inputSources.get? i.name).filter fun source =>
    (t.linksOf source).exitPoint ≠ some n.id

/-- The dependencies that one operation adds: from its data sources, then to its control
successor. -/
def LinkTable.edgesAt (t : LinkTable) (n : OperationNode) : List (NodeId × NodeId) :=
  (t.dataSources n).map (fun source => (source, n.id)) ++
    (t.linksOf n.id).exitPoint.toList.map fun successor => (n.id, successor)

/-- What the edges of a graph say about the order of its operations. -/
structure Dependencies where
  /-- The operations, in graph order. -/
  nodes : List NodeId
  links : LinkTable
  /-- The pairs `(x, y)` in which `y` depends on `x`, each once, as they were noted. -/
  edges : List (NodeId × NodeId)
  /-- The pairs `(x, y)` in which `y` takes data from `x`'s output and is not `x`'s control
  successor, each once, as they were noted. -/
  consumption : List (NodeId × NodeId)
  deriving DecidableEq

/-- The dependencies that the links of a graph's operations amount to. -/
def Dependencies.ofLinks (g : FlowGraph) (t : LinkTable) : Dependencies where
  nodes := g.operations.map OperationNode.id
  links := t
  edges := (g.operations.flatMap t.edgesAt).eraseDups
  consumption := List.eraseDups <| g.operations.flatMap fun n =>
    ((t.dataSources n).filter fun source => (g.operation? source).any (·.output.isSome)).map
      fun source => (source, n.id)

/-- The dependencies of a graph. -/
def FlowGraph.dependencies (g : FlowGraph) : Dependencies :=
  .ofLinks g g.links

namespace Dependencies

/-- The nodes that depend on a node, as they were noted. -/
def successors (d : Dependencies) (x : NodeId) : List NodeId :=
  (d.edges.filter (·.1 = x)).map Prod.snd

/-- The number of nodes that a node depends on. -/
def inDegree (d : Dependencies) (y : NodeId) : Nat :=
  (d.edges.filter (·.2 = y)).length

/-- The nodes that take data from a node and are not its control successor, as they were noted. -/
def consumers (d : Dependencies) (x : NodeId) : List NodeId :=
  (d.consumption.filter (·.1 = x)).map Prod.snd

/-- A link between the two fixes their order: one takes data from the other, or one is the other's
control predecessor.  Ways through further nodes do not count. -/
def isComparable (d : Dependencies) (x y : NodeId) : Bool :=
  decide ((x, y) ∈ d.consumption) || decide ((y, x) ∈ d.consumption) ||
    decide ((d.links.linksOf y).entryPoint = some x) ||
    decide ((d.links.linksOf x).entryPoint = some y)

/-! ### Cycles -/

/-- The seen nodes, and all that the nodes of the frontier lead to.  Every step takes one node off
the frontier, and a node comes onto it at most once. -/
def explore (d : Dependencies) : (steps : Nat) → (frontier seen : List NodeId) → List NodeId
  | 0, _, seen => seen
  | _ + 1, [], seen => seen
  | steps + 1, x :: frontier, seen =>
    let unseen := (d.successors x).filter (· ∉ seen)
    d.explore steps (frontier ++ unseen) (seen ++ unseen)

/-- The nodes that depend on a node, directly or over others. -/
def dependents (d : Dependencies) (x : NodeId) : List NodeId :=
  d.explore d.nodes.length (d.successors x) (d.successors x)

/-- The strongly connected component of a node: the node, and every node that depends on it and that
it depends on. -/
def component (d : Dependencies) (x : NodeId) : List NodeId :=
  let after := d.dependents x
  d.nodes.filter fun y => y = x || y ∈ after && x ∈ d.dependents y

/-- The strongly connected components, each where its first node stands. -/
def components (d : Dependencies) : List (List NodeId) :=
  (d.nodes.map d.component).eraseDups

/-- A cycle runs through the component: it has two nodes, or its only node depends on itself. -/
def isCyclic (d : Dependencies) (component : List NodeId) : Bool :=
  1 < component.length || component.head?.any fun x => (x, x) ∈ d.edges

/-- The nodes of those components that cycles run through, in graph order. -/
def onCycles (d : Dependencies) (components : List (List NodeId)) : List NodeId :=
  (components.filter d.isCyclic).flatten.mergeSort fun x y => d.nodes.idxOf x ≤ d.nodes.idxOf y

/-- The nodes on cycles, in graph order. -/
def cycleMembers (d : Dependencies) : List NodeId :=
  d.onCycles d.components

end Dependencies

end FlowPlan
