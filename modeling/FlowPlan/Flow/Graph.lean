import FlowPlan.Flow.Form
import FlowPlan.Json.Outline

/-!
# Flow — graphs

A flow graph is a snapshot of an editor's nodes and edges.  Its nodes stand in the order in which
the editor lists them, which every later stage follows, and their identifiers are distinct.  Edges
are kept as given: one that names an unknown node or lacks a handle is legal here and means nothing
later.

* `FlowGraph.ofParts`: a graph, unless two nodes share an identifier.
* `FlowGraph.ofParts_eq_ok_iff`: that is the only thing that can go wrong.
-/

namespace FlowPlan

/-- Nodes with distinct identifiers, and edges. -/
structure FlowGraph where
  nodes : List Node
  edges : List Edge
  nodup_ids : (nodes.map Node.id).Nodup
  deriving DecidableEq

/-- Why a document is no graph. -/
inductive LoadError where
  /-- The document is not of the shape of a graph. -/
  | malformed
  /-- A node repeats the identifier of an earlier one. -/
  | duplicateNode (id : NodeId)
  deriving DecidableEq

/-- The wording of a failure to load. -/
def LoadError.message : LoadError → String
  | .malformed => "malformed graph"
  | .duplicateNode id => "duplicate node id: '" ++ id ++ "'"

/-- The first string of a list that repeats an earlier one. -/
def firstRepeat? : (earlier : List String) → List String → Option String
  | _, [] => none
  | earlier, s :: rest => if s ∈ earlier then some s else firstRepeat? (s :: earlier) rest

theorem firstRepeat?_eq_none_iff {earlier ss : List String} :
    firstRepeat? earlier ss = none ↔ ss.Nodup ∧ ∀ s ∈ ss, s ∉ earlier := by
  induction ss generalizing earlier with
  | nil => simp [firstRepeat?]
  | cons s rest ih =>
    simp only [firstRepeat?]
    split
    · next h => simp [h]
    · next h =>
      rw [ih, List.nodup_cons]
      constructor
      · rintro ⟨nodup, fresh⟩
        refine ⟨⟨fun mem => (fresh s mem) (by simp), nodup⟩, ?_⟩
        intro t ht
        rcases List.mem_cons.1 ht with rfl | ht
        · exact h
        · exact fun mem => fresh t ht (by simp [mem])
      · rintro ⟨⟨notMem, nodup⟩, fresh⟩
        refine ⟨nodup, ?_⟩
        intro t ht mem
        rcases List.mem_cons.1 mem with rfl | mem
        · exact notMem ht
        · exact fresh t (by simp [ht]) mem

namespace FlowGraph

@[ext]
theorem ext {g h : FlowGraph} (nodes : g.nodes = h.nodes) (edges : g.edges = h.edges) : g = h := by
  cases g; cases h; cases nodes; cases edges; rfl

/-- The graph without nodes. -/
def empty : FlowGraph :=
  ⟨[], [], List.nodup_nil⟩

instance : Inhabited FlowGraph := ⟨empty⟩

/-- A graph of these nodes and edges; fails with the identifier of the first node that repeats an
earlier one. -/
def ofParts (nodes : List Node) (edges : List Edge) : Except LoadError FlowGraph :=
  match h : firstRepeat? [] (nodes.map Node.id) with
  | some id => .error (.duplicateNode id)
  | none => .ok ⟨nodes, edges, (firstRepeat?_eq_none_iff.1 h).1⟩

/-- A graph arises exactly from nodes with distinct identifiers, and holds what it was given. -/
theorem ofParts_eq_ok_iff {nodes : List Node} {edges : List Edge} {g : FlowGraph} :
    ofParts nodes edges = .ok g ↔ g.nodes = nodes ∧ g.edges = edges := by
  unfold ofParts
  split
  · next id h =>
    simp only [reduceCtorEq, false_iff, not_and]
    rintro rfl -
    have none : firstRepeat? [] (g.nodes.map Node.id) = none :=
      firstRepeat?_eq_none_iff.2 ⟨g.nodup_ids, by simp⟩
    rw [none] at h
    cases h
  · constructor
    · intro h
      cases h
      exact ⟨rfl, rfl⟩
    · rintro ⟨rfl, rfl⟩
      rfl

/-! ### Looking up -/

/-- The node of this identifier. -/
def node? (g : FlowGraph) (id : NodeId) : Option Node :=
  g.nodes.find? (·.id = id)

/-- The operation of this identifier. -/
def operation? (g : FlowGraph) (id : NodeId) : Option OperationNode :=
  (g.node? id).bind Node.operation?

/-- The input bank of this identifier. -/
def inputBank? (g : FlowGraph) (id : NodeId) : Option InputBank :=
  (g.node? id).bind Node.inputBank?

/-- The operations, in order. -/
def operations (g : FlowGraph) : List OperationNode :=
  g.nodes.filterMap Node.operation?

/-- The input banks, in order. -/
def inputBanks (g : FlowGraph) : List InputBank :=
  g.nodes.filterMap Node.inputBank?

/-- The position of a node among the nodes. -/
def position? (g : FlowGraph) (id : NodeId) : Option Nat :=
  g.nodes.findIdx? (·.id = id)

/-- An edge lands on this handle of this node. -/
def isConnected (g : FlowGraph) (node : NodeId) (handle : String) : Bool :=
  g.edges.any (·.landsOn node handle)

/-- An operation of this identifier declares an input of this name. -/
def declaresInput (g : FlowGraph) (node : NodeId) (input : String) : Bool :=
  (g.operation? node).any fun n => (n.input? input).isSome

/-- A node is found exactly by its identifier. -/
theorem node?_eq_some_iff {g : FlowGraph} {id : NodeId} {n : Node} :
    g.node? id = some n ↔ n ∈ g.nodes ∧ n.id = id := by
  have nodup := g.nodup_ids
  unfold node?
  constructor
  · intro h
    exact ⟨List.mem_of_find?_eq_some h, by simpa using List.find?_some h⟩
  · rintro ⟨mem, rfl⟩
    generalize g.nodes = nodes at mem nodup
    induction nodes with
    | nil => cases mem
    | cons m rest ih =>
      rw [List.map_cons, List.nodup_cons] at nodup
      rcases List.mem_cons.1 mem with rfl | mem
      · simp
      · have ne : ¬m.id = n.id := fun e => nodup.1 (e ▸ List.mem_map_of_mem mem)
        rw [List.find?_cons_of_neg (by simpa using ne)]
        exact ih mem nodup.2

theorem mem_operations {g : FlowGraph} {n : OperationNode} :
    n ∈ g.operations ↔ .operation n ∈ g.nodes := by
  rw [operations, List.mem_filterMap]
  constructor
  · rintro ⟨m, mem, h⟩
    cases m with
    | operation m => cases h; exact mem
    | inputBank b => cases h
  · exact fun mem => ⟨_, mem, rfl⟩

/-- An operation is found exactly by its identifier. -/
theorem operation?_eq_some_iff {g : FlowGraph} {id : NodeId} {n : OperationNode} :
    g.operation? id = some n ↔ n ∈ g.operations ∧ n.id = id := by
  rw [operation?, Option.bind_eq_some_iff, mem_operations]
  constructor
  · rintro ⟨m, h, hm⟩
    cases m with
    | operation m => cases hm; exact node?_eq_some_iff.1 h
    | inputBank b => cases hm
  · exact fun h => ⟨.operation n, node?_eq_some_iff.2 h, rfl⟩

theorem mem_inputBanks {g : FlowGraph} {b : InputBank} :
    b ∈ g.inputBanks ↔ .inputBank b ∈ g.nodes := by
  rw [inputBanks, List.mem_filterMap]
  constructor
  · rintro ⟨m, mem, h⟩
    cases m with
    | operation m => cases h
    | inputBank b => cases h; exact mem
  · exact fun mem => ⟨_, mem, rfl⟩

theorem inputBank?_eq_some_iff {g : FlowGraph} {id : NodeId} {b : InputBank} :
    g.inputBank? id = some b ↔ b ∈ g.inputBanks ∧ b.id = id := by
  rw [inputBank?, Option.bind_eq_some_iff, mem_inputBanks]
  constructor
  · rintro ⟨m, h, hm⟩
    cases m with
    | operation m => cases hm
    | inputBank b => cases hm; exact node?_eq_some_iff.1 h
  · exact fun h => ⟨.inputBank b, node?_eq_some_iff.2 h, rfl⟩

/-- No identifier names both an operation and a bank. -/
theorem inputBank?_of_mem_operations {g : FlowGraph} {n : OperationNode} (mem : n ∈ g.operations) :
    g.inputBank? n.id = none := by
  have found : g.node? n.id = some (.operation n) :=
    node?_eq_some_iff.2 ⟨mem_operations.1 mem, rfl⟩
  rw [inputBank?, found]
  rfl

/-- No bank has the identifier of an operation. -/
theorem inputBank_id_ne {g : FlowGraph} {b : InputBank} {n : OperationNode}
    (bank : b ∈ g.inputBanks) (operation : n ∈ g.operations) : b.id ≠ n.id := by
  intro same
  have found : g.inputBank? n.id = some b := inputBank?_eq_some_iff.2 ⟨bank, same⟩
  cases found.symm.trans (inputBank?_of_mem_operations operation)

/-- Operations of one identifier are one. -/
theorem eq_of_operation_id {g : FlowGraph} {m n : OperationNode} (first : m ∈ g.operations)
    (second : n ∈ g.operations) (same : m.id = n.id) : m = n :=
  Option.some.inj <| (operation?_eq_some_iff.2 ⟨first, same⟩).symm.trans
    (operation?_eq_some_iff.2 ⟨second, rfl⟩)

theorem eq_of_inputBank_id {g : FlowGraph} {a b : InputBank} (first : a ∈ g.inputBanks)
    (second : b ∈ g.inputBanks) (same : a.id = b.id) : a = b :=
  Option.some.inj <| (inputBank?_eq_some_iff.2 ⟨first, same⟩).symm.trans
    (inputBank?_eq_some_iff.2 ⟨second, rfl⟩)

/-- No identifier is that of two operations. -/
theorem nodup_operationIds (g : FlowGraph) : (g.operations.map OperationNode.id).Nodup := by
  have nodup := g.nodup_ids
  rw [List.Nodup, List.pairwise_map] at nodup ⊢
  rw [operations, List.pairwise_filterMap]
  refine nodup.imp ?_
  intro m k ne a ha b hb
  cases m <;> cases ha
  cases k <;> cases hb
  exact ne

theorem isSome_operation? {g : FlowGraph} {id : NodeId} :
    (g.operation? id).isSome ↔ id ∈ g.operations.map OperationNode.id := by
  rw [Option.isSome_iff_exists, List.mem_map]
  simp only [operation?_eq_some_iff]

/-! ### Changing -/

/-- The graph with one more edge, at the end. -/
def addEdge (g : FlowGraph) (e : Edge) : FlowGraph :=
  { g with edges := g.edges ++ [e] }

/-- The graph with a node in place of the one of its identifier. -/
def replaceNode (g : FlowGraph) (node : Node) : FlowGraph where
  nodes := g.nodes.map fun n => if n.id = node.id then node else n
  edges := g.edges
  nodup_ids := by
    rw [List.map_map]
    have h : (Node.id ∘ fun n => if n.id = node.id then node else n) = Node.id := by
      funext n
      simp only [Function.comp_apply]
      split
      · next h => exact h.symm
      · rfl
    rw [h]
    exact g.nodup_ids

/-! ### The form in JSON -/

/-- The JSON form of a graph. -/
def toJson (g : FlowGraph) : Json :=
  .obj [("nodes", .arr (g.nodes.map Node.toJson)), ("edges", .arr (g.edges.map Edge.toJson))]

/-- Reads the nodes and the edges of a graph. -/
def partsOfJson? (j : Json) : Option (List Node × List Edge) := do
  let fields ← j.members?
  let nodes ← Fields.defaulted? fields "nodes" (Json.list? Node.ofJson?) []
  let edges ← Fields.defaulted? fields "edges" (Json.list? Edge.ofJson?) []
  some (nodes, edges)

/-- Reads a graph. -/
def ofJson (j : Json) : Except LoadError FlowGraph :=
  match partsOfJson? j with
  | some (nodes, edges) => ofParts nodes edges
  | none => .error .malformed

/-- What of a graph's text is looked at: the nodes as a whole, and of an edge its own members. -/
def outline : Json.Outline :=
  let edge : Json.Outline := .named (Edge.memberNames.map fun name => (name, .whole))
  .named [("nodes", .whole), ("edges", .each edge)]

/-- Reads a graph from JSON text.  Nothing but blanks may stand after the graph, which is looked at
last: two nodes that share an identifier are found before it. -/
def ofText (text : String) : Except LoadError FlowGraph := do
  let (j, rest) ← (outline.read? text).elim (.error .malformed) .ok
  let g ← ofJson j
  if Json.skipBlanks rest = [] then .ok g else .error .malformed

end FlowGraph

end FlowPlan
