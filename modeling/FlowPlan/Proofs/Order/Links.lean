import Mathlib.Data.List.Induction
import Mathlib.Tactic.Tauto
import FlowPlan.Plan.Dependencies
import FlowPlan.Transaction.Assembly

/-!
# Order — what the links record

The links of a graph are noted edge by edge.  Each field of them is a choice among the edges that
count for it, in the order of the edges: an exit and an entry keep the first control edge, an input
keeps the last data edge.

* `exitPoint_links`, `entryPoint_links`, `inputSource_links`: the choice that each field makes.

Each rests on what one more edge changes (`exitPoint_noteEdge` and its companions), for a table
that holds exactly the operations.
-/

namespace FlowPlan

/-- A control edge between two operations. -/
def FlowGraph.isControlLink (g : FlowGraph) (e : Edge) : Bool :=
  e.isControl && (g.operation? e.source).isSome && (g.operation? e.target).isSome

theorem Edge.isControl_iff {e : Edge} :
    e.isControl ↔ e.sourceHandle = some Handle.exit ∧ e.targetHandle = some Handle.entry := by
  simp [isControl]

/-- No control edge is a data edge. -/
theorem Edge.isData_eq_false_of_isControl {e : Edge} (h : e.isControl = true) :
    e.isData = false := by
  simp [isData, (isControl_iff.1 h).1]

theorem OperationNode.mem_inputs_of_input? {n : OperationNode} {i : Input} {name : String}
    (found : n.input? name = some i) : i ∈ n.inputs ∧ i.name = name :=
  ⟨List.mem_of_find?_eq_some found, by simpa using List.find?_some found⟩

namespace FlowGraph

variable {g : FlowGraph} {e : Edge}

theorem leaves_iff {node : NodeId} {handle : String} :
    e.leaves node handle ↔ e.source = node ∧ e.sourceHandle = some handle := by
  simp [Edge.leaves]

theorem landsOn_iff {node : NodeId} {input : String} :
    e.landsOn node input ↔ e.target = node ∧ e.targetHandle = some input := by
  simp [Edge.landsOn]

theorem leaves_of_isControl {node : NodeId} (control : e.isControl) (source : e.source = node) :
    e.leaves node Handle.exit :=
  leaves_iff.2 ⟨source, (Edge.isControl_iff.1 control).1⟩

/-- A control edge counts if it joins two operations. -/
theorem isControlLink_iff :
    g.isControlLink e ↔
      e.isControl = true ∧ (g.operation? e.source).isSome ∧ (g.operation? e.target).isSome := by
  simp [isControlLink, and_assoc]

/-- An input is declared if an operation of this name has it. -/
theorem declaresInput_iff {node : NodeId} {input : String} :
    g.declaresInput node input ↔
      ∃ n i, g.operation? node = some n ∧ n.input? input = some i := by
  simp only [declaresInput, Option.any_eq_true, Option.isSome_iff_exists]
  constructor
  · rintro ⟨n, found, i, declared⟩
    exact ⟨n, i, found, declared⟩
  · rintro ⟨n, i, found, declared⟩
    exact ⟨n, found, i, declared⟩

/-- A data edge with both handles that joins two operations and lands on a declared input. -/
theorem isDataFeed_iff :
    g.isDataFeed e ↔
      e.isData = true ∧ e.sourceHandle.isSome ∧ (g.operation? e.source).isSome ∧
        ∃ input, e.targetHandle = some input ∧
          ∃ n i, g.operation? e.target = some n ∧ n.input? input = some i := by
  simp only [isDataFeed, Bool.and_eq_true, Option.any_eq_true, declaresInput_iff]
  tauto

/-- A data edge between operations feeds the input, if that is declared. -/
theorem isDataFeed_between {s t : OperationNode} {i : Input} {handle input : String}
    (source : s ∈ g.operations) (target : t ∈ g.operations) (declared : t.input? input = some i)
    (data : (Edge.between s.id handle t.id input).isData) :
    g.isDataFeed (.between s.id handle t.id input) :=
  isDataFeed_iff.2 ⟨data, rfl, isSome_operation?.2 (List.mem_map_of_mem source), input, rfl, t, i,
    operation?_eq_some_iff.2 ⟨target, rfl⟩, declared⟩

theorem isDataFeed_eq_false_of_isControl (h : e.isControl = true) : g.isDataFeed e = false := by
  simp [isDataFeed, Edge.isData_eq_false_of_isControl h]

end FlowGraph

namespace LinkTable
open FlowGraph

variable {g : FlowGraph} {t : LinkTable}

/-! ### One more edge -/

/-- The links of other nodes stay as they are. -/
theorem linksOf_modify {key : NodeId} (mem : key ∈ t.keys) (f : Links → Links) (x : NodeId) :
    linksOf (t.modify key f) x = if x = key then f (t.linksOf key) else t.linksOf x := by
  obtain ⟨l, found⟩ := Option.isSome_iff_exists.1 (OrderedMap.mem_keys_iff.1 mem)
  simp only [linksOf, OrderedMap.get?_modify]
  split
  · simp [found]
  · rfl

/-- The table holds exactly the operations. -/
def Covers (t : LinkTable) (g : FlowGraph) : Prop :=
  t.keys = g.operations.map OperationNode.id

theorem Covers.mem_keys (h : t.Covers g) {id : NodeId} :
    id ∈ t.keys ↔ (g.operation? id).isSome := by
  rw [h, isSome_operation?]

/-- Both ends of a control edge that counts have links. -/
theorem Covers.mem_of_isControlLink (h : t.Covers g) {e : Edge} (control : g.isControlLink e) :
    e.source ∈ t.keys ∧ e.target ∈ t.keys := by
  obtain ⟨-, source, target⟩ := isControlLink_iff.1 control
  exact ⟨h.mem_keys.2 source, h.mem_keys.2 target⟩

theorem Covers.mem_of_isDataFeed (h : t.Covers g) {e : Edge} (data : g.isDataFeed e) :
    e.target ∈ t.keys := by
  obtain ⟨-, -, -, -, -, n, -, target, -⟩ := isDataFeed_iff.1 data
  exact h.mem_keys.2 (by simp [target])

/-- What noting an edge does, in the terms of the graph. -/
theorem noteEdge_eq (h : t.Covers g) (e : Edge) :
    t.noteEdge g e =
      if g.isControlLink e then
        (t.modify e.source (·.leadTo e.target)).modify e.target (·.follow e.source)
      else if g.isDataFeed e then t.modify e.target (·.feed (e.targetHandle.getD "") e.source)
      else t := by
  obtain ⟨id, source, sourceHandle, target, targetHandle⟩ := e
  cases sourceHandle with
  | none => simp [noteEdge, isControlLink, Edge.isControl, isDataFeed]
  | some sourceHandle =>
    cases targetHandle with
    | none => simp [noteEdge, isControlLink, Edge.isControl, isDataFeed]
    | some targetHandle =>
      have declared : g.declaresInput target targetHandle → (g.operation? target).isSome := by
        rintro h
        obtain ⟨n, -, found, -⟩ := declaresInput_iff.1 h
        simp [found]
      simp only [noteEdge, noteLink, h.mem_keys, isControlLink, isDataFeed]
      grind

/-- An edge does not change whose links there are. -/
theorem Covers.noteEdge (h : t.Covers g) (e : Edge) : (t.noteEdge g e).Covers g := by
  rw [noteEdge_eq h]
  unfold Covers at h ⊢
  split
  · simpa using h
  · split <;> simpa using h

/-- The exit of a node keeps the first control edge that leaves it. -/
theorem exitPoint_noteEdge (h : t.Covers g) (e : Edge) (x : NodeId) :
    ((t.noteEdge g e).linksOf x).exitPoint =
      ((t.linksOf x).exitPoint <|>
        if g.isControlLink e && e.source = x then some e.target else none) := by
  rw [noteEdge_eq h]
  by_cases control : g.isControlLink e
  · obtain ⟨source, target⟩ := h.mem_of_isControlLink control
    rw [if_pos control, linksOf_modify (by simpa using target), linksOf_modify source,
      linksOf_modify source]
    simp only [control, Bool.true_and, Links.leadTo, Links.follow]
    grind
  · rw [if_neg control]
    by_cases data : g.isDataFeed e
    · rw [if_pos data, linksOf_modify (h.mem_of_isDataFeed data)]
      by_cases ht : x = e.target <;> simp [Links.feed, control, ht]
    · simp [control, data]

/-- The entry of a node keeps the first control edge that lands on it. -/
theorem entryPoint_noteEdge (h : t.Covers g) (e : Edge) (y : NodeId) :
    ((t.noteEdge g e).linksOf y).entryPoint =
      ((t.linksOf y).entryPoint <|>
        if g.isControlLink e && e.target = y then some e.source else none) := by
  rw [noteEdge_eq h]
  by_cases control : g.isControlLink e
  · obtain ⟨source, target⟩ := h.mem_of_isControlLink control
    rw [if_pos control, linksOf_modify (by simpa using target), linksOf_modify source,
      linksOf_modify source]
    simp only [control, Bool.true_and, Links.leadTo, Links.follow]
    grind
  · rw [if_neg control]
    by_cases data : g.isDataFeed e
    · rw [if_pos data, linksOf_modify (h.mem_of_isDataFeed data)]
      by_cases ht : y = e.target <;> simp [Links.feed, control, ht]
    · simp [control, data]

/-- An input keeps the last data edge that lands on it. -/
theorem inputSource_noteEdge (h : t.Covers g) (e : Edge) (y : NodeId) (input : String) :
    ((t.noteEdge g e).linksOf y).inputSources.get? input =
      if g.isDataFeed e && e.landsOn y input then some e.source
      else (t.linksOf y).inputSources.get? input := by
  rw [noteEdge_eq h]
  by_cases control : g.isControlLink e
  · obtain ⟨source, target⟩ := h.mem_of_isControlLink control
    have data := isDataFeed_eq_false_of_isControl (g := g) (isControlLink_iff.1 control).1
    rw [if_pos control, linksOf_modify (by simpa using target), linksOf_modify source,
      linksOf_modify source]
    simp only [data, Bool.false_and, Links.leadTo, Links.follow]
    grind
  · rw [if_neg control]
    by_cases data : g.isDataFeed e
    · obtain ⟨-, -, -, name, handle, -⟩ := isDataFeed_iff.1 data
      rw [if_pos data, linksOf_modify (h.mem_of_isDataFeed data)]
      simp only [data, Bool.true_and, Links.feed, handle, Option.getD_some, Edge.landsOn]
      grind [OrderedMap.get?_insert]
    · simp [data]

end LinkTable

/-! ### All edges -/

namespace FlowGraph
open LinkTable

/-- The links after some of the edges have been noted. -/
def linksAfter (g : FlowGraph) (es : List Edge) : LinkTable :=
  es.foldl (LinkTable.noteEdge g) (.ofList (g.operations.map fun n => (n.id, .none)))

/-- The edges are noted one by one. -/
theorem linksAfter_snoc (g : FlowGraph) (es : List Edge) (e : Edge) :
    g.linksAfter (es ++ [e]) = (g.linksAfter es).noteEdge g e := by
  simp [linksAfter]

theorem linksAfter_nil (g : FlowGraph) :
    g.linksAfter [] = .ofList ((g.operations.map OperationNode.id).map fun id => (id, .none)) := by
  simp [linksAfter, Function.comp_def]

theorem covers_linksAfter (g : FlowGraph) (es : List Edge) : (g.linksAfter es).Covers g := by
  induction es using List.reverseRecOn with
  | nil =>
    rw [linksAfter_nil, Covers, OrderedMap.keys, OrderedMap.entries_ofList]
    · simp [Function.comp_def]
    · simpa [Function.comp_def] using g.nodup_operationIds
  | append_singleton es e ih =>
    rw [linksAfter_snoc]
    exact ih.noteEdge e

/-- No edge has been noted yet. -/
theorem linksOf_linksAfter_nil (g : FlowGraph) (x : NodeId) :
    (g.linksAfter []).linksOf x = .none := by
  rw [linksAfter_nil, linksOf, OrderedMap.get?_ofList_map g.nodup_operationIds]
  split <;> rfl

/-- **The exit keeps the first control edge that leaves it.** -/
theorem exitPoint_links (g : FlowGraph) (x : NodeId) :
    (g.links.linksOf x).exitPoint =
      (g.edges.find? fun e => g.isControlLink e && e.source = x).map Edge.target := by
  change ((g.linksAfter g.edges).linksOf x).exitPoint = _
  induction g.edges using List.reverseRecOn with
  | nil => rw [linksOf_linksAfter_nil]; rfl
  | append_singleton es e ih =>
    rw [linksAfter_snoc, exitPoint_noteEdge (g.covers_linksAfter es), ih, List.find?_append]
    cases es.find? fun e => g.isControlLink e && e.source = x with
    | some first => rfl
    | none => by_cases h : g.isControlLink e && e.source = x <;> simp_all

/-- **The entry keeps the first control edge that reaches it.** -/
theorem entryPoint_links (g : FlowGraph) (y : NodeId) :
    (g.links.linksOf y).entryPoint =
      (g.edges.find? fun e => g.isControlLink e && e.target = y).map Edge.source := by
  change ((g.linksAfter g.edges).linksOf y).entryPoint = _
  induction g.edges using List.reverseRecOn with
  | nil => rw [linksOf_linksAfter_nil]; rfl
  | append_singleton es e ih =>
    rw [linksAfter_snoc, entryPoint_noteEdge (g.covers_linksAfter es), ih, List.find?_append]
    cases es.find? fun e => g.isControlLink e && e.target = y with
    | some first => rfl
    | none => by_cases h : g.isControlLink e && e.target = y <;> simp_all

/-- **An input keeps the last data edge that lands on it.** -/
theorem inputSource_links (g : FlowGraph) (y : NodeId) (input : String) :
    (g.links.linksOf y).inputSources.get? input =
      (g.edges.reverse.find? fun e => g.isDataFeed e && e.landsOn y input).map Edge.source := by
  change ((g.linksAfter g.edges).linksOf y).inputSources.get? input = _
  induction g.edges using List.reverseRecOn with
  | nil => rw [linksOf_linksAfter_nil]; rfl
  | append_singleton es e ih =>
    rw [linksAfter_snoc, inputSource_noteEdge (g.covers_linksAfter es), ih, List.reverse_append,
      List.reverse_singleton, List.singleton_append, List.find?_cons]
    by_cases h : g.isDataFeed e && e.landsOn y input <;> simp [h]

variable {g : FlowGraph}

/-- The exit point is backed by a control edge. -/
theorem exists_edge_of_exitPoint {x y : NodeId} (h : (g.links.linksOf x).exitPoint = some y) :
    ∃ e ∈ g.edges, g.isControlLink e ∧ e.source = x ∧ e.target = y := by
  rw [exitPoint_links, Option.map_eq_some_iff] at h
  obtain ⟨e, found, rfl⟩ := h
  have holds := List.find?_some found
  simp only [Bool.and_eq_true, decide_eq_true_eq] at holds
  exact ⟨e, List.mem_of_find?_eq_some found, holds.1, holds.2, rfl⟩

/-- The entry point is backed by a control edge. -/
theorem exists_edge_of_entryPoint {x y : NodeId} (h : (g.links.linksOf y).entryPoint = some x) :
    ∃ e ∈ g.edges, g.isControlLink e ∧ e.source = x ∧ e.target = y := by
  rw [entryPoint_links, Option.map_eq_some_iff] at h
  obtain ⟨e, found, rfl⟩ := h
  have holds := List.find?_some found
  simp only [Bool.and_eq_true, decide_eq_true_eq] at holds
  exact ⟨e, List.mem_of_find?_eq_some found, holds.1, rfl, holds.2⟩

/-- The source of an input is backed by a data edge. -/
theorem exists_edge_of_inputSource {x y : NodeId} {input : String}
    (h : (g.links.linksOf y).inputSources.get? input = some x) :
    ∃ e ∈ g.edges, g.isDataFeed e ∧ e.landsOn y input ∧ e.source = x := by
  rw [inputSource_links, Option.map_eq_some_iff] at h
  obtain ⟨e, found, rfl⟩ := h
  have holds := List.find?_some found
  rw [Bool.and_eq_true] at holds
  exact ⟨e, List.mem_reverse.1 (List.mem_of_find?_eq_some found), holds.1, holds.2, rfl⟩

end FlowGraph

end FlowPlan
