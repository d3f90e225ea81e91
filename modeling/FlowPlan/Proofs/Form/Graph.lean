import FlowPlan.Flow.Graph
import FlowPlan.Proofs.Form.Fields

/-!
# Forms — graphs read back

Each structure of a graph is read back from its own form, from the types up: a lemma for each, by
the fields that the structure writes.  Only stored values can be lost, since an explicit `null` reads
as no value at all (`StoredValue.NoNull`); a graph that was read stores none.  A list of nodes is no
graph exactly if two of them share an identifier (`FlowGraph.ofParts_eq_error_iff`).

* `ParamType.ofJson?_toJson`: types of any depth.
* `Node.ofJson?_toJson`, `Node.noNulls_of_ofJson?`: nodes, and what reading says of them.
* `FlowGraph.graph_form_exact`: graphs.
-/

namespace FlowPlan

/-! ### Types -/

namespace ParamType

variable (empty : Json.EmptyContent)

mutual

/-- A type is read back, however deep its components lie. -/
@[simp]
theorem ofJson?_toJson : ∀ t : ParamType, ofJson? empty t.toJson = some t
  | .scalar s => by simp [toJson, ofJson?, Scalar.ofName?_name]
  | .vec item => by simp [toJson, ofJson?, ofJson?_toJson item]
  | .tuple components => by simp [toJson, ofJson?, ofJsonAll?_toJsonAll components]
  | .other name => by simp [toJson, ofJson?, otherName?, Fields.required?]

theorem ofJsonAll?_toJsonAll : ∀ ts : List ParamType, ofJsonAll? empty (toJsonAll ts) = some ts
  | [] => by simp [toJsonAll, ofJsonAll?]
  | t :: ts => by simp [toJsonAll, ofJsonAll?, ofJson?_toJson t, ofJsonAll?_toJsonAll ts]

end

end ParamType

/-! ### Inputs, outputs and functions -/

section Parts

variable (empty : Json.EmptyContent)

@[simp]
theorem Role.ofJson?_name (r : Role) : Role.ofJson? empty (.str r.name) = some r := by
  simp [Role.ofJson?, Json.choice?, Role.ofName?_name]

/-- An input is read back from its form. -/
@[simp]
theorem Input.ofJson?_toJson (i : Input) : Input.ofJson? empty i.toJson = some i := by
  simp [Input.ofJson?, Input.toJson, Fields.required?, Fields.defaulted?, Fields.optional?_eq]

@[simp]
theorem Output.ofJson?_toJson (o : Output) : Output.ofJson? empty o.toJson = some o := by
  simp [Output.ofJson?, Output.toJson, Fields.required?, Fields.optional?_eq]

@[simp]
theorem Fields.present?_output (o : Option Output) :
    present? (Output.ofJson? empty) (o.map Output.toJson) = some o :=
  present?_map (fun o _ => Output.ofJson?_toJson empty o) (by simp [Output.toJson])

@[simp]
theorem Argument.ofJson?_toJson (a : Argument) : Argument.ofJson? empty a.toJson = some a := by
  simp [Argument.ofJson?, Argument.toJson, Fields.required?]

/-- A function is read back from its form, with its arguments. -/
@[simp]
theorem Function.ofJson?_toJson (f : Function) : Function.ofJson? empty f.toJson = some f := by
  simp [Function.ofJson?, Function.toJson, Fields.required?, Fields.defaulted?]

/-- A parameter of a bank is read back from its form. -/
@[simp]
theorem BankParam.ofJson?_toJson (p : BankParam) : BankParam.ofJson? empty p.toJson = some p := by
  simp [BankParam.ofJson?, BankParam.toJson, Fields.required?]

end Parts

/-- An action is read back from its form, whatever its kind. -/
@[simp]
theorem Action.ofJson?_toJson : ∀ a : Action, Action.ofJson? a.toJson = some a
  | .start | .emitLog | .assertBucketContains | .allocateAddress .component
  | .allocateAddress .resource => by simp [Action.ofJson?, Action.toJson, members, Fields.required?]
  | .call c => by
    simp [Action.ofJson?, Action.toJson, members, Call.ofFields?, Fields.required?]

/-- An edge is read back from its form. -/
@[simp]
theorem Edge.ofJson?_toJson (e : Edge) : Edge.ofJson? e.toJson = some e := by
  simp [Edge.ofJson?, Edge.toJson, Fields.required?, Fields.optional?_eq]

/-! ### Stored values -/

namespace StoredValue

/-- Neither the data nor the error is an explicit `null`, which reads as none at all. -/
def NoNull (v : StoredValue) : Prop :=
  v.data ≠ some .null ∧ v.error ≠ some .null

instance (v : StoredValue) : Decidable v.NoNull :=
  inferInstanceAs (Decidable (_ ∧ _))

/-- A stored value is read back from its form, unless its data is null. -/
@[simp]
theorem ofJson?_toJson {v : StoredValue} (h : v.NoNull) : ofJson? v.toJson = some v := by
  simp [ofJson?, toJson, Fields.required?, Fields.optional?_eq, h.1, h.2]

/-- No stored value is read with null data. -/
theorem noNull_of_ofJson? {j : Json} {v : StoredValue} (h : ofJson? j = some v) : v.NoNull := by
  simp only [ofJson?, Option.bind_eq_bind, Option.bind_eq_some_iff, Option.some.injEq] at h
  obtain ⟨fields, -, success, -, data, dataRead, error, errorRead, rfl⟩ := h
  exact ⟨Fields.ne_null_of_optional? dataRead, Fields.ne_null_of_optional? errorRead⟩

/-- No value of the map is an explicit `null`. -/
def NoNulls (values : OrderedMap String StoredValue) : Prop :=
  ∀ e ∈ values.entries, e.2.NoNull

instance (values : OrderedMap String StoredValue) : Decidable (NoNulls values) :=
  inferInstanceAs (Decidable (∀ e ∈ values.entries, e.2.NoNull))

/-- Stored values are read back under their names, unless one has null data. -/
@[simp]
theorem mapOfJson?_toJson {values : OrderedMap String StoredValue} (h : NoNulls values) :
    OrderedMap.ofJson? ofJson? (values.toJson toJson) = some values :=
  OrderedMap.ofJson?_toJson fun e mem => ofJson?_toJson (h e mem)

/-- No stored value of a map is read with null data. -/
theorem noNulls_of_defaulted? {fields : Fields} {name : String}
    {values : OrderedMap String StoredValue}
    (h : fields.defaulted? name (OrderedMap.ofJson? ofJson?) .empty = some values) :
    NoNulls values := by
  rcases Fields.eq_or_exists_of_defaulted? h with rfl | ⟨j, read⟩
  · exact fun e mem => absurd mem List.not_mem_nil
  · intro e mem
    obtain ⟨y, found⟩ := OrderedMap.exists_of_ofJson? read mem
    exact noNull_of_ofJson? found

end StoredValue

/-! ### Nodes -/

theorem OperationNode.noNulls_of_ofFields? {fields : Fields} {n : OperationNode}
    (h : ofFields? fields = some n) : StoredValue.NoNulls n.values := by
  simp only [ofFields?, Option.bind_eq_bind, Option.bind_eq_some_iff, Option.some.injEq] at h
  obtain ⟨_, -, _, -, _, -, _, -, _, -, values, stored, _, -, _, -, rfl⟩ := h
  exact StoredValue.noNulls_of_defaulted? stored

theorem InputBank.noNulls_of_ofFields? {fields : Fields} {b : InputBank}
    (h : ofFields? fields = some b) : StoredValue.NoNulls b.values := by
  simp only [ofFields?, Option.bind_eq_bind, Option.bind_eq_some_iff, Option.some.injEq] at h
  obtain ⟨_, -, _, -, _, -, values, stored, rfl⟩ := h
  exact StoredValue.noNulls_of_defaulted? stored

namespace Node

/-- The values that a node stores. -/
def values : Node → OrderedMap String StoredValue
  | .operation n => n.values
  | .inputBank b => b.values

/-- No value that the node stores is an explicit `null`. -/
def NoNulls (n : Node) : Prop :=
  StoredValue.NoNulls n.values

instance (n : Node) : Decidable n.NoNulls :=
  inferInstanceAs (Decidable (StoredValue.NoNulls n.values))

/-- A node is read back with all that it holds. -/
theorem ofJson?_toJson {n : Node} (h : n.NoNulls) : ofJson? n.toJson = some n := by
  cases n with
  | operation n =>
    have values : StoredValue.NoNulls n.values := h
    simp [ofJson?, toJson, OperationNode.toJson, OperationNode.ofFields?, Fields.required?,
      Fields.defaulted?, Fields.optional?_eq, values]
  | inputBank b =>
    have values : StoredValue.NoNulls b.values := h
    simp [ofJson?, toJson, InputBank.toJson, InputBank.ofFields?, Fields.required?,
      Fields.defaulted?, values]

theorem noNulls_of_ofJson? {j : Json} {n : Node} (h : ofJson? j = some n) : n.NoNulls := by
  simp only [ofJson?, Option.bind_eq_bind, Option.bind_eq_some_iff] at h
  obtain ⟨fields, -, type, -, read⟩ := h
  split at read
  · obtain ⟨n, fieldsRead, rfl⟩ := Option.map_eq_some_iff.1 read
    exact OperationNode.noNulls_of_ofFields? fieldsRead
  · obtain ⟨b, fieldsRead, rfl⟩ := Option.map_eq_some_iff.1 read
    exact InputBank.noNulls_of_ofFields? fieldsRead
  · cases read

end Node

/-! ### Graphs -/

/-- The string is the first of the list that repeats an earlier one. -/
def IsFirstRepeat (ss : List String) (s : String) : Prop :=
  ∃ before after, ss = before ++ s :: after ∧ before.Nodup ∧ s ∈ before

/-- The first name is found that was seen earlier or comes a second time. -/
theorem firstRepeat?_eq_some_iff {earlier ss : List String} {s : String} :
    firstRepeat? earlier ss = some s ↔
      ∃ before after, ss = before ++ s :: after ∧
        (before.Nodup ∧ ∀ t ∈ before, t ∉ earlier) ∧ (s ∈ before ∨ s ∈ earlier) := by
  induction ss generalizing earlier with
  | nil => simp [firstRepeat?]
  | cons t ss ih =>
    rw [firstRepeat?]
    by_cases mem : t ∈ earlier
    · -- The repeat is here: nothing stands in front of it.
      rw [if_pos mem, Option.some.injEq]
      constructor
      · rintro rfl
        exact ⟨[], ss, rfl, by simp, .inr mem⟩
      · rintro ⟨_ | ⟨u, before⟩, after, split, ⟨-, fresh⟩, -⟩
        · exact (List.cons.inj split).1
        · exact absurd mem ((List.cons.inj split).1 ▸ fresh u List.mem_cons_self)
    · -- From now on this one has been seen, too.
      rw [if_neg mem, ih]
      constructor
      · rintro ⟨before, after, rfl, ⟨nodup, fresh⟩, again⟩
        refine ⟨t :: before, after, rfl, ⟨List.nodup_cons.2 ⟨fun here => ?_, nodup⟩, ?_⟩, ?_⟩
        · exact fresh t here List.mem_cons_self
        · exact List.forall_mem_cons.2 ⟨mem, fun u memu old => fresh u memu (.tail t old)⟩
        · simpa only [List.mem_cons, or_left_comm, or_assoc] using again
      · rintro ⟨_ | ⟨u, before⟩, after, split, ⟨nodup, fresh⟩, again⟩
        · obtain ⟨rfl, -⟩ := List.cons.inj split
          exact absurd (again.resolve_left List.not_mem_nil) mem
        · obtain ⟨rfl, rfl⟩ := List.cons.inj split
          obtain ⟨notMem, nodup⟩ := List.nodup_cons.1 nodup
          refine ⟨before, after, rfl, ⟨nodup, fun v memv old => ?_⟩, ?_⟩
          · rcases List.mem_cons.1 old with rfl | old
            · exact notMem memv
            · exact fresh v (.tail t memv) old
          · simpa only [List.mem_cons, or_left_comm, or_assoc] using again

theorem firstRepeat?_nil_eq_some_iff {ss : List String} {s : String} :
    firstRepeat? [] ss = some s ↔ IsFirstRepeat ss s := by
  simp [firstRepeat?_eq_some_iff, IsFirstRepeat]

/-- A list has a first repeat exactly if something is repeated. -/
theorem exists_isFirstRepeat_iff {ss : List String} : (∃ s, IsFirstRepeat ss s) ↔ ¬ss.Nodup := by
  simp only [← firstRepeat?_nil_eq_some_iff, ← Option.isSome_iff_exists,
    ← Option.ne_none_iff_isSome, ne_eq, firstRepeat?_eq_none_iff]
  simp

namespace FlowGraph

/-- The document of these nodes and edges, which may be no graph. -/
def formOf (nodes : List Node) (edges : List Edge) : Json :=
  .obj [("nodes", .arr (nodes.map Node.toJson)), ("edges", .arr (edges.map Edge.toJson))]

/-- No value that a node stores is an explicit `null`. -/
def NoNulls (g : FlowGraph) : Prop :=
  ∀ n ∈ g.nodes, n.NoNulls

/-- The nodes and edges of a form are read back, whether or not they make up a graph. -/
theorem partsOfJson?_formOf {nodes : List Node} (h : ∀ n ∈ nodes, n.NoNulls)
    (edges : List Edge) : partsOfJson? (formOf nodes edges) = some (nodes, edges) := by
  have nodesRead : Json.list? Node.ofJson? (.arr (nodes.map Node.toJson)) = some nodes :=
    Json.list?_map fun n mem => Node.ofJson?_toJson (h n mem)
  simp [partsOfJson?, formOf, Fields.defaulted?, nodesRead]

/-- **Two nodes that share an identifier are all that can go wrong with readable parts**; the error
names the first that repeats an earlier one. -/
theorem ofParts_eq_error_iff {nodes : List Node} {edges : List Edge} {failure : LoadError} :
    ofParts nodes edges = .error failure ↔
      ∃ id, failure = .duplicateNode id ∧ IsFirstRepeat (nodes.map Node.id) id := by
  simp only [← firstRepeat?_nil_eq_some_iff]
  unfold ofParts
  split
  · next id h => simp [h, eq_comm]
  · next h => simp [h]

/-- A document is a graph exactly if it has the parts of the graph. -/
theorem ofJson_eq_ok_iff {j : Json} {g : FlowGraph} :
    ofJson j = .ok g ↔ partsOfJson? j = some (g.nodes, g.edges) := by
  rw [ofJson]
  cases partsOfJson? j with
  | none => simp
  | some parts =>
    simp only [ofParts_eq_ok_iff, Option.some.injEq, Prod.ext_iff]
    exact and_congr eq_comm eq_comm

/-- A document is refused for an identifier exactly if that is the first to be repeated among its
nodes. -/
theorem ofJson_eq_duplicateNode_iff {j : Json} {id : NodeId} :
    ofJson j = .error (.duplicateNode id) ↔
      ∃ nodes edges, partsOfJson? j = some (nodes, edges) ∧
        IsFirstRepeat (nodes.map Node.id) id := by
  rw [ofJson]
  cases partsOfJson? j with
  | none => simp
  | some parts => simp [ofParts_eq_error_iff, Prod.ext_iff]

/-- Every graph that is read stores no explicit `null`. -/
theorem noNulls_of_ofJson {j : Json} {g : FlowGraph} (h : ofJson j = .ok g) : g.NoNulls := by
  have parts := ofJson_eq_ok_iff.1 h
  simp only [partsOfJson?, Option.bind_eq_bind, Option.bind_eq_some_iff, Option.some.injEq,
    Prod.mk.injEq] at parts
  obtain ⟨fields, -, nodes, nodesRead, edges, -, rfl, -⟩ := parts
  intro n mem
  rcases Fields.eq_or_exists_of_defaulted? nodesRead with none | ⟨listed, each⟩
  · rw [none] at mem
    cases mem
  · obtain ⟨form, read⟩ := Json.exists_of_list? each mem
    exact Node.noNulls_of_ofJson? read

/-- **The form of a graph is read back exactly if the graph stores no explicit `null`**, which no
graph does that was read.  Reading fails for a shared identifier exactly if the nodes that a
document lists can be read and two of them share one; the error names the first that repeats an
earlier one. -/
theorem graph_form_exact :
    (∀ g : FlowGraph, ofJson g.toJson = .ok g ↔ g.NoNulls) ∧
      (∀ (j : Json) (g : FlowGraph), ofJson j = .ok g → g.NoNulls) ∧
      (∀ (nodes : List Node) (edges : List Edge), (∀ n ∈ nodes, n.NoNulls) → ∀ id,
        ofJson (formOf nodes edges) = .error (.duplicateNode id) ↔
          IsFirstRepeat (nodes.map Node.id) id) ∧
      (∀ (j : Json) (id : NodeId), ofJson j = .error (.duplicateNode id) ↔
        ∃ nodes edges, partsOfJson? j = some (nodes, edges) ∧
          IsFirstRepeat (nodes.map Node.id) id) ∧
      ∀ j : Json, (∃ id, ofJson j = .error (.duplicateNode id)) ↔
        ∃ nodes edges, partsOfJson? j = some (nodes, edges) ∧ ¬(nodes.map Node.id).Nodup := by
  refine ⟨fun g => ⟨noNulls_of_ofJson, fun h => ?_⟩, fun _ _ => noNulls_of_ofJson,
    fun nodes edges h id => ?_, fun _ _ => ofJson_eq_duplicateNode_iff, fun j => ?_⟩
  · exact ofJson_eq_ok_iff.2 (partsOfJson?_formOf h g.edges)
  · rw [ofJson_eq_duplicateNode_iff, partsOfJson?_formOf h edges]
    simp
  · simp only [ofJson_eq_duplicateNode_iff, ← exists_isFirstRepeat_iff]
    constructor
    · rintro ⟨id, nodes, edges, parts, first⟩
      exact ⟨nodes, edges, parts, id, first⟩
    · rintro ⟨nodes, edges, parts, id, first⟩
      exact ⟨id, nodes, edges, parts, first⟩

/-- A graph with a method call between a bank and a log line, whose types nest. -/
def sampleGraph : FlowGraph where
  nodes :=
    [.operation
      { id := "call"
        action := .call ⟨true, "Swap", "template_1", "swap",
          [⟨"self", .other "Component"⟩,
            ⟨"path", .vec (.tuple [.string, .scalar (.signed .w128)])⟩],
          .tuple [.bool, .unit]⟩
        title := some "swap"
        inputs := [.receiver, .parameter "path" (.vec (.tuple [.string, .scalar (.signed .w128)]))]
        output := some ⟨Handle.result, .tuple [.bool, .unit], none⟩
        values := .ofList [("path", .ok (.tagged "a" "b")), ("amount", .failed "too large")]
        hasEntry := true
        hasExit := false },
    .operation (.emitLog "log"),
    .inputBank ⟨"bank", "Inputs", [⟨"p", "amount", .vec .string⟩], .ofList [("p", .ok (.text ""))]⟩]
  edges := [.control "call" "log", ⟨"e", "bank", some "p", "gone", none⟩]
  nodup_ids := by decide

/-- The sample graph is read back, and not if a node has the identifier of another. -/
theorem sampleGraph_form :
    sampleGraph.NoNulls ∧ ofJson sampleGraph.toJson = .ok sampleGraph ∧
      ofJson (formOf (sampleGraph.nodes ++ [.operation (.start "log")]) []) =
        .error (.duplicateNode "log") := by
  obtain ⟨round, -, duplicate, -, -⟩ := graph_form_exact
  have more : ∀ n ∈ sampleGraph.nodes ++ [.operation (.start "log")], n.NoNulls := by decide
  have noNulls : sampleGraph.NoNulls := (List.forall_mem_append.1 more).1
  refine ⟨noNulls, (round _).2 noNulls, (duplicate _ _ more "log").2 ?_⟩
  exact ⟨["call", "log", "bank"], [], by decide, by decide, by decide⟩

end FlowGraph

end FlowPlan
