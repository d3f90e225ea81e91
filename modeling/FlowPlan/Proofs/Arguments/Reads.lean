import FlowPlan.Proofs.Editing.Wired
import FlowPlan.Proofs.Order.Outcome
import FlowPlan.Proofs.Plan.Stages
import FlowPlan.Proofs.Workspace.Blocks

/-!
# Arguments — the source that is read and the source that is recorded

Two passes look for the source of an input, each on its own, and both among the data edges that
land on it (`feedsTo`).  Assembly reads the source of the first of them, if no bank supplies the
input; the links record the source of the last, which is what the order goes by.  So the two agree
exactly if, wherever no bank supplies an input, the first and the last edge that feed it have one
source (`readsRecorded_iff`).

* `ReadsRecorded`: whatever is read is recorded.
* `ReadsRecorded.standsBefore`: then an order places what is read in front of what reads it.
* `readsRecorded_afterEdits`: it holds of edited graphs, where one edge at most feeds an input.

It does not hold of every graph.  The order of `fedTwice` places the recorded source in front, and
the other one, which is read, behind.
-/

namespace FlowPlan.FlowGraph

variable {g : FlowGraph} {n : OperationNode} {i : Input} {e : Edge} {node x : NodeId}
  {input : String} {half : Option TupleHalf} {order : List NodeId}

/-! ### The edges that feed an input -/

/-- The data edges that feed an input, as they are listed. -/
def feedsTo (g : FlowGraph) (node : NodeId) (input : String) : List Edge :=
  (g.edgesTo node input).filter g.isDataFeed

theorem mem_feedsTo :
    e ∈ g.feedsTo node input ↔ e ∈ g.edges ∧ g.isDataFeed e ∧ e.landsOn node input := by
  simp only [feedsTo, edgesTo, List.mem_filter]
  tauto

/-- The links record the last of them. -/
theorem inputSource_eq_getLast? (g : FlowGraph) (node : NodeId) (input : String) :
    (g.links.linksOf node).inputSources.get? input =
      (g.feedsTo node input).getLast?.map Edge.source := by
  rw [inputSource_links, feedsTo, edgesTo, List.filter_filter, List.getLast?_filter]

/-- Assembly finds the first of them. -/
theorem findSome?_workspaceArg? (g : FlowGraph) (edges : List Edge) :
    edges.findSome? g.workspaceArg? =
      (edges.filter g.isDataFeed).head?.map fun e => .workspace e.source e.tupleHalf? := by
  induction edges with
  | nil => rfl
  | cons e edges ih =>
    rw [List.findSome?_cons, List.filter_cons, ih, workspaceArg?]
    by_cases feed : g.isDataFeed e
    · simp only [feed, if_true, List.head?_cons, Option.map_some]
    · simp only [feed, Bool.false_eq_true, if_false]

/-- No edge that lands on the input leaves a parameter of a bank. -/
def BankFree (g : FlowGraph) (node : NodeId) (input : String) : Prop :=
  ∀ e ∈ g.edgesTo node input, g.bankArg? e = none

/-- **An input reads the source of the first edge that feeds it**, if no bank supplies it. -/
theorem argument_eq_workspace_iff :
    g.argument n input = .workspace x half ↔
      g.BankFree n.id input ∧
        ∃ e, (g.feedsTo n.id input).head? = some e ∧ e.source = x ∧ e.tupleHalf? = half := by
  rw [BankFree, ← List.findSome?_eq_none_iff, argument, findSome?_workspaceArg?, ← feedsTo]
  cases fromBank : (g.edgesTo n.id input).findSome? g.bankArg? with
  | some a =>
    obtain ⟨e, -, found⟩ := List.exists_of_findSome?_eq_some fromBank
    have bank := isWorkspace_bankArg? found
    cases a <;> simp_all [Arg.isWorkspace]
  | none => cases (g.feedsTo n.id input).head? <;> simp

/-! ### Reading what is recorded -/

/-- Whatever an input reads from the workspace, the links record as the source of the input. -/
def ReadsRecorded (g : FlowGraph) : Prop :=
  ∀ n ∈ g.operations, ∀ i ∈ n.inputs, ∀ x half, g.argument n i.name = .workspace x half →
    (g.links.linksOf n.id).inputSources.get? i.name = some x

/-- The first and the last edge that feed the input have one source. -/
def FeedsAgree (g : FlowGraph) (node : NodeId) (input : String) : Prop :=
  ∀ e ∈ (g.feedsTo node input).head?, ∀ f ∈ (g.feedsTo node input).getLast?, e.source = f.source

/-- Where something feeds an input, something is recorded for it. -/
theorem exists_getLast?_feedsTo (fed : (g.feedsTo node input).head? = some e) :
    ∃ f, (g.feedsTo node input).getLast? = some f ∧
      (g.links.linksOf node).inputSources.get? input = some f.source := by
  have nonempty : g.feedsTo node input ≠ [] := by
    intro nothing
    simp [nothing] at fed
  have last := List.getLast?_eq_some_getLast nonempty
  exact ⟨_, last, by rw [inputSource_eq_getLast?, last, Option.map_some]⟩

/-- An input that reads the workspace reads the source of the first edge that feeds it, and recorded
is the source of the last one. -/
theorem exists_feeds_of_argument (reads : g.argument n input = .workspace x half) :
    ∃ e f, (g.feedsTo n.id input).head? = some e ∧ e.source = x ∧
      (g.feedsTo n.id input).getLast? = some f ∧
        (g.links.linksOf n.id).inputSources.get? input = some f.source := by
  obtain ⟨-, e, first, source, -⟩ := argument_eq_workspace_iff.1 reads
  obtain ⟨f, last, recorded⟩ := exists_getLast?_feedsTo first
  exact ⟨e, f, first, source, last, recorded⟩

theorem readsRecorded_iff : g.ReadsRecorded ↔
    ∀ n ∈ g.operations, ∀ i ∈ n.inputs, g.BankFree n.id i.name → g.FeedsAgree n.id i.name := by
  constructor
  · intro recorded n operation i declared bankFree e first f last
    have reads : g.argument n i.name = .workspace e.source e.tupleHalf? :=
      argument_eq_workspace_iff.2 ⟨bankFree, e, first, rfl, rfl⟩
    have source := recorded n operation i declared _ _ reads
    rw [inputSource_eq_getLast?, last, Option.map_some] at source
    exact (Option.some.inj source).symm
  · intro agree n operation i declared x half reads
    obtain ⟨bankFree, e, first, rfl, -⟩ := argument_eq_workspace_iff.1 reads
    obtain ⟨f, last, recorded⟩ := exists_getLast?_feedsTo first
    rw [recorded, agree n operation i declared bankFree e first f last]

/-- An order places what is recorded in front. -/
theorem standsBefore_of_inputSource (ordered : g.dependencies.order = .ok order)
    (operation : n ∈ g.operations) (declared : i ∈ n.inputs)
    (recorded : (g.links.linksOf n.id).inputSources.get? i.name = some x) :
    StandsBefore order x n.id :=
  (isLinearization_of_order ordered).forward _ _ (.data operation declared recorded)

/-- **What an input reads is what the links record, up to the choice among several edges.**  An
input that reads the workspace reads the source of the first edge that feeds it.  Recorded is the
source of the last one, and that is what an order places in front.  The two are the same throughout
if and only if they are wherever no bank supplies the input. -/
theorem reads_first_records_last (g : FlowGraph) :
    (∀ n ∈ g.operations, ∀ i ∈ n.inputs, ∀ x half, g.argument n i.name = .workspace x half →
      ∃ e f, (g.feedsTo n.id i.name).head? = some e ∧ e.source = x ∧
        (g.feedsTo n.id i.name).getLast? = some f ∧
          (g.links.linksOf n.id).inputSources.get? i.name = some f.source ∧
            ∀ order, g.dependencies.order = .ok order → StandsBefore order f.source n.id) ∧
      (g.ReadsRecorded ↔ ∀ n ∈ g.operations, ∀ i ∈ n.inputs, g.BankFree n.id i.name →
        g.FeedsAgree n.id i.name) := by
  refine ⟨fun n operation i declared x half reads => ?_, readsRecorded_iff⟩
  obtain ⟨e, f, first, source, last, recorded⟩ := exists_feeds_of_argument reads
  exact ⟨e, f, first, source, last, recorded, fun order ordered =>
    standsBefore_of_inputSource ordered operation declared recorded⟩

/-- Where the two agree, an order places what an input reads in front of the node that reads it. -/
theorem ReadsRecorded.standsBefore (recorded : g.ReadsRecorded)
    (ordered : g.dependencies.order = .ok order) (operation : n ∈ g.operations)
    (declared : i ∈ n.inputs) (reads : g.argument n i.name = .workspace x half) :
    StandsBefore order x n.id :=
  standsBefore_of_inputSource ordered operation declared
    (recorded n operation i declared x half reads)

/-- On a wired graph one edge at most feeds an input. -/
theorem Wired.readsRecorded (wired : g.Wired) : g.ReadsRecorded := by
  refine readsRecorded_iff.2 fun n _ i _ _ e first f last => ?_
  obtain ⟨memFirst, -, landsFirst⟩ := mem_feedsTo.1 (List.mem_of_mem_head? first)
  obtain ⟨memLast, -, landsLast⟩ := mem_feedsTo.1 (List.mem_of_mem_getLast? last)
  rw [wired.eq_of_landsOn memFirst memLast landsFirst landsLast]

/-- **Edited graphs read what is recorded**, whichever calls fail. -/
theorem readsRecorded_afterEdits (edgeFree : g.edges = []) (edits : List Edit) :
    (g.afterEdits edits).ReadsRecorded :=
  (wired_afterEdits edgeFree edits).readsRecorded

/-- Calls a function without arguments, for a text. -/
def textCall (id : NodeId) : OperationNode :=
  (OperationNode.new id (.call ⟨false, "T", "t", ⟨id, [], .string⟩⟩)).withOutput
    ⟨Handle.result, .string, none⟩

/-- `late` and `early` both feed `use`, in this order, and control leads from `early` over `use` to
`late`. -/
def fedTwice : FlowGraph where
  nodes :=
    [.operation (textCall "early"),
      .operation ((textCall "use").withInput (.parameter "name" .string)),
      .operation (textCall "late")]
  edges :=
    [.control "early" "use", .control "use" "late", .between "late" Handle.result "use" "name",
      .between "early" Handle.result "use" "name"]
  nodup_ids := by decide

/-- Not every graph reads what is recorded: `use` reads what `late` leaves, and recorded is
`early`. -/
theorem exists_read_not_recorded : ¬∀ g : FlowGraph, g.ReadsRecorded := by
  intro recorded
  have source : (fedTwice.links.linksOf "use").inputSources.get? "name" = some "late" :=
    recorded fedTwice ((textCall "use").withInput (.parameter "name" .string))
      (by decide) (.parameter "name" .string) (by decide) "late" none rfl
  have early : (fedTwice.links.linksOf "use").inputSources.get? "name" = some "early" := rfl
  exact absurd (early.symm.trans source) (by decide)

/-- The plan reads what `late` leaves before that is left. -/
example : (fedTwice.plan noFee).toOption.map (fun plan => plan.transaction.operations) =
    some [.payFee "account" ⟨0, by decide⟩, .callFunction "t" "early" [], .saveVar "early",
      .callFunction "t" "use" [.workspace "late" none], .callFunction "t" "late" [],
      .saveVar "late"] :=
  rfl

end FlowPlan.FlowGraph
