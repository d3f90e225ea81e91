import Mathlib.Data.List.Forall2
import FlowPlan.Proofs.Editing.Steps

/-!
# Editing — growth

What an edit leaves alone.  A node grows into another when both are the same operation, or the same
bank but for parameters that the second has more of, at the end; a graph grows into another when
its nodes do, place by place.

* `Draws.growsTo`: a step grows the nodes.
* `growsTo_afterEdits`: so does every sequence of edits.
* `GrowsTo.ids_eq`, `GrowsTo.operations_eq`: identifiers and operations are never changed.
-/

namespace FlowPlan

/-- The same node, but for further parameters of a bank. -/
inductive Node.GrowsTo : Node → Node → Prop where
  | operation (n : OperationNode) : GrowsTo (.operation n) (.operation n)
  | inputBank (b : InputBank) (more : List BankParam) :
      GrowsTo (.inputBank b) (.inputBank { b with params := b.params ++ more })

namespace Node.GrowsTo

variable {m n k : Node}

theorem refl (n : Node) : n.GrowsTo n := by
  cases n with
  | operation n => exact .operation n
  | inputBank b =>
    have grows := GrowsTo.inputBank b []
    rwa [List.append_nil] at grows

theorem trans (first : m.GrowsTo n) (second : n.GrowsTo k) : m.GrowsTo k := by
  cases first with
  | operation n => exact second
  | inputBank b more =>
    cases second with
    | inputBank _ further =>
      have grows := GrowsTo.inputBank b (more ++ further)
      rwa [← List.append_assoc] at grows

/-- A node keeps its identifier. -/
theorem id_eq (grows : m.GrowsTo n) : n.id = m.id := by
  cases grows <;> rfl

/-- An operation stays as it is. -/
theorem operation?_eq (grows : m.GrowsTo n) : n.operation? = m.operation? := by
  cases grows <;> rfl

end Node.GrowsTo

namespace FlowGraph

variable {g h k : FlowGraph} {c : Connection} {fresh : ParamId} {b : InputBank}

/-- The same nodes in the same places, but for further parameters of the banks. -/
def GrowsTo (g h : FlowGraph) : Prop :=
  List.Forall₂ Node.GrowsTo g.nodes h.nodes

namespace GrowsTo

theorem refl (g : FlowGraph) : g.GrowsTo g :=
  List.forall₂_same.2 fun n _ => .refl n

theorem trans (first : g.GrowsTo h) (second : h.GrowsTo k) : g.GrowsTo k := by
  unfold GrowsTo at *
  generalize g.nodes = xs, h.nodes = ys, k.nodes = zs at first second
  induction first generalizing zs with
  | nil => exact second
  | cons grows _ ih =>
    cases second with
    | cons further rest => exact .cons (grows.trans further) (ih _ rest)

/-- The nodes keep their identifiers, in their order. -/
theorem ids_eq (grows : g.GrowsTo h) : h.nodes.map Node.id = g.nodes.map Node.id := by
  unfold GrowsTo at grows
  generalize g.nodes = xs, h.nodes = ys at grows
  induction grows with
  | nil => rfl
  | cons grows _ ih => rw [List.map_cons, List.map_cons, grows.id_eq, ih]

/-- The operations stay as they are. -/
theorem operations_eq (grows : g.GrowsTo h) : h.operations = g.operations := by
  unfold GrowsTo at grows
  unfold operations
  generalize g.nodes = xs, h.nodes = ys at grows
  induction grows with
  | nil => rfl
  | cons grows _ ih => simp only [List.filterMap_cons, grows.operation?_eq, ih]

/-- The banks keep their identifiers, in their order. -/
theorem bankIds_eq (grows : g.GrowsTo h) :
    h.inputBanks.map InputBank.id = g.inputBanks.map InputBank.id := by
  unfold GrowsTo at grows
  unfold inputBanks
  generalize g.nodes = xs, h.nodes = ys at grows
  induction grows with
  | nil => rfl
  | cons grows _ ih =>
    cases grows with
    | operation n => exact ih
    | inputBank b more => exact congrArg (b.id :: ·) ih

/-- Where a bank of the second graph has grown from. -/
theorem exists_inputBank (grows : g.GrowsTo h) (mem : b ∈ h.inputBanks) :
    ∃ a ∈ g.inputBanks, ∃ more, b = { a with params := a.params ++ more } := by
  simp only [mem_inputBanks] at mem ⊢
  unfold GrowsTo at grows
  generalize g.nodes = xs, h.nodes = ys at mem grows
  induction grows with
  | nil => cases mem
  | cons grows _ ih =>
    rcases List.mem_cons.1 mem with rfl | mem
    · cases grows with
      | inputBank a more => exact ⟨a, List.mem_cons_self, more, rfl⟩
    · obtain ⟨a, memRest, grown⟩ := ih mem
      exact ⟨a, List.mem_cons_of_mem _ memRest, grown⟩

end GrowsTo

/-- A bank in place of the one that it grows from. -/
theorem growsTo_replaceNode {more : List BankParam} (mem : b ∈ g.inputBanks) :
    g.GrowsTo (g.replaceNode (.inputBank { b with params := b.params ++ more })) := by
  unfold GrowsTo replaceNode
  rw [List.forall₂_map_right_iff, List.forall₂_same]
  intro n memNode
  split
  · next same =>
    have foundNode : g.node? b.id = some n := node?_eq_some_iff.2 ⟨memNode, same⟩
    have foundBank : g.node? b.id = some (.inputBank b) :=
      node?_eq_some_iff.2 ⟨mem_inputBanks.1 mem, rfl⟩
    cases foundNode.symm.trans foundBank
    exact .inputBank b more
  · exact .refl n

/-- **A connection lets a graph grow.** -/
theorem Draws.growsTo (draws : g.Draws fresh c h) : g.GrowsTo h := by
  cases draws with
  | control | supply | feed => exact GrowsTo.refl g
  | declare source => exact growsTo_replaceNode source

/-- **Edits keep the nodes**, but for further parameters of the banks. -/
theorem growsTo_afterEdits (g : FlowGraph) (edits : List Edit) :
    g.GrowsTo (g.afterEdits edits) :=
  invariant_afterEdits (fun grows draws => grows.trans draws.growsTo) (GrowsTo.refl g) edits

end FlowGraph

end FlowPlan
