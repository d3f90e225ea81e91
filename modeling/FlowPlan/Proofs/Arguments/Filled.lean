import FlowPlan.Proofs.Arguments.Landing
import FlowPlan.Proofs.Workspace.DefinedBeforeUse

/-!
# Arguments — filled arguments

What planning has accepted as supplied is what assembly passes on.  Planning asks for any edge that
lands on an input, or for a stored value that was read successfully and is no empty text; assembly
looks for an edge that gives an argument, and falls back on the stored data, also of a failed
reading.  On a wired graph every edge that lands on an input gives an argument (`Landing.lean`), so
that a literal belongs to an input that only its stored value can have supplied.

* `Filled`: an argument is no literal but one that was read successfully.
* `operands_filled`: every operand of the plan of an edited graph is filled.
-/

namespace FlowPlan

namespace FlowGraph

variable {g : FlowGraph} {n : OperationNode} {b : Block} {p : Primitive} {a : Arg}

theorem validate_of_plan {payment : FeePayment} {plan : Plan}
    (planned : g.plan payment = .ok plan) : g.validate = .ok () :=
  (plan_eq_ok_iff.1 planned).2.1

/-! ### Filled arguments -/

/-- The argument of an input is no literal, or one that a user has filled in: the data of a value
that was read successfully, and of no empty text, or `null` where such a value has no data. -/
inductive Filled (n : OperationNode) (input : String) : Arg → Prop where
  | workspace (node : NodeId) (half : Option TupleHalf) : Filled n input (.workspace node half)
  | input (bank : String) (param : BankParam) (value : Option Value) :
      Filled n input (.input bank param value)
  | data {v : StoredValue} {w : Value} (stored : n.values.get? input = some v) (filled : v.isFilled)
      (data : v.data = some w) : Filled n input (.literal w)
  | noData {v : StoredValue} (stored : n.values.get? input = some v) (filled : v.isFilled)
      (data : v.data = none) : Filled n input (.literal .null)

theorem filled_storedData {v : StoredValue} {input : String}
    (stored : n.values.get? input = some v) (filled : v.isFilled) :
    Filled n input (.literal (n.storedData input)) := by
  rw [OperationNode.storedData, stored, Option.bind_some]
  cases data : v.data with
  | none => exact .noData stored filled data
  | some w => exact .data stored filled data

theorem argument_of_not_isConnected {input : String}
    (unconnected : g.isConnected n.id input = false) :
    g.argument n input = .literal (n.storedData input) := by
  have empty : g.edgesTo n.id input = [] := by
    rw [edgesTo, List.filter_eq_nil_iff]
    simpa [isConnected] using unconnected
  simp [argument, empty]

/-- What is supplied is filled. -/
theorem Wired.filled_argument {i : Input} (wired : g.Wired)
    (params : ∀ e ∈ g.edges, g.LeavesParam e) (names : g.ControlNamesFree)
    (operation : n ∈ g.operations) (declared : i ∈ n.inputs)
    (supplied : g.isSupplied n i.name) : Filled n i.name (g.argument n i.name) := by
  cases connected : g.isConnected n.id i.name with
  | true =>
    -- Validation takes any edge for a supply, so that this one has to give an argument.
    obtain ⟨e, mem, lands⟩ := List.any_eq_true.1 connected
    have taken := wired.takenFrom params names operation declared mem lands
    generalize g.argument n i.name = a at taken
    cases taken with
    | bank => exact .input _ _ _
    | output => exact .workspace _ _
  | false =>
    -- Only the stored value can have supplied the input.
    rw [isSupplied, connected, Bool.false_or, Option.any_eq_true] at supplied
    obtain ⟨v, stored, filled⟩ := supplied
    rw [argument_of_not_isConnected connected]
    exact filled_storedData stored filled

/-! ### Plans -/

/-- **Whatever the plan of an edited graph passes on is filled**: the operands of its operations are
the arguments of inputs, and such an argument is a literal only where it was read successfully.  The
start has no edges; calls that fail count. -/
theorem operands_filled {start : FlowGraph} {edits : List Edit} {payment : FeePayment} {plan : Plan}
    (edgeFree : start.edges = []) (names : ControlNamesFree (start.afterEdits edits))
    (planned : (start.afterEdits edits).plan payment = .ok plan) :
    ∀ p ∈ plan.transaction.operations, p = .payFee payment.account payment.fee ∨
      ∃ n ∈ (start.afterEdits edits).operations,
        (∃ b, (start.afterEdits edits).block n = .ok b ∧ p ∈ b.operations) ∧
          (start.afterEdits edits).Reads n p ∧
            ∀ input ∈ (start.afterEdits edits).operandNames n p,
              Filled n input ((start.afterEdits edits).argument n input) := by
  intro p mem
  refine (mem_operations_of_plan planned mem).imp_right ?_
  rintro ⟨n, operation, b, block, memBlock⟩
  have reads := reads_of_mem_block block memBlock
  refine ⟨n, operation, ⟨b, block, memBlock⟩, reads, fun input named => ?_⟩
  obtain ⟨i, declared, rfl⟩ := List.mem_map.1 (reads.declared named)
  have supplied := validate_eq_ok_iff.1 (validate_of_plan planned) n operation i declared
  exact (wired_afterEdits edgeFree edits).filled_argument (leavesParam_afterEdits edgeFree edits)
    names operation declared supplied

/-- A log line whose level is typed in and whose text was not read, and a call whose name was read
without data. -/
def draft : FlowGraph where
  nodes :=
    [.operation ((OperationNode.emitLog "log").withValue OperationNode.logLevelName
        (.ok (.text "Info")) |>.withValue OperationNode.logMessageName
          ⟨false, some (.text "unread"), none⟩),
      .operation ((OperationNode.new "make" (.call ⟨false, "T", "t", ⟨"hello", [], .string⟩⟩))
        |>.withInput (.parameter "name" .string)
        |>.withValue "name" ⟨true, none, none⟩
        |>.withOutput ⟨Handle.result, .string, none⟩)]
  edges := []
  nodup_ids := by decide

/-- The text of the log line is taken from the call. -/
def draftEdits : List Edit :=
  [⟨.between "make" Handle.result "log" OperationNode.logMessageName, "a"⟩]

theorem draft_operands_filled :
    draft.edges = [] ∧ ControlNamesFree (draft.afterEdits draftEdits) ∧
      ∃ plan, (draft.afterEdits draftEdits).plan noFee = .ok plan ∧
        plan.transaction.operations =
          [.payFee "account" ⟨0, by decide⟩, .callFunction "t" "hello" [.literal .null],
            .saveVar "make", .emitLog (.literal (.text "Info")) (.workspace "make" none)] ∧
        ∀ p ∈ plan.transaction.operations, p = .payFee noFee.account noFee.fee ∨
          ∃ n ∈ (draft.afterEdits draftEdits).operations,
            (∃ b, (draft.afterEdits draftEdits).block n = .ok b ∧ p ∈ b.operations) ∧
              (draft.afterEdits draftEdits).Reads n p ∧
                ∀ input ∈ (draft.afterEdits draftEdits).operandNames n p,
                  Filled n input ((draft.afterEdits draftEdits).argument n input) := by
  have names : ControlNamesFree (draft.afterEdits draftEdits) := ⟨by decide, by decide⟩
  exact ⟨rfl, names, _, rfl, rfl, operands_filled rfl names rfl⟩

end FlowGraph

end FlowPlan
