import FlowPlan.Proofs.Script.Replayed
import FlowPlan.Proofs.Script.Titles

/-!
# Script — names that clash

Which names of a module clash.  The title of a bank is the name of a constant and of a parameter of
both functions, and with an upper-case first letter it is the name of an interface; beside it stand
the names that every module has.  A title that an editor accepts is the title of no other bank, so
that the constants have distinct names.  That is all that the editor sees to: two titles that differ
in the case of their first letter give one interface, and a title that is one of the names of every
module is declared twice.  Nothing else clashes (`namesApart_iff_of_accepted`).

* `Script.NamesApart`: no name of a module clashes with another.
* `DifferInCapital`: two titles with one interface.
-/

namespace FlowPlan

/-! ### Interfaces -/

/-- The titles differ, but only in the case of their first letter. -/
def DifferInCapital (title other : String) : Prop :=
  title ≠ other ∧
    title.toList.head?.map Char.toUpper = other.toList.head?.map Char.toUpper ∧
    title.toList.tail = other.toList.tail

instance (title other : String) : Decidable (DifferInCapital title other) :=
  inferInstanceAs (Decidable (_ ∧ _ ∧ _))

namespace BankDeclaration

variable {a b : BankDeclaration}

/-- **Two banks have one interface** exactly if their titles are the same but for the case of the first
letter. -/
theorem interfaceName_eq_iff (some : a.name ≠ "") (some' : b.name ≠ "") :
    a.interfaceName = b.interfaceName ↔ a.name = b.name ∨ DifferInCapital a.name b.name := by
  obtain ⟨c, cs, first⟩ := List.exists_cons_of_ne_nil (mt String.toList_eq_nil_iff.1 some)
  obtain ⟨d, ds, second⟩ := List.exists_cons_of_ne_nil (mt String.toList_eq_nil_iff.1 some')
  have upper : a.interfaceName = b.interfaceName ↔ c.toUpper = d.toUpper ∧ cs = ds := by
    rw [← String.toList_inj, toList_interfaceName first, toList_interfaceName second,
      List.append_cancel_right_eq, List.cons.injEq]
  have apart : DifferInCapital a.name b.name ↔
      a.name ≠ b.name ∧ c.toUpper = d.toUpper ∧ cs = ds := by
    simp [DifferInCapital, first, second]
  rw [upper, apart]
  constructor
  · exact fun same => (em (a.name = b.name)).imp_right fun ne => ⟨ne, same⟩
  · rintro (same | ⟨-, same⟩)
    · rw [same, second] at first
      obtain ⟨rfl, rfl⟩ := List.cons.inj first
      exact ⟨rfl, rfl⟩
    · exact same

end BankDeclaration

/-! ### The names of a module -/

namespace Script

variable {s : Script}

/-- The names that every module has where those of the banks are seen: the other parameters of its
functions, the variable of the one function, and the function that the other one calls. -/
def fixedNames : List String :=
  ["signer", "network", "accountId", "builder", "buildTransaction"]

/-- No name of a module clashes with another. -/
structure NamesApart (s : Script) : Prop where
  interfaces : (s.banks.map BankDeclaration.interfaceName).Nodup
  buildParameters : (s.buildParameters.map Prod.fst).Nodup
  executeParameters : (s.executeParameters.map Prod.fst).Nodup
  builder : ∀ b ∈ s.banks, b.name ≠ "builder"
  buildTransaction : ∀ b ∈ s.banks, b.name ≠ "buildTransaction"

/-- The interfaces are apart exactly if no two titles differ in the first capital alone. -/
theorem nodup_interfaces_iff (titles : (s.banks.map BankDeclaration.name).Nodup)
    (some : ∀ b ∈ s.banks, b.name ≠ "") :
    (s.banks.map BankDeclaration.interfaceName).Nodup ↔
      ∀ a ∈ s.banks.map BankDeclaration.name, ∀ b ∈ s.banks.map BankDeclaration.name,
        ¬DifferInCapital a b := by
  rw [List.nodup_map_iff_inj_on (List.Nodup.of_map _ titles)]
  simp only [List.forall_mem_map]
  refine forall₄_congr fun a memA b memB => ?_
  rw [BankDeclaration.interfaceName_eq_iff (some a memA) (some b memB)]
  constructor
  · intro one differ
    exact differ.1 (congrArg BankDeclaration.name (one (.inr differ)))
  · rintro apart (same | differ)
    · exact List.inj_on_of_nodup_map titles memA memB same
    · exact absurd differ apart

/-- The parameters of the building function are apart exactly if no bank is called like the network.
-/
theorem nodup_buildParameters_iff (titles : (s.banks.map BankDeclaration.name).Nodup) :
    (s.buildParameters.map Prod.fst).Nodup ↔ "network" ∉ s.banks.map BankDeclaration.name := by
  have names : s.buildParameters.map Prod.fst =
      "network" :: s.banks.map BankDeclaration.name := by
    simp [buildParameters, bankParameters, Function.comp_def]
  rw [names, List.nodup_cons, and_iff_left titles]

theorem nodup_executeParameters_iff (titles : (s.banks.map BankDeclaration.name).Nodup) :
    (s.executeParameters.map Prod.fst).Nodup ↔
      ∀ name ∈ ["signer", "network", "accountId"], name ∉ s.banks.map BankDeclaration.name := by
  have names : s.executeParameters.map Prod.fst =
      ["signer", "network", "accountId"] ++ s.banks.map BankDeclaration.name := by
    simp [executeParameters, bankParameters, Function.comp_def]
  have apart : ["signer", "network", "accountId"].Nodup := by decide
  rw [names, List.nodup_append', and_iff_right apart, and_iff_right titles]
  rfl

/-- **The names of a module are apart** exactly if no two titles differ in the case of their first
letter only, and none is a name that every module has. -/
theorem namesApart_iff (titles : (s.banks.map BankDeclaration.name).Nodup)
    (some : ∀ b ∈ s.banks, b.name ≠ "") :
    s.NamesApart ↔
      (∀ a ∈ s.banks.map BankDeclaration.name, ∀ b ∈ s.banks.map BankDeclaration.name,
        ¬DifferInCapital a b) ∧
      ∀ name ∈ fixedNames, name ∉ s.banks.map BankDeclaration.name := by
  have interfaces := nodup_interfaces_iff titles some
  have build := nodup_buildParameters_iff titles
  have execute := nodup_executeParameters_iff titles
  have unused (name : String) :
      (∀ b ∈ s.banks, b.name ≠ name) ↔ name ∉ s.banks.map BankDeclaration.name := by
    simp [List.mem_map]
  constructor
  · intro apart
    have parameters := execute.1 apart.executeParameters
    have builder := (unused "builder").1 apart.builder
    have function := (unused "buildTransaction").1 apart.buildTransaction
    refine ⟨interfaces.1 apart.interfaces, ?_⟩
    simp only [fixedNames, List.forall_mem_cons] at parameters ⊢
    exact ⟨parameters.1, parameters.2.1, parameters.2.2.1, builder, function, by simp⟩
  · rintro ⟨capitals, fixed⟩
    have shared : ["signer", "network", "accountId"] ⊆ fixedNames := by decide
    exact
      { interfaces := interfaces.2 capitals
        buildParameters := build.2 (fixed _ (by decide))
        executeParameters := execute.2 fun name mem => fixed name (shared mem)
        builder := (unused _).2 (fixed _ (by decide))
        buildTransaction := (unused _).2 (fixed _ (by decide)) }

end Script

namespace FlowGraph

variable {g : FlowGraph} {payment : FeePayment} {plan : Plan} {s : Script}

/-- The titles that a module declares: those of the banks, or that of the one that stands in. -/
def bankTitles (g : FlowGraph) : List String :=
  if g.inputBanks = [] then [defaultBankTitle] else g.inputBanks.map InputBank.title

theorem nodup_inputBanks (g : FlowGraph) : g.inputBanks.Nodup := by
  refine (List.Nodup.of_map Node.id g.nodup_ids).filterMap ?_
  intro m n b first second
  cases m <;> cases n <;> cases first <;> cases second
  rfl

/-- The titles of banks that an editor accepts are distinct. -/
theorem nodup_titles_of_accepted
    (accepted : ∀ b ∈ g.inputBanks, isValidBankTitle g b.id b.title) :
    (g.inputBanks.map InputBank.title).Nodup := by
  refine g.nodup_inputBanks.map_on ?_
  intro a memA b memB same
  obtain ⟨-, -, alone⟩ := isValidBankTitle_iff.1 (accepted b memB)
  exact eq_of_inputBank_id memA memB (alone a memA same)

theorem keys_context (titles : (g.inputBanks.map InputBank.title).Nodup) :
    g.context.keys = g.bankTitles := by
  rw [OrderedMap.keys, entries_context titles, bankTitles]
  split
  · rfl
  · rw [List.map_map]
    rfl

/-- **The names of the module of a plan clash where the editor's test of titles does not look.**  The
titles are accepted, and so distinct, and they are the names of the constants.  Two interfaces have
one name exactly if two titles differ in the case of their first letter only; a list of parameters
holds a name twice exactly if a title is that of another parameter; and all names are apart exactly if
neither is so, and no title is that of the builder's variable or of the function that is called. -/
theorem namesApart_iff_of_accepted {g : FlowGraph} {payment : FeePayment} {plan : Plan} {s : Script}
    (accepted : ∀ b ∈ g.inputBanks, isValidBankTitle g b.id b.title)
    (planned : g.plan payment = .ok plan) (script : plan.transaction.script = .ok s) :
    s.banks.map BankDeclaration.name = g.bankTitles ∧ g.bankTitles.Nodup ∧
      ((s.banks.map BankDeclaration.interfaceName).Nodup ↔
        ∀ a ∈ g.bankTitles, ∀ b ∈ g.bankTitles, ¬DifferInCapital a b) ∧
      ((s.buildParameters.map Prod.fst).Nodup ↔ "network" ∉ g.bankTitles) ∧
      ((s.executeParameters.map Prod.fst).Nodup ↔
        ∀ name ∈ ["signer", "network", "accountId"], name ∉ g.bankTitles) ∧
      (s.NamesApart ↔ (∀ a ∈ g.bankTitles, ∀ b ∈ g.bankTitles, ¬DifferInCapital a b) ∧
        ∀ name ∈ Script.fixedNames, name ∉ g.bankTitles) := by
  have names : s.banks.map BankDeclaration.name = g.bankTitles := by
    rw [Transaction.map_name_of_script script, context_of_plan planned,
      keys_context (nodup_titles_of_accepted accepted)]
  have titles : (s.banks.map BankDeclaration.name).Nodup := by
    rw [Transaction.map_name_of_script script]
    exact plan.transaction.context.nodup_keys
  have some (b : BankDeclaration) (mem : b ∈ s.banks) : b.name ≠ "" :=
    ne_empty_of_isIdentifier (Transaction.isIdentifier_of_script script mem).1
  rw [← names]
  exact ⟨rfl, titles, Script.nodup_interfaces_iff titles some,
    Script.nodup_buildParameters_iff titles, Script.nodup_executeParameters_iff titles,
    Script.namesApart_iff titles some⟩

/-- Two banks of these titles, and an operation that runs. -/
def twoBanks (first second : String) : FlowGraph where
  nodes :=
    [.inputBank ((InputBank.new "p" first).withParam ⟨"a", "amount", .string⟩ none),
      .operation (OperationNode.start "begin"), .inputBank (InputBank.new "q" second)]
  edges := []
  nodup_ids := (by decide : ["p", "begin", "q"].Nodup)

/-- Two accepted titles of which one is the name of a parameter. -/
theorem twoBanks_namesApart_iff :
    (∀ b ∈ (twoBanks "params" "network").inputBanks,
        isValidBankTitle (twoBanks "params" "network") b.id b.title) ∧
      ∃ plan s, (twoBanks "params" "network").plan noFee = .ok plan ∧
        plan.transaction.script = .ok s ∧
        s.banks.map BankDeclaration.name = ["params", "network"] ∧
        (s.banks.map BankDeclaration.interfaceName).Nodup ∧
        ¬(s.buildParameters.map Prod.fst).Nodup ∧ ¬(s.executeParameters.map Prod.fst).Nodup ∧
        ¬s.NamesApart := by
  have accepted : ∀ b ∈ (twoBanks "params" "network").inputBanks,
      isValidBankTitle (twoBanks "params" "network") b.id b.title := by decide
  refine ⟨accepted, _, _, rfl, rfl, ?_⟩
  obtain ⟨names, -, interfaces, build, execute, apart⟩ := namesApart_iff_of_accepted accepted
    (rfl : (twoBanks "params" "network").plan noFee = .ok _) rfl
  refine ⟨names, interfaces.2 (by decide), ?_, ?_, ?_⟩
  · exact mt build.1 (by decide)
  · exact mt execute.1 (by decide)
  · exact mt apart.1 (by decide)

/-- The names of a module may clash where all titles are accepted: two titles that differ in the case
of their first letter give one interface. -/
theorem exists_names_clash :
    ¬∀ (g : FlowGraph) (payment : FeePayment) (plan : Plan) (s : Script),
      (∀ b ∈ g.inputBanks, isValidBankTitle g b.id b.title) → g.plan payment = .ok plan →
        plan.transaction.script = .ok s → s.NamesApart := by
  intro apart
  have clash := (apart (twoBanks "params" "Params") noFee _ _ (by decide) rfl rfl).interfaces
  revert clash
  decide

end FlowGraph

end FlowPlan
