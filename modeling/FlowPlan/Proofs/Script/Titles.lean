import Mathlib.Tactic.Tauto
import FlowPlan.Flow.Wiring
import FlowPlan.Proofs.Plan.Stages
import FlowPlan.Script.Basic

/-!
# Script — titles of banks

The title of a bank becomes an identifier of the module.  An editor tests it when it is typed in
(`isValidBankTitle`), and the module tests it when it is made, together with the names of the bank's
parameters and bank by bank (`script_eq_error_iff`).  The two tests do not ask the same.  An accepted
title starts with a letter and holds no blank; an identifier holds no other character either than
letters, digits, `_` and `$`.  So the module refuses an accepted title exactly for such a character
(`refusesTitle_iff_of_accepted`), as the hyphen of `hyphenated`.

* `BankDeclaration.ofContext_eq_ok_iff`, `BankDeclaration.ofContext_eq_error_iff`: the names of a bank.
* `Transaction.RefusesTitle`: a module is refused for the title of a bank.
-/

namespace FlowPlan

variable {name title : String} {params : List SuppliedParam} {failure : ScriptError}

/-! ### Names in a module -/

/-- A name passes exactly if it is an identifier. -/
theorem checkIdentifier_eq_ok_iff : checkIdentifier name = .ok () ↔ Text.isIdentifier name.toList := by
  unfold checkIdentifier
  split <;> simp_all

theorem exists_checkIdentifier_eq_ok_iff :
    (∃ u, checkIdentifier name = .ok u) ↔ Text.isIdentifier name.toList := by
  rw [← checkIdentifier_eq_ok_iff]
  exact ⟨fun ⟨(), ok⟩ => ok, fun ok => ⟨(), ok⟩⟩

theorem checkIdentifier_eq_error_iff :
    checkIdentifier name = .error failure ↔
      ¬Text.isIdentifier name.toList ∧ .invalidIdentifier name = failure := by
  unfold checkIdentifier
  split <;> simp_all

theorem ne_empty_of_isIdentifier (h : Text.isIdentifier name.toList) : name ≠ "" := by
  rintro rfl
  cases h

/-- A title is empty, or no identifier. -/
inductive TitleFault (title : String) : ScriptError → Prop where
  | empty (none : title = "") : TitleFault title .emptyInterfaceName
  | shape (some : title ≠ "") (other : ¬Text.isIdentifier title.toList) :
      TitleFault title (.invalidIdentifier title)

/-- The first parameter whose name is no identifier has this name. -/
def ParamFault (params : List SuppliedParam) (failure : ScriptError) : Prop :=
  ∃ front p back, params = front ++ p :: back ∧
    (∀ q ∈ front, Text.isIdentifier q.param.name.toList) ∧
    ¬Text.isIdentifier p.param.name.toList ∧ .invalidIdentifier p.param.name = failure

namespace BankDeclaration

variable {b : BankDeclaration}

theorem ofContext_empty (params : List SuppliedParam) :
    ofContext "" params = .error .emptyInterfaceName :=
  rfl

/-- **What a module declares for a bank is the bank**, where all of its names are identifiers. -/
theorem ofContext_eq_ok_iff :
    ofContext title params = .ok b ↔ ⟨title, params⟩ = b ∧ Text.isIdentifier title.toList ∧
      ∀ p ∈ params, Text.isIdentifier p.param.name.toList := by
  by_cases none : title = ""
  · subst none
    simp [ofContext_empty, Text.isIdentifier]
  · rw [ofContext, if_neg none, check_bind_eq_ok_iff, check_bind_eq_ok_iff]
    simp only [forM_eq_ok_iff, checkIdentifier_eq_ok_iff, Except.ok.injEq]
    tauto

/-- **The names of a bank are refused for its title first**, and then for those of its parameters. -/
theorem ofContext_eq_error_iff :
    ofContext title params = .error failure ↔
      TitleFault title failure ∨ Text.isIdentifier title.toList ∧ ParamFault params failure := by
  by_cases none : title = ""
  · subst none
    rw [ofContext_empty, Except.error.injEq]
    constructor
    · rintro rfl
      exact .inl (.empty rfl)
    · rintro (fault | ⟨identifier, -⟩)
      · cases fault with
        | empty => rfl
        | shape some => exact absurd rfl some
      · cases identifier
  · rw [ofContext, if_neg none, check_bind_eq_error_iff, check_bind_eq_error_iff]
    simp only [reduceCtorEq, and_false, or_false, forM_eq_error_iff, checkIdentifier_eq_ok_iff,
      exists_checkIdentifier_eq_ok_iff, checkIdentifier_eq_error_iff]
    refine or_congr_left ?_
    constructor
    · rintro ⟨other, rfl⟩
      exact .shape none other
    · rintro (⟨empty⟩ | ⟨-, other⟩)
      · exact absurd empty none
      · exact ⟨other, rfl⟩

end BankDeclaration

/-! ### Refused titles -/

namespace Transaction

variable {t : Transaction}

/-- The names of the banks in front of one pass. -/
def Reaches (t : Transaction) (title : String) (params : List SuppliedParam) : Prop :=
  ∃ front back, t.context.entries = front ++ (title, params) :: back ∧
    ∀ e ∈ front, ∃ b, BankDeclaration.ofContext e.1 e.2 = .ok b

/-- **A transaction has no module because of the first bank with a name that is refused.** -/
theorem script_eq_error_iff :
    t.script = .error failure ↔
      ∃ title params, t.Reaches title params ∧
        BankDeclaration.ofContext title params = .error failure := by
  rw [script, bind_eq_error_iff]
  simp only [reduceCtorEq, and_false, exists_false, or_false, mapM_eq_error_iff]
  constructor
  · rintro ⟨front, ⟨title, params⟩, back, split, passed, failed⟩
    exact ⟨title, params, ⟨front, back, split, passed⟩, failed⟩
  · rintro ⟨title, params, ⟨front, back, split, passed⟩, failed⟩
    exact ⟨front, (title, params), back, split, passed, failed⟩

/-- A transaction has no module because of the title of a bank: of the banks with a name that is
refused it is the first, and the failure is that of an empty title or names the title. -/
def RefusesTitle (t : Transaction) (title : String) (failure : ScriptError) : Prop :=
  (∃ params, t.Reaches title params ∧ BankDeclaration.ofContext title params = .error failure) ∧
    (failure = .emptyInterfaceName ∨ failure = .invalidIdentifier title)

/-- The module fails as the title is refused. -/
theorem RefusesTitle.script_eq (h : t.RefusesTitle title failure) : t.script = .error failure := by
  obtain ⟨⟨params, reached, failed⟩, -⟩ := h
  exact script_eq_error_iff.2 ⟨title, params, reached, failed⟩

/-- A module is refused for the title of a bank exactly if the title has a fault. -/
theorem refusesTitle_iff :
    t.RefusesTitle title failure ↔ (∃ params, t.Reaches title params) ∧ TitleFault title failure := by
  simp only [RefusesTitle, BankDeclaration.ofContext_eq_error_iff]
  constructor
  · rintro ⟨⟨params, reached, fault | ⟨identifier, front, p, back, -, -, other, rfl⟩⟩, blamed⟩
    · exact ⟨⟨params, reached⟩, fault⟩
    · -- The name of a parameter is blamed, which is no identifier, as the title is.
      obtain same : p.param.name = title := by simpa using blamed
      rw [same] at other
      exact absurd identifier other
  · rintro ⟨⟨params, reached⟩, fault⟩
    refine ⟨⟨params, reached, .inl fault⟩, ?_⟩
    cases fault with
    | empty => exact .inl rfl
    | shape => exact .inr rfl

end Transaction

/-! ### Accepted titles -/

section Accepted

variable {g : FlowGraph} {bank : NodeId}

/-- What an editor asks of a title. -/
theorem isValidBankTitle_iff :
    isValidBankTitle g bank title ↔
      (∃ c cs, title.toList = c :: cs ∧ c.isAlpha) ∧ (∀ c ∈ title.toList, Text.isBlank c = false) ∧
        ∀ b ∈ g.inputBanks, b.title = title → b.id = bank := by
  have first : title.toList.head?.any Char.isAlpha ↔ ∃ c cs, title.toList = c :: cs ∧ c.isAlpha := by
    cases title.toList <;> simp
  rw [isValidBankTitle, Bool.and_eq_true, Bool.and_eq_true, first, and_assoc]
  refine and_congr_right fun _ => and_congr ?_ ?_
  · simp
  · simp [not_imp_not]

/-- An accepted title is an identifier if it holds no other characters than identifiers do. -/
theorem isIdentifier_iff_of_accepted (accepted : isValidBankTitle g bank title) :
    Text.isIdentifier title.toList ↔ ∀ c ∈ title.toList, Text.isIdentifierRest c := by
  obtain ⟨⟨c, cs, split, letter⟩, -, -⟩ := isValidBankTitle_iff.1 accepted
  have start : Text.isIdentifierStart c := by simp [Text.isIdentifierStart, letter]
  have rest : Text.isIdentifierRest c := by simp [Text.isIdentifierRest, Char.isAlphanum, letter]
  rw [split, Text.isIdentifier, start, Bool.true_and, List.all_eq_true, List.forall_mem_cons]
  exact (and_iff_right rest).symm

end Accepted

/-- **A module refuses an accepted title exactly for a character that no identifier holds**, where it
comes to the title at all, and then it names the title: an accepted title is never taken for an empty
one.  A module that is refused for a title is refused. -/
theorem refusesTitle_iff_of_accepted {g : FlowGraph} {bank : NodeId} {title : String}
    (accepted : isValidBankTitle g bank title) (t : Transaction) (failure : ScriptError) :
    (t.RefusesTitle title failure ↔
      (∃ params, t.Reaches title params) ∧ (∃ c ∈ title.toList, ¬Text.isIdentifierRest c) ∧
        failure = .invalidIdentifier title) ∧
      (t.RefusesTitle title failure → t.script = .error failure) := by
  refine ⟨?_, Transaction.RefusesTitle.script_eq⟩
  obtain ⟨⟨c, cs, split, -⟩, -, -⟩ := isValidBankTitle_iff.1 accepted
  have some : title ≠ "" := by
    rintro rfl
    cases split
  have other : ¬Text.isIdentifier title.toList ↔ ∃ c ∈ title.toList, ¬Text.isIdentifierRest c := by
    rw [isIdentifier_iff_of_accepted accepted]
    simp only [not_forall, exists_prop]
  rw [Transaction.refusesTitle_iff, ← other]
  refine and_congr_right fun _ => ?_
  constructor
  · intro fault
    cases fault with
    | empty none => exact absurd none some
    | shape _ other => exact ⟨other, rfl⟩
  · rintro ⟨other, rfl⟩
    exact .shape some other

/-- A bank whose title has a hyphen. -/
def hyphenated : FlowGraph where
  nodes :=
    [.inputBank ((InputBank.new "bank" "my-bank").withParam ⟨"p", "amount", .string⟩ none)]
  edges := []
  nodup_ids := by decide

/-- A title with a hyphen passes the check of titles, and is refused as an identifier. -/
theorem hyphenated_refusesTitle :
    isValidBankTitle hyphenated "bank" "my-bank" ∧
      ∃ plan, hyphenated.plan FlowGraph.noFee = .ok plan ∧
        plan.transaction.RefusesTitle "my-bank" (.invalidIdentifier "my-bank") ∧
        plan.transaction.script = .error (.invalidIdentifier "my-bank") := by
  have accepted : isValidBankTitle hyphenated "bank" "my-bank" := by decide
  refine ⟨accepted, _, rfl, ?_⟩
  have reached : ∃ params, Transaction.Reaches
      ⟨hyphenated.context, [.payFee "account" ⟨0, by decide⟩], []⟩ "my-bank" params :=
    ⟨_, [], [], rfl, by simp⟩
  have refused := (refusesTitle_iff_of_accepted accepted _ (.invalidIdentifier "my-bank")).1.2
    ⟨reached, ⟨'-', by decide, by decide⟩, rfl⟩
  exact ⟨refused, refused.script_eq⟩

/-- A title that an editor accepts may be refused by the module: that of `hyphenated`. -/
theorem exists_accepted_title_refused :
    ¬∀ (g : FlowGraph) (bank : NodeId) (title : String) (t : Transaction) (failure : ScriptError),
      isValidBankTitle g bank title → ¬t.RefusesTitle title failure := by
  intro passes
  refine passes hyphenated "bank" "my-bank" ⟨hyphenated.context, [], []⟩
    (.invalidIdentifier "my-bank") (by decide) ?_
  exact Transaction.refusesTitle_iff.2
    ⟨⟨_, [], [], rfl, by simp⟩, .shape (by decide) (by decide)⟩

end FlowPlan
