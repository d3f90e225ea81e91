import FlowPlan.Proofs.Script.Reading
import FlowPlan.Script.Basic

/-!
# Script — modules read back

A reader of the text of a module.  Of each line it looks at the beginning: a constant of the top
level is read with its value, the function that builds the transaction with its statements up to the
return, and any other line is passed over (`Program.readItem?`).  So the text of a module is read
part by part: what is read of a text does not depend on what stands behind it (`Program.Reads`), and
texts put together are read as their items put together (`Reads.append`, `Reads.join`).

* `Program.reads_constantText`: the declaration of a bank's constant.
* `Program.reads_buildText`: the function that builds the transaction.
* `Program.ofText?_render`: a whole module, its constants and its statements.
-/

namespace FlowPlan

/-! ### The reader -/

/-- What counts of the text of a module, in its order. -/
inductive Item where
  /-- A constant at the top level. -/
  | constant (name : String) (value : Expr)
  /-- The statements of the function that builds the transaction. -/
  | build (statements : List Expr)

namespace Item

/-- The name and the value of a constant. -/
def constant? : Item → Option (String × Expr)
  | .constant name value => some (name, value)
  | .build _ => none

/-- The statements of the function that builds the transaction. -/
def statements? : Item → Option (List Expr)
  | .constant .. => none
  | .build statements => some statements

end Item

/-- What a module says: the values of its constants, and the statements that its function makes on
the builder. -/
structure Program where
  constants : List (String × Expr)
  statements : List Expr

/-- What a module has to say: a constant for every bank, and its statements. -/
def Script.program (s : Script) : Program where
  constants := s.banks.map fun b => (b.name, b.values)
  statements := s.statements

namespace Program

/-- The text behind a front that it has to begin with. -/
def expect? (front : String) (cs : List Char) : Option (List Char) :=
  if front.toList <+: cs then some (cs.drop front.toList.length) else none

/-- The text behind the first line. -/
def skipLine (cs : List Char) : List Char :=
  (cs.dropWhile (· ≠ '\n')).drop 1

/-- Reads an expression and the end of its line. -/
def readEnding? (cs : List Char) : Option (Expr × List Char) := do
  let (e, cs) ← Expr.read? cs.length cs
  let cs ← expect? ";\n" cs
  some (e, cs)

/-- Reads the name, the type and the value of a constant. -/
def readConstant? (cs : List Char) : Option (Item × List Char) := do
  let (name, cs) ← readName? cs
  let cs ← expect? ": " cs
  let (_, cs) ← readName? cs
  let cs ← expect? " = " cs
  let (e, cs) ← readEnding? cs
  some (.constant name e, cs)

/-- Reads statements up to the one that returns what the builder has made, and the end of the
function. -/
def readStatements? : (fuel : Nat) → List Char → Option (List Expr × List Char)
  | 0, _ => none
  | fuel + 1, cs => do
    let cs ← expect? "    " cs
    match expect? "return builder.buildUnsignedTransaction();\n\x7d\n" cs with
    | some cs => some ([], cs)
    | none =>
      let (e, cs) ← readEnding? cs
      (readStatements? fuel cs).map fun (es, cs) => (e :: es, cs)

/-- Reads the function that builds the transaction, from its parameters on. -/
def readBuild? (cs : List Char) : Option (Item × List Char) := do
  let cs ← expect? "    const builder = new TransactionBuilder(network);\n" (skipLine cs)
  (readStatements? cs.length cs).map fun (es, cs) => (.build es, cs)

/-- Reads a constant or the function that builds the transaction, where one stands at the beginning
of a line, and passes over the line otherwise. -/
def readItem? (cs : List Char) : Option (List Item × List Char) :=
  match expect? "const " cs, expect? "function buildTransaction" cs with
  | some cs, _ => (readConstant? cs).map fun (item, cs) => ([item], cs)
  | none, some cs => (readBuild? cs).map fun (item, cs) => ([item], cs)
  | none, none => some ([], skipLine cs)

/-- Reads a text, from the beginning of a line on. -/
def readItems? : (fuel : Nat) → List Char → Option (List Item)
  | _, [] => some []
  | 0, _ :: _ => none
  | fuel + 1, c :: cs => do
    let (items, cs) ← readItem? (c :: cs)
    (readItems? fuel cs).map (items ++ ·)

/-- What the text of a module says, if it has one function that builds the transaction. -/
def ofText? (text : String) : Option Program := do
  let items ← readItems? text.toList.length text.toList
  match items.filterMap Item.statements? with
  | [statements] => some ⟨items.filterMap Item.constant?, statements⟩
  | _ => none

/-! ### Fronts and lines -/

variable {cs rest : List Char}

theorem expect?_append (front : String) (rest : List Char) :
    expect? front (front.toList ++ rest) = some rest := by
  rw [expect?, if_pos (List.prefix_append _ _), List.drop_left]

theorem expect?_eq_none {front : String} {c d : Char} {ds : List Char}
    (opens : front.toList = d :: ds) (ne : c ≠ d) : expect? front (c :: cs) = none := by
  rw [expect?, if_neg]
  rw [opens, List.cons_prefix_cons]
  exact fun h => ne h.1.symm

theorem skipLine_append {line : List Char} (h : '\n' ∉ line) (rest : List Char) :
    skipLine (line ++ '\n' :: rest) = rest := by
  rw [skipLine, List.dropWhile_append_of_pos (by grind)]
  simp

/-- An expression is read back with the end of its line. -/
theorem readEnding?_chars (level : Nat) {e : Expr} (readable : e.Readable) (rest : List Char) :
    readEnding? (e.chars level ++ (";\n".toList ++ rest)) = some (e, rest) := by
  have read : Expr.read? (e.chars level ++ (";\n".toList ++ rest)).length
      (e.chars level ++ (";\n".toList ++ rest)) = some (e, ";\n".toList ++ rest) :=
    Expr.read?_chars level e readable (by simp [Expr.Ends]; decide) (by simp)
  simp only [readEnding?, read, expect?_append, Option.bind_eq_bind, Option.bind_some]

/-- The text is read as these items, whatever is read behind it. -/
def Reads (text : String) (items : List Item) : Prop :=
  ∀ (rest : List Char) (others : List Item),
    (∀ fuel, rest.length ≤ fuel → readItems? fuel rest = some others) →
      ∀ fuel, (text.toList ++ rest).length ≤ fuel →
        readItems? fuel (text.toList ++ rest) = some (items ++ others)

namespace Reads

variable {text text' : String} {items items' : List Item}

/-- What is read of two texts is read of both, one behind the other. -/
theorem append (h : Reads text items) (h' : Reads text' items') :
    Reads (text ++ text') (items ++ items') := by
  intro rest others read
  rw [String.toList_append, List.append_assoc, List.append_assoc]
  exact h _ _ (h' rest others read)

/-- A text that says nothing can stand in front. -/
theorem nil_append (h : Reads text []) (h' : Reads text' items) : Reads (text ++ text') items :=
  h.append h'

/-- What is read in one step. -/
theorem of_readItem? {c : Char} {cs : List Char} (written : text.toList = c :: cs)
    (item : ∀ rest, readItem? (text.toList ++ rest) = some (items, rest)) : Reads text items := by
  intro rest others read fuel steps
  have item := item rest
  rw [written, List.cons_append] at item steps ⊢
  obtain ⟨fuel, rfl⟩ := Nat.exists_eq_add_of_le' (Nat.le_trans (Nat.le_add_left 1 _) steps)
  simp only [List.length_cons, List.length_append] at steps
  simp [readItems?, item, read fuel (by omega)]

/-- A whole text is read as its items. -/
theorem readItems?_eq (h : Reads text items) :
    readItems? text.toList.length text.toList = some items := by
  have all := h [] [] (fun fuel _ => by cases fuel <;> rfl) text.toList.length (by simp)
  rwa [List.append_nil, List.append_nil] at all

/-- A line that begins neither a constant nor a function. -/
theorem line (plain : '\n' ∉ text.toList) (starts : ∀ c ∈ text.toList.head?, c ≠ 'c' ∧ c ≠ 'f') :
    Reads (Script.outerLine text) [] := by
  have written (rest : List Char) :
      (Script.outerLine text).toList ++ rest = text.toList ++ '\n' :: rest := by
    simp [Script.outerLine]
  obtain ⟨c, cs, begun, ne⟩ :
      ∃ c cs, (Script.outerLine text).toList = c :: cs ∧ c ≠ 'c' ∧ c ≠ 'f' := by
    cases chars : text.toList with
    | nil => exact ⟨'\n', [], by simp [Script.outerLine, chars], by decide⟩
    | cons c line =>
      exact ⟨c, line ++ ['\n'], by simp [Script.outerLine, chars], starts c (by simp [chars])⟩
  refine of_readItem? begun fun rest => ?_
  -- The first character alone tells the line from a constant and from a function.
  have constant : expect? "const " (c :: (cs ++ rest)) = none := expect?_eq_none rfl ne.1
  have build : expect? "function buildTransaction" (c :: (cs ++ rest)) = none :=
    expect?_eq_none rfl ne.2
  have skipped := skipLine_append plain rest
  rw [← written, begun, List.cons_append] at skipped
  rw [begun, List.cons_append]
  simp only [readItem?, constant, build, skipped]

/-- Texts that are read one by one are read as one. -/
theorem join {α : Type} {text : α → String} {item : α → List Item} {xs : List α}
    (each : ∀ x ∈ xs, Reads (text x) (item x)) :
    Reads (String.join (xs.map text)) (xs.flatMap item) := by
  induction xs with
  | nil => exact fun _ _ read => read
  | cons x xs ih =>
    have first := each x List.mem_cons_self
    have others := ih fun y mem => each y (List.mem_cons_of_mem x mem)
    have text : String.join (text x :: xs.map text) = text x ++ String.join (xs.map text) := by
      simp
    rw [List.map_cons, text]
    exact first.append others

theorem join_nil {α : Type} {text : α → String} {xs : List α}
    (each : ∀ x ∈ xs, Reads (text x) []) : Reads (String.join (xs.map text)) [] := by
  have all : Reads (String.join (xs.map text)) (xs.flatMap fun _ => []) := join each
  rwa [List.flatMap_eq_nil_iff.2 fun _ _ => rfl] at all

end Reads

/-! ### The parts of a module -/

end Program

namespace BankDeclaration

variable {b : BankDeclaration}

theorem isAlpha_toUpper {c : Char} (letter : c.isAlpha) : c.toUpper.isAlpha := by
  by_cases lower : 'a'.val ≤ c.val ∧ c.val ≤ 'z'.val
  · have upper : c.toUpper.val = c.val + ('A'.val - 'a'.val) := by
      delta Char.toUpper
      rw [dif_pos lower]
    have low : 97 ≤ c.toNat ∧ c.toNat ≤ 122 := by
      simpa [UInt32.le_iff_toNat_le] using lower
    have shifted : c.toUpper.toNat = c.toNat - 32 := by
      rw [← Char.toNat_val, upper]
      simp
      omega
    refine Text.isAlpha_iff.2 (.inl ?_)
    omega
  · have same : c.toUpper = c := by
      delta Char.toUpper
      exact dif_neg lower
    rwa [same]

/-- What begins an identifier still does as a capital. -/
theorem isIdentifierStart_toUpper {c : Char} (starts : Text.isIdentifierStart c) :
    Text.isIdentifierStart c.toUpper := by
  simp only [Text.isIdentifierStart, Bool.or_eq_true, beq_iff_eq] at starts ⊢
  rcases starts with (letter | rfl) | rfl
  · exact .inl (.inl (isAlpha_toUpper letter))
  · exact .inl (.inr rfl)
  · exact .inr rfl

/-- An interface is named by an identifier, if the bank is. -/
theorem isIdentifier_interfaceName (h : Text.isIdentifier b.name.toList) :
    Text.isIdentifier b.interfaceName.toList := by
  cases name : b.name.toList with
  | nil => simp [name, Text.isIdentifier] at h
  | cons c cs =>
    rw [name, Text.isIdentifier, Bool.and_eq_true] at h
    have suffix : "Props".toList.all Text.isIdentifierRest := by decide
    rw [toList_interfaceName name, List.cons_append, Text.isIdentifier, List.all_append,
      isIdentifierStart_toUpper h.1, h.2, suffix]
    rfl

/-- The value of a bank's constant can be read. -/
theorem readable_values : b.values.Readable := by
  refine Expr.readable_block ?_
  induction b.params with
  | nil => trivial
  | cons p params ih =>
    refine ⟨?_, ih⟩
    unfold valueExpr
    cases p.value with
    | none => trivial
    | some v => exact Expr.readable_ofJson v.json

end BankDeclaration

/-- The names of a module's banks and of their parameters are identifiers, and its statements are
calls on the builder that can be read. -/
structure Script.Readable (s : Script) : Prop where
  title : ∀ b ∈ s.banks, Text.isIdentifier b.name.toList
  param : ∀ b ∈ s.banks, ∀ p ∈ b.params, Text.isIdentifier p.param.name.toList
  statement : ∀ e ∈ s.statements, e.Readable ∧ ∃ method args, e = builderCall method args

namespace Program

/-- **The declaration of a bank's constant is read back.** -/
theorem reads_constantText {b : BankDeclaration} (title : Text.isIdentifier b.name.toList) :
    Reads (Script.constantText b) [.constant b.name b.values] := by
  have text : (Script.constantText b).toList = "const ".toList ++ (b.name.toList ++
      (": ".toList ++ (b.interfaceName.toList ++ (" = ".toList ++
        (b.values.chars 0 ++ ";\n".toList))))) := by
    simp only [Script.constantText, String.toList_append, Expr.render, String.toList_ofList,
      List.append_assoc]
  refine Reads.of_readItem? text fun rest => ?_
  rw [text]
  simp only [List.append_assoc]
  have name (more : List Char) :
      readName? (b.name.toList ++ (": ".toList ++ more)) = some (b.name, ": ".toList ++ more) :=
    readName?_append title (by simp [EndsName]; decide)
  have type (more : List Char) : readName? (b.interfaceName.toList ++ (" = ".toList ++ more)) =
      some (b.interfaceName, " = ".toList ++ more) :=
    readName?_append (b.isIdentifier_interfaceName title) (by simp [EndsName]; decide)
  have value := readEnding?_chars 0 b.readable_values rest
  simp only [readItem?, readConstant?, expect?_append, name, type, value, Option.bind_eq_bind,
    Option.bind_some, Option.map_some]

theorem newline_not_mem_of_isIdentifier {name : String} (h : Text.isIdentifier name.toList) :
    '\n' ∉ name.toList :=
  fun mem => absurd (Text.space_le_of_isIdentifier h mem) (by decide)

/-- A line that is indented. -/
theorem reads_line {text : String} (plain : '\n' ∉ text.toList) : Reads (Script.line text) [] :=
  .line (by simpa using plain) (by simp)

theorem newline_not_mem_scriptType (t : ParamType) : '\n' ∉ t.scriptType.toList := by
  unfold ParamType.scriptType
  split <;> decide

/-- The declaration of an interface is passed over. -/
theorem reads_interfaceText {b : BankDeclaration} (title : Text.isIdentifier b.name.toList)
    (params : ∀ p ∈ b.params, Text.isIdentifier p.param.name.toList) :
    Reads (Script.interfaceText b) [] := by
  refine Reads.nil_append (.nil_append ?_ (.join_nil ?_)) ?_
  · exact .line (by simp [newline_not_mem_of_isIdentifier (b.isIdentifier_interfaceName title)])
      (by simp)
  · exact fun p mem => reads_line (by
      simp [newline_not_mem_of_isIdentifier (params p mem),
        newline_not_mem_scriptType p.param.type])
  · exact .line (by decide) (by simp)

theorem reads_imports : Reads Script.imports [] :=
  (Reads.line (by decide +kernel) (by simp)).append (.line (by decide +kernel) (by simp))

/-! ### The functions of a module -/

theorem newline_not_mem_intercalate {separator : List Char} {texts : List (List Char)}
    (plain : '\n' ∉ separator) (each : ∀ t ∈ texts, '\n' ∉ t) :
    '\n' ∉ separator.intercalate texts := by
  induction texts with
  | nil => exact List.not_mem_nil
  | cons t rest ih =>
    have later := ih fun u mem => each u (List.mem_cons_of_mem t mem)
    cases rest with
    | nil => simpa using each t List.mem_cons_self
    | cons u rest => simp [plain, later, each t List.mem_cons_self]

/-- Parameters and arguments of names on one line are on one line. -/
theorem newline_not_mem_parametersText (parameters : List (String × String))
    (each : ∀ p ∈ parameters, '\n' ∉ p.1.toList ∧ '\n' ∉ p.2.toList) :
    '\n' ∉ (Script.parametersText parameters).toList ∧
      '\n' ∉ (Script.argumentsText parameters).toList := by
  have join (text : String × String → String) (plain : ∀ p ∈ parameters, '\n' ∉ (text p).toList) :
      '\n' ∉ (", ".intercalate (parameters.map text)).toList := by
    rw [String.toList_intercalate]
    refine newline_not_mem_intercalate (by decide) fun t mem => ?_
    simp only [List.map_map, List.mem_map, Function.comp_apply] at mem
    obtain ⟨p, mem, rfl⟩ := mem
    exact plain p mem
  have parameter := join (fun p => p.1 ++ ": " ++ p.2) fun p mem => by simp [each p mem]
  have argument := join Prod.fst fun p mem => (each p mem).1
  unfold Script.parametersText Script.argumentsText
  simp only [String.toList_append, List.mem_append, not_or]
  exact ⟨⟨⟨by decide, parameter⟩, by decide⟩, ⟨⟨by decide, argument⟩, by decide⟩⟩

theorem newline_not_mem_bankParameters {s : Script} (readable : s.Readable) :
    ∀ p ∈ s.bankParameters, '\n' ∉ p.1.toList ∧ '\n' ∉ p.2.toList := by
  simp only [Script.bankParameters, List.forall_mem_map]
  intro b mem
  have title := readable.title b mem
  exact ⟨newline_not_mem_of_isIdentifier title,
    newline_not_mem_of_isIdentifier (b.isIdentifier_interfaceName title)⟩

/-- The function that submits the transaction is passed over. -/
theorem reads_executeText {s : Script} (readable : s.Readable) : Reads s.executeText [] := by
  have banks := newline_not_mem_bankParameters readable
  have opening := (newline_not_mem_parametersText s.executeParameters (by
    simp only [Script.executeParameters, List.forall_mem_append]
    exact ⟨by decide, banks⟩)).1
  have request := (newline_not_mem_parametersText s.buildParameters (by
    simp only [Script.buildParameters, List.forall_mem_cons]
    exact ⟨by decide, banks⟩)).2
  refine Reads.nil_append (.nil_append (.nil_append (.nil_append ?_ ?_) ?_) ?_) ?_
  · exact .line (by simp [opening]) (by simp)
  · exact reads_line (by simp [request])
  · exact reads_line (by decide +kernel)
  · exact reads_line (by decide)
  · exact .line (by decide) (by simp)

/-- A statement is no return. -/
theorem expect?_return (method : String) (args : List Expr) (rest : List Char) :
    expect? "return builder.buildUnsignedTransaction();\n\x7d\n"
      ((builderCall method args).chars 1 ++ rest) = none := by
  have text : (builderCall method args).chars 1 =
      'b' :: ("uilder.".toList ++ (method.toList ++ '(' :: (Expr.itemsChars 1 args ++ [')']))) := by
    change ("builder." ++ method).toList ++ _ = _
    simp
  have front : "return builder.buildUnsignedTransaction();\n\x7d\n".toList =
      'r' :: "eturn builder.buildUnsignedTransaction();\n\x7d\n".toList := rfl
  rw [text, List.cons_append]
  exact expect?_eq_none front (by decide)

theorem toList_statement (e : Expr) :
    (Script.line (e.render 1 ++ ";")).toList = "    ".toList ++ (e.chars 1 ++ ";\n".toList) := by
  simp [Script.line, Script.outerLine, Expr.render]

/-- Statements are read up to the end of the function. -/
theorem readStatements?_eq {es : List Expr} (rest : List Char)
    (each : ∀ e ∈ es, e.Readable ∧ ∃ method args, e = builderCall method args) :
    ∀ fuel, es.length < fuel →
      readStatements? fuel ((String.join (es.map fun e => Script.line (e.render 1 ++ ";"))).toList ++
        ("    ".toList ++ ("return builder.buildUnsignedTransaction();\n\x7d\n".toList ++ rest))) =
        some (es, rest) := by
  induction es with
  | nil =>
    intro fuel steps
    obtain ⟨fuel, rfl⟩ := Nat.exists_eq_add_of_le' steps
    have empty : (String.join ([].map fun e : Expr => Script.line (e.render 1 ++ ";"))).toList = [] :=
      rfl
    rw [empty, List.nil_append]
    simp only [readStatements?, expect?_append, Option.bind_eq_bind, Option.bind_some]
  | cons e es ih =>
    intro fuel steps
    obtain ⟨fuel, rfl⟩ := Nat.exists_eq_add_of_le' (Nat.lt_of_le_of_lt (Nat.zero_le _) steps)
    obtain ⟨readable, method, args, call⟩ := each e List.mem_cons_self
    have others := ih (fun f mem => each f (List.mem_cons_of_mem e mem)) fuel
      (Nat.lt_of_succ_lt_succ steps)
    have text : (String.join ((e :: es).map fun e => Script.line (e.render 1 ++ ";"))).toList =
        "    ".toList ++ (e.chars 1 ++ (";\n".toList ++
          (String.join (es.map fun e => Script.line (e.render 1 ++ ";"))).toList)) := by
      rw [List.map_cons, String.toList_join, List.flatMap_cons, toList_statement,
        String.toList_join]
      simp only [List.append_assoc]
    -- A statement is a call on the builder, and so it is not the return.
    have goesOn (more : List Char) : expect? "return builder.buildUnsignedTransaction();\n\x7d\n"
        (e.chars 1 ++ more) = none := call ▸ expect?_return method args more
    rw [text]
    simp only [List.append_assoc, readStatements?, expect?_append, goesOn,
      readEnding?_chars 1 readable, others, Option.bind_eq_bind, Option.bind_some, Option.map_some]

/-- A text has no fewer characters than lines. -/
theorem length_le_join {α : Type} (text : α → String) (xs : List α) :
    xs.length ≤ (String.join (xs.map fun x => Script.line (text x))).toList.length := by
  induction xs with
  | nil => exact Nat.zero_le _
  | cons x xs ih =>
    rw [String.toList_join] at ih ⊢
    simp only [Script.line, Script.outerLine, List.map_cons, List.flatMap_cons, List.length_append,
      List.length_cons, String.toList_append] at ih ⊢
    have feed : "\n".toList.length = 1 := rfl
    omega

/-- The function that builds the transaction, up to the end of each part that is read. -/
theorem toList_buildText (s : Script) :
    s.buildText.toList = "function buildTransaction".toList ++
      (((Script.parametersText s.buildParameters).toList ++ ": UnsignedTransactionV1 \x7b".toList) ++
        '\n' :: ("    const builder = new TransactionBuilder(network);\n".toList ++
          ((String.join (s.statements.map fun e => Script.line (e.render 1 ++ ";"))).toList ++
            ("    ".toList ++
              "return builder.buildUnsignedTransaction();\n\x7d\n".toList)))) := by
  simp [Script.buildText, Script.line, Script.outerLine]

/-- **The function that builds the transaction is read back as its statements.** -/
theorem reads_buildText {s : Script} (readable : s.Readable) :
    Reads s.buildText [.build s.statements] := by
  have signature : '\n' ∉ (Script.parametersText s.buildParameters).toList ++
      ": UnsignedTransactionV1 \x7b".toList := by
    have parameters := (newline_not_mem_parametersText s.buildParameters (by
      simp only [Script.buildParameters, List.forall_mem_cons]
      exact ⟨by decide, newline_not_mem_bankParameters readable⟩)).1
    simp [parameters]
  refine Reads.of_readItem? (toList_buildText s) fun rest => ?_
  have constant (more : List Char) :
      expect? "const " ("function buildTransaction".toList ++ more) = none := by
    have front : "function buildTransaction".toList = 'f' :: "unction buildTransaction".toList := rfl
    rw [front, List.cons_append]
    exact expect?_eq_none rfl (by decide)
  have body := readStatements?_eq rest readable.statement
  rw [toList_buildText]
  simp only [List.append_assoc _ _ rest, List.cons_append]
  rw [readItem?, constant, expect?_append]
  simp only [readBuild?, skipLine_append signature, expect?_append, Option.bind_eq_bind,
    Option.bind_some]
  rw [body _ ?_]
  · rfl
  · have lines := length_le_join (fun e : Expr => e.render 1 ++ ";") s.statements
    have indent : "    ".toList.length = 4 := rfl
    simp only [List.length_append, indent]
    omega

/-- What is read of a module: its constants, and its statements. -/
theorem reads_render {s : Script} (readable : s.Readable) :
    Reads s.render ((s.banks.map fun b => .constant b.name b.values) ++ [.build s.statements]) := by
  have blank : Reads (Script.outerLine "") [] := .line (by simp) (by simp)
  have interfaces : Reads (String.join (s.banks.map Script.interfaceText)) [] :=
    .join_nil fun b mem => reads_interfaceText (readable.title b mem) (readable.param b mem)
  have constants : Reads (String.join (s.banks.map Script.constantText))
      (s.banks.map fun b => .constant b.name b.values) := by
    rw [List.map_eq_flatMap (f := fun b : BankDeclaration => Item.constant b.name b.values)]
    exact .join fun b mem => reads_constantText (readable.title b mem)
  have text : s.render = Script.imports ++ (Script.outerLine "" ++
      (String.join (s.banks.map Script.interfaceText) ++ (Script.outerLine "" ++
        (String.join (s.banks.map Script.constantText) ++ (Script.outerLine "" ++
          (s.buildText ++ (Script.outerLine "" ++ s.executeText))))))) := by
    simp [Script.render, Script.outerLine, String.append_assoc]
  rw [text]
  exact reads_imports.nil_append (blank.nil_append (interfaces.nil_append (blank.nil_append
    (constants.append (blank.nil_append ((reads_buildText readable).append (blank.nil_append
      (reads_executeText readable))))))))

/-- **A module is read back**: the constants of its banks, and its statements. -/
theorem ofText?_render {s : Script} (readable : s.Readable) :
    ofText? s.render = some s.program := by
  have constants : (s.banks.map fun b => Item.constant b.name b.values).filterMap Item.constant? =
      s.program.constants := by
    rw [List.filterMap_map]
    exact congrFun List.filterMap_eq_map' s.banks
  have others : (s.banks.map fun b => Item.constant b.name b.values).filterMap Item.statements? =
      [] := by
    simp [List.filterMap_map, Function.comp_def, Item.statements?]
  rw [ofText?, (reads_render readable).readItems?_eq]
  simp only [Option.bind_eq_bind, Option.bind_some, List.filterMap_append, constants, others]
  simp [Item.statements?, Item.constant?, Script.program]

end Program

end FlowPlan
