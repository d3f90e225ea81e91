import FlowPlan.Script.Expr
import FlowPlan.Transaction.Basic

/-!
# Script — modules

A transaction as a TypeScript module for the ledger's SDK.  The module declares an interface and a
constant for every input bank; a function that makes one builder call for every primitive; and a
function that submits the transaction and waits for its result.  The banks are parameters of both.

The title of a bank and the names of its parameters are used as identifiers, so a module exists
only where they are of identifier shape.

* `Transaction.script`: the module of a transaction, as its parts.
* `Script.render`: the text of a module.
-/

namespace FlowPlan

/-- Why a transaction has no module. -/
inductive ScriptError where
  /-- The title of a bank is empty. -/
  | emptyInterfaceName
  /-- A title or the name of a parameter is no identifier. -/
  | invalidIdentifier (name : String)
  deriving DecidableEq

/-- The wording of a failure. -/
def ScriptError.message : ScriptError → String
  | .emptyInterfaceName => "empty interface name"
  | .invalidIdentifier name => "'" ++ name ++ "' is not a valid identifier"

/-- What a module declares for an input bank. -/
structure BankDeclaration where
  name : String
  params : List SuppliedParam
  deriving DecidableEq

/-- A generated module. -/
structure Script where
  banks : List BankDeclaration
  /-- The builder calls. -/
  statements : List Expr

/-! ### Banks -/

/-- Fails where a name is no identifier. -/
def checkIdentifier (name : String) : Except ScriptError Unit :=
  if Text.isIdentifier name.toList then .ok () else .error (.invalidIdentifier name)

/-- The type of a parameter in a module. -/
def ParamType.scriptType : ParamType → String
  | .scalar .bool => "boolean"
  | .scalar (.signed _) | .scalar (.unsigned _) => "number"
  | .scalar .unit | .scalar .string | .vec _ | .tuple _ | .other _ => "string"

namespace BankDeclaration

/-- What a module declares for the bank of a title, if its names allow it. -/
def ofContext (title : String) (params : List SuppliedParam) :
    Except ScriptError BankDeclaration := do
  if title = "" then .error .emptyInterfaceName
  checkIdentifier title
  params.forM fun p => checkIdentifier p.param.name
  .ok ⟨title, params⟩

/-- The name of a bank's interface: the title with an upper-case first letter, and `Props`. -/
def interfaceName (b : BankDeclaration) : String :=
  match b.name.toList with
  | [] => "Props"
  | c :: cs => String.ofList (c.toUpper :: cs) ++ "Props"

theorem toList_interfaceName {b : BankDeclaration} {c : Char} {cs : List Char}
    (name : b.name.toList = c :: cs) :
    b.interfaceName.toList = c.toUpper :: cs ++ "Props".toList := by
  simp [interfaceName, name]

/-- The expression of a parameter's value. -/
def valueExpr (p : SuppliedParam) : Expr :=
  match p.value with
  | some v => .ofJson v.json
  | none => .undefined

/-- The object that holds a bank's values. -/
def values (b : BankDeclaration) : Expr :=
  .object .block (b.params.map fun p => (p.param.name, valueExpr p))

end BankDeclaration

/-! ### Statements -/

/-- The expression of an argument. -/
def Arg.expr : Arg → Expr
  | .workspace node half => .object .inline [("Workspace", .text (workspaceKey node half))]
  | .input bank param _ => .property bank param.name
  | .literal value => .ofJson value.json

/-- A call on the builder. -/
def builderCall (method : String) (args : List Expr) : Expr :=
  .call ("builder." ++ method) args

/-- The builder call of a primitive. -/
def Primitive.statement : Primitive → Expr
  | .payFee account fee =>
    builderCall "feeTransactionPayFromComponent"
      [.text account, .call "Amount.of" [.atom (.int fee.value)]]
  | .callMethod receiver method args =>
    builderCall "callMethod"
      [.object .block [("componentAddress", receiver.expr), ("methodName", .text method)],
        .array (args.map Arg.expr)]
  | .callFunction templateAddress function args =>
    builderCall "callFunction"
      [.object .block [("templateAddress", .text templateAddress), ("functionName", .text function)],
        .array (args.map Arg.expr)]
  | .emitLog level message =>
    builderCall "addInstruction"
      [.object .block
        [("EmitLog", .object .block [("level", level.expr), ("message", message.expr)])]]
  | .allocateAddress kind workspaceId =>
    builderCall "allocateAddress" [.text kind.name, .text workspaceId]
  | .saveVar key => builderCall "saveVar" [.text key]

/-- The module of a transaction. -/
def Transaction.script (t : Transaction) : Except ScriptError Script := do
  let banks ← t.context.entries.mapM fun e => BankDeclaration.ofContext e.1 e.2
  .ok ⟨banks, t.operations.map Primitive.statement⟩

/-! ### Text -/

namespace Script

/-- A line at the margin. -/
def outerLine (text : String) : String :=
  text ++ "\n"

/-- A line one level in. -/
def line (text : String) : String :=
  outerLine ("    " ++ text)

/-- The names that a module brings into its scope from the SDK. -/
def imports : String :=
  outerLine ("import \x7b Amount, buildTransactionRequest, Network, submitAndWaitForTransaction, " ++
    "TariSigner, TransactionBuilder \x7d from \"@tari-project/tarijs-all\";") ++
  outerLine ("import \x7b TransactionResult, UnsignedTransactionV1 \x7d from " ++
    "\"@tari-project/typescript-bindings\";")

/-- The declaration of a bank's interface. -/
def interfaceText (b : BankDeclaration) : String :=
  outerLine ("export interface " ++ b.interfaceName ++ " \x7b") ++
    String.join (b.params.map fun p => line (p.param.name ++ ": " ++ p.param.type.scriptType ++ ";")) ++
    outerLine "\x7d"

/-- The declaration of the constant that holds a bank's values. -/
def constantText (b : BankDeclaration) : String :=
  "const " ++ b.name ++ ": " ++ b.interfaceName ++ " = " ++ b.values.render 0 ++ ";\n"

/-- The banks as parameters of a function: their names and types. -/
def bankParameters (s : Script) : List (String × String) :=
  s.banks.map fun b => (b.name, b.interfaceName)

/-- The parameters of the function that builds the transaction. -/
def buildParameters (s : Script) : List (String × String) :=
  ("network", "Network") :: s.bankParameters

/-- The parameters of the function that submits the transaction. -/
def executeParameters (s : Script) : List (String × String) :=
  [("signer", "TariSigner"), ("network", "Network"), ("accountId", "number")] ++ s.bankParameters

/-- The text of a parameter list. -/
def parametersText (parameters : List (String × String)) : String :=
  "(" ++ ", ".intercalate (parameters.map fun p => p.1 ++ ": " ++ p.2) ++ ")"

/-- The text of a list of arguments that are the parameters of these names. -/
def argumentsText (parameters : List (String × String)) : String :=
  "(" ++ ", ".intercalate (parameters.map Prod.fst) ++ ")"

/-- The function that builds the transaction. -/
def buildText (s : Script) : String :=
  outerLine ("function buildTransaction" ++ parametersText s.buildParameters ++
      ": UnsignedTransactionV1 \x7b") ++
    line "const builder = new TransactionBuilder(network);" ++
    String.join (s.statements.map fun e => line (e.render 1 ++ ";")) ++
    line "return builder.buildUnsignedTransaction();" ++ outerLine "\x7d"

/-- The function that submits the transaction. -/
def executeText (s : Script) : String :=
  outerLine ("export async function executeTransaction" ++ parametersText s.executeParameters ++
      ": Promise<TransactionResult> \x7b") ++
    line ("const submitTransactionRequest = buildTransactionRequest(buildTransaction" ++
      argumentsText s.buildParameters ++ ", accountId);") ++
    line "const txResult = await submitAndWaitForTransaction(signer, submitTransactionRequest);" ++
    line "return txResult.result.result;" ++ outerLine "\x7d"

/-- The text of a module: its sections, blank lines between them. -/
def render (s : Script) : String :=
  "\n".intercalate
    [imports, String.join (s.banks.map interfaceText), String.join (s.banks.map constantText),
      s.buildText, s.executeText]

end Script

/-- The text of a transaction's module. -/
def Transaction.scriptText (t : Transaction) : Except ScriptError String :=
  t.script.map Script.render

end FlowPlan
