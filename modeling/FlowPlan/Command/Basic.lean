import FlowPlan.Command.Arguments
import FlowPlan.Json.Printer
import FlowPlan.Plan.Basic
import FlowPlan.Script.Basic
import FlowPlan.Transaction.Replay

/-!
# Command — running

What a command does, as a function of the texts that it can read and of the variables that are
set.  A result goes to the output, or into a file if one is named; an error goes to the error
output, and its kind decides the exit code.

A missing option is taken from its variable, and where that is not set from its default.  The
network is settled first, then who pays, and only then is the graph read.

* `Command.run`: the outcome of a command.
-/

namespace FlowPlan

/-- What a command can see: the text of a file, and the value of a variable. -/
structure Surroundings where
  file : String → Option String
  variableValue : String → Option String

/-- What a command leaves behind. -/
structure Outcome where
  exitCode : Nat
  output : String
  /-- The messages on the error output, each of which a line break ends. -/
  errors : List String
  /-- A file that is to be written: its path and its text. -/
  written : Option (String × String)
  deriving DecidableEq

namespace Outcome

/-- The graph has no plan. -/
def planFailed : Nat := 1

/-- The plan cannot be rendered or built. -/
def renderFailed : Nat := 2

/-- A file cannot be read, or an option is wrong. -/
def inputFailed : Nat := 3

/-- The arguments spell no command. -/
def usageFailed : Nat := 2

/-- Success with a text. -/
def printed (output : String) : Outcome :=
  ⟨0, output, [], none⟩

/-- Success with an indented document and a line break. -/
def printedJson (j : Json) : Outcome :=
  printed (j.pretty ++ "\n")

/-- Failure with messages. -/
def failed (code : Nat) (errors : List String) : Outcome :=
  ⟨code, "", errors, none⟩

/-- The outcome of arguments that spell no command. -/
def badUsage : Outcome :=
  failed usageFailed []

/-- Failure to read something. -/
def badInput (message : String) : Outcome :=
  failed inputFailed ["Error: " ++ message]

/-- Failure to write a file. -/
def unwritable (path : String) : Outcome :=
  badInput ("failed to write '" ++ path ++ "'")

/-- One line for a node that lacks inputs. -/
def missingLine (m : MissingInputs) : String :=
  "  - " ++ m.label ++ ": " ++ ", ".intercalate m.inputs

/-- Failure to plan: the wording for users, and a line for every node that lacks inputs. -/
def badPlan (g : FlowGraph) (e : PlanError) : Outcome :=
  let details := match e with
    | .missingData nodes => nodes.map missingLine
    | _ => []
  failed planFailed (("Error: " ++ e.userMessage g) :: details)

/-- Failure to render or to build. -/
def badRender (message : String) : Outcome :=
  failed renderFailed ["Codegen error: " ++ message]

/-- The error output. -/
def errorText (outcome : Outcome) : String :=
  String.join (outcome.errors.map (· ++ "\n"))

end Outcome

/-! ### Options -/

/-- The fee where none is given. -/
def defaultFee : Amount :=
  ⟨2000, by decide⟩

/-- The variable that names the account. -/
def accountVariable : String := "TXGRAPH_ACCOUNT"

/-- The variable that gives the fee. -/
def feeVariable : String := "TXGRAPH_FEE"

/-- The variable that names the network. -/
def networkVariable : String := "TXGRAPH_NETWORK"

namespace Surroundings

/-- Who pays, by option, variable or default. -/
def payment (s : Surroundings) (fees : FeeOptions) : Except Outcome FeePayment :=
  match fees.account <|> s.variableValue accountVariable with
  | none => .error (.badInput ("no account given, pass --account or set " ++ accountVariable))
  | some account =>
    match fees.fee <|> s.variableValue feeVariable with
    | none => .ok ⟨account, defaultFee⟩
    | some text =>
      match Amount.parse text with
      | .ok fee => .ok ⟨account, fee⟩
      | .error e => .error (.badInput ("invalid fee '" ++ text ++ "': " ++ e.message))

/-- The network, by option, variable or default. -/
def network (s : Surroundings) (option : Option String) : Except Outcome Network :=
  match option <|> s.variableValue networkVariable with
  | none => .ok .default
  | some name =>
    match Network.ofName? name with
    | some network => .ok network
    | none => .error (.badInput (Network.unknownMessage name))

/-- The graph in a file. -/
def graph (s : Surroundings) (path : String) : Except Outcome FlowGraph :=
  match s.file path with
  | none => .error (.badInput ("failed to read '" ++ path ++ "'"))
  | some text =>
    (FlowGraph.ofText text).mapError fun _ =>
      .badInput ("failed to parse graph '" ++ path ++ "'")

/-- The plan of the graph in a file. -/
def plan (s : Surroundings) (path : String) (fees : FeeOptions) : Except Outcome Plan := do
  let payment ← s.payment fees
  let g ← s.graph path
  (g.plan payment).mapError (Outcome.badPlan g)

end Surroundings

/-! ### Commands -/

namespace Command

/-- The outcome of a computation that fails with one. -/
def settle : Except Outcome Outcome → Outcome
  | .ok outcome => outcome
  | .error outcome => outcome

/-- Prints the order of a graph. -/
def runOrder (s : Surroundings) (path : String) : Except Outcome Outcome := do
  let g ← s.graph path
  let order ← g.executionOrder.mapError (Outcome.badPlan g)
  .ok (.printedJson (Json.strings order))

/-- Prints the plan of a graph. -/
def runPlan (s : Surroundings) (path : String) (fees : FeeOptions) : Except Outcome Outcome := do
  let plan ← s.plan path fees
  .ok (.printedJson plan.toJson)

/-- Prints the module of a graph, or writes it to a file. -/
def runCodegen (s : Surroundings) (path : String) (fees : FeeOptions) (output : Option String) :
    Except Outcome Outcome := do
  let plan ← s.plan path fees
  let text ← plan.transaction.scriptText.mapError fun e => .badRender e.message
  match output with
  | some file => .ok ⟨0, "", [], some (file, text)⟩
  | none => .ok (.printed text)

/-- Prints the unsigned transaction of a graph. -/
def runBuild (s : Surroundings) (path : String) (fees : FeeOptions) (network : Option String)
    (dryRun : Bool) : Except Outcome Outcome := do
  let network ← s.network network
  let plan ← s.plan path fees
  let transaction ← (plan.transaction.build network dryRun).mapError fun e => .badRender e.message
  .ok (.printedJson transaction.toJson)

/-- The outcome of a command. -/
def run (s : Surroundings) : Command → Outcome
  | .order graph => settle (runOrder s graph)
  | .plan graph fees => settle (runPlan s graph fees)
  | .codegen graph fees output => settle (runCodegen s graph fees output)
  | .build graph fees network dryRun => settle (runBuild s graph fees network dryRun)

end Command

end FlowPlan
