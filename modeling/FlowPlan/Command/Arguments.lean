/-!
# Command — arguments

The command line: one verb and its options.  An option with a value is `--name value`,
`--name=value`, `-n value`, `-nvalue` or `-n=value`; a value that is an argument of its own does not
start with a dash, and the name of a file is not empty.  No option comes twice, and every verb knows
its own options only.  More log lines may be asked for before the verb and after it.  Two dashes
alone end the options; nothing follows them, as no verb takes anything but options.

* `Command.ofArguments?`: the command that a list of arguments spells.
-/

namespace FlowPlan

/-- What the program is asked to do. -/
inductive Verb where
  /-- Print the order in which the operations run. -/
  | order
  /-- Print the order and the transaction. -/
  | plan
  /-- Print the transaction as a module. -/
  | codegen
  /-- Print the unsigned transaction. -/
  | build
  deriving DecidableEq

/-- An option that takes a value. -/
inductive ValueOption where
  | graph
  | account
  | fee
  | output
  | network
  deriving DecidableEq

namespace ValueOption

/-- The options. -/
def all : List ValueOption :=
  [.graph, .account, .fee, .output, .network]

/-- The long name of an option. -/
def long : ValueOption → String
  | .graph => "graph"
  | .account => "account"
  | .fee => "fee"
  | .output => "output"
  | .network => "network"

/-- The letter of an option. -/
def short : ValueOption → Char
  | .graph => 'g'
  | .account => 'a'
  | .fee => 'f'
  | .output => 'o'
  | .network => 'n'

/-- The value names a file. -/
def isPath : ValueOption → Bool
  | .graph | .output => true
  | .account | .fee | .network => false

end ValueOption

namespace Verb

/-- The verb of a name. -/
def ofName? (name : String) : Option Verb :=
  if name = "order" then some .order
  else if name = "plan" then some .plan
  else if name = "codegen" then some .codegen
  else if name = "build" then some .build
  else none

/-- The options with a value that a verb knows. -/
def options : Verb → List ValueOption
  | .order => [.graph]
  | .plan => [.graph, .account, .fee]
  | .codegen => [.graph, .account, .fee, .output]
  | .build => [.graph, .account, .fee, .network]

end Verb

/-- The account and the fee as they were given. -/
structure FeeOptions where
  account : Option String
  fee : Option String
  deriving DecidableEq

/-- A command with its options. -/
inductive Command where
  | order (graph : String)
  | plan (graph : String) (fees : FeeOptions)
  | codegen (graph : String) (fees : FeeOptions) (output : Option String)
  | build (graph : String) (fees : FeeOptions) (network : Option String) (dryRun : Bool)
  deriving DecidableEq

/-! ### Reading -/

/-- The options that have been read. -/
structure OptionValues where
  values : List (ValueOption × String)
  dryRun : Bool
  /-- More log lines are asked for, on this side of the verb. -/
  verbose : Bool

namespace OptionValues

/-- Nothing has been read. -/
def none : OptionValues :=
  ⟨[], false, false⟩

/-- The value of an option. -/
def get? (f : OptionValues) (o : ValueOption) : Option String :=
  (f.values.find? (·.1 = o)).map Prod.snd

/-- Notes a value, unless the option has one or needs more than an empty one. -/
def set? (f : OptionValues) (o : ValueOption) (value : String) : Option OptionValues :=
  if (f.get? o).isSome ∨ o.isPath ∧ value = "" then .none
  else some { f with values := f.values ++ [(o, value)] }

/-- Notes that more log lines are asked for, once. -/
def setVerbose? (f : OptionValues) : Option OptionValues :=
  if f.verbose then .none else some { f with verbose := true }

/-- Notes that the transaction is not to be committed, once. -/
def setDryRun? (f : OptionValues) : Option OptionValues :=
  if f.dryRun then .none else some { f with dryRun := true }

end OptionValues

/-- What an argument amounts to. -/
inductive CommandLine.Effect where
  /-- The argument is complete. -/
  | complete (f : OptionValues)
  /-- The next argument is the value of this option. -/
  | awaits (o : ValueOption) (f : OptionValues)

namespace CommandLine

/-- Reads a long option: what stands after the two dashes. -/
def readLong? (verb : Option Verb) (f : OptionValues) (text : List Char) : Option Effect :=
  let (name, rest) := text.span (· ≠ '=')
  let name := String.ofList name
  if rest = [] ∧ name = "verbose" then f.setVerbose?.map .complete
  else
    match verb with
    | none => none
    | some verb =>
      if rest = [] ∧ name = "dry-run" ∧ verb = .build then f.setDryRun?.map .complete
      else
        match verb.options.find? (·.long = name) with
        | none => none
        | some o =>
          match rest with
          | [] => some (.awaits o f)
          | _ :: value => (f.set? o (String.ofList value)).map .complete

/-- Reads short options: what stands after the dash. -/
def readShort? (verb : Option Verb) (f : OptionValues) : List Char → Option Effect
  | [] => some (.complete f)
  | c :: cs =>
    if c = 'v' then
      match f.setVerbose? with
      | none => none
      | some f => readShort? verb f cs
    else
      match verb.bind fun verb => verb.options.find? (·.short = c) with
      | none => none
      | some o =>
        match cs with
        | [] => some (.awaits o f)
        | '=' :: value => (f.set? o (String.ofList value)).map .complete
        | value => (f.set? o (String.ofList value)).map .complete

/-- Reads an option, or nothing where the argument is none. -/
def readOption? (verb : Option Verb) (f : OptionValues) (text : String) : Option Effect :=
  match text.toList with
  | '-' :: '-' :: rest => if rest = [] then none else readLong? verb f rest
  | '-' :: rest => if rest = [] then none else readShort? verb f rest
  | _ => none

/-- The argument after which none is an option. -/
def endOfOptions : String := "--"

/-- Starts with a dash and is more than that. -/
def isOption (text : String) : Bool :=
  text.toList.head? = some '-' && text ≠ "-"

/-- Reads arguments in order. -/
def read? : (verb : Option Verb) → OptionValues → List String → Option (Verb × OptionValues)
  | verb, f, [] => verb.map fun verb => (verb, f)
  | verb, f, text :: rest =>
    if text = endOfOptions then
      if rest = [] then verb.map fun verb => (verb, f) else none
    else if isOption text then
      match readOption? verb f text with
      | none => none
      | some (.complete f) => read? verb f rest
      | some (.awaits o f) =>
        match rest with
        | [] => none
        | value :: rest =>
          if isOption value then none
          else
            match f.set? o value with
            | none => none
            | some f => read? verb f rest
    else
      match verb, Verb.ofName? text with
      | none, some verb => read? (some verb) { f with verbose := false } rest
      | _, _ => none

end CommandLine

/-- The command of a verb and its options; every verb needs a graph. -/
def Command.ofOptions? (verb : Verb) (f : OptionValues) : Option Command := do
  let graph ← f.get? .graph
  let fees : FeeOptions := ⟨f.get? .account, f.get? .fee⟩
  match verb with
  | .order => some (.order graph)
  | .plan => some (.plan graph fees)
  | .codegen => some (.codegen graph fees (f.get? .output))
  | .build => some (.build graph fees (f.get? .network) f.dryRun)

/-- The file that a command reads its graph from. -/
def Command.graphPath : Command → String
  | .order graph | .plan graph _ | .codegen graph _ _ | .build graph _ _ _ => graph

/-- The command that a list of arguments spells. -/
def Command.ofArguments? (args : List String) : Option Command := do
  let (verb, f) ← CommandLine.read? none .none args
  Command.ofOptions? verb f

end FlowPlan
