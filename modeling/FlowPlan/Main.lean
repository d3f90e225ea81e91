import FlowPlan.Command.Basic

/-!
# The program

Reads what a command needs from the file system and the environment, runs it, and puts its outcome
where it belongs.
-/

namespace FlowPlan

/-- The text of a file, where it can be read as text. -/
def readText (path : String) : IO (Option String) := do
  try
    let text ← IO.FS.readFile path
    return some text
  catch _ => return none

/-- The surroundings of a command that reads one file. -/
def surroundingsOf (path : String) : IO Surroundings := do
  let text ← readText path
  let account ← IO.getEnv accountVariable
  let fee ← IO.getEnv feeVariable
  let network ← IO.getEnv networkVariable
  let settings := [(accountVariable, account), (feeVariable, fee), (networkVariable, network)]
  return {
    file := fun name => if name = path then text else none
    variableValue := fun name => (settings.find? (·.1 = name)).bind Prod.snd }

/-- Prints what an outcome prints, and gives the exit code. -/
def report (outcome : Outcome) : IO UInt32 := do
  IO.print outcome.output
  IO.eprint outcome.errorText
  return UInt32.ofNat outcome.exitCode

/-- Puts an outcome where it belongs, and gives the exit code. -/
def deliver (outcome : Outcome) : IO UInt32 := do
  match outcome.written with
  | none => report outcome
  | some (path, text) =>
    try
      IO.FS.writeFile path text
      report outcome
    catch _ => report (.unwritable path)

end FlowPlan

def main (args : List String) : IO UInt32 := do
  match FlowPlan.Command.ofArguments? args with
  | none => FlowPlan.deliver .badUsage
  | some command =>
    let surroundings ← FlowPlan.surroundingsOf command.graphPath
    FlowPlan.deliver (command.run surroundings)
