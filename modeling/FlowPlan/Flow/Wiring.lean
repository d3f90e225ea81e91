import FlowPlan.Flow.Graph
import FlowPlan.Text.Blank
import FlowPlan.Text.Numeral

/-!
# Flow — wiring

The rules that an editor asks before it draws an edge.  They keep what planning relies on: at most
one edge lands on a handle, at most one control edge leaves a node, and a data edge carries exactly
the type that its input declares.

* `FlowGraph.checkConnection`: whether the rules accept a connection, and the rule it breaks.
* `FlowGraph.connect`: the graph in which an accepted connection is drawn.  A connection from a
  bank's `new-input-param` handle declares a parameter first and leaves from that.
* `nextAvailable`: a name, made unused by the least number that does so.
* `isValidBankTitle`: the titles that can name a bank.
-/

namespace FlowPlan

/-- The rule that a connection breaks. -/
inductive ConnectionError where
  | missingHandle
  | selfConnection (node : NodeId)
  | unknownNode (node : NodeId)
  | targetNotOperation (node : NodeId)
  | exitTaken (node : NodeId)
  | inputTaken (node : NodeId) (handle : String)
  | unknownInput (node : NodeId) (handle : String)
  | unknownOutput (node : NodeId) (handle : String)
  | typeMismatch (expected actual : ParamType)
  /-- A receiver comes from a bank only. -/
  | receiverFromOperation (node : NodeId)
  deriving DecidableEq

/-- The wording of a broken rule. -/
def ConnectionError.message : ConnectionError → String
  | .missingHandle => "connection is missing a handle"
  | .selfConnection node => "node '" ++ node ++ "' cannot connect to itself"
  | .unknownNode node => "unknown node '" ++ node ++ "'"
  | .targetNotOperation node => "node '" ++ node ++ "' does not accept incoming connections"
  | .exitTaken node => "exit of '" ++ node ++ "' is already connected"
  | .inputTaken node handle => "handle '" ++ handle ++ "' of '" ++ node ++ "' is already connected"
  | .unknownInput node handle => "node '" ++ node ++ "' has no input named '" ++ handle ++ "'"
  | .unknownOutput node handle => "node '" ++ node ++ "' has no output handle '" ++ handle ++ "'"
  | .typeMismatch expected actual =>
    "type mismatch: " ++ actual.display ++ " cannot feed " ++ expected.display
  | .receiverFromOperation node =>
    "component address of '" ++ node ++ "' can only be supplied by an input bank"

/-- Why a graph could not be edited. -/
inductive EditError where
  | nodeNotFound (id : NodeId)
  | invalidConnection (reason : ConnectionError)
  deriving DecidableEq

/-- The wording of a failed edit. -/
def EditError.message : EditError → String
  | .nodeNotFound id => "node not found: '" ++ id ++ "'"
  | .invalidConnection reason => "invalid connection: " ++ reason.message

/-! ### Names -/

/-- The name followed by the least number from `k` on that makes it unused, among the next
`steps` numbers. -/
def numberedName (name : String) (taken : List String) (k : Nat) : (steps : Nat) → String
  | 0 => name ++ String.ofList (Text.natural k)
  | steps + 1 =>
    let candidate := name ++ String.ofList (Text.natural k)
    if candidate ∈ taken then numberedName name taken (k + 1) steps else candidate

/-- The name if it is unused, else the name followed by the least positive number that makes it
so.  As many numbers as there are names taken are enough to find one. -/
def nextAvailable (name : String) (taken : List String) : String :=
  if name ∈ taken then numberedName name taken 1 taken.length else name

/-- A title that can name a bank: it starts with an ASCII letter, holds no blank, and is not the
title of another bank. -/
def isValidBankTitle (g : FlowGraph) (bank : NodeId) (title : String) : Bool :=
  title.toList.head?.any Char.isAlpha && !title.toList.any Text.isBlank &&
    !g.inputBanks.any fun other => other.id ≠ bank && other.title = title

/-! ### The rules -/

namespace FlowGraph

/-- The rules of a connection from an exit to an entry. -/
def checkControl (g : FlowGraph) (source : Node) (target : OperationNode) :
    Except ConnectionError Unit :=
  if !source.operation?.any OperationNode.hasExit then
    .error (.unknownOutput source.id Handle.exit)
  else if !target.hasEntry then .error (.unknownInput target.id Handle.entry)
  else if g.edges.any (·.leaves source.id Handle.exit) then .error (.exitTaken source.id)
  else if g.isConnected target.id Handle.entry then .error (.inputTaken target.id Handle.entry)
  else .ok ()

/-- The carried type is the one that an input declares. -/
def checkType (input : Input) (carried : ParamType) : Except ConnectionError Unit :=
  if carried = input.type then .ok () else .error (.typeMismatch input.type carried)

/-- The rules of a connection from a bank to an input. -/
def checkSupply (g : FlowGraph) (bank : InputBank) (sourceHandle : String) (target : OperationNode)
    (targetHandle : String) : Except ConnectionError Unit :=
  if g.isConnected target.id targetHandle then .error (.inputTaken target.id targetHandle)
  else if sourceHandle = Handle.newInputParam then
    match target.input? targetHandle with
    | none => .error (.unknownInput target.id targetHandle)
    | some _ => .ok ()
  else
    match bank.param? sourceHandle with
    | none => .error (.unknownOutput bank.id sourceHandle)
    | some param =>
      match target.input? targetHandle with
      | none => .error (.unknownInput target.id targetHandle)
      | some input => checkType input param.type

/-- The rules of a connection from an operation to an input. -/
def checkFeed (g : FlowGraph) (producer : OperationNode) (sourceHandle : String)
    (target : OperationNode) (targetHandle : String) : Except ConnectionError Unit :=
  match target.input? targetHandle with
  | none => .error (.unknownInput target.id targetHandle)
  | some input =>
    if g.isConnected target.id targetHandle then .error (.inputTaken target.id targetHandle)
    else if input.role = .receiver then .error (.receiverFromOperation target.id)
    else
      match producer.output.bind (·.handleType? sourceHandle) with
      | none => .error (.unknownOutput producer.id sourceHandle)
      | some carried => checkType input carried

/-- The rules of a connection between two nodes, handle to handle. -/
def checkEnds (g : FlowGraph) (source : Node) (sourceHandle : String) (target : OperationNode)
    (targetHandle : String) : Except ConnectionError Unit :=
  if sourceHandle = Handle.exit ∧ targetHandle = Handle.entry then g.checkControl source target
  else
    match source with
    | .inputBank bank => g.checkSupply bank sourceHandle target targetHandle
    | .operation producer => g.checkFeed producer sourceHandle target targetHandle

/-- Whether the rules accept a connection. -/
def checkConnection (g : FlowGraph) (c : Connection) : Except ConnectionError Unit :=
  match c.sourceHandle, c.targetHandle with
  | some sourceHandle, some targetHandle =>
    if c.source = c.target then .error (.selfConnection c.source)
    else
      match g.node? c.source with
      | none => .error (.unknownNode c.source)
      | some source =>
        match g.node? c.target with
        | none => .error (.unknownNode c.target)
        | some (.inputBank _) => .error (.targetNotOperation c.target)
        | some (.operation target) => g.checkEnds source sourceHandle target targetHandle
  | _, _ => .error .missingHandle

/-! ### Drawing the edge -/

/-- What a parameter that is declared for an input is called, before it is made unused. -/
def baseName (input : Input) : String :=
  if input.role = .receiver then "componentAddress" else input.name

/-- The parameter that a bank declares for an input. -/
def spawnedParam (bank : InputBank) (input : Input) (fresh : ParamId) : BankParam where
  id := fresh
  name := nextAvailable (baseName input) (bank.params.map BankParam.name)
  type := input.type

/-- The graph in which a bank declares a parameter for an input and feeds the input from it. -/
def spawn (g : FlowGraph) (bank : InputBank) (target : OperationNode) (input : Input)
    (fresh : ParamId) (targetHandle : String) : FlowGraph :=
  let param := spawnedParam bank input fresh
  (g.replaceNode (.inputBank { bank with params := bank.params ++ [param] })).addEdge
    (.between bank.id param.id target.id targetHandle)

/-- Draws an edge that the rules have accepted. -/
def draw (g : FlowGraph) (fresh : ParamId) (c : Connection) : Except EditError FlowGraph :=
  if c.sourceHandle = some Handle.newInputParam then
    match g.inputBank? c.source, g.operation? c.target with
    | some bank, some target =>
      let targetHandle := c.targetHandle.getD ""
      match target.input? targetHandle with
      | some input => .ok (g.spawn bank target input fresh targetHandle)
      | none => .error (.nodeNotFound c.target)
    | _, _ => .ok (g.addEdge c.toEdge)
  else .ok (g.addEdge c.toEdge)

/-- The graph in which a connection is drawn, if the rules accept it.  A parameter that has to be
declared for it gets the identifier `fresh`. -/
def connect (g : FlowGraph) (fresh : ParamId) (c : Connection) : Except EditError FlowGraph :=
  match g.checkConnection c with
  | .error reason => .error (.invalidConnection reason)
  | .ok () => g.draw fresh c

end FlowGraph

end FlowPlan
