import FlowPlan.Json.Basic

/-!
# Transaction — networks

The ledger networks that a transaction can be built for.  Names are read without regard to the
case of ASCII letters.
-/

namespace FlowPlan

/-- A ledger network. -/
inductive Network where
  | mainNet
  | stageNet
  | nextNet
  | localNet
  | igor
  | esmeralda
  deriving DecidableEq

namespace Network

/-- The networks. -/
def all : List Network :=
  [.mainNet, .stageNet, .nextNet, .localNet, .igor, .esmeralda]

/-- The name of a network. -/
def name : Network → String
  | .mainNet => "MainNet"
  | .stageNet => "StageNet"
  | .nextNet => "NextNet"
  | .localNet => "LocalNet"
  | .igor => "Igor"
  | .esmeralda => "Esmeralda"

/-- The byte that stands for a network on the wire. -/
def byte : Network → UInt8
  | .mainNet => 0x00
  | .stageNet => 0x01
  | .nextNet => 0x02
  | .localNet => 0x10
  | .igor => 0x24
  | .esmeralda => 0x26

/-- The network that is meant where none is named. -/
def default : Network := .localNet

/-- A text without regard to the case of ASCII letters. -/
def foldCase (name : String) : List Char :=
  name.toList.map Char.toLower

/-- The network of a name. -/
def ofName? (name : String) : Option Network :=
  all.find? fun n => foldCase n.name = foldCase name

/-- The wording for a name that is no network's. -/
def unknownMessage (name : String) : String :=
  "invalid network '" ++ name ++ "', expected " ++ "/".intercalate (all.map Network.name)

end Network

end FlowPlan
