import FlowPlan.Json.Double

/-!
# Json — document trees

A JSON document as it is written: the members of an object keep their order, and a key may come
more than once.  Whole numbers from `-2^63` to `2^64 - 1` are integers; every other number is a
double.
-/

namespace FlowPlan

/-- A JSON document. -/
inductive Json where
  | null
  | bool (b : Bool)
  | int (i : Int)
  | double (x : Double)
  | str (s : String)
  | arr (items : List Json)
  | obj (members : List (String × Json))
  deriving Inhabited

namespace Json

/-! ### Equality is decidable -/

mutual

private def decideEq : (x y : Json) → Decidable (x = y)
  | .null, y => match y with
    | .null => isTrue rfl
    | .bool _ | .int _ | .double _ | .str _ | .arr _ | .obj _ => isFalse nofun
  | .bool a, y => match y with
    | .bool b => decidable_of_iff (a = b) ⟨congrArg _, Json.bool.inj⟩
    | .null | .int _ | .double _ | .str _ | .arr _ | .obj _ => isFalse nofun
  | .int a, y => match y with
    | .int b => decidable_of_iff (a = b) ⟨congrArg _, Json.int.inj⟩
    | .null | .bool _ | .double _ | .str _ | .arr _ | .obj _ => isFalse nofun
  | .double a, y => match y with
    | .double b => decidable_of_iff (a = b) ⟨congrArg _, Json.double.inj⟩
    | .null | .bool _ | .int _ | .str _ | .arr _ | .obj _ => isFalse nofun
  | .str a, y => match y with
    | .str b => decidable_of_iff (a = b) ⟨congrArg _, Json.str.inj⟩
    | .null | .bool _ | .int _ | .double _ | .arr _ | .obj _ => isFalse nofun
  | .arr xs, y => match y with
    | .arr ys => match decideEqItems xs ys with
      | isTrue h => isTrue (congrArg _ h)
      | isFalse h => isFalse fun e => h (Json.arr.inj e)
    | .null | .bool _ | .int _ | .double _ | .str _ | .obj _ => isFalse nofun
  | .obj xs, y => match y with
    | .obj ys => match decideEqMembers xs ys with
      | isTrue h => isTrue (congrArg _ h)
      | isFalse h => isFalse fun e => h (Json.obj.inj e)
    | .null | .bool _ | .int _ | .double _ | .str _ | .arr _ => isFalse nofun

private def decideEqItems : (xs ys : List Json) → Decidable (xs = ys)
  | [], [] => isTrue rfl
  | [], _ :: _ => isFalse nofun
  | _ :: _, [] => isFalse nofun
  | x :: xs, y :: ys => match decideEq x y, decideEqItems xs ys with
    | isTrue h, isTrue t => isTrue (by rw [h, t])
    | isFalse h, _ => isFalse fun e => h (List.cons.inj e).1
    | _, isFalse t => isFalse fun e => t (List.cons.inj e).2

private def decideEqMembers : (xs ys : List (String × Json)) → Decidable (xs = ys)
  | [], [] => isTrue rfl
  | [], _ :: _ => isFalse nofun
  | _ :: _, [] => isFalse nofun
  | (k, x) :: xs, (l, y) :: ys =>
    if key : k = l then
      match decideEq x y, decideEqMembers xs ys with
      | isTrue h, isTrue t => isTrue (by rw [key, h, t])
      | isFalse h, _ => isFalse fun e => h (Prod.mk.inj (List.cons.inj e).1).2
      | _, isFalse t => isFalse fun e => t (List.cons.inj e).2
    else isFalse fun e => key (Prod.mk.inj (List.cons.inj e).1).1

end

instance : DecidableEq Json := decideEq

/-! ### Building -/

/-- A value, or `null` for none. -/
def ofOption {α : Type} (write : α → Json) : Option α → Json
  | some a => write a
  | none => .null

/-- The member of this name, or no member for none. -/
def member? {α : Type} (name : String) (write : α → Json) : Option α → List (String × Json)
  | some a => [(name, write a)]
  | none => []

/-- A list of strings. -/
def strings (ss : List String) : Json :=
  .arr (ss.map .str)

end Json

end FlowPlan
