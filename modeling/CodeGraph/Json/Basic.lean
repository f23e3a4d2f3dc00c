import CodeGraph.Decimal.Binary64
import Std.Data.ExtTreeMap

/-!
# JSON values

Objects keep their members sorted by key, each key once; `Json.object` builds one from
members in any order, the last of several members with one key winning.
-/

namespace CodeGraph

/-- A JSON value.  Integers and floating-point numbers are told apart. -/
inductive Json where
  | null
  | bool (value : Bool)
  | int (value : Int)
  | float (value : Binary64)
  | str (value : String)
  | arr (items : List Json)
  | obj (members : List (String × Json))
deriving Inhabited

namespace Json

/-- Members sorted by key, the last of equal keys winning. -/
def sortMembers (members : List (String × Json)) : List (String × Json) :=
  (Std.ExtTreeMap.ofList members).toList

/-- The object with the given members. -/
def object (members : List (String × Json)) : Json :=
  .obj (sortMembers members)

/-- The member of an object under a key; other values have no members. -/
def member? (key : String) : Json → Option Json
  | .obj members => members.lookup key
  | _ => none

/-- The text of a string value. -/
def asString? : Json → Option String
  | .str s => some s
  | _ => none

/-- The value of a truth value. -/
def asBool? : Json → Option Bool
  | .bool b => some b
  | _ => none

/-- The value of an integer that is not negative. -/
def asNat? : Json → Option Nat
  | .int (.ofNat n) => some n
  | _ => none

/-- Whether the value is `null`. -/
def isNull : Json → Bool
  | .null => true
  | _ => false

end Json

end CodeGraph
