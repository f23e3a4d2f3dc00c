import CodeGraph.Pack.Fault
import CodeGraph.Pack.Item
import Std.Data.ExtTreeMap

/-!
# Typed values

Readers that take an item for a value of some type.  A text may also be given as octets
that hold one, and an integer in any form as long as it is in range; nothing else is
converted.
-/

namespace CodeGraph.Pack.Item

/-- A text. -/
def asText : Item → Except Fault String
  | .str s => .ok s
  | .bin content =>
    match Utf8.decode? content with
    | some s => .ok s
    | none => .error .invalidValue
  | _ => .error .invalidType

/-- A truth value. -/
def asBool : Item → Except Fault Bool
  | .bool value => .ok value
  | _ => .error .invalidType

/-- A number that fits into `width` octets. -/
def asNat (width : Nat) : Item → Except Fault Nat
  | .int _ n =>
    if 0 ≤ n ∧ n < Bytes.bound width then .ok n.toNat else .error .invalidValue
  | _ => .error .invalidType

/-- A value that may be absent. -/
def asOption {α : Type} (read : Item → Except Fault α) : Item → Except Fault (Option α)
  | .nil => .ok none
  | item => (read item).map some

/-- A list of values. -/
def asList {α : Type} (read : Item → Except Fault α) : Item → Except Fault (List α)
  | .arr items => items.mapM read
  | _ => .error .invalidType

/-- A text under a key. -/
def asTextEntry (entry : Item × Item) : Except Fault (String × String) := do
  let key ← entry.1.asText
  let value ← entry.2.asText
  pure (key, value)

/-- Texts under keys; of equal keys the last wins. -/
def asTextMap : Item → Except Fault (Std.ExtTreeMap String String)
  | .map entries => (entries.mapM asTextEntry).map fun pairs => Std.ExtTreeMap.ofList pairs
  | _ => .error .invalidType

/-- The map of texts under keys. -/
def ofTextMap (map : Std.ExtTreeMap String String) : Item :=
  record (map.toList.map fun (key, value) => (key, .str value))

end CodeGraph.Pack.Item
