import CodeGraph.Pack.Value

/-!
# Records

A record is read from a map whose keys name its fields, by name or by position, or from
an array of its fields in order.  The entries are looked at one after the other: the
first one that is at fault decides, and only then are missing fields noticed, in the
order in which they are declared.

`Fields α` describes how values of `α` are read; it is built from `required` and
`optional` fields by the applicative operators.
-/

namespace CodeGraph.Pack

/-- A field: its name, other names for it, and what may stand in it. -/
structure Slot where
  name : String
  aliases : List String
  check : Item → Except Fault Unit

/-- How a record is read: its fields, and the value made of those found. -/
structure Fields (α : Type) where
  slots : List Slot
  build : (String → Option Item) → Except Fault α

namespace Fields

variable {α β : Type}

instance : Functor Fields where
  map f a := ⟨a.slots, fun found => (a.build found).map f⟩

instance : Pure Fields where
  pure a := ⟨[], fun _ => .ok a⟩

instance : Seq Fields where
  seq f a :=
    let a := a ()
    ⟨f.slots ++ a.slots, fun found => do
      let g ← f.build found
      let x ← a.build found
      pure (g x)⟩

/-- A field without which there is no record. -/
def required (name : String) (read : Item → Except Fault α) (aliases : List String) :
    Fields α where
  slots := [⟨name, aliases, fun item => (read item).map fun _ => ()⟩]
  build found :=
    match found name with
    | some item => read item
    | none => .error (.missingField name)

/-- A field that has a value of its own when it is absent. -/
def optional (name : String) (read : Item → Except Fault α) (absent : α)
    (aliases : List String) : Fields α where
  slots := [⟨name, aliases, fun item => (read item).map fun _ => ()⟩]
  build found :=
    match found name with
    | some item => read item
    | none => .ok absent

/-! ### Entries -/

/-- The field with a name. -/
def slotNamed? (slots : List Slot) (name : String) : Option Slot :=
  slots.find? fun slot => slot.name == name || slot.aliases.contains name

/-- The field named by a key that is a text, or octets that hold one. -/
def slotByName? (slots : List Slot) (key : Item) : Option Slot :=
  match key.asText with
  | .ok name => slotNamed? slots name
  | .error _ => none

/-- The field that a key stands for, if any: by name, or by position. -/
def slotOf (slots : List Slot) (key : Item) : Except Fault (Option Slot) :=
  match key with
  | .str _ | .bin _ => .ok (slotByName? slots key)
  | .int .u8 n | .int .u64 n => .ok (slots[n.toNat]?)
  | _ => .error .invalidType

/-- What was found in entries: the items of fields by name, and the entries that belong
to no field. -/
structure Found where
  fields : List (String × Item)
  others : List (Item × Item)

/-- What is found after one more entry, whose field is told. -/
def Found.add (found : Found) (entry : Item × Item) : Option Slot → Except Fault Found
  | none => .ok { found with others := found.others ++ [entry] }
  | some slot =>
    if (found.fields.lookup slot.name).isSome then .error (.duplicateField slot.name)
    else
      (slot.check entry.2).map fun _ =>
        { found with fields := (slot.name, entry.2) :: found.fields }

/-- What is found in entries, given which field a key stands for. -/
def collect (slotOf : Item → Except Fault (Option Slot)) (found : Found) :
    List (Item × Item) → Except Fault Found
  | [] => .ok found
  | entry :: entries => do
    let slot ← slotOf entry.1
    let found ← found.add entry slot
    collect slotOf found entries

/-- The record given by the entries of a map; entries that belong to no field are
ignored. -/
def ofEntries (f : Fields α) (entries : List (Item × Item)) : Except Fault α := do
  let found ← collect (slotOf f.slots) ⟨[], []⟩ entries
  f.build (found.fields.lookup ·)

/-- The record given by the items of an array. -/
def ofElements (f : Fields α) (items : List Item) : Except Fault α := do
  let given := f.slots.zip items
  given.forM fun (slot, item) => slot.check item
  let named := given.map fun (slot, item) => (slot.name, item)
  let a ← (f.build (named.lookup ·)).mapError fun _ => .invalidLength
  if f.slots.length < items.length then .error .invalidLength else pure a

/-- The record that an item is. -/
def ofItem (f : Fields α) : Item → Except Fault α
  | .map entries => f.ofEntries entries
  | .arr items => f.ofElements items
  | _ => .error .invalidType

end Fields

/-! ### Writing -/

/-- A field that is written only when it has a value. -/
def fieldIfSome {α : Type} (name : String) (toItem : α → Item) :
    Option α → List (String × Item)
  | some a => [(name, toItem a)]
  | none => []

end CodeGraph.Pack
