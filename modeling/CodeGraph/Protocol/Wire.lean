import CodeGraph.Pack.Fields
import CodeGraph.Pack.Json

/-!
# What clients write

Clients name nodes by strings.  The types of this module are nodes, edges, queries and
field declarations as they travel in messages, with their fields in the order in which
they are written.
-/

namespace CodeGraph.Wire

open Pack

/-- A node in a message.  An explicit semantic name takes precedence over the name. -/
structure Node where
  id : String
  semanticId : Option String
  type : Option String
  name : Option String
  file : Option String
  exported : Bool
  metadata : Option String
deriving DecidableEq

/-- An edge in a message. -/
structure Edge where
  src : String
  dst : String
  type : Option String
  metadata : Option String
deriving DecidableEq

/-- A query in a message.  Further keys ask for metadata values. -/
structure Query where
  type : Option String
  name : Option String
  file : Option String
  exported : Option Bool
  extra : Std.ExtTreeMap String Json

/-- A declaration of a field in a message. -/
structure Field where
  name : String
  type : Option String
  nodeTypes : Option (List String)
deriving DecidableEq

/-! ### Reading -/

/-- A text that must be there. -/
def text (name : String) (aliases : List String := []) : Fields String :=
  .required name Item.asText aliases

/-- A text that may be absent. -/
def text? (name : String) (aliases : List String := []) : Fields (Option String) :=
  .optional name (Item.asOption Item.asText) none aliases

/-- A truth value that is false when it is absent. -/
def flag (name : String) : Fields Bool :=
  .optional name Item.asBool false []

/-- Texts that may be absent. -/
def texts? (name : String) : Fields (Option (List String)) :=
  .optional name (Item.asOption (Item.asList Item.asText)) none []

/-- How nodes are read. -/
def Node.fields : Fields Node :=
  Node.mk <$> text "id" <*> text? "semanticId" <*> text? "type" ["nodeType"] <*> text? "name"
    <*> text? "file" <*> flag "exported" <*> text? "metadata"

/-- How edges are read. -/
def Edge.fields : Fields Edge :=
  Edge.mk <$> text "src" <*> text "dst" <*> text? "edgeType" ["type"] <*> text? "metadata"

/-- How field declarations are read. -/
def Field.fields : Fields Field :=
  Field.mk <$> text "name" <*> text? "fieldType" <*> texts? "nodeTypes"

/-- How the attributes of a query are read, the further keys being known. -/
def Query.fields (extra : Std.ExtTreeMap String Json) : Fields Query :=
  (fun type name file exported => Query.mk type name file exported extra) <$>
    text? "nodeType" ["type"] <*> text? "name" <*> text? "file" <*>
    .optional "exported" (Item.asOption Item.asBool) none []

/-- The attribute of a query that a key stands for; keys have to be texts, but numbers
are noticed only after all attributes. -/
def Query.slotOf (key : Item) : Except Fault (Option Slot) :=
  match key with
  | .str _ | .bin _ => .ok (Fields.slotByName? (Query.fields ∅).slots key)
  | .int .u8 _ | .int .u64 _ => .ok none
  | _ => .error .invalidType

/-- The query that an item is. -/
def Query.ofItem : Item → Except Fault Query
  | .map entries => do
    let found ← Fields.collect Query.slotOf ⟨[], []⟩ entries
    let extra ← found.others.mapM fun (key, item) => do
      let key ← key.asText
      let value ← Json.ofItem item
      pure (key, value)
    (Query.fields (.ofList extra)).build (found.fields.lookup ·)
  | _ => .error .invalidType

/-! ### Writing -/

/-- A node as it is written; absent parts are left out. -/
def Node.toItem (node : Node) : Item :=
  .record ([("id", .str node.id)] ++ fieldIfSome "semanticId" .str node.semanticId ++
    fieldIfSome "type" .str node.type ++ fieldIfSome "name" .str node.name ++
    fieldIfSome "file" .str node.file ++
    (if node.exported then [("exported", .bool true)] else []) ++
    fieldIfSome "metadata" .str node.metadata)

/-- An edge as it is written; absent parts are left out. -/
def Edge.toItem (edge : Edge) : Item :=
  .record ([("src", .str edge.src), ("dst", .str edge.dst)] ++
    fieldIfSome "edgeType" .str edge.type ++ fieldIfSome "metadata" .str edge.metadata)

/-- A query as it is written; absent parts are left out and further keys come last. -/
def Query.toItem (query : Query) : Item :=
  .record (fieldIfSome "nodeType" .str query.type ++ fieldIfSome "name" .str query.name ++
    fieldIfSome "file" .str query.file ++ fieldIfSome "exported" .bool query.exported ++
    query.extra.toList.map fun (key, value) => (key, value.toItem .shortest))

/-- A field declaration as it is written; absent parts are left out. -/
def Field.toItem (field : Field) : Item :=
  .record ([("name", .str field.name)] ++ fieldIfSome "fieldType" .str field.type ++
    fieldIfSome "nodeTypes" .ofTexts field.nodeTypes)

end CodeGraph.Wire
