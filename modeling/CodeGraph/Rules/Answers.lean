import CodeGraph.Graph.Query
import CodeGraph.Rules.Bindings
import CodeGraph.Rules.Parser
import CodeGraph.Rules.Schedule

/-!
# Answers

The answers to an atom are bindings of its variables.  Built-in predicates ask the graph:

* `node(Id, Type)`, also written `type` : the nodes and their types;
* `edge(Source, Target, Type)` and `incoming(Target, Source, Type)` : the edges;
* `path(Source, Target)` : what can be reached from a given node;
* `attr(Id, Name, Value)` : the name, file, type or a metadata value of a given node;
* `neq`, `starts_with`, `not_starts_with`, `string_contains` : comparisons of two texts.

Every other predicate is derived by rules.  A derivation nests at most `maxNesting`
derived predicates, and `answers` recurses on how many may still be nested.
-/

namespace CodeGraph.Rules

/-- How deep derived predicates may nest. -/
def maxNesting : Nat := 32

/-- How long a path may be. -/
def maxPathLength : Nat := 100

/-! ### Built-in predicates -/

/-- The bindings of a term that should have a given value: a variable takes it, a
constant must be its text. -/
def matchText (value : String) : Term → List Bindings
  | .var name => [.single name (.text value)]
  | .const expected => if expected = value then [∅] else []
  | .anonymous => [∅]

/-- The answers to `node(id, type)`. -/
def nodeAnswers (g : Graph) (id type : Term) : List Bindings :=
  match id, type with
  | .var name, .const pattern =>
    (g.findByType pattern).toList.map fun id => .single name (.node id)
  | .const id, type =>
    match (g.node? (.parse id)).bind Node.type with
    | some value => matchText value type
    | none => []
  | .var name, type =>
    (g.countNodes none).flatMap fun (value, _) =>
      (g.findByType value).toList.map fun id =>
        let binding := Bindings.single name (.node id)
        match type with
        | .var typeName => binding.insert typeName (.text value)
        | _ => binding
  | .anonymous, _ => []

/-- The edges at an anchor, which is their source or, for incoming edges, their target. -/
def anchoredEdges (g : Graph) (incoming : Bool) (anchor : Term) (type : Option Term) :
    List Edge :=
  let wanted := match type with
    | some (.const type) => some type
    | _ => none
  match anchor, incoming with
  | .const id, true => g.incomingEdges (.parse id) (wanted.map ([·]))
  | .const id, false => g.outgoingEdges (.parse id) (wanted.map ([·]))
  | _, false => g.allEdges.filter fun edge => wanted.isNone || edge.type == wanted
  | _, true => []

/-- The binding that an edge gives to the terms for its anchor, its other end and its
type, if it agrees with them. -/
def edgeBinding? (incoming : Bool) (anchor other : Term) (type : Option Term) (edge : Edge) :
    Option Bindings :=
  let (anchorId, otherId) := if incoming then (edge.dst, edge.src) else (edge.src, edge.dst)
  let bound : Bindings := match anchor with
    | .var name => .single name (.node anchorId)
    | _ => ∅
  let ends : Option Bindings := match other with
    | .var name =>
      match bound[name]? with
      | some value => if value = .node otherId then some bound else none
      | none => some (bound.insert name (.node otherId))
    | .const id => if NodeId.parse id = otherId then some bound else none
    | .anonymous => some bound
  match type with
  | some (.var name) => ends.map fun bound => bound.insert name (.text (edge.type.getD ""))
  | _ => ends

/-- The answers to `edge` and `incoming`. -/
def edgeAnswers (g : Graph) (incoming : Bool) (anchor other : Term) (type : Option Term) :
    List Bindings :=
  (anchoredEdges g incoming anchor type).filterMap (edgeBinding? incoming anchor other type)

/-- The answers to `path(source, target)`. -/
def pathAnswers (g : Graph) (source target : Term) : List Bindings :=
  match source with
  | .const source =>
    let source := NodeId.parse source
    let reached := (g.reach [source] maxPathLength []).filter (· ≠ source)
    match target with
    | .var name => reached.map fun id => .single name (.node id)
    | .const id => if reached.contains (.parse id) then [∅] else []
    | .anonymous => if reached.isEmpty then [] else [∅]
  | _ => []

/-- The value of an attribute of a node: its name, its file, its type, or what its
metadata gives to any other name. -/
def attribute? (node : Node) : String → Option String
  | "name" => node.name
  | "file" => node.file
  | "type" => node.type
  | name => node.metadata?.bind (metadataValue? · name)

/-- The answers to `attr(id, name, value)`. -/
def attrAnswers (g : Graph) (id name value : Term) : List Bindings :=
  match id, name with
  | .const id, .const name =>
    match (g.node? (.parse id)).bind (attribute? · name) with
    | some found => matchText found value
    | none => []
  | _, _ => []

/-- The answers to a comparison of two texts. -/
def comparisonAnswers (holds : String → String → Bool) : List Term → List Bindings
  | .const a :: .const b :: _ => if holds a b then [∅] else []
  | _ => []

/-- Whether a text occurs in another. -/
def occursIn (part : List Char) (whole : List Char) : Bool :=
  part.isPrefixOf whole ||
    match whole with
    | [] => false
    | _ :: rest => occursIn part rest

/-- The built-in predicates. -/
def builtins : List String :=
  ["node", "type", "edge", "incoming", "path", "attr", "neq", "starts_with",
    "not_starts_with", "string_contains"]

/-- The answers to an atom with a built-in predicate; an atom with too few terms has
none. -/
def builtinAnswers (g : Graph) (atom : Atom) : List Bindings :=
  match atom.predicate, atom.args with
  | "node", id :: type :: _ | "type", id :: type :: _ => nodeAnswers g id type
  | "edge", source :: target :: rest => edgeAnswers g false source target rest.head?
  | "incoming", target :: source :: rest => edgeAnswers g true target source rest.head?
  | "path", source :: target :: _ => pathAnswers g source target
  | "attr", id :: name :: value :: _ => attrAnswers g id name value
  | "neq", args => comparisonAnswers (fun a b => a != b) args
  | "starts_with", args => comparisonAnswers (fun a b => b.toList.isPrefixOf a.toList) args
  | "not_starts_with", args =>
    comparisonAnswers (fun a b => !b.toList.isPrefixOf a.toList) args
  | "string_contains", args => comparisonAnswers (fun a b => occursIn b.toList a.toList) args
  | _, _ => []

/-! ### Conjunctions -/

/-- What becomes of one binding when a literal is asked. -/
def ask (answers : Atom → List Bindings) (literal : Literal) (bindings : Bindings) :
    List Bindings :=
  let found := answers (literal.atom.bind bindings)
  match literal with
  | .positive _ => found.filterMap bindings.extend?
  | .negative _ => if found.isEmpty then [bindings] else []

/-- What becomes of bindings when literals are asked in order. -/
def askAll (answers : Atom → List Bindings) :
    (literals : List Literal) → List Bindings → List Bindings
  | [], current => current
  | l :: ls, current => askAll answers ls (current.flatMap (ask answers l))

/-- The answers to a conjunction, or the literals that cannot be scheduled. -/
def conjunction (answers : Atom → List Bindings) (literals : List Literal) :
    Except (List Literal) (List Bindings) :=
  (schedule literals).map fun ordered => askAll answers ordered [∅]

/-! ### Derived predicates -/

/-- The values that a goal gives to variables of a head, the first of several winning. -/
def seed (head goal : Atom) : Bindings :=
  (head.args.zip goal.args).foldl (fun found pair =>
    match pair with
    | (.var name, .const value) => found.insertIfNew name (.text value)
    | _ => found) ∅

/-- The value of a term of a head. -/
def headValue? (bindings : Bindings) : Term → Option Value
  | .var name => bindings[name]?
  | .const value => some (.text value)
  | .anonymous => none

/-- Whether a value is the one that a constant of a goal names. -/
def Value.isNamed (expected : String) : Value → Bool
  | .node id => NodeId.parse expected == id
  | .text value => value == expected

/-- The bindings of a goal after one more of its terms has been given a value. -/
def project1? (bindings : Bindings) (found : Bindings) (pair : Term × Term) :
    Option Bindings :=
  match pair.2, headValue? bindings pair.1 with
  | .var name, some value =>
    match found[name]? with
    | some other => if other = value then some found else none
    | none => some (found.insert name value)
  | .const expected, some value => if value.isNamed expected then some found else none
  | _, _ => some found

/-- The bindings that a solution of a body gives to a goal, if the head agrees with it. -/
def project? (head goal : Atom) (bindings : Bindings) : Option Bindings :=
  (head.args.zip goal.args).foldlM (project1? bindings) ∅

/-- The answers that one rule gives to a goal.  The constants of the goal are put into
the rule first; a body that cannot be scheduled gives no answers. -/
def ruleAnswers (answers : Atom → List Bindings) (goal : Atom) (rule : Rule) :
    List Bindings :=
  let seed := seed rule.head goal
  let head := rule.head.bind seed
  let body := rule.body.map (Literal.map (Atom.bind seed))
  let solutions := if body.isEmpty then .ok [∅] else conjunction answers body
  match solutions with
  | .ok solutions => solutions.filterMap (project? head goal)
  | .error _ => []

/-- The answers to an atom when derived predicates may nest `depth` deep. -/
def answers (g : Graph) (program : List Rule) : (depth : Nat) → Atom → List Bindings
  | 0, goal => if builtins.contains goal.predicate then builtinAnswers g goal else []
  | depth + 1, goal =>
    if builtins.contains goal.predicate then builtinAnswers g goal
    else
      (program.filter (·.head.predicate == goal.predicate)).flatMap
        (ruleAnswers (answers g program depth) goal)

/-! ### Asking a graph -/

/-- Why a question was refused. -/
inductive QueryError where
  | badRules (error : SyntaxError)
  | badQuery (error : SyntaxError)
  | unschedulable (literals : List Literal)
deriving DecidableEq

/-- The text of a refusal. -/
def QueryError.message : QueryError → String
  | badRules error => s!"Datalog parse error: {error.message}"
  | badQuery error => s!"Datalog query parse error: {error.message}"
  | unschedulable literals =>
    "cannot order literals, unbound inputs in: " ++
      String.intercalate ", " (literals.map (·.atom.text))

/-- The answers to a single atom. -/
def goalAnswers (g : Graph) (program : List Rule) (goal : Atom) : List Bindings :=
  answers g program maxNesting goal

/-- The answers to a conjunction of literals. -/
def queryAnswers (g : Graph) (program : List Rule) (literals : List Literal) :
    Except QueryError (List Bindings) :=
  (conjunction (goalAnswers g program) literals).mapError .unschedulable

/-- The answers to a query. -/
def runQuery (g : Graph) (program : List Rule) (query : String) :
    Except QueryError (List Bindings) :=
  match parseQuery query with
  | .ok literals => queryAnswers g program literals
  | .error error => .error (.badQuery error)

/-- What violates a guarantee: the answers to `violation(X)` under its rules. -/
def checkGuarantee (g : Graph) (source : String) : Except QueryError (List Bindings) :=
  match parseProgram source with
  | .ok program => .ok (goalAnswers g program ⟨"violation", [.var "X"]⟩)
  | .error error => .error (.badRules error)

/-- The answers to a source: rules are answered through the head of the first one, and
anything else is taken as a query. -/
def execute (g : Graph) (program : List Rule) (source : String) :
    Except QueryError (List Bindings) :=
  match parseProgram source with
  | .ok (first :: rest) => .ok (goalAnswers g (program ++ first :: rest) first.head)
  | _ => runQuery g program source

end CodeGraph.Rules
