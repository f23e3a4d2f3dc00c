import Mathlib
import CodeGraph.Proofs.NodeId
import CodeGraph.Proofs.Rules.Conjunction
import CodeGraph.Proofs.Rules.Unify

/-!
# Kinds of variables

A bound variable stands in an atom by its text only, so an atom means the same before and
after a variable is bound only if the text tells which value the variable has.  Where every
variable has a *kind* it does: a variable of kind `node` takes nodes, one of kind `text`
takes texts, and one of kind `label` takes texts that, read as patterns, fit no type but
themselves.

`Fits` says which atoms respect the kinds of their variables.  A type that is asked for
together with a variable for the node must be a label, since it is a pattern as long as the
node is free and is compared literally afterwards.  An untyped edge has the empty type when
its source is known and no type at all otherwise.  The name of an attribute must not be a
variable, because nothing makes it wait for its value.  Derived predicates have a kind for
each of their arguments.
-/

namespace CodeGraph.Rules

/-- A text, read as a pattern, fits at most the type that it spells. -/
def IsLabel (g : Graph) (pattern : String) : Prop :=
  ∀ (id : NodeId) (node : Node) (type : String), g.nodes[id]? = some node →
    node.type = some type → typeMatches pattern type → pattern = type

/-- A kind of values. -/
inductive Kind where
  | node
  | text
  | label
deriving DecidableEq

namespace Kind

/-- A value is of a kind. -/
def Admits (g : Graph) : Kind → Value → Prop
  | node, .node _ => True
  | text, .text _ => True
  | label, .text s => IsLabel g s
  | _, _ => False

/-- A constant may stand where a value of a kind is expected. -/
def Allows (g : Graph) (kind : Kind) (c : String) : Prop :=
  kind = label → IsLabel g c

variable {g : Graph} {kind : Kind} {v w : Value}

/-- A constant names a value of a kind when it is the text of that value, provided that it
is the text of some value of this kind. -/
lemma Admits.isNamed_iff (hv : kind.Admits g v) (hw : kind.Admits g w) :
    v.isNamed w.asText ↔ w = v := by
  cases v with
  | node id =>
    cases w with
    | node other => simp [Value.isNamed, Value.asText]
    | text s => cases kind <;> first | exact hv.elim | exact hw.elim
  | text s =>
    cases w with
    | node id => cases kind <;> first | exact hv.elim | exact hw.elim
    | text t =>
      simp only [Value.isNamed, Value.asText, beq_iff_eq, Value.text.injEq]
      exact eq_comm

lemma Admits.isNamed_self (hv : kind.Admits g v) : v.isNamed v.asText :=
  (hv.isNamed_iff hv).2 rfl

lemma Admits.eq_of_asText (hv : kind.Admits g v) (hw : kind.Admits g w)
    (h : v.asText = w.asText) : v = w :=
  (hw.isNamed_iff hv).1 (h ▸ hw.isNamed_self)

lemma Admits.allows (hv : kind.Admits g v) : kind.Allows g v.asText := by
  rintro rfl
  cases v with
  | node id => exact hv.elim
  | text s => exact hv

end Kind

/-! ### Terms -/

namespace Term

/-- A term is for values of a kind: a variable of this kind, or a constant that may stand
for one. -/
def Has (g : Graph) (Γ : String → Kind) (kind : Kind) : Term → Prop
  | var x => Γ x = kind
  | const c => kind.Allows g c
  | anonymous => True

/-- A term can be given a value: if it is a variable, the value is of its kind. -/
def Takes (g : Graph) (Γ : String → Kind) (v : Value) : Term → Prop
  | var x => (Γ x).Admits g v
  | _ => True

variable {g : Graph} {Γ : String → Kind} {kind : Kind} {v : Value} {term : Term} {b : Bindings}

lemma Has.takes_node (h : term.Has g Γ .node) (id : NodeId) : term.Takes g Γ (.node id) := by
  cases term with
  | var x =>
    rw [Takes, show Γ x = .node from h]
    trivial
  | const c => trivial
  | anonymous => trivial

lemma Has.bind (h : term.Has g Γ kind)
    (hb : ∀ {x : String} {v : Value}, b[x]? = some v → (Γ x).Allows g v.asText) :
    (term.bind b).Has g Γ kind := by
  cases term with
  | var x =>
    cases hx : b[x]? with
    | none => simpa [Term.bind, hx] using h
    | some v =>
      obtain rfl : Γ x = kind := h
      simpa [Term.bind, hx, Has] using hb hx
  | const c => exact h
  | anonymous => trivial

/-- What holds of a term that may be missing holds of the bound term. -/
lemma forall_mem_map_bind {P : Term → Prop} {type : Option Term}
    (hP : ∀ {term : Term}, P term → P (term.bind b)) (h : ∀ term ∈ type, P term) :
    ∀ term ∈ type.map (Term.bind b), P term := by
  intro bound hbound
  obtain ⟨term, hterm, rfl⟩ := Option.map_eq_some_iff.1 hbound
  exact hP (h term hterm)

lemma bind_const (h : ∃ c, term = .const c) : ∃ c, term.bind b = .const c := by
  obtain ⟨c, rfl⟩ := h
  exact ⟨c, rfl⟩

lemma Takes.bind (h : term.Takes g Γ v) : (term.bind b).Takes g Γ v := by
  cases term with
  | var x => cases hx : b[x]? <;> simp_all [Term.bind, Takes]
  | const c => trivial
  | anonymous => trivial

lemma bind_of_var?_eq_none (h : term.var? = none) (b : Bindings) : term.bind b = term := by
  cases term with
  | var x => simp [var?] at h
  | const c => rfl
  | anonymous => rfl

lemma bind_eq_var {x : String} (h : term.bind b = .var x) : term = .var x := by
  cases term with
  | var y => cases hy : b[y]? <;> simp_all [Term.bind]
  | const c => exact h
  | anonymous => exact h

lemma bind_eq_anonymous (h : term.bind b = .anonymous) : term = .anonymous := by
  cases term with
  | var y => cases hy : b[y]? <;> simp_all [Term.bind]
  | const c => exact h
  | anonymous => rfl

/-- A term whose variable is bound has a value just when the bound term has it. -/
lemma Takes.is_bind (h : term.Takes g Γ v) (hcovers : ∀ x, term = .var x → x ∈ b)
    (hb : ∀ {x : String} {v : Value}, b[x]? = some v → (Γ x).Admits g v) :
    (term.bind b).Is ∅ v ↔ term.Is b v := by
  cases term with
  | var x =>
    obtain ⟨w, hw⟩ := Bindings.mem_iff.1 (hcovers x rfl)
    have hnamed := Kind.Admits.isNamed_iff h (hb hw)
    simpa [Term.bind, hw, Is] using hnamed
  | const c => exact Iff.rfl
  | anonymous => exact Iff.rfl

end Term

/-! ### Atoms -/

/-- A term for the type of an edge is never the empty type: it is not asked for, or is
another constant. -/
def Term.NotEmptyType : Term → Prop
  | .var _ => False
  | .const c => c ≠ ""
  | .anonymous => True

lemma Term.NotEmptyType.bind {term : Term} {b : Bindings} (h : term.NotEmptyType) :
    (term.bind b).NotEmptyType := by
  cases term with
  | var x => exact h.elim
  | const c => exact h
  | anonymous => trivial

/-- The kinds of the arguments of derived predicates. -/
abbrev Signature := String → Option (List Kind)

/-- An atom respects the kinds of its variables. -/
inductive Fits (g : Graph) (sig : Signature) (Γ : String → Kind) : Atom → Prop
  | node {predicate : String} {id type : Term} (hpredicate : predicate ∈ ["node", "type"])
      (hid : id.Has g Γ .node) (hknown : id ≠ .anonymous)
      (htype : ∀ {i : NodeId} {node : Node} {t : String}, g.nodes[i]? = some node →
        node.type = some t → type.Takes g Γ (.text t))
      (hlabel : ∀ {x : String}, id = .var x → type.Has g Γ .label) :
      Fits g sig Γ ⟨predicate, [id, type]⟩
  | edge {source target : Term} {type : Option Term} (hsource : source.Has g Γ .node)
      (htarget : target.Has g Γ .node)
      (htype : ∀ edge ∈ g.allEdges, ∀ term ∈ type,
        term.Takes g Γ (.text (edge.type.getD "")))
      (htyped : (∃ c, source = .const c) ∨ (∀ term ∈ type, term.NotEmptyType) ∨
        ∀ edge ∈ g.allEdges, edge.type ≠ none) :
      Fits g sig Γ ⟨"edge", source :: target :: type.toList⟩
  | incoming {target source : Term} {type : Option Term} (hsource : source.Has g Γ .node)
      (htype : ∀ edge ∈ g.allEdges, ∀ term ∈ type,
        term.Takes g Γ (.text (edge.type.getD ""))) :
      Fits g sig Γ ⟨"incoming", target :: source :: type.toList⟩
  | path {source target : Term} (htarget : target.Has g Γ .node) :
      Fits g sig Γ ⟨"path", [source, target]⟩
  | attr {id name value : Term} (hname : name.var? = none)
      (hvalue : ∀ {i : NodeId} {node : Node} {c v : String}, g.nodes[i]? = some node →
        name = .const c → attribute? node c = some v → value.Takes g Γ (.text v)) :
      Fits g sig Γ ⟨"attr", [id, name, value]⟩
  | comparison {predicate : String} {args : List Term}
      (hpredicate : predicate ∈ ["neq", "starts_with", "not_starts_with", "string_contains"]) :
      Fits g sig Γ ⟨predicate, args⟩
  | unanswerable {atom : Atom} (hbuiltin : builtins.contains atom.predicate)
      (hnone : ∀ b : Bindings, builtinAnswers g (atom.bind b) = []) : Fits g sig Γ atom
  | derived {predicate : String} {args : List Term} {kinds : List Kind}
      (hderived : ¬ builtins.contains predicate) (hsig : sig predicate = some kinds)
      (hargs : List.Forall₂ (Term.Has g Γ) kinds args) : Fits g sig Γ ⟨predicate, args⟩

/-- The terms of a derived predicate are for the values of the kinds of its arguments. -/
lemma Fits.of_not_builtin {g : Graph} {sig : Signature} {Γ : String → Kind} {atom : Atom}
    (h : Fits g sig Γ atom) (hderived : ¬ builtins.contains atom.predicate) :
    ∃ kinds, sig atom.predicate = some kinds ∧ List.Forall₂ (Term.Has g Γ) kinds atom.args := by
  cases h with
  | derived _ hsig hargs => exact ⟨_, hsig, hargs⟩
  | unanswerable hbuiltin => exact absurd hbuiltin hderived
  | node hpredicate =>
    simp only [List.mem_cons, List.not_mem_nil, or_false] at hpredicate
    obtain rfl | rfl := hpredicate <;> simp [builtins] at hderived
  | comparison hpredicate =>
    simp only [List.mem_cons, List.not_mem_nil, or_false] at hpredicate
    obtain rfl | rfl | rfl | rfl := hpredicate <;> simp [builtins] at hderived
  | edge | incoming | path | attr => simp [builtins] at hderived

lemma Atom.bind_bind (a b : Bindings) (atom : Atom) :
    (atom.bind a).bind b = atom.bind (b ∪ a) := by
  simp only [Atom.bind, List.map_map, Atom.mk.injEq, true_and]
  refine List.map_congr_left fun term _ => ?_
  cases term with
  | var x => cases hx : a[x]? <;> simp [Term.bind, Bindings.getElem?_union, hx]
  | const c => rfl
  | anonymous => rfl

/-- An atom still respects kinds when variables are replaced by constants that may stand for
values of their kinds. -/
lemma Fits.bind {g : Graph} {sig : Signature} {Γ : String → Kind} {atom : Atom} {b : Bindings}
    (h : Fits g sig Γ atom)
    (hb : ∀ {x : String} {v : Value}, b[x]? = some v → (Γ x).Allows g v.asText) :
    Fits g sig Γ (atom.bind b) := by
  cases h with
  | @node predicate id type hpredicate hid hknown htype hlabel =>
    refine .node hpredicate (hid.bind hb) ?_ (fun hnode ht => (htype hnode ht).bind)
      fun hx => (hlabel (Term.bind_eq_var hx)).bind hb
    exact fun hanonymous => hknown (Term.bind_eq_anonymous hanonymous)
  | @edge source target type hsource htarget htype htyped =>
    rw [Atom.bind, List.map_cons, List.map_cons, ← Option.toList_map]
    refine .edge (hsource.bind hb) (htarget.bind hb)
      (fun edge hedge => Term.forall_mem_map_bind Term.Takes.bind (htype edge hedge)) ?_
    exact htyped.imp Term.bind_const
      (Or.imp_left (Term.forall_mem_map_bind Term.NotEmptyType.bind))
  | @incoming target source type hsource htype =>
    rw [Atom.bind, List.map_cons, List.map_cons, ← Option.toList_map]
    exact .incoming (hsource.bind hb) fun edge hedge =>
      Term.forall_mem_map_bind Term.Takes.bind (htype edge hedge)
  | path htarget => exact .path (htarget.bind hb)
  | @attr id name value hname hvalue =>
    have hname' : name.bind b = name := Term.bind_of_var?_eq_none hname b
    refine .attr ?_ fun hnode hc hv => ?_
    · rw [hname']
      exact hname
    · exact (hvalue hnode (hname' ▸ hc) hv).bind
  | comparison hpredicate => exact .comparison hpredicate
  | unanswerable hbuiltin hnone =>
    exact .unanswerable hbuiltin fun b' => by rw [Atom.bind_bind]; exact hnone _
  | derived hderived hsig hargs =>
    refine .derived hderived hsig (List.forall₂_map_right_iff.2 ?_)
    exact hargs.imp fun _ _ hhas => hhas.bind hb

end CodeGraph.Rules
