import Mathlib
import CodeGraph.Proofs.Rules.Derived

/-!
# Derivations

`Derives` says what rules over the edges of a graph mean, without bindings and texts: an atom
holds under an assignment of nodes to its variables if a stored edge matches it, or if the
body of a rule holds under an assignment with which the head stands for the same nodes.

All variables are for nodes here, so the atoms and rules respect kinds.  A derivation and an
evaluation nest derived predicates in the same way (`answers_ground_ne_nil_iff`), and a query
is answered by the assignments under which its atoms have derivations
(`queryAnswers_eq_derivations`).
-/

namespace CodeGraph.Rules

/-- A term stands for a node under an assignment. -/
def Term.Denotes (σ : String → NodeId) (id : NodeId) : Term → Prop
  | .var x => σ x = id
  | .const c => NodeId.parse c = id
  | .anonymous => True

/-- A head and an atom stand for the same nodes under two assignments. -/
def SameNodes (head goal : Atom) (ρ σ : String → NodeId) : Prop :=
  List.Forall₂ (fun term other => ∃ id : NodeId, term.Denotes ρ id ∧ other.Denotes σ id)
    head.args goal.args

/-- An atom holds under an assignment of nodes to its variables, by a derivation in which at
most the given number of derived predicates are nested. -/
inductive Derives (g : Graph) (program : List Rule) :
    (nesting : Nat) → (String → NodeId) → Atom → Prop
  | edge {n : Nat} {σ : String → NodeId} {source target : Term} {type : Option Term}
      {edge : Edge} (hedge : edge ∈ g.allEdges) (hsource : source.Denotes σ edge.src)
      (htarget : target.Denotes σ edge.dst)
      (htype : ∀ {c : String}, type = some (.const c) → edge.type = some c) :
      Derives g program n σ ⟨"edge", source :: target :: type.toList⟩
  | rule {n : Nat} {ρ σ : String → NodeId} {atom : Atom} {rule : Rule}
      (hderived : ¬ builtins.contains atom.predicate) (hrule : rule ∈ program)
      (hpredicate : rule.head.predicate = atom.predicate)
      (hhead : SameNodes rule.head atom ρ σ)
      (hbody : ∀ l ∈ rule.body, Derives g program n ρ l.atom) : Derives g program (n + 1) σ atom

/-- An atom asks for edges, of any type or of one that is given, or has a derived predicate
with the right number of arguments. -/
inductive IsPlain (arity : String → Nat) : Atom → Prop
  | edge (source target : Term) {type : Option Term} (htype : ∀ term ∈ type, term.var? = none) :
      IsPlain arity ⟨"edge", source :: target :: type.toList⟩
  | derived {atom : Atom} (hderived : ¬ builtins.contains atom.predicate)
      (harity : atom.arity = arity atom.predicate) : IsPlain arity atom

/-- A safe rule derives a predicate of different variables from plain atoms. -/
structure Rule.IsPlain (arity : String → Nat) (rule : Rule) : Prop where
  safe : rule.isSafe
  body : ∀ l ∈ rule.body, ∃ atom, l = .positive atom ∧ Rules.IsPlain arity atom
  allVars : ∀ term ∈ rule.head.args, ∃ x, term = .var x
  distinct : rule.head.args.Nodup
  arity : ¬ builtins.contains rule.head.predicate →
    rule.head.arity = arity rule.head.predicate

variable {g : Graph} {program : List Rule} {arity : String → Nat} {atom : Atom}

/-! ### Plain atoms and rules -/

/-- All arguments of derived predicates are nodes. -/
def nodeSignature (arity : String → Nat) : Signature := fun predicate =>
  if builtins.contains predicate then none else some (.replicate (arity predicate) .node)

lemma nodeSignature_of_derived {predicate : String} (h : ¬ builtins.contains predicate) :
    nodeSignature arity predicate = some (.replicate (arity predicate) .node) :=
  if_neg h

lemma inputPositions_of_derived {predicate : String} (h : ¬ builtins.contains predicate)
    (n : Nat) : inputPositions predicate n = [] := by
  simp only [builtins, List.contains_iff_mem, List.mem_cons, not_or] at h
  simp [inputPositions, h]

/-- Kinds that are all the same fit terms by their number. -/
lemma forall₂_replicate {P : Kind → Term → Prop} {kind : Kind} {n : Nat} {terms : List Term}
    (hlength : terms.length = n) (hterms : ∀ term ∈ terms, P kind term) :
    List.Forall₂ P (.replicate n kind) terms := by
  refine List.forall₂_iff_zip.2 ⟨by rw [List.length_replicate, hlength], fun hpair => ?_⟩
  obtain ⟨hkind, hterm⟩ := List.of_mem_zip hpair
  rw [List.eq_of_mem_replicate hkind]
  exact hterms _ hterm

namespace IsPlain

lemma isReady (h : IsPlain arity atom) (bound : List String) :
    (Literal.positive atom).isReady bound := by
  cases h with
  | edge source target htype => simp [Literal.isReady, inputPositions]
  | derived hderived => simp [Literal.isReady, inputPositions_of_derived hderived]

lemma ground (h : IsPlain arity atom) (τ : String → String) :
    IsPlain arity (atom.ground τ) := by
  cases h with
  | @edge source target type htype =>
    rw [Atom.ground, List.map_cons, List.map_cons, ← Option.toList_map]
    refine .edge _ _ fun term hterm => ?_
    obtain ⟨term, -, rfl⟩ := Option.map_eq_some_iff.1 hterm
    cases term <;> rfl
  | derived hderived harity =>
    refine .derived hderived ?_
    rw [Atom.predicate_ground, ← harity, Atom.arity, Atom.ground, List.length_map]
    rfl

/-- Plain atoms respect that all variables are nodes. -/
lemma fits (htyped : ∀ edge ∈ g.allEdges, edge.type ≠ none) (h : IsPlain arity atom) :
    Fits g (nodeSignature arity) (fun _ => .node) atom := by
  have hnode : ∀ term : Term, term.Has g (fun _ => .node) .node := by
    intro term
    cases term <;> simp [Term.Has, Kind.Allows]
  cases h with
  | edge source target htype =>
    refine .edge (hnode source) (hnode target) (fun _ _ term hterm => ?_) (.inr (.inr htyped))
    have hnone := htype term hterm
    cases term with
    | var x => simp [Term.var?] at hnone
    | const c => trivial
    | anonymous => trivial
  | derived hderived harity =>
    exact .derived hderived (nodeSignature_of_derived hderived)
      (forall₂_replicate harity fun term _ => hnode term)

end IsPlain

namespace Rule

/-- Plain rules respect that all variables are nodes. -/
lemma IsPlain.fits {rule : Rule} (htyped : ∀ edge ∈ g.allEdges, edge.type ≠ none)
    (h : rule.IsPlain arity) (hderived : ¬ builtins.contains rule.head.predicate) :
    RuleFits g (nodeSignature arity) (.replicate (arity rule.head.predicate) .node)
      (fun _ => .node) rule where
  head := by
    refine forall₂_replicate (h.arity hderived) fun term hterm => ?_
    obtain ⟨x, rfl⟩ := h.allVars term hterm
    exact rfl
  once x _ := List.nodup_iff_count_le_one.1 h.distinct _
  safe := h.safe
  schedulable := by
    refine scheduleFrom_isOk (.refl _) (.of_isReady (fun l hl => ?_) [])
    obtain ⟨atom, rfl, hplain⟩ := h.body l hl
    exact hplain.isReady
  body := by
    intro atom hatom
    obtain ⟨atom', heq, hplain⟩ := h.body _ hatom
    obtain rfl := Literal.positive.inj heq
    exact hplain.fits htyped

end Rule

lemma programFits_of_isPlain (htyped : ∀ edge ∈ g.allEdges, edge.type ≠ none)
    (hprogram : ∀ rule ∈ program, rule.IsPlain arity) :
    ProgramFits g (nodeSignature arity) program := by
  intro rule hrule kinds hkinds
  by_cases hderived : builtins.contains rule.head.predicate
  · rw [nodeSignature, if_pos hderived] at hkinds
    cases hkinds
  · rw [nodeSignature_of_derived hderived] at hkinds
    obtain rfl := Option.some.inj hkinds
    exact ⟨_, (hprogram rule hrule).fits htyped hderived⟩

/-! ### Derivations and evaluation -/

section Ground

variable {τ : String → String}

/-- A ground term for a node is one that stands for it. -/
lemma Term.is_ground_iff {term : Term} {s : Bindings} {id : NodeId} :
    (term.ground τ).Is s (.node id) ↔ term.Denotes (fun x => .parse (τ x)) id := by
  cases term <;> simp [Term.ground, Term.Is, Term.Denotes, Value.isNamed]

lemma Term.ground_ne_var (term : Term) (x : String) : term.ground τ ≠ .var x := by
  cases term <;> simp [Term.ground]

/-- A derivation of an atom of edges is an edge that matches it. -/
lemma derives_edge_iff {source target : Term} {type : Option Term} {n : Nat}
    {σ : String → NodeId} : Derives g program n σ ⟨"edge", source :: target :: type.toList⟩ ↔
      ∃ edge ∈ g.allEdges, source.Denotes σ edge.src ∧ target.Denotes σ edge.dst ∧
        ∀ {c : String}, type = some (.const c) → edge.type = some c := by
  constructor
  · intro h
    generalize hatom : Atom.mk "edge" (source :: target :: type.toList) = atom at h
    cases h with
    | @edge _ _ source' target' type' edge hedge hsource htarget htype =>
      simp only [Atom.mk.injEq, true_and, List.cons.injEq] at hatom
      obtain ⟨rfl, rfl, hsame⟩ := hatom
      obtain rfl : type = type' := by
        cases type <;> cases type' <;> simp_all
      exact ⟨edge, hedge, hsource, htarget, htype⟩
    | rule hderived =>
      subst hatom
      exact absurd (by simp [builtins]) hderived
  · rintro ⟨edge, hedge, hsource, htarget, htype⟩
    exact .edge hedge hsource htarget htype

lemma answers_edge_ne_nil_iff (h : g.Consistent)
    (htyped : ∀ edge ∈ g.allEdges, edge.type ≠ none) {source target : Term}
    {type : Option Term} (hnoVar : ∀ term ∈ type, term.var? = none) {n : Nat} :
    answers g program n ((Atom.mk "edge" (source :: target :: type.toList)).ground τ) ≠ [] ↔
      Derives g program n (fun x => .parse (τ x))
        ⟨"edge", source :: target :: type.toList⟩ := by
  have hground : (Atom.mk "edge" (source :: target :: type.toList)).ground τ
      = ⟨"edge", source.ground τ :: target.ground τ :: type.toList⟩ := by
    cases type with
    | none => rfl
    | some term =>
      have hterm : term.ground τ = term := by
        have hnone := hnoVar term rfl
        cases term <;> simp_all [Term.ground, Term.var?]
      simp [Atom.ground, hterm]
  have hanswers : answers g program n ⟨"edge", source.ground τ :: target.ground τ :: type.toList⟩
      = edgeAnswers g false (source.ground τ) (target.ground τ) type := by
    rw [answers_of_builtin (by simp [builtins])]
    cases type <;> rfl
  have hlookup : ∀ s : Bindings, s ∈ edgeAnswers g false (source.ground τ) (target.ground τ) type ↔
      ∃ edge ∈ g.allEdges,
        unifyAll (edgePairs false (source.ground τ) (target.ground τ) type edge) ∅ = some s :=
    fun s => mem_edgeAnswers h (by simp) (.inr (.inr htyped)) fun _ _ x _ =>
      ⟨source.ground_ne_var x, target.ground_ne_var x⟩
  rw [hground, hanswers, derives_edge_iff, ← List.length_pos_iff, List.length_pos_iff_exists_mem]
  simp only [hlookup, unifyAll_empty_eq_some_iff]
  constructor
  · rintro ⟨s, edge, hedge, -, his⟩
    refine ⟨edge, hedge, ?_, ?_, ?_⟩
    · exact Term.is_ground_iff.1 (his _ (.node edge.src) (by simp [edgePairs, anchorOf]))
    · exact Term.is_ground_iff.1 (his _ (.node edge.dst) (by simp [edgePairs, otherOf]))
    · rintro c rfl
      have hnamed := his (.const c) (.text (edge.type.getD "")) (by simp [edgePairs])
      obtain ⟨t, ht⟩ := Option.ne_none_iff_exists'.1 (htyped edge hedge)
      rw [ht] at hnamed ⊢
      exact congrArg some (beq_iff_eq.1 hnamed)
  · rintro ⟨edge, hedge, hsource, htarget, htype⟩
    refine ⟨∅, edge, hedge, fun x => ?_, fun term v hterm => ?_⟩
    · simp only [Std.ExtTreeMap.not_mem_empty, false_iff, edgePairs, List.mem_cons,
        Prod.mk.injEq, List.mem_map, Option.mem_toList]
      rintro ⟨v, ⟨hx, -⟩ | ⟨hx, -⟩ | ⟨term, hterm, rfl, -⟩⟩
      · exact source.ground_ne_var x hx.symm
      · exact target.ground_ne_var x hx.symm
      · simpa [Term.var?] using hnoVar _ hterm
    · simp only [edgePairs, List.mem_cons, Prod.mk.injEq, List.mem_map, Option.mem_toList] at hterm
      obtain ⟨rfl, rfl⟩ | ⟨rfl, rfl⟩ | ⟨term, hterm, rfl, rfl⟩ := hterm
      · exact Term.is_ground_iff.2 hsource
      · exact Term.is_ground_iff.2 htarget
      · cases term with
        | var x => simpa [Term.var?] using hnoVar _ hterm
        | const c =>
          rw [htype hterm]
          exact beq_iff_eq.2 rfl
        | anonymous => trivial

/-- A term stands for the node that its text names. -/
lemma Term.denotes_iff_of_ground {term : Term} {c : String} (hground : term.ground τ = .const c)
    {id : NodeId} : term.Denotes (fun x => .parse (τ x)) id ↔ NodeId.parse c = id := by
  cases term with
  | var x =>
    obtain rfl := Term.const.inj hground
    exact Iff.rfl
  | const d =>
    obtain rfl := Term.const.inj hground
    exact Iff.rfl
  | anonymous => cases hground

lemma mem_zip_ground {head goal : Atom} {term other : Term} :
    (term, other) ∈ head.args.zip (goal.ground τ).args ↔
      ∃ bare, (term, bare) ∈ head.args.zip goal.args ∧ bare.ground τ = other := by
  simp [Atom.ground, List.zip_map_right]

/-- A head that agrees with a ground atom stands for the same nodes. -/
lemma Agrees.sameNodes {head goal : Atom} {τ' : String → String}
    (hvars : ∀ term ∈ head.args, ∃ x, term = .var x) (harity : head.arity = goal.arity)
    (h : Agrees head (goal.ground τ) ∅ τ') :
    SameNodes head goal (fun x => .parse (τ' x)) (fun x => .parse (τ x)) := by
  refine List.forall₂_iff_zip.2 ⟨harity, fun {term other} hpair => ?_⟩
  obtain ⟨x, rfl⟩ := hvars term (List.of_mem_zip hpair).1
  refine ⟨.parse (τ' x), rfl, ?_⟩
  cases hother : other.ground τ with
  | var y => exact absurd hother (other.ground_ne_var y)
  | anonymous =>
    cases other with
    | anonymous => trivial
    | var y => cases hother
    | const c => cases hother
  | const c =>
    have hsame := h (mem_zip_ground.2 ⟨other, hpair, hother⟩) rfl
    rw [Term.denotes_iff_of_ground hother, Term.const.inj hsame]

/-- The texts of nodes, except where an atom has texts of its own. -/
def textsFor (head goal : Atom) (ρ : String → NodeId) : String → String :=
  (seed head goal).textOr fun x => (ρ x).text

section SameNodes

variable {head goal : Atom} {ρ : String → NodeId}

lemma SameNodes.parse_textsFor (h : SameNodes head goal ρ fun x => .parse (τ x)) (x : String) :
    NodeId.parse (textsFor head (goal.ground τ) ρ x) = ρ x := by
  cases hx : (seed head (goal.ground τ))[x]? with
  | none =>
    rw [textsFor, Bindings.textOr_of_not_mem (Bindings.not_mem_iff.2 hx), NodeId.parse_text]
  | some v =>
    obtain ⟨c, rfl, hconst⟩ := seed_eq_some hx
    obtain ⟨other, hpair, hother⟩ := mem_zip_ground.1 hconst
    obtain ⟨id, hid, hdenotes⟩ := (List.forall₂_iff_zip.1 h).2 hpair
    obtain rfl : ρ x = id := hid
    rw [textsFor, Bindings.textOr_of_eq_some hx]
    exact (Term.denotes_iff_of_ground hother).1 hdenotes

/-- With the texts of the atom itself, a head agrees with it. -/
lemma agrees_textsFor (hvars : ∀ term ∈ head.args, ∃ x, term = .var x)
    (hdistinct : head.args.Nodup) : Agrees head goal ∅ (textsFor head goal ρ) := by
  intro term other hpair c hc
  obtain ⟨x, rfl⟩ := hvars term (List.of_mem_zip hpair).1
  rw [Term.bind_empty] at hc
  subst hc
  obtain ⟨v, hv⟩ := Bindings.mem_iff.1 (mem_seed.2 ⟨c, hpair⟩)
  obtain ⟨d, rfl, hd⟩ := seed_eq_some hv
  have honce := List.nodup_iff_count_le_one.1 hdistinct (.var x)
  have hsame := eq_of_mem_zip_of_count_le_one honce hpair hd
  rw [Term.ground, textsFor, Bindings.textOr_of_eq_some hv, hsame]
  rfl

lemma supported_textsFor (rule : Rule) :
    Supported g (fun _ => .node) rule goal (textsFor rule.head goal ρ) := by
  intro x _
  by_cases hx : x ∈ seed rule.head goal
  · exact .inr (mem_seed.1 hx)
  · exact .inl ⟨.node (ρ x), trivial, by rw [textsFor, Bindings.textOr_of_not_mem hx]; rfl⟩

end SameNodes

/-- A plain rule answers a ground atom when its body holds under texts with which the head
agrees. -/
lemma exists_mem_ruleAnswers_iff (h : g.Consistent)
    (htyped : ∀ edge ∈ g.allEdges, edge.type ≠ none)
    (hprogram : ∀ rule ∈ program, rule.IsPlain arity) (n : Nat) {rule : Rule}
    (hrule : rule ∈ program) (hatom : IsPlain arity atom)
    (hderived : ¬ builtins.contains atom.predicate)
    (hpredicate : rule.head.predicate = atom.predicate) :
    (∃ s, s ∈ ruleAnswers (answers g program n) (atom.ground τ) rule) ↔
      ∃ τ' : String → String, Supported g (fun _ => .node) rule (atom.ground τ) τ' ∧
        (∀ l ∈ rule.body, l.Holds (answers g program n) τ') ∧
        Agrees rule.head (atom.ground τ) ∅ τ' := by
  rw [← hpredicate] at hderived
  have hfits := (hprogram rule hrule).fits htyped hderived
  obtain ⟨kinds, hkinds, hargs⟩ := ((hatom.ground τ).fits htyped).of_not_builtin
    (by rwa [Atom.predicate_ground, ← hpredicate])
  rw [Atom.predicate_ground, ← hpredicate, nodeSignature_of_derived hderived] at hkinds
  obtain rfl := Option.some.inj hkinds
  have hask := @answersExactly g _ program h (programFits_of_isPlain htyped hprogram) n
  simp only [mem_ruleAnswers hask hfits hargs, Atom.vars_ground, Bindings.assigns_nil_iff,
    exists_eq_left]

/-- A ground atom is answered when it has a derivation that nests as deep. -/
theorem answers_ground_ne_nil_iff (h : g.Consistent)
    (htyped : ∀ edge ∈ g.allEdges, edge.type ≠ none)
    (hprogram : ∀ rule ∈ program, rule.IsPlain arity) (n : Nat) {atom : Atom}
    (hatom : IsPlain arity atom) (τ : String → String) :
    answers g program n (atom.ground τ) ≠ [] ↔
      Derives g program n (fun x => .parse (τ x)) atom := by
  induction n generalizing atom τ with
  | zero =>
    cases hatom with
    | edge source target hnoVar => exact answers_edge_ne_nil_iff h htyped hnoVar
    | derived hderived =>
      have hground : ¬ builtins.contains (atom.ground τ).predicate := hderived
      rw [answers_zero_of_derived hground]
      refine iff_of_false (by simp) fun hderives => ?_
      cases hderives
      simp [builtins] at hderived
  | succ n ih =>
    cases hatom with
    | edge source target hnoVar => exact answers_edge_ne_nil_iff h htyped hnoVar
    | derived hderived harity =>
      have hground : ¬ builtins.contains (atom.ground τ).predicate := hderived
      have hrule := @exists_mem_ruleAnswers_iff g program arity atom τ h htyped hprogram n
      rw [← List.length_pos_iff, List.length_pos_iff_exists_mem]
      simp only [mem_answers_succ_of_derived hground, Atom.predicate_ground]
      constructor
      · rintro ⟨s, rule, hmem, hpredicate, hs⟩
        obtain ⟨τ', -, hholds, hagrees⟩ :=
          (hrule hmem (.derived hderived harity) hderived hpredicate).1 ⟨s, hs⟩
        have hplain := hprogram rule hmem
        have hsame : rule.head.arity = atom.arity := by
          rw [hplain.arity (hpredicate ▸ hderived), hpredicate, harity]
        refine .rule hderived hmem hpredicate (hagrees.sameNodes hplain.allVars hsame) ?_
        intro l hl
        obtain ⟨atom', rfl, hatom'⟩ := hplain.body l hl
        exact (ih hatom' τ').1 (hholds _ hl)
      · intro hderives
        cases hderives with
        | edge => simp [builtins] at hderived
        | @rule _ ρ _ _ rule _ hmem hpredicate hhead hbody =>
          have hplain := hprogram rule hmem
          have hholds : ∀ l ∈ rule.body, l.Holds (answers g program n)
              (textsFor rule.head (atom.ground τ) ρ) := by
            intro l hl
            obtain ⟨atom', rfl, hatom'⟩ := hplain.body l hl
            refine (ih hatom' _).2 ?_
            rw [funext hhead.parse_textsFor]
            exact hbody _ hl
          obtain ⟨s, hs⟩ := (hrule hmem (.derived hderived harity) hderived hpredicate).2
            ⟨_, supported_textsFor rule, hholds, agrees_textsFor hplain.allVars hplain.distinct⟩
          exact ⟨s, rule, hmem, hpredicate, hs⟩

end Ground

/-! ### Queries -/

/-- In every reachable graph whose edges have types, a query of plain atoms under plain rules
is not refused, and its answers are the assignments of nodes to its variables under which
every atom has a derivation that nests at most `maxNesting` derived predicates. -/
theorem queryAnswers_eq_derivations (h : Graph.Reachable g)
    (htyped : ∀ edge ∈ g.allEdges, edge.type ≠ none)
    (hprogram : ∀ rule ∈ program, rule.IsPlain arity) {query : List Atom}
    (hquery : ∀ atom ∈ query, IsPlain arity atom) :
    ∃ found, queryAnswers g program (query.map .positive) = .ok found ∧
      ∀ b : Bindings, b ∈ found ↔ ∃ σ : String → NodeId,
        (∀ x, b[x]? = if x ∈ query.flatMap Atom.vars then some (.node (σ x)) else none) ∧
        ∀ atom ∈ query, Derives g program maxNesting σ atom := by
  have hg : g.Consistent := h.consistent
  have hrespects : Respects g (nodeSignature arity) (fun _ => .node) program
      (query.map .positive) := by
    refine ⟨programFits_of_isPlain htyped hprogram, fun {atom} hatom => ?_⟩
    obtain ⟨atom', hatom', heq⟩ := List.mem_map.1 hatom
    obtain rfl := Literal.positive.inj heq
    exact (hquery _ hatom').fits htyped
  obtain ⟨found, hfound⟩ : ∃ found, queryAnswers g program (query.map .positive) = .ok found := by
    refine exists_queryAnswers_eq_ok.2 (scheduleFrom_isOk (.refl _) (.of_isReady ?_ []))
    exact List.forall_mem_map.2 fun atom hatom => (hquery atom hatom).isReady
  have hvars : ∀ x, x ∈ positiveVariables (query.map .positive) ↔ x ∈ query.flatMap Atom.vars := by
    intro x
    simp [mem_positiveVariables]
  refine ⟨found, hfound, fun b => ?_⟩
  rw [hrespects.mem_queryAnswers hg hfound]
  simp only [List.forall_mem_map, Literal.Holds]
  constructor
  · rintro ⟨hb, hholds⟩
    refine ⟨fun x => .parse (b.text x), fun x => ?_, fun atom hatom => ?_⟩
    · split
      · next hx =>
        obtain ⟨v, hv⟩ := Bindings.mem_iff.1 ((hb.covers x).2 ((hvars x).2 hx))
        cases v with
        | text t => exact (hb.kinds hv).elim
        | node id =>
          have hid : b.text x = id.text := Bindings.textOr_of_eq_some hv _
          simp only [hv, hid, NodeId.parse_text]
      · next hx =>
        rwa [← Bindings.not_mem_iff, hb.covers, hvars]
    · exact (answers_ground_ne_nil_iff hg htyped hprogram _ (hquery atom hatom) _).1
        (hholds atom hatom)
  · rintro ⟨σ, hb, hderives⟩
    refine ⟨⟨fun x => ?_, fun {x v} hx => ?_⟩, fun atom hatom => ?_⟩
    · rw [Bindings.mem_iff, hb, hvars]
      split <;> simp_all
    · rw [hb] at hx
      split at hx
      · exact Option.some.inj hx ▸ trivial
      · cases hx
    · have htext : ∀ x ∈ atom.vars, b.text x = (σ x).text := fun x hx => by
        have hx := (hb x).trans (if_pos (List.mem_flatMap.2 ⟨atom, hatom, hx⟩))
        rw [Bindings.text, Bindings.textOr_of_eq_some hx, Value.asText]
      rw [Atom.ground_congr htext]
      refine (answers_ground_ne_nil_iff hg htyped hprogram _ (hquery atom hatom) _).2 ?_
      simpa only [NodeId.parse_text] using hderives atom hatom

/-- Three nodes in a row. -/
def threeInARow : Graph :=
  Graph.ephemeral.performAll [
    .addNodes [Graph.bareNode 1 none, Graph.bareNode 2 none, Graph.bareNode 3 none],
    .addEdges [⟨.ofNat 1, .ofNat 2, some "calls", none⟩, ⟨.ofNat 2, .ofNat 3, some "calls", none⟩]
      false]

/-- The rules `reach(X, Y) :- edge(X, Y, _)` and `reach(X, Z) :- edge(X, Y, _), reach(Y, Z)`. -/
def reachRules : List Rule :=
  [⟨⟨"reach", [.var "X", .var "Y"]⟩, [.positive ⟨"edge", [.var "X", .var "Y", .anonymous]⟩]⟩,
    ⟨⟨"reach", [.var "X", .var "Z"]⟩, [.positive ⟨"edge", [.var "X", .var "Y", .anonymous]⟩,
      .positive ⟨"reach", [.var "Y", .var "Z"]⟩]⟩]

lemma isPlain_reachRules : ∀ rule ∈ reachRules, rule.IsPlain fun _ => 2 := by
  have hedge : IsPlain (fun _ => 2) ⟨"edge", [.var "X", .var "Y", .anonymous]⟩ :=
    @IsPlain.edge _ (.var "X") (.var "Y") (some .anonymous) (by simp [Term.var?])
  have hreach : IsPlain (fun _ => 2) ⟨"reach", [.var "Y", .var "Z"]⟩ :=
    .derived (by decide +kernel) rfl
  intro rule hrule
  simp only [reachRules, List.mem_cons, List.not_mem_nil, or_false] at hrule
  obtain rfl | rfl := hrule
  · refine ⟨by decide +kernel, ?_, by simp, by decide +kernel, fun _ => rfl⟩
    simp [hedge]
  · refine ⟨by decide +kernel, ?_, by simp, by decide +kernel, fun _ => rfl⟩
    simp [hedge, hreach]

theorem queryAnswers_eq_derivations_threeInARow : Graph.Reachable threeInARow ∧
    ∀ id : NodeId, (∃ σ : String → NodeId, σ "Z" = id ∧
      Derives threeInARow reachRules maxNesting σ ⟨"reach", [.const "1", .var "Z"]⟩) ↔
        id = .ofNat 2 ∨ id = .ofNat 3 := by
  have hreach : Graph.Reachable threeInARow := Graph.Reachable.ephemeral.performAll _
  refine ⟨hreach, fun id => ?_⟩
  have hquery : ∀ atom ∈ [Atom.mk "reach" [.const "1", .var "Z"]],
      IsPlain (fun _ => 2) atom := by
    simp only [List.mem_singleton, forall_eq]
    exact .derived (by decide +kernel) rfl
  obtain ⟨found, hfound, hexact⟩ :=
    queryAnswers_eq_derivations hreach (by decide +kernel) isPlain_reachRules hquery
  have hanswers : queryAnswers threeInARow reachRules
      [.positive ⟨"reach", [.const "1", .var "Z"]⟩]
        = .ok [.single "Z" (.node (.ofNat 2)), .single "Z" (.node (.ofNat 3))] := by
    decide +kernel
  obtain rfl := Except.ok.inj (hanswers.symm.trans hfound)
  have hsingle : ∀ v w : Value, Bindings.single "Z" v = .single "Z" w ↔ v = w := by
    refine fun v w => ⟨fun h => ?_, congrArg _⟩
    simpa [Bindings.getElem?_single] using congrArg (fun b : Bindings => b["Z"]?) h
  have hfinds := hexact (.single "Z" (.node id))
  simp only [List.mem_cons, List.not_mem_nil, or_false, hsingle, Value.node.injEq] at hfinds
  rw [hfinds]
  refine exists_congr fun σ => and_congr ?_ (by simp)
  have hvars : [Atom.mk "reach" [.const "1", .var "Z"]].flatMap Atom.vars = ["Z"] := rfl
  simp only [hvars, List.mem_singleton, Bindings.getElem?_single]
  constructor
  · rintro rfl x
    by_cases hx : x = "Z" <;> simp [hx, Ne.symm]
  · intro h
    simpa using (h "Z").symm

end CodeGraph.Rules
