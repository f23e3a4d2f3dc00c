import Mathlib
import CodeGraph.Proofs.Rules.Builtins

/-!
# Derived predicates

A rule respects the kinds of the arguments of its head (`RuleFits`) when its head has
variables and constants of these kinds, its body binds them and can be scheduled, and the
atoms of the body respect the kinds of the variables of the rule.

The constants of a goal are put into such a rule before its body is asked.  That changes
nothing: the rule gives a binding to a goal when its body holds under some texts for its
variables, with which the head agrees with the goal (`mem_ruleAnswers`).  By induction on the
nesting, every atom that respects kinds is answered exactly (`answersExactly`).
-/

namespace CodeGraph.Rules

open Std (ExtTreeMap LawfulEqCmp)

/-- A term of a head gives values of a kind. -/
def Term.Gives (g : Graph) (Γ : String → Kind) (kind : Kind) : Term → Prop
  | .var x => Γ x = kind
  | .const c => kind.Admits g (.text c)
  | .anonymous => False

/-- A rule respects the kinds of the arguments of its head. -/
structure RuleFits (g : Graph) (sig : Signature) (kinds : List Kind) (Γ : String → Kind)
    (rule : Rule) : Prop where
  head : List.Forall₂ (Term.Gives g Γ) kinds rule.head.args
  once : ∀ x, Γ x = .node → rule.head.args.count (.var x) ≤ 1
  safe : rule.isSafe
  schedulable : ∃ ordered, schedule rule.body = .ok ordered
  body : ∀ {atom : Atom}, .positive atom ∈ rule.body → Fits g sig Γ atom

/-- Every rule for a predicate with known kinds respects them. -/
def ProgramFits (g : Graph) (sig : Signature) (program : List Rule) : Prop :=
  ∀ rule ∈ program, ∀ kinds, sig rule.head.predicate = some kinds →
    ∃ Γ, RuleFits g sig kinds Γ rule

/-- The positive literals of a safe rule bind all its variables. -/
lemma Rule.mem_positiveVariables_of_isSafe {rule : Rule} (hsafe : rule.isSafe) {x : String}
    (hx : x ∈ rule.head.vars ∨ ∃ l ∈ rule.body, x ∈ l.atom.vars) :
    x ∈ positiveVariables rule.body := by
  simp only [isSafe, Bool.and_eq_true, List.all_eq_true, List.contains_iff_mem,
    List.mem_filter] at hsafe
  obtain hx | ⟨l, hl, hx⟩ := hx
  · exact hsafe.1 x hx
  · cases l with
    | positive atom => exact mem_positiveVariables.2 ⟨atom, hl, hx⟩
    | negative atom => exact hsafe.2 (.negative atom) ⟨hl, rfl⟩ x hx

/-- A head under an assignment of texts agrees with a goal under a binding: wherever the
goal has a constant, the head has the same one. -/
def Agrees (head goal : Atom) (s : Bindings) (τ : String → String) : Prop :=
  ∀ {term other : Term}, (term, other) ∈ head.args.zip goal.args →
    ∀ {c : String}, other.bind s = .const c → term.ground τ = .const c

/-- Texts for the variables of the body of a rule come from values of their kinds, except
those that the goal decides. -/
def Supported (g : Graph) (Γ : String → Kind) (rule : Rule) (goal : Atom)
    (τ : String → String) : Prop :=
  ∀ x ∈ positiveVariables rule.body, (∃ v, (Γ x).Admits g v ∧ v.asText = τ x) ∨
    ∃ c, (.var x, .const c) ∈ rule.head.args.zip goal.args

lemma Agrees.congr {head goal : Atom} {s : Bindings} {τ τ' : String → String}
    (h : Agrees head goal s τ) (hτ : ∀ x ∈ head.vars, τ x = τ' x) : Agrees head goal s τ' := by
  intro term other hpair c hc
  rw [← h hpair hc]
  cases term with
  | var x => rw [Term.ground, Term.ground, hτ x (Atom.mem_vars.2 (List.of_mem_zip hpair).1)]
  | const d => rfl
  | anonymous => rfl

/-! ### Heads and goals -/

section Zip

variable {g : Graph} {Γ Γ' : String → Kind} {kinds : List Kind} {heads goals : List Term}

/-- A term of a head and the term of the goal in its place have a common kind. -/
lemma exists_kind_of_mem_zip (hheads : List.Forall₂ (Term.Gives g Γ) kinds heads)
    (hgoals : List.Forall₂ (Term.Has g Γ') kinds goals) {head goal : Term}
    (hmem : (head, goal) ∈ heads.zip goals) :
    ∃ kind, head.Gives g Γ kind ∧ goal.Has g Γ' kind := by
  induction hheads generalizing goals with
  | nil => simp at hmem
  | cons hhead hheads ih =>
    cases hgoals with
    | cons hgoal hgoals =>
      obtain heq | hmem := List.mem_cons.1 hmem
      · obtain ⟨rfl, rfl⟩ := Prod.mk.inj heq
        exact ⟨_, hhead, hgoal⟩
      · exact ih hgoals hmem

/-- Every term of the goal has a term of the head in its place. -/
lemma exists_mem_zip (hheads : List.Forall₂ (Term.Gives g Γ) kinds heads)
    (hgoals : List.Forall₂ (Term.Has g Γ') kinds goals) {goal : Term} (hmem : goal ∈ goals) :
    ∃ head, (head, goal) ∈ heads.zip goals := by
  induction hheads generalizing goals with
  | nil => cases hgoals; simp at hmem
  | cons hhead hheads ih =>
    cases hgoals with
    | cons hgoal hgoals =>
      obtain rfl | hmem := List.mem_cons.1 hmem
      · exact ⟨_, List.mem_cons_self⟩
      · obtain ⟨head, hhead⟩ := ih hgoals hmem
        exact ⟨head, List.mem_cons_of_mem _ hhead⟩

/-- What occurs once in a list stands in one place of another list only. -/
lemma eq_of_mem_zip_of_count_le_one {α β : Type} [DecidableEq α] {as : List α} {bs : List β}
    {a : α} {b b' : β} (hcount : as.count a ≤ 1) (hb : (a, b) ∈ as.zip bs)
    (hb' : (a, b') ∈ as.zip bs) : b = b' := by
  induction as generalizing bs with
  | nil => simp at hb
  | cons first as ih =>
    cases bs with
    | nil => simp at hb
    | cons other bs =>
      have hrest : ∀ {c : β}, first = a → (a, c) ∉ as.zip bs := by
        rintro c rfl hc
        have hmem : first ∈ as := (List.of_mem_zip hc).1
        have hpos := List.count_pos_iff.2 hmem
        rw [List.count_cons_self] at hcount
        omega
      simp only [List.zip_cons_cons, List.mem_cons, Prod.mk.injEq] at hb hb'
      obtain ⟨rfl, rfl⟩ | hb := hb
      · obtain ⟨-, rfl⟩ | hb' := hb'
        · rfl
        · exact absurd hb' (hrest rfl)
      · obtain ⟨rfl, rfl⟩ | hb' := hb'
        · exact absurd hb (hrest rfl)
        · exact ih ((List.count_le_count_cons).trans hcount) hb hb'

end Zip

/-! ### Seeds -/

/-- One more pair of a head and a goal may give a value to a variable of the head. -/
def seedStep (found : Bindings) (pair : Term × Term) : Bindings :=
  match pair with
  | (.var x, .const c) => found.insertIfNew x (.text c)
  | _ => found

lemma seed_eq_foldl (head goal : Atom) :
    seed head goal = (head.args.zip goal.args).foldl seedStep ∅ := rfl

lemma mem_seedStep {b : Bindings} {pair : Term × Term} {x : String} :
    x ∈ seedStep b pair ↔ x ∈ b ∨ ∃ c, (.var x, .const c) = pair := by
  obtain ⟨head, goal⟩ := pair
  cases head with
  | var y =>
    cases goal with
    | const c =>
      simp only [seedStep, ExtTreeMap.mem_insertIfNew, LawfulEqCmp.compare_eq_iff_eq,
        Prod.mk.injEq, Term.var.injEq, Term.const.injEq]
      grind
    | var z => simp [seedStep]
    | anonymous => simp [seedStep]
  | const d => simp [seedStep]
  | anonymous => simp [seedStep]

lemma seedStep_eq_some {b : Bindings} {pair : Term × Term} {x : String} {v : Value}
    (h : (seedStep b pair)[x]? = some v) :
    b[x]? = some v ∨ ∃ c, v = .text c ∧ (.var x, .const c) = pair := by
  obtain ⟨head, goal⟩ := pair
  cases head with
  | var y =>
    cases goal with
    | const c =>
      simp only [seedStep, ExtTreeMap.getElem?_insertIfNew, LawfulEqCmp.compare_eq_iff_eq] at h
      split at h
      · next hy => exact .inr ⟨c, (Option.some.inj h).symm, by rw [hy.1]⟩
      · exact .inl h
    | var z => exact .inl h
    | anonymous => exact .inl h
  | const d => exact .inl h
  | anonymous => exact .inl h

/-- The seed of a goal binds the variables of the head in whose places the goal has
constants. -/
lemma mem_seed {head goal : Atom} {x : String} :
    x ∈ seed head goal ↔ ∃ c, (.var x, .const c) ∈ head.args.zip goal.args := by
  have hfold : ∀ (pairs : List (Term × Term)) (b : Bindings),
      x ∈ pairs.foldl seedStep b ↔ x ∈ b ∨ ∃ c, (.var x, .const c) ∈ pairs := by
    intro pairs
    induction pairs with
    | nil => simp
    | cons pair pairs ih =>
      intro b
      rw [List.foldl_cons, ih, mem_seedStep]
      simp only [List.mem_cons, exists_or, or_assoc]
  rw [seed_eq_foldl, hfold]
  simp

lemma seed_eq_some {head goal : Atom} {x : String} {v : Value}
    (h : (seed head goal)[x]? = some v) :
    ∃ c, v = .text c ∧ (.var x, .const c) ∈ head.args.zip goal.args := by
  have hfold : ∀ (pairs : List (Term × Term)) (b : Bindings),
      (pairs.foldl seedStep b)[x]? = some v →
        b[x]? = some v ∨ ∃ c, v = .text c ∧ (.var x, .const c) ∈ pairs := by
    intro pairs
    induction pairs with
    | nil => exact fun b h => .inl h
    | cons pair pairs ih =>
      intro b h
      obtain h | ⟨c, hv, hc⟩ := ih _ h
      · obtain h | ⟨c, hv, hc⟩ := seedStep_eq_some h
        · exact .inl h
        · exact .inr ⟨c, hv, hc ▸ List.mem_cons_self⟩
      · exact .inr ⟨c, hv, List.mem_cons_of_mem _ hc⟩
  simpa using hfold _ ∅ h

/-! ### Projections -/

lemma foldlM_congr {α β : Type} {f f' : β → α → Option β} {as : List α}
    (h : ∀ a ∈ as, ∀ b, f b a = f' b a) (b : β) : as.foldlM f b = as.foldlM f' b := by
  induction as generalizing b with
  | nil => rfl
  | cons a as ih =>
    have hrest := ih fun a ha => h a (List.mem_cons_of_mem _ ha)
    rw [List.foldlM_cons, List.foldlM_cons, h a List.mem_cons_self, funext hrest]

/-- The value of a term of a head under the seed of a goal and a solution of the body. -/
def rowValue (seed solution : Bindings) (head : Term) : Value :=
  (headValue? solution (head.bind seed)).getD (.text "")

/-- Where the head has values, a solution gives the goal the binding that unifies its terms
with these values. -/
lemma project?_eq_unifyAll {head goal : Atom} {seed solution : Bindings}
    (hvalues : ∀ {term other : Term}, (term, other) ∈ head.args.zip goal.args →
      headValue? solution (term.bind seed) ≠ none) :
    project? (head.bind seed) goal solution = unifyAll ((head.args.zip goal.args).map
      fun pair => (pair.2, rowValue seed solution pair.1)) ∅ := by
  have hstep : ∀ pair ∈ head.args.zip goal.args, ∀ found : Bindings,
      project1? solution found (pair.1.bind seed, pair.2)
        = unify found (pair.2, rowValue seed solution pair.1) := by
    rintro ⟨term, goal⟩ hpair found
    obtain ⟨v, hv⟩ := Option.ne_none_iff_exists'.1 (hvalues hpair)
    cases goal with
    | var x => cases hx : found[x]? <;> simp [project1?, unify, rowValue, hv, hx]
    | const c => simp [project1?, unify, rowValue, hv]
    | anonymous => simp [project1?, unify]
  have hzip : (head.bind seed).args.zip goal.args
      = (head.args.zip goal.args).map fun pair => (pair.1.bind seed, pair.2) :=
    List.zip_map_left
  rw [project?, hzip, unifyAll, List.foldlM_map, List.foldlM_map]
  exact foldlM_congr hstep ∅

/-! ### The answers of a rule -/

lemma conjunction_nil (answers : Atom → List Bindings) : conjunction answers [] = .ok [∅] := by
  simp [conjunction, schedule, scheduleFrom, Except.map, askAll]

lemma Literal.holds_map_bind {answers : Atom → List Bindings} {l : Literal} {b : Bindings}
    {τ : String → String} :
    (l.map (Atom.bind b)).Holds answers τ ↔ l.Holds answers (b.textOr τ) := by
  cases l <;> simp [Literal.map, Holds, Atom.ground_bind]

lemma mem_positiveVariables_map_bind {ls : List Literal} {b : Bindings} {x : String} :
    x ∈ positiveVariables (ls.map (Literal.map (Atom.bind b))) ↔
      x ∈ positiveVariables ls ∧ x ∉ b := by
  simp only [mem_positiveVariables, List.mem_map]
  constructor
  · rintro ⟨_, ⟨l, hl, heq⟩, hx⟩
    cases l with
    | positive atom =>
      obtain rfl := Literal.positive.inj heq
      obtain ⟨hvar, hnew⟩ := Atom.mem_vars_bind.1 hx
      exact ⟨⟨atom, hl, hvar⟩, hnew⟩
    | negative atom => simp [Literal.map] at heq
  · rintro ⟨⟨atom, hatom, hx⟩, hnew⟩
    exact ⟨atom.bind b, ⟨.positive atom, hatom, rfl⟩, Atom.mem_vars_bind.2 ⟨hx, hnew⟩⟩

section Rule

variable {ask : Atom → List Bindings} {g : Graph} {sig : Signature} {kinds : List Kind}
  {Γ Γ' : String → Kind} {rule : Rule} {goal : Atom}

/-- The constants of a goal may stand for values of the kinds of the variables that they
replace. -/
lemma seed_allows (hrule : RuleFits g sig kinds Γ rule)
    (hgoal : List.Forall₂ (Term.Has g Γ') kinds goal.args) {x : String} {v : Value}
    (h : (seed rule.head goal)[x]? = some v) : (Γ x).Allows g v.asText := by
  obtain ⟨c, rfl, hmem⟩ := seed_eq_some h
  obtain ⟨kind, hgives, hhas⟩ := exists_kind_of_mem_zip hrule.head hgoal hmem
  obtain rfl : Γ x = kind := hgives
  exact hhas

/-- Atoms that respect kinds still do when values are put into them. -/
lemma allAnswered_of_fits
    (hask : ∀ {Γ : String → Kind} {atom : Atom}, Fits g sig Γ atom → atom.IsReady →
      AnswersExactly ask (fun x => (Γ x).Admits g) atom) {ls : List Literal}
    (hls : ∀ {atom : Atom}, .positive atom ∈ ls → Fits g sig Γ atom) :
    AllAnswered ask (fun x => (Γ x).Admits g) ls :=
  fun hatom _ hb hready => hask ((hls hatom).bind fun hx => (hb hx).allows) hready

/-- A rule answers a goal by the solutions of its body under the seed of the goal. -/
lemma mem_ruleAnswers_iff_exists
    (hask : ∀ {Γ : String → Kind} {atom : Atom}, Fits g sig Γ atom → atom.IsReady →
      AnswersExactly ask (fun x => (Γ x).Admits g) atom)
    (hrule : RuleFits g sig kinds Γ rule)
    (hgoal : List.Forall₂ (Term.Has g Γ') kinds goal.args) {s : Bindings} :
    s ∈ ruleAnswers ask goal rule ↔ ∃ r : Bindings,
      r.Assigns (fun x => (Γ x).Admits g)
        (positiveVariables (rule.body.map (Literal.map (Atom.bind (seed rule.head goal))))) ∧
      (∀ l ∈ rule.body, l.Holds ask ((seed rule.head goal).textOr r.text)) ∧
      project? (rule.head.bind (seed rule.head goal)) goal r = some s := by
  set σ := seed rule.head goal with hσ
  set body := rule.body.map (Literal.map (Atom.bind σ)) with hbody
  have hanswered : AllAnswered ask (fun x => (Γ x).Admits g) body := by
    refine allAnswered_of_fits hask fun {atom} hatom => ?_
    obtain ⟨l, hl, heq⟩ := List.mem_map.1 hatom
    cases l with
    | negative other => simp [Literal.map] at heq
    | positive other =>
      obtain rfl := Literal.positive.inj heq
      exact (hrule.body hl).bind fun hx => seed_allows hrule hgoal hx
  obtain ⟨found, hfound⟩ : ∃ found, conjunction ask body = .ok found := by
    obtain ⟨ordered, hordered⟩ := isOk_schedule_bind σ hrule.schedulable
    exact ⟨_, by rw [conjunction, hordered]; rfl⟩
  have hsolutions : ruleAnswers ask goal rule
      = found.filterMap (project? (rule.head.bind σ) goal) := by
    -- An empty body needs no case of its own.
    have hbodyAnswers : (if body.isEmpty then .ok [∅] else conjunction ask body)
        = (.ok found : Except (List Literal) (List Bindings)) := by
      split
      · next hempty => rw [← hfound, List.isEmpty_iff.1 hempty, conjunction_nil]
      · exact hfound
    unfold ruleAnswers
    rw [← hσ]
    dsimp only
    rw [← hbody, hbodyAnswers]
  rw [hsolutions]
  simp only [List.mem_filterMap, mem_conjunction hanswered hfound, hbody, List.forall_mem_map,
    Literal.holds_map_bind, and_assoc]

section Row

variable {r : Bindings} {term : Term}

/-- A term of a head has a value under every solution of the body, and its text is that of
the term. -/
lemma rowValue_spec (hrule : RuleFits g sig kinds Γ rule)
    (hgoal : List.Forall₂ (Term.Has g Γ') kinds goal.args)
    (hr : r.Assigns (fun x => (Γ x).Admits g)
      (positiveVariables (rule.body.map (Literal.map (Atom.bind (seed rule.head goal))))))
    {other : Term} (hpair : (term, other) ∈ rule.head.args.zip goal.args) :
    headValue? r (term.bind (seed rule.head goal))
        = some (rowValue (seed rule.head goal) r term) ∧
      term.ground ((seed rule.head goal).textOr r.text)
        = .const (rowValue (seed rule.head goal) r term).asText := by
  obtain ⟨kind, hgives, -⟩ := exists_kind_of_mem_zip hrule.head hgoal hpair
  cases term with
  | anonymous => exact hgives.elim
  | const c => exact ⟨rfl, rfl⟩
  | var x =>
    cases hx : (seed rule.head goal)[x]? with
    | some v =>
      simp [rowValue, Term.bind, hx, headValue?, Term.ground, Bindings.textOr_of_eq_some hx,
        Value.asText]
    | none =>
      have hnew : x ∉ seed rule.head goal := Bindings.not_mem_iff.2 hx
      have hhead : x ∈ rule.head.vars := Atom.mem_vars.2 (List.of_mem_zip hpair).1
      have hbody := Rule.mem_positiveVariables_of_isSafe hrule.safe (.inl hhead)
      obtain ⟨v, hv⟩ := Bindings.mem_iff.1
        ((hr.covers x).2 (mem_positiveVariables_map_bind.2 ⟨hbody, hnew⟩))
      simp [rowValue, Term.bind, hx, headValue?, hv, Term.ground,
        Bindings.textOr_of_not_mem hnew, Bindings.text, Bindings.textOr_of_eq_some hv]

/-- What a variable of the goal receives is of its kind. -/
lemma rowValue_admits (hrule : RuleFits g sig kinds Γ rule)
    (hgoal : List.Forall₂ (Term.Has g Γ') kinds goal.args)
    (hr : r.Assigns (fun x => (Γ x).Admits g)
      (positiveVariables (rule.body.map (Literal.map (Atom.bind (seed rule.head goal))))))
    {y : String} (hpair : (term, .var y) ∈ rule.head.args.zip goal.args) :
    (Γ' y).Admits g (rowValue (seed rule.head goal) r term) := by
  obtain ⟨hvalue, -⟩ := rowValue_spec hrule hgoal hr hpair
  obtain ⟨kind, hgives, hhas⟩ := exists_kind_of_mem_zip hrule.head hgoal hpair
  rw [show Γ' y = kind from hhas]
  cases term with
  | anonymous => exact hgives.elim
  | const c => exact hgives
  | var x =>
    obtain rfl : Γ x = kind := hgives
    cases hx : (seed rule.head goal)[x]? with
    | none =>
      rw [Term.bind, hx] at hvalue
      exact hr.kinds hvalue
    | some v =>
      obtain ⟨c, rfl, hconst⟩ := seed_eq_some hx
      obtain ⟨kind, hgives, hallows⟩ := exists_kind_of_mem_zip hrule.head hgoal hconst
      obtain rfl : Γ x = kind := hgives
      have hrow : rowValue (seed rule.head goal) r (.var x) = .text c := by
        simp [rowValue, Term.bind, hx, headValue?, Value.asText]
      rw [hrow]
      cases hkind : Γ x with
      | node =>
        -- The variable stands in two places, with a constant in one of them.
        have hsame := eq_of_mem_zip_of_count_le_one (hrule.once x hkind) hpair hconst
        cases hsame
      | text => trivial
      | label => exact hallows hkind

/-- Where the goal has a constant, the head has a text. -/
lemma rowValue_text (hrule : RuleFits g sig kinds Γ rule)
    (hgoal : List.Forall₂ (Term.Has g Γ') kinds goal.args)
    {c : String} (hpair : (term, .const c) ∈ rule.head.args.zip goal.args) :
    ∃ t, rowValue (seed rule.head goal) r term = .text t := by
  obtain ⟨kind, hgives, -⟩ := exists_kind_of_mem_zip hrule.head hgoal hpair
  cases term with
  | anonymous => exact hgives.elim
  | const d => exact ⟨d, rfl⟩
  | var x =>
    obtain ⟨v, hv⟩ := Bindings.mem_iff.1 (mem_seed.2 ⟨c, hpair⟩)
    exact ⟨v.asText, by simp [rowValue, Term.bind, hv, headValue?]⟩

/-- The goal receives a binding from a solution when this has values of the right kinds for
its variables and the head agrees with it. -/
lemma project?_eq_some_iff (hrule : RuleFits g sig kinds Γ rule)
    (hgoal : List.Forall₂ (Term.Has g Γ') kinds goal.args)
    (hr : r.Assigns (fun x => (Γ x).Admits g)
      (positiveVariables (rule.body.map (Literal.map (Atom.bind (seed rule.head goal))))))
    {s : Bindings} : project? (rule.head.bind (seed rule.head goal)) goal r = some s ↔
      s.Assigns (fun x => (Γ' x).Admits g) goal.vars ∧
        Agrees rule.head goal s ((seed rule.head goal).textOr r.text) := by
  have hvars : ∀ x, x ∈ goal.vars ↔ ∃ term, (term, .var x) ∈ rule.head.args.zip goal.args := by
    intro x
    rw [Atom.mem_vars]
    constructor
    · exact exists_mem_zip hrule.head hgoal
    · rintro ⟨term, hpair⟩
      exact (List.of_mem_zip hpair).2
  have hunify : project? (rule.head.bind (seed rule.head goal)) goal r = some s ↔
      (∀ x, x ∈ s ↔ x ∈ goal.vars) ∧ ∀ term other, (term, other) ∈ rule.head.args.zip goal.args →
        other.Is s (rowValue (seed rule.head goal) r term) := by
    rw [project?_eq_unifyAll, unifyAll_empty_eq_some_iff]
    · simp only [List.mem_map, Prod.mk.injEq, Prod.exists, hvars]
      refine and_congr (forall_congr' fun x => iff_congr Iff.rfl ?_) ?_
      · constructor
        · rintro ⟨_, term, _, hpair, rfl, -⟩
          exact ⟨term, hpair⟩
        · rintro ⟨term, hpair⟩
          exact ⟨_, term, _, hpair, rfl, rfl⟩
      · constructor
        · exact fun his term other hpair => his other _ ⟨term, other, hpair, rfl, rfl⟩
        · rintro his _ _ ⟨term, other, hpair, rfl, rfl⟩
          exact his term other hpair
    · intro term other hpair
      rw [(rowValue_spec hrule hgoal hr hpair).1]
      exact Option.some_ne_none _
  rw [hunify]
  constructor
  · rintro ⟨hcovers, his⟩
    refine ⟨⟨hcovers, fun {x v} hx => ?_⟩, fun {term other} hpair c hc => ?_⟩
    · obtain ⟨term, hpair⟩ := (hvars x).1 ((hcovers x).1 (Bindings.mem_iff.2 ⟨v, hx⟩))
      obtain rfl := Option.some.inj ((his term _ hpair).symm.trans hx)
      exact rowValue_admits hrule hgoal hr hpair
    · rw [(rowValue_spec hrule hgoal hr hpair).2]
      have hvalue := his term other hpair
      cases other with
      | anonymous => cases hc
      | const d =>
        obtain rfl : d = c := Term.const.inj hc
        obtain ⟨t, ht⟩ := rowValue_text hrule hgoal hpair
        rw [ht] at hvalue ⊢
        exact congrArg Term.const (beq_iff_eq.1 hvalue)
      | var y =>
        rw [Term.bind, show s[y]? = some _ from hvalue] at hc
        exact hc
  · rintro ⟨hs, hagrees⟩
    refine ⟨hs.covers, fun term other hpair => ?_⟩
    have htext := (rowValue_spec hrule hgoal hr hpair).2
    cases other with
    | anonymous => trivial
    | const c =>
      obtain ⟨t, ht⟩ := rowValue_text hrule hgoal hpair
      have hsame := htext.symm.trans (hagrees hpair rfl)
      rw [ht] at hsame ⊢
      exact beq_iff_eq.2 (Term.const.inj hsame)
    | var y =>
      obtain ⟨w, hw⟩ := Bindings.mem_iff.1 ((hs.covers y).2 ((hvars y).2 ⟨term, hpair⟩))
      have hbind : (Term.var y).bind s = .const w.asText := by rw [Term.bind, hw]
      have hsame := htext.symm.trans (hagrees hpair hbind)
      have hvalue : w = rowValue (seed rule.head goal) r term :=
        (hs.kinds hw).eq_of_asText (rowValue_admits hrule hgoal hr hpair)
          (Term.const.inj hsame).symm
      exact hvalue ▸ hw

end Row

/-- A rule answers a goal with a binding when its body holds under texts with which the head
agrees.  A variable of the body has the text of a value of its kind, unless the goal has a
constant in its place. -/
theorem mem_ruleAnswers
    (hask : ∀ {Γ : String → Kind} {atom : Atom}, Fits g sig Γ atom → atom.IsReady →
      AnswersExactly ask (fun x => (Γ x).Admits g) atom)
    (hrule : RuleFits g sig kinds Γ rule)
    (hgoal : List.Forall₂ (Term.Has g Γ') kinds goal.args) {s : Bindings} :
    s ∈ ruleAnswers ask goal rule ↔ s.Assigns (fun x => (Γ' x).Admits g) goal.vars ∧
      ∃ τ : String → String, Supported g Γ rule goal τ ∧ (∀ l ∈ rule.body, l.Holds ask τ) ∧
        Agrees rule.head goal s τ := by
  rw [mem_ruleAnswers_iff_exists hask hrule hgoal]
  set free := positiveVariables (rule.body.map (Literal.map (Atom.bind (seed rule.head goal))))
    with hfree
  have hvars : ∀ x, x ∈ free ↔ x ∈ positiveVariables rule.body ∧ x ∉ seed rule.head goal :=
    fun x => mem_positiveVariables_map_bind
  constructor
  · rintro ⟨r, hr, hholds, hproject⟩
    obtain ⟨hs, hagrees⟩ := (project?_eq_some_iff hrule hgoal hr).1 hproject
    refine ⟨hs, _, fun x hx => ?_, hholds, hagrees⟩
    by_cases hseed : x ∈ seed rule.head goal
    · exact .inr (mem_seed.1 hseed)
    · obtain ⟨v, hv⟩ := Bindings.mem_iff.1 ((hr.covers x).2 ((hvars x).2 ⟨hx, hseed⟩))
      refine .inl ⟨v, hr.kinds hv, ?_⟩
      rw [Bindings.textOr_of_not_mem hseed, Bindings.text, Bindings.textOr_of_eq_some hv]
  · rintro ⟨hs, τ, hsupported, hholds, hagrees⟩
    have hvalue : ∀ x, ∃ v, x ∈ free → (Γ x).Admits g v ∧ v.asText = τ x := by
      intro x
      by_cases hx : x ∈ free
      · obtain ⟨hbody, hseed⟩ := (hvars x).1 hx
        obtain ⟨v, hv⟩ := (hsupported x hbody).resolve_right fun h => hseed (mem_seed.2 h)
        exact ⟨v, fun _ => hv⟩
      · exact ⟨.text "", fun h => absurd h hx⟩
    choose f hf using hvalue
    have hr : (Bindings.tabulate free f).Assigns (fun x => (Γ x).Admits g) free :=
      Bindings.assigns_tabulate fun x hx => (hf x hx).1
    -- The solution together with the seed has the texts that were given.
    have hτ : ∀ x ∈ positiveVariables rule.body,
        τ x = (seed rule.head goal).textOr (Bindings.tabulate free f).text x := by
      intro x hx
      cases hseed : (seed rule.head goal)[x]? with
      | some v =>
        obtain ⟨c, rfl, hmem⟩ := seed_eq_some hseed
        rw [Bindings.textOr_of_eq_some hseed]
        exact Term.const.inj (hagrees hmem rfl)
      | none =>
        have hnew : x ∉ seed rule.head goal := Bindings.not_mem_iff.2 hseed
        have hx : x ∈ free := (hvars x).2 ⟨hx, hnew⟩
        have hget := (Bindings.getElem?_tabulate free f x).trans (if_pos hx)
        rw [Bindings.textOr_of_not_mem hnew, Bindings.text, Bindings.textOr_of_eq_some hget]
        exact (hf x hx).2.symm
    have hsafe : ∀ x, (x ∈ rule.head.vars ∨ ∃ l ∈ rule.body, x ∈ l.atom.vars) →
        x ∈ positiveVariables rule.body := fun x =>
      Rule.mem_positiveVariables_of_isSafe hrule.safe
    refine ⟨_, hr, fun l hl => ?_, (project?_eq_some_iff hrule hgoal hr).2 ⟨hs, ?_⟩⟩
    · exact (Literal.holds_congr fun x hx => hτ x (hsafe x (.inr ⟨l, hl, hx⟩))).1 (hholds l hl)
    · exact hagrees.congr fun x hx => hτ x (hsafe x (.inl hx))

end Rule

/-! ### All derived predicates -/

section Program

variable {g : Graph} {sig : Signature} {program : List Rule}

lemma answers_of_builtin {depth : Nat} {atom : Atom} (h : builtins.contains atom.predicate) :
    answers g program depth atom = builtinAnswers g atom := by
  cases depth <;> simp only [answers, h, if_true]

lemma answers_zero_of_derived {atom : Atom} (h : ¬ builtins.contains atom.predicate) :
    answers g program 0 atom = [] := by
  simp only [answers, h, Bool.false_eq_true, if_false]

lemma mem_answers_succ_of_derived {depth : Nat} {atom : Atom} {s : Bindings}
    (h : ¬ builtins.contains atom.predicate) : s ∈ answers g program (depth + 1) atom ↔
      ∃ rule ∈ program, rule.head.predicate = atom.predicate ∧
        s ∈ ruleAnswers (answers g program depth) atom rule := by
  simp only [answers, h, Bool.false_eq_true, if_false, List.mem_flatMap, List.mem_filter,
    beq_iff_eq, and_assoc]

/-- A goal with the values of its variables in their places agrees with the same heads. -/
lemma agrees_bind {head goal : Atom} {s : Bindings} {τ : String → String} :
    Agrees head (goal.bind s) ∅ τ ↔ Agrees head goal s τ := by
  simp only [Agrees, Atom.bind, List.zip_map_right, List.mem_map, Prod.map, Prod.exists,
    Prod.mk.injEq, id_eq]
  constructor
  · intro h term other hpair c hc
    exact h ⟨term, other, hpair, rfl, rfl⟩ (by rw [Term.bind_empty, hc])
  · rintro h _ _ ⟨term, other, hpair, rfl, rfl⟩ c hc
    rw [Term.bind_empty] at hc
    exact h hpair hc

/-- What supports the texts for a goal and for the goal with its values is the same. -/
lemma supported_bind {kinds : List Kind} {Γ Γ' : String → Kind} {rule : Rule} {goal : Atom}
    {s : Bindings} {τ : String → String} (hrule : RuleFits g sig kinds Γ rule)
    (hgoal : List.Forall₂ (Term.Has g Γ') kinds goal.args)
    (hs : ∀ {x : String} {v : Value}, s[x]? = some v → (Γ' x).Admits g v)
    (hagrees : Agrees rule.head goal s τ) :
    Supported g Γ rule (goal.bind s) τ ↔ Supported g Γ rule goal τ := by
  refine forall₂_congr fun x _ => ?_
  have hzip : ∀ c, (.var x, .const c) ∈ rule.head.args.zip (goal.bind s).args ↔
      ∃ other, (.var x, other) ∈ rule.head.args.zip goal.args ∧ other.bind s = .const c := by
    simp [Atom.bind, List.zip_map_right]
  constructor
  · rintro (hkind | ⟨c, hc⟩)
    · exact .inl hkind
    · obtain ⟨other, hpair, hother⟩ := (hzip c).1 hc
      cases other with
      | anonymous => cases hother
      | const d => exact .inr ⟨d, hpair⟩
      | var y =>
        -- The value of the variable of the goal is of the kind of both variables.
        obtain ⟨kind, hgives, hhas⟩ := exists_kind_of_mem_zip hrule.head hgoal hpair
        have htext := hagrees hpair hother
        cases hy : s[y]? with
        | none => simp [Term.bind, hy] at hother
        | some v =>
          rw [Term.bind, hy] at hother
          have hkind := hs hy
          rw [show Γ' y = kind from hhas, ← show Γ x = kind from hgives] at hkind
          exact .inl ⟨v, hkind, (Term.const.inj hother).trans (Term.const.inj htext).symm⟩
  · rintro (hkind | ⟨c, hc⟩)
    · exact .inl hkind
    · exact .inr ⟨c, (hzip c).2 ⟨_, hc, rfl⟩⟩

/-- A rule answers a goal with a binding when it answers the goal with the values of the
binding in their places. -/
lemma mem_ruleAnswers_iff_bind {ask : Atom → List Bindings} {kinds : List Kind}
    {Γ Γ' : String → Kind} {rule : Rule} {goal : Atom} {s : Bindings}
    (hask : ∀ {Γ : String → Kind} {atom : Atom}, Fits g sig Γ atom → atom.IsReady →
      AnswersExactly ask (fun x => (Γ x).Admits g) atom)
    (hrule : RuleFits g sig kinds Γ rule)
    (hgoal : List.Forall₂ (Term.Has g Γ') kinds goal.args)
    (hs : s.Assigns (fun x => (Γ' x).Admits g) goal.vars) :
    s ∈ ruleAnswers ask goal rule ↔ ∃ s', s' ∈ ruleAnswers ask (goal.bind s) rule := by
  have hbound : List.Forall₂ (Term.Has g Γ') kinds (goal.bind s).args :=
    List.forall₂_map_right_iff.2
      (hgoal.imp fun _ _ hhas => hhas.bind fun hx => (hs.kinds hx).allows)
  have hempty : ∀ s' : Bindings,
      s'.Assigns (fun x => (Γ' x).Admits g) (goal.bind s).vars ↔ s' = ∅ := by
    intro s'
    rw [Atom.bind_eq_ground fun x hx => (hs.covers x).2 hx, Atom.vars_ground,
      Bindings.assigns_nil_iff]
  simp only [mem_ruleAnswers hask hrule hgoal, mem_ruleAnswers hask hrule hbound, hempty,
    exists_eq_left, hs, true_and]
  refine exists_congr fun τ => ?_
  rw [agrees_bind]
  constructor
  · rintro ⟨hsupported, hholds, hagrees⟩
    exact ⟨(supported_bind hrule hgoal hs.kinds hagrees).2 hsupported, hholds, hagrees⟩
  · rintro ⟨hsupported, hholds, hagrees⟩
    exact ⟨(supported_bind hrule hgoal hs.kinds hagrees).1 hsupported, hholds, hagrees⟩

lemma answersExactly_of_builtin (h : g.Consistent) (depth : Nat) {Γ : String → Kind}
    {atom : Atom} (hfits : Fits g sig Γ atom) (hbuiltin : builtins.contains atom.predicate)
    (hready : atom.IsReady) :
    AnswersExactly (answers g program depth) (fun x => (Γ x).Admits g) atom := by
  intro s
  rw [answers_of_builtin hbuiltin,
    answers_of_builtin (by rwa [Atom.predicate_ground])]
  exact answersExactly_builtin h hfits hbuiltin hready s

/-- Every atom that respects kinds is answered exactly, however deep predicates may nest. -/
theorem answersExactly (h : g.Consistent) (hprogram : ProgramFits g sig program) (depth : Nat)
    {Γ : String → Kind} {atom : Atom} (hfits : Fits g sig Γ atom) (hready : atom.IsReady) :
    AnswersExactly (answers g program depth) (fun x => (Γ x).Admits g) atom := by
  induction depth generalizing Γ atom with
  | zero =>
    by_cases hbuiltin : builtins.contains atom.predicate
    · exact answersExactly_of_builtin h 0 hfits hbuiltin hready
    · intro s
      have hground : ¬ builtins.contains (atom.ground s.text).predicate := by
        rwa [Atom.predicate_ground]
      simp only [answers_zero_of_derived hbuiltin, answers_zero_of_derived hground,
        List.not_mem_nil, ne_eq, not_true_eq_false, and_false]
  | succ depth ih =>
    by_cases hbuiltin : builtins.contains atom.predicate
    · exact answersExactly_of_builtin h (depth + 1) hfits hbuiltin hready
    · intro s
      obtain ⟨kinds, hsig, hargs⟩ := hfits.of_not_builtin hbuiltin
      have hrules : ∀ rule ∈ program, rule.head.predicate = atom.predicate →
          ∃ Γ, RuleFits g sig kinds Γ rule := fun rule hrule hhead =>
        hprogram rule hrule kinds (hhead ▸ hsig)
      have hassigns : s ∈ answers g program (depth + 1) atom →
          s.Assigns (fun x => (Γ x).Admits g) atom.vars := by
        rw [mem_answers_succ_of_derived hbuiltin]
        rintro ⟨rule, hrule, hhead, hs⟩
        obtain ⟨Γ', hfits'⟩ := hrules rule hrule hhead
        exact ((mem_ruleAnswers ih hfits' hargs).1 hs).1
      rw [← and_iff_right_of_imp hassigns]
      refine and_congr_right fun hs => ?_
      rw [← Atom.bind_eq_ground fun x hx => (hs.covers x).2 hx, ← List.length_pos_iff,
        List.length_pos_iff_exists_mem]
      have hbound : ¬ builtins.contains (atom.bind s).predicate := hbuiltin
      simp only [mem_answers_succ_of_derived hbuiltin, mem_answers_succ_of_derived hbound,
        Atom.predicate_bind]
      constructor
      · rintro ⟨rule, hrule, hhead, hmem⟩
        obtain ⟨Γ', hfits'⟩ := hrules rule hrule hhead
        obtain ⟨s', hs'⟩ := (mem_ruleAnswers_iff_bind ih hfits' hargs hs).1 hmem
        exact ⟨s', rule, hrule, hhead, hs'⟩
      · rintro ⟨s', rule, hrule, hhead, hmem⟩
        obtain ⟨Γ', hfits'⟩ := hrules rule hrule hhead
        exact ⟨rule, hrule, hhead,
          (mem_ruleAnswers_iff_bind ih hfits' hargs hs).2 ⟨s', hmem⟩⟩

/-! ### Queries -/

/-- The rules of a program and the atoms of a query respect kinds. -/
structure Respects (g : Graph) (sig : Signature) (Γ : String → Kind) (program : List Rule)
    (ls : List Literal) : Prop where
  program : ProgramFits g sig program
  literals : ∀ {atom : Atom}, .positive atom ∈ ls → Fits g sig Γ atom

variable {Γ : String → Kind} {ls : List Literal}

lemma queryAnswers_eq_ok {found : List Bindings} :
    queryAnswers g program ls = .ok found ↔ ∃ ordered, schedule ls = .ok ordered ∧
      askAll (goalAnswers g program) ordered [∅] = found := by
  rw [queryAnswers, conjunction]
  cases schedule ls <;> simp [Except.map, Except.mapError]

lemma exists_queryAnswers_eq_ok : (∃ found, queryAnswers g program ls = .ok found) ↔
    ∃ ordered, schedule ls = .ok ordered := by
  simp only [queryAnswers_eq_ok]
  exact ⟨fun ⟨_, ordered, h, _⟩ => ⟨ordered, h⟩, fun ⟨ordered, h⟩ => ⟨_, ordered, h, rfl⟩⟩

lemma Respects.allAnswered (h : g.Consistent) (hls : Respects g sig Γ program ls) :
    AllAnswered (goalAnswers g program) (fun x => (Γ x).Admits g) ls :=
  fun hatom => allAnswered_of_fits (answersExactly h hls.program maxNesting) hls.literals hatom

/-- The answers to a query that respects kinds are the bindings under which its literals
hold. -/
lemma Respects.mem_queryAnswers (h : g.Consistent) (hls : Respects g sig Γ program ls)
    {found : List Bindings} (hfound : queryAnswers g program ls = .ok found) {b : Bindings} :
    b ∈ found ↔ b.Assigns (fun x => (Γ x).Admits g) (positiveVariables ls) ∧
      ∀ l ∈ ls, l.Holds (goalAnswers g program) b.text := by
  refine mem_conjunction (hls.allAnswered h) ?_
  obtain ⟨ordered, hordered, rfl⟩ := queryAnswers_eq_ok.1 hfound
  rw [conjunction, hordered]
  rfl

end Program

end CodeGraph.Rules
