import Mathlib
import CodeGraph.Rules.Answers
import CodeGraph.Proofs.Rules.Schedule

/-!
# What a conjunction means

An atom is *answered exactly* when its answers are the bindings of its variables, by values
of the right kinds, under which the ground atom has an answer (`AnswersExactly`): it means
the same whether its variables are free or have values already.

If this holds of every positive literal when its turn comes, the answers to a conjunction
are the bindings under which every literal holds (`mem_conjunction`), and their order is of
no importance.
-/

namespace CodeGraph.Rules

variable {answers : Atom → List Bindings} {kinds : String → Value → Prop}

/-- The answers to an atom are the bindings under which the ground atom has an answer. -/
def AnswersExactly (answers : Atom → List Bindings) (kinds : String → Value → Prop)
    (atom : Atom) : Prop :=
  ∀ s : Bindings, s ∈ answers atom ↔
    s.Assigns kinds atom.vars ∧ answers (atom.ground s.text) ≠ []

/-- Whether an atom can be asked with the variables that it has. -/
def Atom.IsReady (atom : Atom) : Prop :=
  (Literal.positive atom).isReady []

/-- A literal holds under an assignment of texts to variables. -/
def Literal.Holds (answers : Atom → List Bindings) (τ : String → String) : Literal → Prop
  | .positive atom => answers (atom.ground τ) ≠ []
  | .negative atom => answers (atom.ground τ) = []

/-- Every positive literal is answered exactly, whatever values its variables have when it
is asked. -/
def AllAnswered (answers : Atom → List Bindings) (kinds : String → Value → Prop)
    (ls : List Literal) : Prop :=
  ∀ {atom : Atom}, .positive atom ∈ ls → ∀ b : Bindings,
    (∀ {x : String} {v : Value}, b[x]? = some v → kinds x v) → (atom.bind b).IsReady →
      AnswersExactly answers kinds (atom.bind b)

/-! ### One literal -/

lemma mem_positiveVariables_cons {l : Literal} {ls : List Literal} {x : String} :
    x ∈ positiveVariables (l :: ls) ↔ x ∈ positiveVariables [l] ∨ x ∈ positiveVariables ls := by
  cases l <;> simp [positiveVariables, Literal.isNegative]

lemma mem_positiveVariables {ls : List Literal} {x : String} :
    x ∈ positiveVariables ls ↔ ∃ atom, .positive atom ∈ ls ∧ x ∈ atom.vars := by
  simp only [positiveVariables, List.mem_flatMap, List.mem_filter]
  constructor
  · rintro ⟨l, ⟨hl, hpositive⟩, hx⟩
    cases l with
    | positive atom => exact ⟨atom, hl, hx⟩
    | negative atom => simp [Literal.isNegative] at hpositive
  · rintro ⟨atom, hatom, hx⟩
    exact ⟨.positive atom, ⟨hatom, rfl⟩, hx⟩

namespace Literal

lemma holds_congr {l : Literal} {τ τ' : String → String} (h : ∀ x ∈ l.atom.vars, τ x = τ' x) :
    l.Holds answers τ ↔ l.Holds answers τ' := by
  cases l with
  | positive atom =>
    have hground : atom.ground τ = atom.ground τ' := Atom.ground_congr h
    rw [Holds, Holds, hground]
  | negative atom =>
    have hground : atom.ground τ = atom.ground τ' := Atom.ground_congr h
    rw [Holds, Holds, hground]

/-- Once a literal that was ready has been asked, all its variables are bound. -/
lemma vars_subset_binds {l : Literal} {bound : List String} (hready : l.isReady bound) :
    l.atom.vars ⊆ l.binds bound := by
  intro x hx
  cases l with
  | positive atom => exact List.mem_append_right bound hx
  | negative atom =>
    simp only [isReady, List.all_eq_true, List.contains_iff_mem] at hready
    exact hready x hx

end Literal

section One

variable {bound : List String} {b r : Bindings} {atom : Atom}

/-- Asking for an atom extends a binding by values for the variables of the atom. -/
lemma mem_ask_positive (hb : b.Assigns kinds bound)
    (hanswered : AnswersExactly answers kinds (atom.bind b)) :
    r ∈ ask answers (.positive atom) b ↔ r.Assigns kinds (bound ++ atom.vars) ∧
      (∀ {x : String} {v : Value}, b[x]? = some v → r[x]? = some v) ∧
      answers (atom.ground r.text) ≠ [] := by
  -- An answer binds only what is new, so it goes together with the binding.
  have hnew : ∀ {s : Bindings}, s.Assigns kinds (atom.bind b).vars → ∀ x ∈ s, x ∉ b :=
    fun hs x hx => (Atom.mem_vars_bind.1 ((hs.covers x).1 hx)).2
  simp only [ask, Literal.atom, List.mem_filterMap]
  constructor
  · rintro ⟨s, hs, hr⟩
    obtain ⟨hassigns, hholds⟩ := (hanswered s).1 hs
    have hdisjoint := hnew hassigns
    rw [Bindings.extend?_of_disjoint hdisjoint] at hr
    obtain rfl := Option.some.inj hr
    rw [Atom.ground_bind, ← Bindings.text_union hdisjoint] at hholds
    refine ⟨⟨fun x => ?_, fun {x v} hx => ?_⟩, fun {x v} hx => ?_, hholds⟩
    · rw [Std.ExtTreeMap.mem_union_iff, hb.covers, hassigns.covers, Atom.mem_vars_bind,
        hb.covers, List.mem_append]
      tauto
    · rw [Bindings.getElem?_union, Option.or_eq_some_iff] at hx
      exact hx.elim hassigns.kinds fun hx => hb.kinds hx.2
    · have hnone : s[x]? = none :=
        Bindings.not_mem_iff.1 fun hxs => hdisjoint x hxs (Bindings.mem_iff.2 ⟨v, hx⟩)
      rw [Bindings.getElem?_union, hnone, hx]
      rfl
  · rintro ⟨hassigns, hextends, hholds⟩
    have hsub : ∀ x ∈ (atom.bind b).vars, x ∈ bound ++ atom.vars := fun x hx =>
      List.mem_append_right bound (Atom.mem_vars_bind.1 hx).1
    have hs : (r.restrict (atom.bind b).vars).Assigns kinds (atom.bind b).vars :=
      hassigns.restrict hsub
    have hdisjoint := hnew hs
    have hunion : b ∪ r.restrict (atom.bind b).vars = r := by
      refine Std.ExtTreeMap.ext_getElem? fun x => ?_
      rw [Bindings.getElem?_union,
        Bindings.getElem?_restrict fun x hx => (hassigns.covers x).2 (hsub x hx)]
      simp only [Atom.mem_vars_bind]
      cases hx : b[x]? with
      | some v =>
        have hxb : x ∈ b := Bindings.mem_iff.2 ⟨v, hx⟩
        simp [hxb, hextends hx]
      | none =>
        have hxb : x ∉ b := Bindings.not_mem_iff.2 hx
        by_cases hvar : x ∈ atom.vars
        · simp [hvar, hxb]
        · have hxr : x ∉ r := by
            rw [hassigns.covers, List.mem_append, ← hb.covers]
            exact fun h => h.elim hxb hvar
          simp [hvar, Bindings.not_mem_iff.1 hxr]
    refine ⟨r.restrict (atom.bind b).vars, (hanswered _).2 ⟨hs, ?_⟩, ?_⟩
    · rwa [Atom.ground_bind, ← Bindings.text_union hdisjoint, hunion]
    · rw [Bindings.extend?_of_disjoint hdisjoint, hunion]

/-- Asking that an atom has no answer keeps a binding or drops it. -/
lemma mem_ask_negative (hb : b.Assigns kinds bound) (hvars : ∀ x ∈ atom.vars, x ∈ bound) :
    r ∈ ask answers (.negative atom) b ↔ r.Assigns kinds bound ∧
      (∀ {x : String} {v : Value}, b[x]? = some v → r[x]? = some v) ∧
      answers (atom.ground r.text) = [] := by
  have hground : atom.bind b = atom.ground b.text :=
    Atom.bind_eq_ground fun x hx => (hb.covers x).2 (hvars x hx)
  simp only [ask, Literal.atom, hground, List.isEmpty_iff]
  constructor
  · intro hr
    split at hr
    · next hnone =>
      obtain rfl := List.mem_singleton.1 hr
      exact ⟨hb, fun h => h, hnone⟩
    · simp at hr
  · rintro ⟨hassigns, hextends, hnone⟩
    obtain rfl := hb.eq_of_extends hassigns hextends
    simp [hnone]

end One

/-- The bindings that come from asking a literal extend the binding it is asked under by
values for its variables, so that it holds. -/
lemma mem_ask {l : Literal} {bound : List String} {b r : Bindings}
    (hready : l.isReady bound) (hb : b.Assigns kinds bound)
    (hanswered : AllAnswered answers kinds [l]) :
    r ∈ ask answers l b ↔ r.Assigns kinds (l.binds bound) ∧
      (∀ {x : String} {v : Value}, b[x]? = some v → r[x]? = some v) ∧
      l.Holds answers r.text := by
  cases l with
  | positive atom =>
    have hready' : (atom.bind b).IsReady :=
      Literal.isReady_bind (fun x hx => .inl ((hb.covers x).2 hx)) hready
    exact mem_ask_positive hb (hanswered List.mem_cons_self b hb.kinds hready')
  | negative atom =>
    exact mem_ask_negative hb fun x hx => Literal.vars_subset_binds hready hx

/-! ### All literals -/

lemma mem_askAll_iff_exists {ls : List Literal} {current : List Bindings} {r : Bindings} :
    r ∈ askAll answers ls current ↔ ∃ b ∈ current, r ∈ askAll answers ls [b] := by
  induction ls generalizing current with
  | nil => simp [askAll]
  | cons l ls ih =>
    simp only [askAll, List.flatMap_singleton]
    rw [ih]
    constructor
    · rintro ⟨b', hb', hr⟩
      obtain ⟨b, hb, hb'⟩ := List.mem_flatMap.1 hb'
      exact ⟨b, hb, ih.2 ⟨b', hb', hr⟩⟩
    · rintro ⟨b, hb, hr⟩
      obtain ⟨b', hb', hr⟩ := ih.1 hr
      exact ⟨b', List.mem_flatMap.2 ⟨b, hb, hb'⟩, hr⟩

lemma askAll_append {ls more : List Literal} {current : List Bindings} :
    askAll answers (ls ++ more) current = askAll answers more (askAll answers ls current) := by
  induction ls generalizing current with
  | nil => rfl
  | cons l ls ih => rw [List.cons_append, askAll, askAll, ih]

/-- What comes from asking literals one of which is singled out. -/
lemma mem_askAll_middle {before after : List Literal} {l : Literal} {b r : Bindings} :
    r ∈ askAll answers (before ++ l :: after) [b] ↔
      ∃ c ∈ askAll answers before [b], ∃ d ∈ ask answers l c, r ∈ askAll answers after [d] := by
  rw [askAll_append, mem_askAll_iff_exists]
  simp only [askAll, List.flatMap_singleton]
  exact exists_congr fun c => and_congr_right fun _ => mem_askAll_iff_exists

/-- The bindings that come from asking literals in order extend a binding by values for all
variables of the positive literals, so that every literal holds. -/
theorem mem_askAll {ls : List Literal} {bound : List String} {b r : Bindings}
    (horder : InOrder bound ls) (hb : b.Assigns kinds bound)
    (hanswered : AllAnswered answers kinds ls) :
    r ∈ askAll answers ls [b] ↔ r.Assigns kinds (bound ++ positiveVariables ls) ∧
      (∀ {x : String} {v : Value}, b[x]? = some v → r[x]? = some v) ∧
      ∀ l ∈ ls, l.Holds answers r.text := by
  induction ls generalizing bound b with
  | nil =>
    simp only [askAll, List.mem_singleton, positiveVariables, List.filter_nil, List.flatMap_nil,
      List.append_nil, List.not_mem_nil, false_implies, implies_true, and_true]
    constructor
    · rintro rfl
      exact ⟨hb, fun h => h⟩
    · rintro ⟨hassigns, hextends⟩
      exact hb.eq_of_extends hassigns hextends
  | cons l ls ih =>
    have hfirst : AllAnswered answers kinds [l] := fun {atom} hatom =>
      hanswered (List.mem_singleton.1 hatom ▸ List.mem_cons_self)
    have hrest : AllAnswered answers kinds ls := fun {atom} hatom =>
      hanswered (List.mem_cons_of_mem l hatom)
    have hvars : ∀ x, x ∈ l.binds bound ++ positiveVariables ls ↔
        x ∈ bound ++ positiveVariables (l :: ls) := fun x => by
      rw [List.mem_append, List.mem_append, Literal.mem_binds,
        @mem_positiveVariables_cons l ls, or_assoc]
    rw [askAll, List.flatMap_singleton, mem_askAll_iff_exists]
    constructor
    · rintro ⟨b', hb', hr⟩
      obtain ⟨hassigns', hextends', hl⟩ := (mem_ask horder.1 hb hfirst).1 hb'
      obtain ⟨hassigns, hextends, hls⟩ := (ih horder.2 hassigns' hrest).1 hr
      refine ⟨hassigns.congr hvars, fun h => hextends (hextends' h),
        List.forall_mem_cons.2 ⟨?_, hls⟩⟩
      refine (Literal.holds_congr fun x hx => ?_).1 hl
      exact Bindings.text_eq_of_extends hextends
        ((hassigns'.covers x).2 (Literal.vars_subset_binds horder.1 hx))
    · rintro ⟨hassigns, hextends, hholds⟩
      have hassigns' := hassigns.congr fun x => (hvars x).symm
      have hsub : ∀ x ∈ l.binds bound, x ∈ r := fun x hx =>
        (hassigns'.covers x).2 (List.mem_append_left _ hx)
      have hb' : (r.restrict (l.binds bound)).Assigns kinds (l.binds bound) :=
        hassigns'.restrict fun x hx => List.mem_append_left _ hx
      refine ⟨r.restrict (l.binds bound), (mem_ask horder.1 hb hfirst).2 ⟨hb', ?_, ?_⟩,
        (ih horder.2 hb' hrest).2 ⟨hassigns', Bindings.getElem?_of_getElem?_restrict hsub,
          (List.forall_mem_cons.1 hholds).2⟩⟩
      · intro x v hx
        have hbound : x ∈ l.binds bound :=
          l.subset_binds bound ((hb.covers x).1 (Bindings.mem_iff.2 ⟨v, hx⟩))
        rw [Bindings.getElem?_restrict hsub, if_pos hbound]
        exact hextends hx
      · refine (Literal.holds_congr fun x hx => ?_).2 (List.forall_mem_cons.1 hholds).1
        exact Bindings.text_eq_of_extends (Bindings.getElem?_of_getElem?_restrict hsub)
          ((hb'.covers x).2 (Literal.vars_subset_binds horder.1 hx))

/-- The answers to a conjunction are the bindings under which all literals hold. -/
theorem mem_conjunction {ls : List Literal} {found : List Bindings} {r : Bindings}
    (hanswered : AllAnswered answers kinds ls) (h : conjunction answers ls = .ok found) :
    r ∈ found ↔ r.Assigns kinds (positiveVariables ls) ∧ ∀ l ∈ ls, l.Holds answers r.text := by
  unfold conjunction at h
  cases hordered : schedule ls with
  | error left => simp [hordered, Except.map] at h
  | ok ordered =>
    rw [hordered] at h
    obtain rfl := Except.ok.inj h
    obtain ⟨hperm, horder⟩ := schedule_eq_ok hordered
    have hempty : (∅ : Bindings).Assigns kinds [] := Bindings.assigns_nil_iff.2 rfl
    have hvars : ∀ x, x ∈ positiveVariables ordered ↔ x ∈ positiveVariables ls := fun x => by
      simp only [mem_positiveVariables, hperm.mem_iff]
    rw [mem_askAll horder hempty fun {atom} hatom => hanswered (hperm.subset hatom)]
    simp only [List.nil_append, hperm.mem_iff]
    constructor
    · rintro ⟨hassigns, -, hholds⟩
      exact ⟨hassigns.congr hvars, hholds⟩
    · rintro ⟨hassigns, hholds⟩
      exact ⟨hassigns.congr fun x => (hvars x).symm, by simp, hholds⟩

end CodeGraph.Rules
