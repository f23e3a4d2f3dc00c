import Mathlib
import CodeGraph.Proofs.Rules.Forget

/-!
# `_` and variables that occur once

A variable that occurs in one literal only is bound by this literal and read by no other.  So the
literals are asked in the same order with `_` in its place (`schedule_forget`), and what comes out
of them is the same but for the value of the variable (`mem_askAll_forget`).
-/

namespace CodeGraph.Rules

/-! ### Conjunctions -/

section Conjunction

variable {answers : Atom → List Bindings} {x : String}

/-- Without a variable that a literal does not have, it is asked in the same way. -/
lemma ask_forget_bindings
    (hvars : ∀ {atom : Atom} {s : Bindings}, s ∈ answers atom → ∀ y ∈ s, y ∈ atom.vars)
    {l : Literal} (hx : x ∉ l.atom.vars) (b : Bindings) :
    ask answers l (b.forget x) = (ask answers l b).map (.forget x) := by
  have hbind : l.atom.bind (b.forget x) = l.atom.bind b := by
    simp only [Atom.bind, Atom.mk.injEq, true_and]
    refine List.map_congr_left fun term hterm => ?_
    cases term with
    | var y =>
      have hy : x ≠ y := fun h => hx (Atom.mem_vars.2 (h ▸ hterm))
      simp only [Term.bind, Bindings.getElem?_forget, if_neg hy]
    | _ => rfl
  unfold ask
  rw [hbind]
  cases l with
  | positive atom =>
    dsimp only
    rw [List.map_filterMap]
    refine List.filterMap_congr fun s hs => ?_
    have hnew : x ∉ s := fun hmem => hx (Atom.mem_vars_bind.1 (hvars hs x hmem)).1
    have hextend := Bindings.extend?_forget (a := b) (.inr hnew)
    rwa [Bindings.forget_of_not_mem hnew] at hextend
  | negative atom =>
    dsimp only
    split <;> rfl

lemma askAll_forget_bindings
    (hvars : ∀ {atom : Atom} {s : Bindings}, s ∈ answers atom → ∀ y ∈ s, y ∈ atom.vars)
    {ls : List Literal} (hx : ∀ l ∈ ls, x ∉ l.atom.vars) (current : List Bindings) :
    askAll answers ls (current.map (.forget x)) = (askAll answers ls current).map (.forget x) := by
  induction ls generalizing current with
  | nil => rfl
  | cons l ls ih =>
    obtain ⟨hl, hls⟩ := List.forall_mem_cons.1 hx
    rw [askAll, askAll, List.flatMap_map, ← ih hls, List.map_flatMap]
    exact congrArg _ (List.flatMap_congr fun b _ => ask_forget_bindings hvars hl b)

lemma eq_var_of_bind {b : Bindings} {term : Term} (h : term.bind b = .var x) : term = .var x := by
  cases term with
  | var y =>
    rw [Term.bind] at h
    split at h
    · simp at h
    · exact h
  | const c => exact h
  | anonymous => exact h

lemma count_bind_le (b : Bindings) (atom : Atom) :
    (atom.bind b).args.count (.var x) ≤ atom.args.count (.var x) := by
  simp only [Atom.bind, List.count_eq_countP, List.countP_map]
  exact List.countP_mono_left fun term _ h => beq_iff_eq.2 (eq_var_of_bind (beq_iff_eq.1 h))

lemma Atom.ListsNodes.bind {b : Bindings} {atom : Atom} (h : atom.ListsNodes x) (hx : x ∉ b) :
    (atom.bind b).ListsNodes x := by
  obtain ⟨hpredicate, type, rest, hargs⟩ := h
  refine ⟨hpredicate, type.bind b, rest.map (Term.bind b), ?_⟩
  have hkept : (Term.var x).bind b = .var x := by rw [Term.bind, Bindings.not_mem_iff.1 hx]
  rw [Atom.bind, hargs, List.map_cons, List.map_cons, hkept]

lemma listsNodes_of_bind {b : Bindings} {atom : Atom} (h : (atom.bind b).ListsNodes x) :
    atom.ListsNodes x := by
  obtain ⟨hpredicate, type, rest, hargs⟩ := h
  obtain ⟨id, tail, hatom, hid, htail⟩ := List.map_eq_cons_iff.1 hargs
  obtain ⟨type', rest', rfl, -, -⟩ := List.map_eq_cons_iff.1 htail
  exact ⟨hpredicate, type', rest', by rw [hatom, eq_var_of_bind hid]⟩

lemma Atom.forget_bind {b : Bindings} (hx : x ∉ b) (atom : Atom) :
    (atom.forget x).bind b = (atom.bind b).forget x := by
  simp only [Atom.forget, Atom.bind, List.map_map, Atom.mk.injEq, true_and]
  exact List.map_congr_left fun term _ => Term.forget_bind hx term

/-- The literal in which the variable occurs binds it, so without it the bindings lose it. -/
lemma mem_ask_forget
    (hforget : ∀ {atom : Atom}, atom.args.count (.var x) ≤ 1 → ¬ atom.ListsNodes x →
      ∀ s, s ∈ answers (atom.forget x) ↔ s ∈ (answers atom).map (.forget x))
    {atom : Atom} (honce : atom.args.count (.var x) ≤ 1) (hlists : ¬ atom.ListsNodes x)
    {b : Bindings} (hb : x ∉ b) (r : Bindings) :
    r ∈ ask answers (.positive (atom.forget x)) b ↔
      r ∈ (ask answers (.positive atom) b).map (.forget x) := by
  have hfound := hforget ((count_bind_le b atom).trans honce) fun h => hlists (listsNodes_of_bind h)
  have hextend (s : Bindings) : b.extend? (s.forget x) = (b.extend? s).map (.forget x) := by
    have hextend := Bindings.extend?_forget (b := s) (.inl hb)
    rwa [Bindings.forget_of_not_mem hb] at hextend
  simp only [ask, Literal.atom, Atom.forget_bind hb, List.mem_filterMap, List.mem_map, hfound]
  constructor
  · rintro ⟨_, ⟨s, hs, rfl⟩, hr⟩
    rw [hextend] at hr
    obtain ⟨r', hr', rfl⟩ := Option.map_eq_some_iff.1 hr
    exact ⟨r', ⟨s, hs, hr'⟩, rfl⟩
  · rintro ⟨r', ⟨s, hs, hr'⟩, rfl⟩
    exact ⟨s.forget x, ⟨s, hs, rfl⟩, by rw [hextend, hr']; rfl⟩

/-- Asking literals binds no other variables. -/
lemma not_mem_of_mem_askAll
    (hvars : ∀ {atom : Atom} {s : Bindings}, s ∈ answers atom → ∀ y ∈ s, y ∈ atom.vars)
    {ls : List Literal} (hx : ∀ l ∈ ls, x ∉ l.atom.vars) {b r : Bindings} (hb : x ∉ b)
    (hr : r ∈ askAll answers ls [b]) : x ∉ r := by
  have hkept := askAll_forget_bindings hvars hx [b]
  rw [List.map_singleton, Bindings.forget_of_not_mem hb] at hkept
  rw [hkept] at hr
  obtain ⟨r', -, rfl⟩ := List.mem_map.1 hr
  rw [Bindings.not_mem_iff, Bindings.getElem?_forget, if_pos rfl]

/-- Forgetting a variable in the one literal in which it occurs forgets it in what comes out. -/
lemma mem_askAll_forget
    (hvars : ∀ {atom : Atom} {s : Bindings}, s ∈ answers atom → ∀ y ∈ s, y ∈ atom.vars)
    (hforget : ∀ {atom : Atom}, atom.args.count (.var x) ≤ 1 → ¬ atom.ListsNodes x →
      ∀ s, s ∈ answers (atom.forget x) ↔ s ∈ (answers atom).map (.forget x))
    {before after : List Literal} {atom : Atom} (hbefore : ∀ l ∈ before, x ∉ l.atom.vars)
    (hafter : ∀ l ∈ after, x ∉ l.atom.vars) (honce : atom.args.count (.var x) ≤ 1)
    (hlists : ¬ atom.ListsNodes x) (r : Bindings) :
    r ∈ askAll answers (before ++ .positive (atom.forget x) :: after) [∅] ↔
      r ∈ (askAll answers (before ++ .positive atom :: after) [∅]).map (.forget x) := by
  rw [mem_askAll_middle, List.mem_map]
  constructor
  · rintro ⟨c, hc, d, hd, hr⟩
    have hxc := not_mem_of_mem_askAll hvars hbefore not_mem_empty hc
    obtain ⟨d', hd', rfl⟩ := List.mem_map.1 ((mem_ask_forget hforget honce hlists hxc d).1 hd)
    have hkept := askAll_forget_bindings hvars hafter [d']
    rw [List.map_singleton] at hkept
    rw [hkept] at hr
    obtain ⟨r', hr', rfl⟩ := List.mem_map.1 hr
    exact ⟨r', mem_askAll_middle.2 ⟨c, hc, d', hd', hr'⟩, rfl⟩
  · rintro ⟨r', hr', rfl⟩
    obtain ⟨c, hc, d', hd', hr'⟩ := mem_askAll_middle.1 hr'
    have hxc := not_mem_of_mem_askAll hvars hbefore not_mem_empty hc
    have hd := (mem_ask_forget hforget honce hlists hxc (d'.forget x)).2
      (List.mem_map_of_mem hd')
    have hkept := askAll_forget_bindings hvars hafter [d']
    rw [List.map_singleton] at hkept
    exact ⟨c, hc, d'.forget x, hd, by rw [hkept]; exact List.mem_map_of_mem hr'⟩

/-- A literal that is never answered leaves nothing. -/
lemma askAll_eq_nil {before after : List Literal} {atom : Atom} {b : Bindings}
    (h : ∀ c ∈ askAll answers before [b], answers (atom.bind c) = []) :
    askAll answers (before ++ .positive atom :: after) [b] = [] := by
  refine List.eq_nil_iff_forall_not_mem.2 fun r hr => ?_
  obtain ⟨c, hc, d, hd, -⟩ := mem_askAll_middle.1 hr
  simp [ask, Literal.atom, h c hc] at hd

end Conjunction

/-! ### The order of literals -/

section Schedule

variable {x : String} {bound bound' : List String}

lemma takeFirst_map {α β : Type} {f : α → β} {p : β → Bool} {q : α → Bool} {as : List α}
    (h : ∀ a ∈ as, p (f a) = q a) :
    takeFirst p (as.map f) = (takeFirst q as).map fun (a, rest) => (f a, rest.map f) := by
  induction as with
  | nil => rfl
  | cons a as ih =>
    obtain ⟨ha, has⟩ := List.forall_mem_cons.1 h
    rw [List.map_cons, takeFirst, takeFirst, ha, ih has]
    split
    · rfl
    · rw [Option.map_map, Option.map_map]
      rfl

lemma scheduleFrom_eq_error {l : Literal} {ls : List Literal}
    (h : takeFirst (·.isReady bound) (l :: ls) = none) :
    scheduleFrom bound (l :: ls) = .error (l :: ls) := by
  rw [scheduleFrom]
  split
  · rfl
  · next hsome => simp [h] at hsome

/-- A literal with `_` in the places of a variable. -/
def Literal.forget (x : String) : Literal → Literal := Literal.map (Atom.forget x)

/-- A variable occurs at most once in literals, in a positive one, and is not bound before it. -/
structure OccursOnce (x : String) (bound : List String) (ls : List Literal) : Prop where
  once : (ls.flatMap (·.atom.args)).count (.var x) ≤ 1
  free : ∀ l ∈ ls, x ∈ l.atom.vars → x ∉ bound ∧ l.isNegative = false

lemma OccursOnce.rest {ls rest : List Literal} {next : Literal} (h : OccursOnce x bound ls)
    (hperm : (next :: rest).Perm ls) : OccursOnce x (next.binds bound) rest := by
  have hcount := (hperm.flatMap_right fun l : Literal => l.atom.args).count_eq (.var x)
  rw [List.flatMap_cons, List.count_append] at hcount
  have honce := h.once
  refine ⟨by omega, fun l hl hx => ?_⟩
  obtain ⟨hfree, hpositive⟩ := h.free l (hperm.subset (List.mem_cons_of_mem _ hl)) hx
  refine ⟨fun hbound => ?_, hpositive⟩
  have hrest : 0 < (rest.flatMap (·.atom.args)).count (.var x) :=
    List.count_pos_iff.2 (List.mem_flatMap.2 ⟨l, hl, Atom.mem_vars.1 hx⟩)
  cases next with
  | negative atom => exact hfree hbound
  | positive atom =>
    obtain hbound | hnext := List.mem_append.1 hbound
    · exact hfree hbound
    · have : 0 < atom.args.count (.var x) := List.count_pos_iff.2 (Atom.mem_vars.1 hnext)
      have heq : (Literal.positive atom).atom.args = atom.args := rfl
      rw [heq] at hcount
      omega

lemma Term.isBound_forget (hagree : ∀ y, y ≠ x → (y ∈ bound' ↔ y ∈ bound)) {term : Term}
    (hfree : term = .var x → x ∉ bound) : (term.forget x).isBound bound' = term.isBound bound := by
  cases term with
  | var y =>
    by_cases hy : y = x
    · subst hy
      simpa [Term.forget_var_self, Term.isBound] using hfree rfl
    · rw [Term.forget_of_ne (by simpa using hy), Bool.eq_iff_iff]
      simpa [Term.isBound] using hagree y hy
  | _ => rfl

lemma Atom.mem_vars_forget {atom : Atom} {y : String} :
    y ∈ (atom.forget x).vars ↔ y ∈ atom.vars ∧ y ≠ x := by
  simp only [Atom.vars, Atom.forget, List.filterMap_map, List.mem_filterMap, Function.comp_apply,
    Term.var?_forget_eq_some]
  constructor
  · rintro ⟨term, hterm, hvar, hne⟩
    exact ⟨⟨term, hterm, hvar⟩, hne⟩
  · rintro ⟨⟨term, hterm, hvar⟩, hne⟩
    exact ⟨term, hterm, hvar, hne⟩

lemma Literal.isReady_forget (hagree : ∀ y, y ≠ x → (y ∈ bound' ↔ y ∈ bound)) {l : Literal}
    (hfree : x ∈ l.atom.vars → x ∉ bound ∧ l.isNegative = false) :
    (l.forget x).isReady bound' = l.isReady bound := by
  cases l with
  | positive atom =>
    have harity : (atom.forget x).arity = atom.arity := List.length_map _
    simp only [Literal.forget, Literal.map, Literal.isReady, harity]
    refine congrArg (List.all _) (funext fun i => ?_)
    simp only [Atom.forget, List.getElem?_map]
    cases hterm : atom.args[i]? with
    | none => rfl
    | some term =>
      refine Term.isBound_forget hagree fun hx => ?_
      exact (hfree (Atom.mem_vars.2 (hx ▸ List.mem_of_getElem? hterm))).1
  | negative atom =>
    have hx : x ∉ atom.vars := fun hx => by simpa [Literal.isNegative] using (hfree hx).2
    rw [Bool.eq_iff_iff]
    simp only [Literal.forget, Literal.map, Literal.isReady, List.all_eq_true,
      List.contains_iff_mem, Atom.mem_vars_forget]
    constructor
    · intro hall y hy
      have hne : y ≠ x := fun h => hx (h ▸ hy)
      exact (hagree y hne).1 (hall y ⟨hy, hne⟩)
    · rintro hall y ⟨hy, hne⟩
      exact (hagree y hne).2 (hall y hy)

lemma Literal.mem_binds_forget (hagree : ∀ y, y ≠ x → (y ∈ bound' ↔ y ∈ bound)) (l : Literal)
    {y : String} (hne : y ≠ x) : y ∈ (l.forget x).binds bound' ↔ y ∈ l.binds bound := by
  cases l with
  | positive atom =>
    simp only [Literal.forget, Literal.map, Literal.binds, List.mem_append, hagree y hne,
      Atom.mem_vars_forget, and_iff_left hne]
  | negative atom => exact hagree y hne

/-- A variable that occurs once in literals does not change their order. -/
lemma scheduleFrom_forget {ls : List Literal} (hagree : ∀ y, y ≠ x → (y ∈ bound' ↔ y ∈ bound))
    (h : OccursOnce x bound ls) : scheduleFrom bound' (ls.map (.forget x)) =
      ((scheduleFrom bound ls).map (List.map (.forget x))).mapError (List.map (.forget x)) := by
  induction hn : ls.length generalizing bound bound' ls with
  | zero =>
    obtain rfl := List.eq_nil_of_length_eq_zero hn
    rw [List.map_nil, scheduleFrom, scheduleFrom]
    rfl
  | succ n ih =>
    obtain ⟨l, ls, rfl⟩ := List.exists_cons_of_length_eq_add_one hn
    have htake := takeFirst_map
      fun l hl => Literal.isReady_forget hagree (h.free l hl)
    cases hfirst : takeFirst (·.isReady bound) (l :: ls) with
    | none =>
      rw [hfirst] at htake
      rw [scheduleFrom_eq_error hfirst, List.map_cons, scheduleFrom_eq_error htake]
      rfl
    | some found =>
      obtain ⟨next, rest⟩ := found
      rw [hfirst] at htake
      have hperm := (takeFirst_eq_some hfirst).2
      have hlength : rest.length = n := by
        have := length_takeFirst hfirst
        omega
      rw [scheduleFrom_of_takeFirst hfirst, scheduleFrom_of_takeFirst htake,
        ih (fun y hne => Literal.mem_binds_forget hagree next hne) (h.rest hperm) hlength]
      cases scheduleFrom (next.binds bound) rest <;> rfl

end Schedule

/-! ### Queries -/

lemma Term.map_forget_of_not_mem {x : String} {terms : List Term} (hx : .var x ∉ terms) :
    terms.map (Term.forget x) = terms :=
  (List.map_congr_left fun _ hterm => Term.forget_of_ne fun h => hx (h ▸ hterm)).trans
    (List.map_id _)

lemma Atom.listsNodes_iff (predicate : String) {x : String} {left : List Term}
    (hx : .var x ∉ left) (right : List Term) :
    Atom.ListsNodes x ⟨predicate, left ++ .var x :: right⟩ ↔
      predicate ∈ ["node", "type"] ∧ left = [] ∧ right ≠ [] := by
  refine and_congr_right fun _ => ?_
  cases left with
  | nil => cases right <;> simp
  | cons term left =>
    have hne : term ≠ .var x := fun h => hx (by simp [h])
    simp [hne]

lemma Atom.forget_of_not_mem {x : String} {atom : Atom} (hx : x ∉ atom.vars) :
    atom.forget x = atom := by
  rw [Atom.forget, Term.map_forget_of_not_mem fun h => hx (Atom.mem_vars.2 h)]

lemma Literal.map_forget_of_not_mem {x : String} {ls : List Literal}
    (hx : ∀ l ∈ ls, x ∉ l.atom.vars) : ls.map (.forget x) = ls := by
  refine (List.map_congr_left fun l hl => ?_).trans (List.map_id _)
  cases l with
  | positive atom => exact congrArg Literal.positive (Atom.forget_of_not_mem (hx _ hl))
  | negative atom => exact congrArg Literal.negative (Atom.forget_of_not_mem (hx _ hl))

/-- In every order of literals the one with the variable is alone with it. -/
lemma OccursOnce.exists_middle {x : String} {ls ordered : List Literal} {atom : Atom}
    (h : OccursOnce x [] ls) (hatom : .positive atom ∈ ls) (hx : x ∈ atom.vars)
    (hperm : ordered.Perm ls) : ∃ before after, ordered = before ++ .positive atom :: after ∧
      (∀ l ∈ before, x ∉ l.atom.vars) ∧ ∀ l ∈ after, x ∉ l.atom.vars := by
  obtain ⟨before, after, rfl⟩ := List.append_of_mem (hperm.symm.subset hatom)
  have hrest := h.rest (List.perm_middle.symm.trans hperm)
  have hbound : x ∈ (Literal.positive atom).binds [] := hx
  have hnone : ∀ l ∈ before ++ after, x ∉ l.atom.vars :=
    fun l hl hmem => (hrest.free l hl hmem).1 hbound
  exact ⟨before, after, rfl, fun l hl => hnone l (List.mem_append_left _ hl),
    fun l hl => hnone l (List.mem_append_right _ hl)⟩

lemma count_args_eq_zero {x : String} {ls : List Literal} (h : ∀ l ∈ ls, x ∉ l.atom.vars) :
    (ls.flatMap (·.atom.args)).count (.var x) = 0 := by
  refine List.count_eq_zero.2 fun hmem => ?_
  obtain ⟨l, hl, hx⟩ := List.mem_flatMap.1 hmem
  exact h l hl (Atom.mem_vars.2 hx)

section Query

variable {g : Graph} {program : List Rule} {before after : List Literal} {atom : Atom} {x : String}

lemma occursOnce_middle (hbefore : ∀ l ∈ before, x ∉ l.atom.vars)
    (hafter : ∀ l ∈ after, x ∉ l.atom.vars) (honce : atom.args.count (.var x) ≤ 1) :
    OccursOnce x [] (before ++ .positive atom :: after) := by
  refine ⟨?_, fun l hl hx => ⟨List.not_mem_nil, ?_⟩⟩
  · rw [List.flatMap_append, List.flatMap_cons, List.count_append, List.count_append,
      count_args_eq_zero hbefore, count_args_eq_zero hafter, Nat.zero_add, Nat.add_zero]
    exact honce
  · obtain hl | hl := List.mem_append.1 hl
    · exact absurd hx (hbefore l hl)
    · obtain rfl | hl := List.mem_cons.1 hl
      · rfl
      · exact absurd hx (hafter l hl)

/-- Forgetting the variable in the literal refuses no query and accepts none. -/
lemma schedule_forget (hbefore : ∀ l ∈ before, x ∉ l.atom.vars)
    (hafter : ∀ l ∈ after, x ∉ l.atom.vars) (honce : atom.args.count (.var x) ≤ 1) :
    schedule (before ++ .positive (atom.forget x) :: after) =
      ((schedule (before ++ .positive atom :: after)).map (List.map (.forget x))).mapError
        (List.map (.forget x)) := by
  have hmap : (before ++ .positive atom :: after).map (Literal.forget x) =
      before ++ .positive (atom.forget x) :: after := by
    rw [List.map_append, List.map_cons, Literal.map_forget_of_not_mem hbefore,
      Literal.map_forget_of_not_mem hafter]
    rfl
  have hall := scheduleFrom_forget (fun _ _ => Iff.rfl) (occursOnce_middle hbefore hafter honce)
  rwa [hmap] at hall

/-- The literals are asked in the same order with and without the variable. -/
lemma exists_order_forget (hbefore : ∀ l ∈ before, x ∉ l.atom.vars)
    (hafter : ∀ l ∈ after, x ∉ l.atom.vars) (honce : atom.args.count (.var x) = 1)
    {found found' : List Bindings}
    (hfound : queryAnswers g program (before ++ .positive (atom.forget x) :: after) = .ok found)
    (hfound' : queryAnswers g program (before ++ .positive atom :: after) = .ok found') :
    ∃ first last : List Literal, (∀ l ∈ first, x ∉ l.atom.vars) ∧ (∀ l ∈ last, x ∉ l.atom.vars) ∧
      askAll (goalAnswers g program) (first ++ .positive (atom.forget x) :: last) [∅] = found ∧
      askAll (goalAnswers g program) (first ++ .positive atom :: last) [∅] = found' := by
  obtain ⟨ordered', hordered', rfl⟩ := queryAnswers_eq_ok.1 hfound'
  obtain ⟨ordered, hordered, rfl⟩ := queryAnswers_eq_ok.1 hfound
  rw [schedule_forget hbefore hafter honce.le, hordered'] at hordered
  obtain rfl := Except.ok.inj hordered
  have hx : x ∈ atom.vars := Atom.mem_vars.2 (List.count_pos_iff.1 (by omega))
  obtain ⟨first, last, rfl, hfirst, hlast⟩ :=
    (occursOnce_middle hbefore hafter honce.le).exists_middle (by simp) hx
      (schedule_eq_ok hordered').1
  refine ⟨first, last, hfirst, hlast, ?_, rfl⟩
  rw [List.map_append, List.map_cons, Literal.map_forget_of_not_mem hfirst,
    Literal.map_forget_of_not_mem hlast]
  rfl

end Query

/-- In place of an `_` in a positive literal, a variable that occurs nowhere else may stand: the
query is refused or not as before, and its answers are the same but for the value of the variable.
Only in the first place of a built-in predicate for nodes, `_` has no answers at all. -/
theorem queryAnswers_anonymous (g : Graph) (program : List Rule) (before after : List Literal)
    (predicate : String) (left right : List Term) (x : String)
    (hx : ∀ l ∈ before ++ .positive ⟨predicate, left ++ .anonymous :: right⟩ :: after,
      x ∉ l.atom.vars) :
    let query (term : Term) := queryAnswers g program
      (before ++ .positive ⟨predicate, left ++ term :: right⟩ :: after)
    ((∃ found, query .anonymous = .ok found) ↔ ∃ found, query (.var x) = .ok found) ∧
      ∀ {found found' : List Bindings}, query .anonymous = .ok found →
        query (.var x) = .ok found' →
          if predicate ∈ ["node", "type"] ∧ left = [] ∧ right ≠ [] then found = []
          else ∀ b, b ∈ found ↔ ∃ b' ∈ found', b'.forget x = b := by
  intro query
  have hbefore : ∀ l ∈ before, x ∉ l.atom.vars := fun l hl => hx l (List.mem_append_left _ hl)
  have hafter : ∀ l ∈ after, x ∉ l.atom.vars :=
    fun l hl => hx l (List.mem_append_right _ (List.mem_cons_of_mem _ hl))
  have hnew : .var x ∉ left ++ .anonymous :: right := fun hmem =>
    hx (.positive ⟨predicate, left ++ .anonymous :: right⟩) (by simp) (Atom.mem_vars.2 hmem)
  obtain ⟨hleft, hright⟩ : .var x ∉ left ∧ .var x ∉ right := by simpa using hnew
  set atom : Atom := ⟨predicate, left ++ .var x :: right⟩ with hatom
  have hforget : (⟨predicate, left ++ .anonymous :: right⟩ : Atom) = atom.forget x := by
    rw [Atom.forget, List.map_append, List.map_cons, Term.map_forget_of_not_mem hleft,
      Term.map_forget_of_not_mem hright, Term.forget_var_self]
  have honce : atom.args.count (.var x) = 1 := by
    rw [List.count_append, List.count_cons_self, List.count_eq_zero.2 hleft,
      List.count_eq_zero.2 hright]
  have hquery : query .anonymous =
      queryAnswers g program (before ++ .positive (atom.forget x) :: after) := by
    rw [← hforget]
  rw [hquery]
  refine ⟨?_, fun {found found'} hfound hfound' => ?_⟩
  · rw [exists_queryAnswers_eq_ok, exists_queryAnswers_eq_ok,
      schedule_forget hbefore hafter honce.le]
    cases schedule (before ++ .positive atom :: after) <;> simp [Except.map, Except.mapError]
  · obtain ⟨first, last, hfirst, hlast, rfl, rfl⟩ :=
      exists_order_forget hbefore hafter honce hfound hfound'
    have hvars {atom : Atom} {s : Bindings} (hs : s ∈ goalAnswers g program atom) (y : String)
        (hy : y ∈ s) : y ∈ atom.vars := mem_vars_of_mem_answers hs hy
    have hlists := Atom.listsNodes_iff predicate hleft right
    split
    · next h =>
      refine askAll_eq_nil fun c hc => ?_
      have hxc := not_mem_of_mem_askAll hvars hfirst not_mem_empty hc
      rw [Atom.forget_bind hxc]
      exact answers_forget_eq_nil ((hlists.2 h).bind hxc)
    · next h =>
      intro b
      have hall := mem_askAll_forget hvars mem_answers_forget hfirst hlast honce.le
        (fun hl => h (hlists.1 hl)) b
      rwa [List.mem_map] at hall

/-- A function that calls another one. -/
def oneCall : Graph :=
  Graph.ephemeral.performAll [
    .addNodes [Graph.bareNode 1 (some "FUNCTION"), Graph.bareNode 2 (some "FUNCTION")],
    .addEdges [⟨.ofNat 1, .ofNat 2, some "calls", none⟩] false]

/-- The literal `node(id, "FUNCTION")`. -/
def isFunction (id : Term) : Literal :=
  .positive ⟨"node", [id, .const "FUNCTION"]⟩

/-- With the rule `calls(A, B) :- edge(A, B, "calls")`, what `calls(_, Y), node(Y, "FUNCTION")`
answers is what `calls(X, Y), node(Y, "FUNCTION")` says about `Y`. -/
theorem queryAnswers_anonymous_oneCall :
    let program : List Rule := [⟨⟨"calls", [.var "A", .var "B"]⟩,
      [.positive ⟨"edge", [.var "A", .var "B", .const "calls"]⟩]⟩]
    let query (term : Term) := queryAnswers oneCall program
      [.positive ⟨"calls", [term, .var "Y"]⟩, isFunction (.var "Y")]
    query .anonymous = .ok [.single "Y" (.node (.ofNat 2))] ∧
      ∃ found', query (.var "X") = .ok found' ∧
        ∀ b, b ∈ [Bindings.single "Y" (.node (.ofNat 2))] ↔ ∃ b' ∈ found', b'.forget "X" = b := by
  intro program query
  have hanonymous : query .anonymous = .ok [.single "Y" (.node (.ofNat 2))] := by decide +kernel
  obtain ⟨haccepted, hsame⟩ := queryAnswers_anonymous oneCall program [] [isFunction (.var "Y")]
    "calls" [] [.var "Y"] "X" (by decide +kernel)
  obtain ⟨found', hfound'⟩ := haccepted.1 ⟨_, hanonymous⟩
  refine ⟨hanonymous, found', hfound', ?_⟩
  have hanswers := hsame hanonymous hfound'
  rwa [if_neg (by decide)] at hanswers

/-- But in a graph with one function, `node(Y, "FUNCTION"), node(_, "FUNCTION")` has no answers,
where `node(Y, "FUNCTION"), node(X, "FUNCTION")` finds the function. -/
theorem anonymous_lists_no_nodes :
    let g := Graph.ephemeral.performAll [.addNodes [Graph.bareNode 1 (some "FUNCTION")]]
    let query (term : Term) := queryAnswers g [] [isFunction (.var "Y"), isFunction term]
    query .anonymous = .ok [] ∧ ∃ found', query (.var "X") = .ok found' ∧
      ¬ ∀ b, b ∈ ([] : List Bindings) ↔ ∃ b' ∈ found', b'.forget "X" = b := by
  intro g query
  have hboth : query (.var "X") =
      .ok [(Bindings.single "X" (.node (.ofNat 1))).insert "Y" (.node (.ofNat 1))] := by
    decide +kernel
  refine ⟨by decide +kernel, _, hboth, fun hall => ?_⟩
  exact List.not_mem_nil ((hall _).2 ⟨_, List.mem_singleton_self _, rfl⟩)

end CodeGraph.Rules
