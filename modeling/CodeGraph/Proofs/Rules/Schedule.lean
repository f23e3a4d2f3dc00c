import Mathlib
import CodeGraph.Proofs.Rules.Bindings

/-!
# Orders in which literals can be asked

`InOrder bound ls` says that the literals `ls` can be asked one after the other once the
variables `bound` have values.  A schedule is such an order of the given literals
(`scheduleFrom_eq_ok`), and there is a schedule whenever there is such an order
(`scheduleFrom_isOk`): asking a literal that is ready early does no harm, because more bound
variables never make a literal unready.

So whether a conjunction can be scheduled does not depend on the order in which it is written
(`isOk_schedule_perm`).
-/

namespace CodeGraph.Rules

/-! ### Readiness -/

lemma Term.IsBound.mono {term : Term} {bound bound' : List String} (hsub : bound ⊆ bound')
    (h : term.isBound bound) : term.isBound bound' := by
  cases term with
  | var name =>
    simp only [isBound, List.contains_iff_mem] at h ⊢
    exact hsub h
  | const value => rfl
  | anonymous => simp [isBound] at h

lemma Term.isBound_bind {term : Term} {b : Bindings} {bound bound' : List String}
    (hbound : ∀ x ∈ bound, x ∈ b ∨ x ∈ bound') (h : term.isBound bound) :
    (term.bind b).isBound bound' := by
  cases term with
  | var x =>
    simp only [isBound, List.contains_iff_mem] at h
    cases hx : b[x]? with
    | none =>
      have hnew : x ∉ b := Bindings.not_mem_iff.2 hx
      simpa [bind, hx, isBound] using (hbound x h).resolve_left hnew
    | some v => simp [bind, hx, isBound]
  | const value => rfl
  | anonymous => simp [isBound] at h

namespace Literal

/-- More bound variables never make a literal unready. -/
lemma isReady_mono {l : Literal} {bound bound' : List String} (hsub : bound ⊆ bound')
    (h : l.isReady bound) : l.isReady bound' := by
  cases l with
  | negative atom =>
    simp only [isReady, List.all_eq_true, List.contains_iff_mem] at h ⊢
    exact fun name hname => hsub (h name hname)
  | positive atom =>
    simp only [isReady, List.all_eq_true] at h ⊢
    intro i hi
    specialize h i hi
    split at h
    · exact Term.IsBound.mono hsub h
    · rfl

lemma mem_binds {l : Literal} {bound : List String} {name : String} :
    name ∈ l.binds bound ↔ name ∈ bound ∨ name ∈ positiveVariables [l] := by
  cases l <;> simp [binds, positiveVariables, isNegative, atom]

lemma subset_binds (l : Literal) (bound : List String) : bound ⊆ l.binds bound :=
  fun _ h => mem_binds.2 (.inl h)

lemma binds_mono (l : Literal) {bound bound' : List String} (hsub : bound ⊆ bound') :
    l.binds bound ⊆ l.binds bound' :=
  fun _ h => mem_binds.2 ((mem_binds.1 h).imp_left fun h => hsub h)

/-- A literal stays ready when bound variables are replaced by their values. -/
lemma isReady_bind {l : Literal} {b : Bindings} {bound bound' : List String}
    (hbound : ∀ x ∈ bound, x ∈ b ∨ x ∈ bound') (h : l.isReady bound) :
    (l.map (Atom.bind b)).isReady bound' := by
  cases l with
  | negative atom =>
    simp only [isReady, map, List.all_eq_true, List.contains_iff_mem] at h ⊢
    intro x hx
    obtain ⟨hvar, hnew⟩ := Atom.mem_vars_bind.1 hx
    exact (hbound x (h x hvar)).resolve_left hnew
  | positive atom =>
    simp only [isReady, map, List.all_eq_true, Atom.arity, Atom.bind, List.length_map,
      List.getElem?_map] at h ⊢
    intro i hi
    specialize h i hi
    cases hterm : atom.args[i]? with
    | none => rfl
    | some term =>
      rw [hterm] at h
      exact Term.isBound_bind hbound h

end Literal

/-! ### Orders -/

/-- Literals can be asked in the order of a list once some variables are bound. -/
def InOrder (bound : List String) : List Literal → Prop
  | [] => True
  | l :: ls => l.isReady bound ∧ InOrder (l.binds bound) ls

namespace InOrder

lemma mono {ls : List Literal} {bound bound' : List String} (hsub : bound ⊆ bound')
    (h : InOrder bound ls) : InOrder bound' ls := by
  induction ls generalizing bound bound' with
  | nil => trivial
  | cons l ls ih => exact ⟨Literal.isReady_mono hsub h.1, ih (l.binds_mono hsub) h.2⟩

/-- Literals that wait for nothing can be asked in any order. -/
lemma of_isReady {ls : List Literal} (h : ∀ l ∈ ls, ∀ bound, l.isReady bound)
    (bound : List String) : InOrder bound ls := by
  induction ls generalizing bound with
  | nil => trivial
  | cons l ls ih =>
    obtain ⟨hl, hls⟩ := List.forall_mem_cons.1 h
    exact ⟨hl bound, ih hls _⟩

/-- A literal may be asked first instead of in its place. -/
lemma bring_forward {before after : List Literal} {l : Literal} {bound : List String}
    (h : InOrder bound (before ++ l :: after)) :
    InOrder (l.binds bound) (before ++ after) := by
  induction before generalizing bound with
  | nil => exact h.2
  | cons first before ih =>
    refine ⟨Literal.isReady_mono (l.subset_binds bound) h.1, mono ?_ (ih h.2)⟩
    intro name hname
    simp only [Literal.mem_binds] at hname ⊢
    tauto

/-- Literals can still be asked in the same order when variables are replaced by values. -/
lemma bind {ls : List Literal} {b : Bindings} {bound bound' : List String}
    (hbound : ∀ x ∈ bound, x ∈ b ∨ x ∈ bound') (h : InOrder bound ls) :
    InOrder bound' (ls.map (Literal.map (Atom.bind b))) := by
  induction ls generalizing bound bound' with
  | nil => trivial
  | cons l ls ih =>
    refine ⟨Literal.isReady_bind hbound h.1, ih ?_ h.2⟩
    intro x hx
    cases l with
    | negative atom => exact hbound x hx
    | positive atom =>
      simp only [Literal.binds, Literal.map, List.mem_append, Atom.mem_vars_bind] at hx ⊢
      grind

/-- What is asked before binds its variables for what is asked after. -/
lemma of_append {before after : List Literal} {bound : List String}
    (h : InOrder bound (before ++ after)) :
    InOrder bound before ∧ InOrder (bound ++ positiveVariables before) after := by
  induction before generalizing bound with
  | nil => exact ⟨trivial, h.mono (by simp)⟩
  | cons first before ih =>
    obtain ⟨hbefore, hafter⟩ := ih h.2
    refine ⟨⟨h.1, hbefore⟩, hafter.mono fun x hx => ?_⟩
    cases first <;>
      simpa [Literal.binds, positiveVariables, Literal.isNegative, Literal.atom] using hx

/-- An order can go on with what the variables allow that it binds. -/
lemma append {before after : List Literal} {bound : List String} (h : InOrder bound before)
    (h' : InOrder (bound ++ positiveVariables before) after) : InOrder bound (before ++ after) := by
  induction before generalizing bound with
  | nil => exact h'.mono (by simp [positiveVariables])
  | cons first before ih =>
    refine ⟨h.1, ih h.2 (h'.mono fun x hx => ?_)⟩
    cases first <;>
      simpa [Literal.binds, positiveVariables, Literal.isNegative, Literal.atom] using hx

/-- A literal may be replaced by another one that needs no more and binds the same. -/
lemma replace {before after : List Literal} {l l' : Literal} {bound : List String}
    (hready : ∀ bound, l.isReady bound → l'.isReady bound)
    (hbinds : ∀ bound, l.binds bound = l'.binds bound)
    (h : InOrder bound (before ++ l :: after)) : InOrder bound (before ++ l' :: after) := by
  induction before generalizing bound with
  | nil => exact ⟨hready bound h.1, hbinds bound ▸ h.2⟩
  | cons first before ih => exact ⟨h.1, ih h.2⟩

end InOrder

/-! ### Schedules -/

/-- What is taken out of a list has the property, and the rest of the list stays. -/
lemma takeFirst_eq_some {α : Type} {p : α → Bool} {as : List α} {a : α} {rest : List α}
    (h : takeFirst p as = some (a, rest)) : p a ∧ (a :: rest).Perm as := by
  induction as generalizing a rest with
  | nil => simp [takeFirst] at h
  | cons b as ih =>
    unfold takeFirst at h
    split at h
    · next hb =>
      obtain ⟨rfl, rfl⟩ := Prod.mk.inj (Option.some.inj h)
      exact ⟨hb, List.Perm.refl _⟩
    · obtain ⟨⟨found, left⟩, hfound, heq⟩ := Option.map_eq_some_iff.1 h
      obtain ⟨rfl, rfl⟩ := Prod.mk.inj heq
      obtain ⟨hp, hperm⟩ := ih hfound
      exact ⟨hp, (List.Perm.swap b found left).trans (hperm.cons b)⟩

lemma takeFirst_eq_none {α : Type} {p : α → Bool} {as : List α}
    (h : takeFirst p as = none) : ∀ a ∈ as, ¬ p a := by
  induction as with
  | nil => simp
  | cons b as ih =>
    unfold takeFirst at h
    split at h
    · simp at h
    · next hb => exact List.forall_mem_cons.2 ⟨hb, ih (Option.map_eq_none_iff.1 h)⟩

lemma takeFirst_append {α : Type} {p : α → Bool} {as rest : List α} {a : α}
    (h : takeFirst p as = some (a, rest)) (bs : List α) :
    takeFirst p (as ++ bs) = some (a, rest ++ bs) := by
  induction as generalizing a rest with
  | nil => simp [takeFirst] at h
  | cons b as ih =>
    rw [List.cons_append]
    unfold takeFirst at h ⊢
    split at h
    · next hb =>
      obtain ⟨rfl, rfl⟩ := Prod.mk.inj (Option.some.inj h)
      rw [if_pos hb]
    · next hb =>
      obtain ⟨⟨found, left⟩, hfound, heq⟩ := Option.map_eq_some_iff.1 h
      obtain ⟨rfl, rfl⟩ := Prod.mk.inj heq
      rw [if_neg hb, ih hfound]
      rfl

/-- A schedule lists the given literals in an order in which they can be asked. -/
theorem scheduleFrom_eq_ok {bound : List String} {ls ordered : List Literal}
    (h : scheduleFrom bound ls = .ok ordered) : ordered.Perm ls ∧ InOrder bound ordered := by
  induction hn : ls.length generalizing bound ls ordered with
  | zero =>
    obtain rfl := List.eq_nil_of_length_eq_zero hn
    rw [scheduleFrom] at h
    obtain rfl := Except.ok.inj h
    exact ⟨.refl _, trivial⟩
  | succ n ih =>
    obtain ⟨l, ls, rfl⟩ := List.exists_cons_of_length_eq_add_one hn
    rw [scheduleFrom] at h
    split at h
    · simp at h
    · next next rest htake =>
      obtain ⟨hready, hperm⟩ := takeFirst_eq_some htake
      cases hrest : scheduleFrom (next.binds bound) rest with
      | error left => simp [hrest, Except.map] at h
      | ok ordered' =>
        rw [hrest] at h
        obtain rfl := Except.ok.inj h
        have hlen : rest.length = n := by
          have := length_takeFirst htake
          omega
        obtain ⟨hperm', horder⟩ := ih hrest hlen
        exact ⟨(hperm'.cons next).trans hperm, hready, horder⟩

/-- When literals can be asked in some order, there is a schedule. -/
theorem scheduleFrom_isOk {bound : List String} {ls order : List Literal}
    (hperm : order.Perm ls) (h : InOrder bound order) :
    ∃ ordered, scheduleFrom bound ls = .ok ordered := by
  induction hn : ls.length generalizing bound ls order with
  | zero =>
    obtain rfl := List.eq_nil_of_length_eq_zero hn
    exact ⟨[], by rw [scheduleFrom]⟩
  | succ n ih =>
    obtain ⟨l, ls, rfl⟩ := List.exists_cons_of_length_eq_add_one hn
    rw [scheduleFrom]
    split
    · next htake =>
      -- The first literal of the order is ready, so one is taken.
      cases order with
      | nil => exact absurd hperm.length_eq (by simp)
      | cons first order =>
        exact absurd h.1 (takeFirst_eq_none htake first (hperm.subset List.mem_cons_self))
    · next next rest htake =>
      have hperm' := hperm.trans (takeFirst_eq_some htake).2.symm
      obtain ⟨before, after, rfl⟩ :=
        List.append_of_mem (hperm'.symm.subset List.mem_cons_self)
      have hrest : (before ++ after).Perm rest :=
        (List.perm_cons next).1 (List.perm_middle.symm.trans hperm')
      have hlen : rest.length = n := by
        have := length_takeFirst htake
        omega
      obtain ⟨ordered, hordered⟩ := ih hrest h.bring_forward hlen
      exact ⟨next :: ordered, by rw [hordered]; rfl⟩

lemma scheduleFrom_of_takeFirst {bound : List String} {ls rest : List Literal} {next : Literal}
    (h : takeFirst (·.isReady bound) ls = some (next, rest)) :
    scheduleFrom bound ls = (scheduleFrom (next.binds bound) rest).map (next :: ·) := by
  cases ls with
  | nil => simp [takeFirst] at h
  | cons l ls =>
    rw [scheduleFrom]
    split
    · next hnone => simp [h] at hnone
    · next hsome =>
      obtain ⟨rfl, rfl⟩ := Prod.mk.inj (Option.some.inj (h.symm.trans hsome))
      rfl

/-- A literal that is ready stays first. -/
lemma scheduleFrom_cons_of_isReady {bound : List String} {l : Literal} {ls : List Literal}
    (hready : l.isReady bound) :
    scheduleFrom bound (l :: ls) = (scheduleFrom (l.binds bound) ls).map (l :: ·) :=
  scheduleFrom_of_takeFirst (by rw [takeFirst, if_pos hready])

/-- Taking a literal out leaves no variable unbound that all literals together bind. -/
lemma append_positiveVariables_subset {bound : List String} {ls rest : List Literal}
    {next : Literal} (hperm : (next :: rest).Perm ls) :
    bound ++ positiveVariables ls ⊆ next.binds bound ++ positiveVariables rest := by
  have hvars : positiveVariables ls ⊆ positiveVariables (next :: rest) :=
    ((hperm.symm.filter _).flatMap_right _).subset
  intro x hx
  rw [List.mem_append, Literal.mem_binds]
  rcases List.mem_append.1 hx with hbound | hls
  · exact .inl (.inl hbound)
  · have hnext := hvars hls
    rw [positiveVariables, List.filter_cons] at hnext
    split at hnext
    · next hpositive =>
      rcases List.mem_append.1 hnext with hnext | hrest
      · exact .inl (.inr (by simpa [positiveVariables, hpositive] using hnext))
      · exact .inr hrest
    · exact .inr hnext

/-- A literal that nothing waits for and that the others make ready stays last. -/
lemma scheduleFrom_append_singleton {bound : List String} {ls ordered : List Literal}
    {l : Literal} (hready : l.isReady (bound ++ positiveVariables ls))
    (h : scheduleFrom bound ls = .ok ordered) :
    scheduleFrom bound (ls ++ [l]) = .ok (ordered ++ [l]) := by
  induction hn : ls.length generalizing bound ls ordered with
  | zero =>
    obtain rfl := List.eq_nil_of_length_eq_zero hn
    rw [scheduleFrom] at h
    obtain rfl := Except.ok.inj h
    have hnow : l.isReady bound := Literal.isReady_mono (by simp [positiveVariables]) hready
    change scheduleFrom bound [l] = _
    rw [scheduleFrom_cons_of_isReady hnow, scheduleFrom]
    rfl
  | succ n ih =>
    cases htake : takeFirst (·.isReady bound) ls with
    | none =>
      obtain ⟨first, ls, rfl⟩ := List.exists_cons_of_length_eq_add_one hn
      rw [scheduleFrom] at h
      split at h
      · simp at h
      · next hsome => simp [htake] at hsome
    | some found =>
      obtain ⟨next, rest⟩ := found
      rw [scheduleFrom_of_takeFirst htake] at h
      rw [scheduleFrom_of_takeFirst (takeFirst_append htake [l])]
      cases hrest : scheduleFrom (next.binds bound) rest with
      | error left => simp [hrest, Except.map] at h
      | ok ordered' =>
        rw [hrest] at h
        obtain rfl := Except.ok.inj h
        have hlen : rest.length = n := by
          have := length_takeFirst htake
          omega
        have hlater : l.isReady (next.binds bound ++ positiveVariables rest) :=
          Literal.isReady_mono (append_positiveVariables_subset (takeFirst_eq_some htake).2) hready
        rw [ih hlater hrest hlen]
        rfl

lemma schedule_eq_ok {ls ordered : List Literal} (h : schedule ls = .ok ordered) :
    ordered.Perm ls ∧ InOrder [] ordered :=
  scheduleFrom_eq_ok h

/-- Literals that can be scheduled still can be when variables are replaced by values. -/
lemma isOk_schedule_bind {ls : List Literal} (b : Bindings)
    (h : ∃ ordered, schedule ls = .ok ordered) :
    ∃ ordered, schedule (ls.map (Literal.map (Atom.bind b))) = .ok ordered := by
  obtain ⟨ordered, hordered⟩ := h
  obtain ⟨hperm, horder⟩ := schedule_eq_ok hordered
  exact scheduleFrom_isOk (hperm.map _) (horder.bind (by simp))

/-- Whether literals can be scheduled does not depend on their order. -/
theorem isOk_schedule_perm {ls ls' : List Literal} (hperm : ls.Perm ls')
    (h : ∃ ordered, schedule ls = .ok ordered) : ∃ ordered, schedule ls' = .ok ordered := by
  obtain ⟨ordered, hordered⟩ := h
  obtain ⟨hperm', horder⟩ := schedule_eq_ok hordered
  exact scheduleFrom_isOk (hperm'.trans hperm) horder

end CodeGraph.Rules
