import Mathlib
import CodeGraph.Proofs.Rules.Schedule

/-!
# The schedule of a conjunction

An order of literals is admissible if each literal has what it needs from the positive literals
before it: a negative literal its variables, and a positive one its input positions, which may be
constants but not `_`.

`schedule` takes the first literal that is ready, over and over.  That never blocks an order that
exists (`scheduleFrom_isOk`), because a literal that is ready stays ready, so it finds an admissible
order whenever there is one.  The order that it finds is determined by taking at every point the
earliest literal that is ready (`scheduleFrom_eq_ok_iff`).
-/

namespace CodeGraph.Rules

/-! ### Members and those before them -/

/-- Every member of a list has a property together with the members before it. -/
def EachAfter {α : Type} (P : List α → α → Prop) (as : List α) : Prop :=
  ∀ before a after, as = before ++ a :: after → P before a

section EachAfter

variable {α : Type} {P Q : List α → α → Prop}

lemma eachAfter_nil : EachAfter P [] := by
  intro before a after h
  simp at h

lemma eachAfter_cons {a : α} {as : List α} :
    EachAfter P (a :: as) ↔ P [] a ∧ EachAfter (fun before => P (a :: before)) as := by
  constructor
  · intro h
    refine ⟨h [] a as rfl, fun before b after heq => h (a :: before) b after ?_⟩
    rw [heq, List.cons_append]
  · rintro ⟨hfirst, hlater⟩ before b after heq
    cases before with
    | nil =>
      obtain ⟨rfl, -⟩ := List.cons.inj heq
      exact hfirst
    | cons c before =>
      obtain ⟨rfl, hrest⟩ := List.cons.inj heq
      exact hlater before b after hrest

lemma eachAfter_and {as : List α} :
    EachAfter (fun before a => P before a ∧ Q before a) as ↔ EachAfter P as ∧ EachAfter Q as := by
  simp only [EachAfter, imp_and, forall_and]

end EachAfter

/-! ### Admissible orders -/

/-- A literal can be asked after others: the positive ones among them have all variables of a
negative literal, and what stands at the input positions of a positive one is a constant or a
variable that they have. -/
def Literal.ReadyAfter (before : List Literal) : Literal → Prop
  | .negative atom => ∀ x ∈ atom.vars, x ∈ positiveVariables before
  | .positive atom => ∀ i ∈ inputPositions atom.predicate atom.arity, ∀ term,
      atom.args[i]? = some term →
        (∃ value, term = .const value) ∨ ∃ x ∈ positiveVariables before, term = .var x

/-- Literals can be asked in the order of a list. -/
def Admissible (order : List Literal) : Prop :=
  EachAfter (fun before l => l.ReadyAfter before) order

/-- At every point of an order, the literal placed is the earliest one that was ready then: those
before it among the literals not placed yet, in the order in which they are given, were not. -/
def TakesEarliest (ls order : List Literal) : Prop :=
  EachAfter (fun before l => ∃ passed later, ls.diff before = passed ++ l :: later ∧
    ∀ p ∈ passed, ¬ p.ReadyAfter before) order

lemma Term.isBound_iff {bound : List String} {term : Term} :
    term.isBound bound ↔ (∃ value, term = .const value) ∨ ∃ x ∈ bound, term = .var x := by
  cases term <;> simp [isBound]

/-- A literal is ready once the variables of those before it are bound. -/
lemma Literal.isReady_iff {before : List Literal} {bound : List String}
    (hbound : ∀ x, x ∈ bound ↔ x ∈ positiveVariables before) (l : Literal) :
    l.isReady bound ↔ l.ReadyAfter before := by
  cases l with
  | negative atom =>
    simp only [isReady, ReadyAfter, List.all_eq_true, List.contains_iff_mem, hbound]
  | positive atom =>
    simp only [isReady, ReadyAfter, List.all_eq_true]
    refine forall₂_congr fun i _ => ?_
    cases atom.args[i]? with
    | none => simp
    | some term => simp [Term.isBound_iff, hbound]

lemma Literal.mem_binds_iff {before : List Literal} {bound : List String}
    (hbound : ∀ x, x ∈ bound ↔ x ∈ positiveVariables before) (l : Literal) (x : String) :
    x ∈ l.binds bound ↔ x ∈ positiveVariables (before ++ [l]) := by
  rw [mem_binds, hbound]
  simp [positiveVariables, List.filter_append]

/-- Orders in which literals can be asked, from the variables that are bound, are the admissible
ones. -/
lemma inOrder_iff {before : List Literal} {bound : List String}
    (hbound : ∀ x, x ∈ bound ↔ x ∈ positiveVariables before) (order : List Literal) :
    InOrder bound order ↔ EachAfter (fun mid l => l.ReadyAfter (before ++ mid)) order := by
  induction order generalizing before bound with
  | nil => exact iff_of_true trivial eachAfter_nil
  | cons l order ih =>
    rw [InOrder, eachAfter_cons, List.append_nil, Literal.isReady_iff hbound,
      ih (Literal.mem_binds_iff hbound l)]
    simp only [List.append_assoc, List.singleton_append]

/-- At first nothing is bound. -/
lemma mem_nil_iff_mem_positiveVariables (x : String) : x ∈ [] ↔ x ∈ positiveVariables [] :=
  Iff.rfl

lemma inOrder_nil_iff {order : List Literal} : InOrder [] order ↔ Admissible order :=
  inOrder_iff mem_nil_iff_mem_positiveVariables order

/-! ### The earliest literal -/

/-- What is taken out of a list stands behind members without the property. -/
lemma takeFirst_split {α : Type} {p : α → Bool} {as rest : List α} {a : α}
    (h : takeFirst p as = some (a, rest)) : ∃ passed later, as = passed ++ a :: later ∧
      rest = passed ++ later ∧ p a ∧ ∀ b ∈ passed, ¬ p b := by
  induction as generalizing a rest with
  | nil => simp [takeFirst] at h
  | cons b as ih =>
    unfold takeFirst at h
    split at h
    · next hb =>
      obtain ⟨rfl, rfl⟩ := Prod.mk.inj (Option.some.inj h)
      exact ⟨[], as, rfl, rfl, hb, by simp⟩
    · next hb =>
      obtain ⟨⟨found, left⟩, hfound, heq⟩ := Option.map_eq_some_iff.1 h
      obtain ⟨rfl, rfl⟩ := Prod.mk.inj heq
      obtain ⟨passed, later, rfl, rfl, hp, hpassed⟩ := ih hfound
      exact ⟨b :: passed, later, rfl, rfl, hp, List.forall_mem_cons.2 ⟨hb, hpassed⟩⟩

lemma takeFirst_append_cons {α : Type} {p : α → Bool} {passed later : List α} {a : α}
    (hpassed : ∀ b ∈ passed, ¬ p b) (ha : p a) :
    takeFirst p (passed ++ a :: later) = some (a, passed ++ later) := by
  induction passed with
  | nil => rw [List.nil_append, takeFirst, if_pos ha, List.nil_append]
  | cons b passed ih =>
    obtain ⟨hb, hpassed⟩ := List.forall_mem_cons.1 hpassed
    rw [List.cons_append, takeFirst, if_neg hb, ih hpassed]
    rfl

/-- What is left when the first member with a property is taken out. -/
lemma erase_eq_of_takeFirst {α : Type} [DecidableEq α] {p : α → Bool} {as rest : List α} {a : α}
    (h : takeFirst p as = some (a, rest)) : as.erase a = rest := by
  obtain ⟨passed, later, rfl, rfl, ha, hpassed⟩ := takeFirst_split h
  have hnew : a ∉ passed := fun hmem => hpassed a hmem ha
  rw [List.erase_append_right _ hnew, List.erase_cons_head]

/-- The literal that is taken is the earliest one that is ready. -/
lemma exists_takeFirst_iff {before ls : List Literal} {bound : List String}
    (hbound : ∀ x, x ∈ bound ↔ x ∈ positiveVariables before) {l : Literal} :
    (∃ rest, takeFirst (·.isReady bound) ls = some (l, rest)) ↔ l.ReadyAfter before ∧
      ∃ passed later, ls = passed ++ l :: later ∧ ∀ p ∈ passed, ¬ p.ReadyAfter before := by
  simp only [← Literal.isReady_iff hbound]
  constructor
  · rintro ⟨rest, htake⟩
    obtain ⟨passed, later, hls, -, hready, hpassed⟩ := takeFirst_split htake
    exact ⟨hready, passed, later, hls, hpassed⟩
  · rintro ⟨hready, passed, later, rfl, hpassed⟩
    exact ⟨passed ++ later, takeFirst_append_cons hpassed hready⟩

lemma scheduleFrom_eq_ok_nil {bound : List String} {ls : List Literal} :
    scheduleFrom bound ls = .ok [] ↔ ls = [] := by
  constructor
  · exact fun h => (scheduleFrom_eq_ok h).1.symm.eq_nil
  · rintro rfl
    rw [scheduleFrom]

lemma scheduleFrom_eq_ok_cons {bound : List String} {ls order : List Literal} {l : Literal} :
    scheduleFrom bound ls = .ok (l :: order) ↔
      ∃ rest, takeFirst (·.isReady bound) ls = some (l, rest) ∧
        scheduleFrom (l.binds bound) rest = .ok order := by
  cases htake : takeFirst (·.isReady bound) ls with
  | none =>
    cases ls with
    | nil => simp [scheduleFrom]
    | cons first ls =>
      rw [scheduleFrom]
      split
      · simp
      · next hsome => simp [htake] at hsome
  | some found =>
    obtain ⟨next, rest⟩ := found
    rw [scheduleFrom_of_takeFirst htake]
    cases hrest : scheduleFrom (next.binds bound) rest with
    | error left =>
      simp only [Except.map, reduceCtorEq, Option.some.injEq, Prod.mk.injEq, false_iff]
      rintro ⟨_, ⟨rfl, rfl⟩, hok⟩
      simp [hrest] at hok
    | ok order' =>
      simp only [Except.map, Except.ok.injEq, List.cons.injEq, Option.some.injEq, Prod.mk.injEq]
      constructor
      · rintro ⟨rfl, rfl⟩
        exact ⟨rest, ⟨rfl, rfl⟩, hrest⟩
      · rintro ⟨_, ⟨rfl, rfl⟩, hok⟩
        exact ⟨rfl, Except.ok.inj (hrest.symm.trans hok)⟩

/-- The schedule from some point on is the order of the literals that are left in which each
literal placed has what it needs and is the earliest one that does. -/
lemma scheduleFrom_eq_ok_iff {before ls order : List Literal} {bound : List String}
    (hbound : ∀ x, x ∈ bound ↔ x ∈ positiveVariables before) :
    scheduleFrom bound ls = .ok order ↔ order.Perm ls ∧
      EachAfter (fun mid l => l.ReadyAfter (before ++ mid) ∧
        ∃ passed later, ls.diff mid = passed ++ l :: later ∧
          ∀ p ∈ passed, ¬ p.ReadyAfter (before ++ mid)) order := by
  induction order generalizing before ls bound with
  | nil => rw [scheduleFrom_eq_ok_nil, List.nil_perm, and_iff_left eachAfter_nil]
  | cons l order ih =>
    rw [scheduleFrom_eq_ok_cons, eachAfter_cons, List.append_nil, List.diff_nil,
      ← exists_takeFirst_iff hbound]
    -- What is left after the literal is what the rest of the order is compared with.
    have hrest : ∀ rest, takeFirst (·.isReady bound) ls = some (l, rest) →
        (scheduleFrom (l.binds bound) rest = .ok order ↔ (l :: order).Perm ls ∧
          EachAfter (fun mid l' => l'.ReadyAfter (before ++ l :: mid) ∧
            ∃ passed later, ls.diff (l :: mid) = passed ++ l' :: later ∧
              ∀ p ∈ passed, ¬ p.ReadyAfter (before ++ l :: mid)) order) := by
      intro rest htake
      have hperm : (l :: order).Perm ls ↔ order.Perm rest := by
        rw [← (takeFirst_eq_some htake).2.congr_right, List.perm_cons]
      rw [ih (Literal.mem_binds_iff hbound l), hperm]
      simp only [List.diff_cons, erase_eq_of_takeFirst htake, List.append_assoc,
        List.singleton_append]
    constructor
    · rintro ⟨rest, htake, hok⟩
      obtain ⟨hperm, horder⟩ := (hrest rest htake).1 hok
      exact ⟨hperm, ⟨rest, htake⟩, horder⟩
    · rintro ⟨hperm, ⟨rest, htake⟩, horder⟩
      exact ⟨rest, htake, (hrest rest htake).2 ⟨hperm, horder⟩⟩

/-! ### Schedules -/

/-- A schedule is the admissible order of the given literals in which each literal placed is the
earliest one that was ready.  There is one whenever there is an admissible order at all, so
whether there is does not depend on the order in which the literals are given. -/
theorem schedule_exact (ls : List Literal) :
    (∀ order, schedule ls = .ok order ↔
        order.Perm ls ∧ Admissible order ∧ TakesEarliest ls order) ∧
      ((∃ order, schedule ls = .ok order) ↔ ∃ order, order.Perm ls ∧ Admissible order) ∧
      ∀ ls' : List Literal, ls'.Perm ls →
        ((∃ order, schedule ls' = .ok order) ↔ ∃ order, schedule ls = .ok order) := by
  have hexact : ∀ order, schedule ls = .ok order ↔
      order.Perm ls ∧ Admissible order ∧ TakesEarliest ls order := by
    intro order
    rw [schedule, scheduleFrom_eq_ok_iff mem_nil_iff_mem_positiveVariables, eachAfter_and]
    rfl
  refine ⟨hexact, ⟨?_, ?_⟩, fun ls' hperm => ?_⟩
  · rintro ⟨order, hok⟩
    obtain ⟨hperm, hadmissible, -⟩ := (hexact order).1 hok
    exact ⟨order, hperm, hadmissible⟩
  · rintro ⟨order, hperm, hadmissible⟩
    exact scheduleFrom_isOk hperm (inOrder_nil_iff.2 hadmissible)
  · exact ⟨isOk_schedule_perm hperm, isOk_schedule_perm hperm.symm⟩

/-- Functions with a name that call nothing, written from the end. -/
def namedLeaves : List Literal :=
  [.negative ⟨"edge", [.var "X", .anonymous, .const "CALLS"]⟩,
    .positive ⟨"attr", [.var "X", .const "name", .var "N"]⟩,
    .positive ⟨"node", [.var "X", .const "FUNCTION"]⟩]

theorem schedule_exact_namedLeaves :
    namedLeaves.reverse.Perm namedLeaves ∧ (∃ order, schedule namedLeaves.reverse = .ok order) ∧
      TakesEarliest namedLeaves
        [.positive ⟨"node", [.var "X", .const "FUNCTION"]⟩,
          .negative ⟨"edge", [.var "X", .anonymous, .const "CALLS"]⟩,
          .positive ⟨"attr", [.var "X", .const "name", .var "N"]⟩] := by
  obtain ⟨hexact, -, hperm⟩ := schedule_exact namedLeaves
  have hok : schedule namedLeaves = .ok
      [.positive ⟨"node", [.var "X", .const "FUNCTION"]⟩,
        .negative ⟨"edge", [.var "X", .anonymous, .const "CALLS"]⟩,
        .positive ⟨"attr", [.var "X", .const "name", .var "N"]⟩] := by
    decide +kernel
  have hreverse := List.reverse_perm namedLeaves
  exact ⟨hreverse, (hperm _ hreverse).2 ⟨_, hok⟩, ((hexact _).1 hok).2.2⟩

end CodeGraph.Rules
