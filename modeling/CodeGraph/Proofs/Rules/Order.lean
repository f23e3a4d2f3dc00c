import Mathlib
import CodeGraph.Proofs.Graph.Query
import CodeGraph.Proofs.Rules.Derived

/-!
# The order in which a query is written

A query comes out the same in every order of its literals (`IsOrderFree`) if its atoms and
the rules respect the kinds of their variables.  That some order can be scheduled depends on
no kinds at all.

The type of a node is where this fails.  As long as the node is free, the type is a pattern,
and once it is bound the type is compared literally.  So a query that asks for such a pattern
beside literals that bind the node comes out the same in every order exactly when they never
bind it to a node whose type fits the pattern without being equal to it.
-/

namespace CodeGraph.Rules

/-- Two queries come out the same: both are refused, or both have the same answers. -/
def SameOutcome : Except QueryError (List Bindings) → Except QueryError (List Bindings) → Prop
  | .ok found, .ok found' => ∀ b, b ∈ found ↔ b ∈ found'
  | .error _, .error _ => True
  | _, _ => False

/-- A query comes out the same in every order of its literals. -/
def IsOrderFree (g : Graph) (program : List Rule) (ls : List Literal) : Prop :=
  ∀ {ls' : List Literal}, ls.Perm ls' →
    SameOutcome (queryAnswers g program ls) (queryAnswers g program ls')

/-- A variable is a node of a type. -/
def nodeIs (x : String) (type : Term) : Literal :=
  .positive ⟨"node", [.var x, type]⟩

variable {g : Graph} {sig : Signature} {Γ : String → Kind} {program : List Rule}
  {ls ls' : List Literal}

/-! ### Outcomes -/

/-- Whether a query is refused does not depend on the order of its literals. -/
lemma exists_queryAnswers_eq_ok_perm (hperm : ls.Perm ls') :
    (∃ found, queryAnswers g program ls = .ok found) ↔
      ∃ found, queryAnswers g program ls' = .ok found := by
  rw [exists_queryAnswers_eq_ok, exists_queryAnswers_eq_ok]
  exact ⟨isOk_schedule_perm hperm, isOk_schedule_perm hperm.symm⟩

/-- Only the answers of different orders have to be compared. -/
lemma sameOutcome_iff_of_perm (hperm : ls.Perm ls') :
    SameOutcome (queryAnswers g program ls) (queryAnswers g program ls') ↔
      ∀ {found found' : List Bindings}, queryAnswers g program ls = .ok found →
        queryAnswers g program ls' = .ok found' → ∀ b, b ∈ found ↔ b ∈ found' := by
  have hok := @exists_queryAnswers_eq_ok_perm g program ls ls' hperm
  cases hfound : queryAnswers g program ls with
  | error refused =>
    cases hfound' : queryAnswers g program ls' with
    | error refused' => simp [SameOutcome]
    | ok found' => simp [hfound, hfound'] at hok
  | ok found =>
    cases hfound' : queryAnswers g program ls' with
    | error refused' => simp [hfound, hfound'] at hok
    | ok found' => simp [SameOutcome]

lemma positiveVariables_perm (hperm : ls.Perm ls') (x : String) :
    x ∈ positiveVariables ls ↔ x ∈ positiveVariables ls' := by
  simp only [mem_positiveVariables, hperm.mem_iff]

/-- A query that respects kinds comes out the same in every order. -/
theorem Respects.isOrderFree (h : g.Consistent) (hls : Respects g sig Γ program ls) :
    IsOrderFree g program ls := by
  intro ls' hperm
  have hls' : Respects g sig Γ program ls' :=
    ⟨hls.program, fun hatom => hls.literals (hperm.symm.subset hatom)⟩
  refine (sameOutcome_iff_of_perm hperm).2 fun hfound hfound' b => ?_
  rw [hls.mem_queryAnswers h hfound, hls'.mem_queryAnswers h hfound']
  refine and_congr ?_ (forall_congr' fun l => by rw [hperm.mem_iff])
  exact ⟨fun hb => hb.congr (positiveVariables_perm hperm),
    fun hb => hb.congr (positiveVariables_perm hperm.symm)⟩

/-! ### Types as patterns -/

section Pattern

variable {x pattern : String}

/-- A binding has a node for a variable, and its type has a property. -/
def IsNodeWith (g : Graph) (x : String) (P : String → Prop) (b : Bindings) : Prop :=
  ∃ (id : NodeId) (node : Node) (type : String), b[x]? = some (.node id) ∧
    g.nodes[id]? = some node ∧ node.type = some type ∧ P type

lemma IsNodeWith.congr {P : String → Prop} {b r : Bindings} (hx : x ∈ b)
    (hextends : ∀ {y : String} {v : Value}, b[y]? = some v → r[y]? = some v) :
    IsNodeWith g x P b ↔ IsNodeWith g x P r := by
  obtain ⟨v, hv⟩ := Bindings.mem_iff.1 hx
  simp only [IsNodeWith, hv, hextends hv]

lemma isReady_nodeIs (type : Term) (bound : List String) : (nodeIs x type).isReady bound := by
  simp [nodeIs, Literal.isReady, inputPositions]

lemma binds_nodeIs (type : Term) (hx : type.var? = none) (bound : List String) :
    (nodeIs x type).binds bound = bound ++ [x] := by
  cases type with
  | var y => simp [Term.var?] at hx
  | const c => rfl
  | anonymous => rfl

lemma ask_nodeIs (type : Term) (b : Bindings) :
    ask (goalAnswers g program) (nodeIs x type) b
      = (nodeAnswers g ((Term.var x).bind b) (type.bind b)).filterMap b.extend? := by
  have hanswers : goalAnswers g program (Atom.bind b ⟨"node", [.var x, type]⟩)
      = nodeAnswers g ((Term.var x).bind b) (type.bind b) := by
    rw [goalAnswers, answers_of_builtin (by simp [builtins])]
    rfl
  simp only [ask, nodeIs, Literal.atom, hanswers]

/-- Asking for the type of a known node compares it. -/
lemma mem_ask_nodeIs_of_eq_some {b r : Bindings} {id : NodeId} (hx : b[x]? = some (.node id)) :
    r ∈ ask (goalAnswers g program) (nodeIs x (.const pattern)) b ↔
      r ∈ ask (goalAnswers g program) (nodeIs x .anonymous) b ∧
        IsNodeWith g x (· = pattern) r := by
  have hsame : b = r → (IsNodeWith g x (· = pattern) r ↔ ∃ (node : Node) (type : String),
      g.nodes[id]? = some node ∧ node.type = some type ∧ type = pattern) := by
    rintro rfl
    simp [IsNodeWith, hx]
  simp only [ask_nodeIs, List.mem_filterMap, Term.bind, hx, Value.asText, nodeAnswers,
    NodeId.parse_text, Graph.node?]
  cases htype : g.nodes[id]?.bind Node.type with
  | none => simp
  | some type =>
    obtain ⟨node, hnode, hnodeType⟩ := Option.bind_eq_some_iff.1 htype
    simp only [matchText, List.mem_singleton, exists_eq_left, Bindings.extend?_empty,
      Option.some.injEq]
    constructor
    · rintro ⟨a, ha, hr⟩
      split at ha
      · next hpattern =>
        obtain rfl := List.mem_singleton.1 ha
        rw [Bindings.extend?_empty, Option.some.injEq] at hr
        exact ⟨hr, (hsame hr).2 ⟨node, type, hnode, hnodeType, hpattern.symm⟩⟩
      · simp at ha
    · rintro ⟨hr, hnodeWith⟩
      obtain ⟨node', type', hnode', hnodeType', rfl⟩ := (hsame hr).1 hnodeWith
      obtain rfl := Option.some.inj (hnode.symm.trans hnode')
      obtain rfl := Option.some.inj (hnodeType.symm.trans hnodeType')
      exact ⟨∅, by simp, by rw [Bindings.extend?_empty, hr]⟩

/-- Asking for the type of a free node takes it for a pattern. -/
lemma mem_ask_nodeIs_of_not_mem (h : g.Consistent) {b r : Bindings} (hnew : x ∉ b) :
    r ∈ ask (goalAnswers g program) (nodeIs x (.const pattern)) b ↔
      r ∈ ask (goalAnswers g program) (nodeIs x .anonymous) b ∧
        IsNodeWith g x (typeMatches pattern ·) r := by
  have hget : ∀ {id : NodeId}, b.extend? (.single x (.node id)) = some r →
      r[x]? = some (.node id) := by
    intro id hr
    rw [Bindings.extend?_of_disjoint fun y hy => by rwa [Bindings.mem_single.1 hy]] at hr
    rw [← Option.some.inj hr, Bindings.getElem?_union, Bindings.getElem?_single, if_pos rfl,
      Option.some_or]
  have hanonymous : ∀ {a : Bindings}, a ∈ nodeAnswers g (.var x) .anonymous ↔
      ∃ (node : Node) (type : String), (g.nodes[node.id]? = some node ∧
        node.type = some type) ∧ .single x (.node node.id) = a := by
    intro a
    rw [mem_nodeAnswers_var_anonymous h]
    simp only [unifyAll_cons, unifyAll_nil, unify_empty_var, Option.bind_some,
      unify_anonymous, Option.some.injEq]
  have hpattern : ∀ {a : Bindings}, a ∈ nodeAnswers g (.var x) (.const pattern) ↔
      ∃ (id : NodeId) (node : Node) (type : String), (g.nodes[id]? = some node ∧
        node.type = some type ∧ typeMatches pattern type) ∧ .single x (.node id) = a := by
    intro a
    simp only [nodeAnswers, List.mem_map, Std.ExtTreeSet.mem_toList, h.mem_findByType,
      Option.any_eq_true, exists_and_left, exists_and_right]
  simp only [ask_nodeIs, List.mem_filterMap, Term.bind, Bindings.not_mem_iff.1 hnew, hanonymous,
    hpattern]
  constructor
  · rintro ⟨_, ⟨id, node, type, ⟨hnode, htype, hfits⟩, rfl⟩, hr⟩
    obtain rfl : node.id = id := h.keyed.node hnode
    exact ⟨⟨_, ⟨node, type, ⟨hnode, htype⟩, rfl⟩, hr⟩, node.id, node, type, hget hr, hnode,
      htype, hfits⟩
  · rintro ⟨⟨_, ⟨node, type, ⟨hnode, htype⟩, rfl⟩, hr⟩, id, node', type', hid, hnode', htype',
      hfits⟩
    obtain rfl : node.id = id := Value.node.inj (Option.some.inj ((hget hr).symm.trans hid))
    exact ⟨_, ⟨node.id, node', type', ⟨hnode', htype', hfits⟩, rfl⟩, hr⟩

/-- Asking for the type of a node compares it where the node is known and takes it for a
pattern where it is not. -/
lemma mem_ask_nodeIs (h : g.Consistent) {b r : Bindings}
    (hb : ∀ {v : Value}, b[x]? = some v → Kind.node.Admits g v) :
    r ∈ ask (goalAnswers g program) (nodeIs x (.const pattern)) b ↔
      r ∈ ask (goalAnswers g program) (nodeIs x .anonymous) b ∧
        IsNodeWith g x (fun type => if x ∈ b then type = pattern
          else typeMatches pattern type) r := by
  cases hx : b[x]? with
  | some v =>
    cases v with
    | text t => exact (hb hx).elim
    | node id =>
      have hmem : x ∈ b := Bindings.mem_iff.2 ⟨_, hx⟩
      simp only [mem_ask_nodeIs_of_eq_some hx, hmem, if_true]
  | none =>
    have hnew : x ∉ b := Bindings.not_mem_iff.2 hx
    simp only [mem_ask_nodeIs_of_not_mem h hnew, hnew, if_false]

/-- Asking for a pattern in an order of literals gives those answers that asking for any type
in its place gives and whose type fits, or is equal to the pattern if the node is bound
before. -/
lemma mem_askAll_nodeIs (h : g.Consistent) {before after : List Literal}
    (hls : Respects g sig Γ program (nodeIs x .anonymous :: (before ++ after)))
    (hx : Γ x = .node)
    (horder : InOrder [] (before ++ nodeIs x (.const pattern) :: after)) {r : Bindings} :
    r ∈ askAll (goalAnswers g program) (before ++ nodeIs x (.const pattern) :: after) [∅] ↔
      r ∈ askAll (goalAnswers g program) (before ++ nodeIs x .anonymous :: after) [∅] ∧
        IsNodeWith g x (fun type => if x ∈ positiveVariables before then type = pattern
          else typeMatches pattern type) r := by
  have hanswered : ∀ {part : List Literal}, part ⊆ nodeIs x .anonymous :: (before ++ after) →
      AllAnswered (goalAnswers g program) (fun x => (Γ x).Admits g) part :=
    fun hsub _ hatom => hls.allAnswered h (hsub hatom)
  obtain ⟨hbefore, hrest⟩ := horder.of_append
  have hafter : InOrder ((nodeIs x .anonymous).binds ([] ++ positiveVariables before)) after := by
    rw [binds_nodeIs _ rfl, ← binds_nodeIs (.const pattern) rfl]
    exact hrest.2
  have hempty : (∅ : Bindings).Assigns (fun x => (Γ x).Admits g) [] :=
    Bindings.assigns_nil_iff.2 rfl
  rw [mem_askAll_middle, mem_askAll_middle]
  -- The type is looked at when the node is asked, and the node stays the same afterwards.
  have hstep : ∀ b ∈ askAll (goalAnswers g program) before [∅], ∀ d,
      d ∈ ask (goalAnswers g program) (nodeIs x (.const pattern)) b ∧
        r ∈ askAll (goalAnswers g program) after [d] ↔
      (d ∈ ask (goalAnswers g program) (nodeIs x .anonymous) b ∧
        r ∈ askAll (goalAnswers g program) after [d]) ∧
        IsNodeWith g x (fun type => if x ∈ positiveVariables before then type = pattern
          else typeMatches pattern type) r := by
    intro b hb d
    obtain ⟨hb, -, -⟩ := (mem_askAll hbefore hempty (hanswered fun l hl =>
      List.mem_cons_of_mem _ (List.mem_append_left _ hl))).1 hb
    have hbound : x ∈ b ↔ x ∈ positiveVariables before := hb.covers x
    rw [mem_ask_nodeIs h fun hv => hx ▸ hb.kinds hv, and_assoc, and_assoc]
    simp only [hbound]
    refine and_congr_right fun hd => ?_
    rw [and_comm]
    refine and_congr_right fun hr => ?_
    obtain ⟨hd, -, -⟩ := (mem_ask (isReady_nodeIs _ _) hb (hanswered fun l hl =>
      List.mem_singleton.1 hl ▸ List.mem_cons_self)).1 hd
    obtain ⟨-, hextends, -⟩ := (mem_askAll hafter hd (hanswered fun l hl =>
      List.mem_cons_of_mem _ (List.mem_append_right _ hl))).1 hr
    refine IsNodeWith.congr ((hd.covers x).2 ?_) hextends
    rw [binds_nodeIs _ rfl]
    exact List.mem_append_right _ (List.mem_singleton_self x)
  constructor
  · rintro ⟨b, hb, d, hd⟩
    obtain ⟨hd, hr⟩ := (hstep b hb d).1 hd
    exact ⟨⟨b, hb, d, hd⟩, hr⟩
  · rintro ⟨⟨b, hb, d, hd⟩, hr⟩
    exact ⟨b, hb, d, (hstep b hb d).2 ⟨hd, hr⟩⟩

lemma IsNodeWith.holds {P : String → Prop} {b : Bindings} (h : IsNodeWith g x P b) :
    (nodeIs x .anonymous).Holds (goalAnswers g program) b.text := by
  obtain ⟨id, node, type, hx, hnode, htype, -⟩ := h
  have hid : b.text x = id.text := Bindings.textOr_of_eq_some hx _
  have hasType : g.nodes[id]?.bind Node.type = some type := by
    rw [hnode]
    exact htype
  have hanswers : goalAnswers g program ⟨"node", [.const id.text, .anonymous]⟩ = [∅] := by
    rw [goalAnswers, answers_of_builtin (by simp [builtins])]
    simp [builtinAnswers, nodeAnswers, Graph.node?, NodeId.parse_text, hasType, matchText]
  simp [nodeIs, Literal.Holds, Atom.ground, Term.ground, hid, hanswers]

section Beside

variable {found : List Bindings}

/-- What an order of a pattern and other literals that bind the node gives is told by the
answers to the other literals. -/
lemma mem_askAll_nodeIs_iff (h : g.Consistent) (hls : Respects g sig Γ program ls)
    (hx : Γ x = .node) (hmem : x ∈ positiveVariables ls)
    (hfound : queryAnswers g program ls = .ok found) {before after : List Literal}
    (hperm : (before ++ after).Perm ls)
    (horder : InOrder [] (before ++ nodeIs x (.const pattern) :: after)) {b : Bindings} :
    b ∈ askAll (goalAnswers g program) (before ++ nodeIs x (.const pattern) :: after) [∅] ↔
      b ∈ found ∧ IsNodeWith g x (fun type => if x ∈ positiveVariables before
        then type = pattern else typeMatches pattern type) b := by
  have hrespects : Respects g sig Γ program (nodeIs x .anonymous :: (before ++ after)) := by
    refine ⟨hls.program, fun {atom} hatom => ?_⟩
    obtain heq | hatom := List.mem_cons.1 hatom
    · obtain rfl := Literal.positive.inj heq
      exact .node (by simp) hx (by simp) (fun _ _ => trivial) fun _ => trivial
    · exact hls.literals (hperm.subset hatom)
  have horder' : InOrder [] (before ++ nodeIs x .anonymous :: after) :=
    horder.replace (fun bound _ => isReady_nodeIs _ bound) fun bound => by
      rw [binds_nodeIs _ rfl, binds_nodeIs _ rfl]
  have hsplit : (before ++ nodeIs x .anonymous :: after).Perm (nodeIs x .anonymous :: ls) :=
    List.perm_middle.trans (hperm.cons _)
  have hvars : ∀ y, y ∈ [] ++ positiveVariables (before ++ nodeIs x .anonymous :: after) ↔
      y ∈ positiveVariables ls := by
    intro y
    rw [List.nil_append, positiveVariables_perm hsplit, mem_positiveVariables_cons]
    refine or_iff_right_of_imp fun hy => ?_
    obtain rfl : y = x := by simpa [nodeIs, positiveVariables, Literal.isNegative,
      Literal.atom, Atom.vars, Term.var?] using hy
    exact hmem
  have hempty : (∅ : Bindings).Assigns (fun x => (Γ x).Admits g) [] :=
    Bindings.assigns_nil_iff.2 rfl
  rw [mem_askAll_nodeIs h hrespects hx horder, mem_askAll horder' hempty fun hatom =>
      hrespects.allAnswered h (List.perm_middle.subset hatom),
    hls.mem_queryAnswers h hfound]
  refine and_congr_left fun hnode => ?_
  constructor
  · rintro ⟨hb, -, hholds⟩
    exact ⟨hb.congr hvars, fun l hl =>
      hholds l (hsplit.symm.subset (List.mem_cons_of_mem _ hl))⟩
  · rintro ⟨hb, hholds⟩
    refine ⟨hb.congr fun y => (hvars y).symm, by simp, fun l hl => ?_⟩
    obtain rfl | hl := List.mem_cons.1 (hsplit.subset hl)
    · exact hnode.holds
    · exact hholds l hl

/-- If no node that the other literals find fits the pattern without having the type that it
spells, every order gives those answers in which the node has this type. -/
lemma mem_queryAnswers_nodeIs (h : g.Consistent) (hls : Respects g sig Γ program ls)
    (hx : Γ x = .node) (hmem : x ∈ positiveVariables ls)
    (hfound : queryAnswers g program ls = .ok found)
    (hexact : ∀ b ∈ found, IsNodeWith g x (typeMatches pattern ·) b →
      IsNodeWith g x (· = pattern) b)
    (hperm : (nodeIs x (.const pattern) :: ls).Perm ls') {found' : List Bindings}
    (hfound' : queryAnswers g program ls' = .ok found') {b : Bindings} :
    b ∈ found' ↔ b ∈ found ∧ IsNodeWith g x (· = pattern) b := by
  obtain ⟨ordered, hordered, rfl⟩ := queryAnswers_eq_ok.1 hfound'
  obtain ⟨hperm', horder⟩ := schedule_eq_ok hordered
  have hall := hperm'.trans hperm.symm
  obtain ⟨before, after, rfl⟩ := List.append_of_mem (hall.symm.subset List.mem_cons_self)
  have hrest : (before ++ after).Perm ls :=
    (List.perm_cons _).1 (List.perm_middle.symm.trans hall)
  rw [mem_askAll_nodeIs_iff h hls hx hmem hfound hrest horder]
  refine and_congr_right fun hb => ?_
  by_cases hbefore : x ∈ positiveVariables before
  · simp only [hbefore, if_true]
  · simp only [hbefore, if_false]
    refine ⟨hexact b hb, ?_⟩
    rintro ⟨id, node, type, hid, hnode, htype, rfl⟩
    exact ⟨id, node, type, hid, hnode, htype, typeMatches_self type⟩

/-- A query that asks for a pattern beside literals that bind the node comes out the same in
every order exactly when no node that they find fits the pattern without having the type that
it spells. -/
theorem isOrderFree_nodeIs_iff (h : g.Consistent) (hls : Respects g sig Γ program ls)
    (hx : Γ x = .node) (hmem : x ∈ positiveVariables ls)
    (hfound : queryAnswers g program ls = .ok found) :
    IsOrderFree g program (nodeIs x (.const pattern) :: ls) ↔
      ∀ b ∈ found, IsNodeWith g x (typeMatches pattern ·) b → IsNodeWith g x (· = pattern) b := by
  constructor
  · intro hfree b hb hfits
    obtain ⟨ordered, hordered⟩ := exists_queryAnswers_eq_ok.1 ⟨found, hfound⟩
    obtain ⟨hperm, horder⟩ := schedule_eq_ok hordered
    -- Written first, the node is free when it is asked; written last, it is bound.
    obtain ⟨first, hfirst⟩ : ∃ first, scheduleFrom ((nodeIs x (.const pattern)).binds []) ls
        = .ok first := scheduleFrom_isOk hperm (horder.mono (by simp))
    have hschedule : schedule (nodeIs x (.const pattern) :: ls)
        = .ok (nodeIs x (.const pattern) :: first) := by
      rw [schedule, scheduleFrom_cons_of_isReady (isReady_nodeIs _ _), hfirst]
      rfl
    have hschedule' : schedule (ls ++ [nodeIs x (.const pattern)])
        = .ok (ordered ++ [nodeIs x (.const pattern)]) :=
      scheduleFrom_append_singleton (isReady_nodeIs _ _) hordered
    have hswap : (nodeIs x (.const pattern) :: ls).Perm (ls ++ [nodeIs x (.const pattern)]) :=
      (List.perm_append_singleton _ _).symm
    have hsame := (sameOutcome_iff_of_perm hswap).1 (hfree hswap)
      (queryAnswers_eq_ok.2 ⟨_, hschedule, rfl⟩) (queryAnswers_eq_ok.2 ⟨_, hschedule', rfl⟩) b
    have hbegin : ([] ++ first).Perm ls := (scheduleFrom_eq_ok hfirst).1
    have hend : (ordered ++ []).Perm ls := by rwa [List.append_nil]
    have hbound : x ∈ positiveVariables ordered := (positiveVariables_perm hperm x).2 hmem
    have hlast := hsame.1 <| (mem_askAll_nodeIs_iff h hls hx hmem hfound hbegin
      (schedule_eq_ok hschedule).2).2 (by simpa [positiveVariables] using And.intro hb hfits)
    rw [mem_askAll_nodeIs_iff h hls hx hmem hfound hend (schedule_eq_ok hschedule').2] at hlast
    simpa [hbound] using hlast.2
  · intro hexact ls' hperm
    refine (sameOutcome_iff_of_perm hperm).2 fun hfound₁ hfound₂ b => ?_
    rw [mem_queryAnswers_nodeIs h hls hx hmem hfound hexact (.refl _) hfound₁,
      mem_queryAnswers_nodeIs h hls hx hmem hfound hexact hperm hfound₂]

end Beside

end Pattern

/-! ### Reachable graphs -/

/-- In every reachable graph, whether a query is refused does not depend on the order of its
literals.  If its atoms and the rules respect kinds, neither do its answers.  A pattern for
the type of a node that other literals bind may be added to such a query exactly when every
node that they find and that fits the pattern has the type that it spells. -/
theorem outcome_of_perm (h : Graph.Reachable g) (program : List Rule) :
    (∀ {ls ls' : List Literal}, ls.Perm ls' →
      ((∃ found, queryAnswers g program ls = .ok found) ↔
        ∃ found, queryAnswers g program ls' = .ok found)) ∧
    ∀ {sig : Signature} {Γ : String → Kind} {ls : List Literal}, Respects g sig Γ program ls →
      IsOrderFree g program ls ∧
      ∀ {x pattern : String} {found : List Bindings}, Γ x = .node → x ∈ positiveVariables ls →
        queryAnswers g program ls = .ok found →
        (IsOrderFree g program (nodeIs x (.const pattern) :: ls) ↔ ∀ b ∈ found,
          IsNodeWith g x (typeMatches pattern ·) b → IsNodeWith g x (· = pattern) b) := by
  have hg : g.Consistent := h.consistent
  refine ⟨exists_queryAnswers_eq_ok_perm, fun hls => ⟨hls.isOrderFree hg, ?_⟩⟩
  exact fun hx hmem hfound => isOrderFree_nodeIs_iff hg hls hx hmem hfound

instance (outcome outcome' : Except QueryError (List Bindings)) :
    Decidable (SameOutcome outcome outcome') :=
  match outcome, outcome' with
  | .ok found, .ok found' => decidable_of_iff (found ⊆ found' ∧ found' ⊆ found) <| by
      simp only [SameOutcome, List.subset_def, iff_def, forall_and]
  | .error _, .error _ => isTrue trivial
  | .ok _, .error _ => isFalse id
  | .error _, .ok _ => isFalse id

/-- A route that calls a handler with the name `1`, and an edge back that has no type. -/
def routes : Graph :=
  Graph.ephemeral.performAll [
    .addNodes [
      { Graph.bareNode 1 (some "http:route") with metadata := some "\x7b\"call\":\"GET\"\x7d" },
      { Graph.bareNode 2 (some "call") with name := some "1" }],
    .addEdges [⟨.ofNat 1, .ofNat 2, some "calls", none⟩, ⟨.ofNat 2, .ofNat 1, none, none⟩]
      false]

lemma reachable_routes : Graph.Reachable routes :=
  Graph.Reachable.ephemeral.performAll _

/-- The literal `edge(X, Y, type)`. -/
def edgeXY (type : Term) : Literal :=
  .positive ⟨"edge", [.var "X", .var "Y", type]⟩

theorem outcome_of_perm_routes : Graph.Reachable routes ∧
    Respects routes (fun _ => none) (fun _ => .node) [] [edgeXY .anonymous] ∧
    IsOrderFree routes [] [edgeXY .anonymous] ∧
    IsOrderFree routes [] [nodeIs "X" (.const "call"), edgeXY .anonymous] := by
  have hrespects : Respects routes (fun _ => none) (fun _ => .node) [] [edgeXY .anonymous] := by
    refine ⟨by simp [ProgramFits], fun {atom} hatom => ?_⟩
    obtain rfl := Literal.positive.inj (List.mem_singleton.1 hatom)
    exact @Fits.edge routes _ _ (.var "X") (.var "Y") (some .anonymous) rfl rfl
      (by simp [Term.Takes]) (.inr (.inl (by simp [Term.NotEmptyType])))
  obtain ⟨hfree, hexact⟩ := (outcome_of_perm reachable_routes []).2 hrespects
  obtain ⟨found, hfound⟩ : ∃ found, queryAnswers routes [] [edgeXY .anonymous] = .ok found :=
    exists_queryAnswers_eq_ok.2 ⟨[edgeXY .anonymous], by decide +kernel⟩
  refine ⟨reachable_routes, hrespects, hfree, ?_⟩
  refine (@hexact "X" "call" found rfl (by decide +kernel) hfound).2 ?_
  rintro b - ⟨id, node, type, hid, hnode, htype, hfits⟩
  have hcall : typeMatches "call" type = ("call" == type) := if_neg (by decide +kernel)
  exact ⟨id, node, type, hid, hnode, htype, (beq_iff_eq.1 (hcall ▸ hfits)).symm⟩

/-- The literal `attr(X, name, value)`. -/
def attrX (name value : Term) : Literal :=
  .positive ⟨"attr", [.var "X", name, value]⟩

/-- The rules `named(X, N) :- attr(X, "name", N)` and `same(X, X) :- node(X, _)`. -/
def namedAndSame : List Rule :=
  [⟨⟨"named", [.var "X", .var "N"]⟩, [attrX (.const "name") (.var "N")]⟩,
    ⟨⟨"same", [.var "X", .var "X"]⟩, [nodeIs "X" .anonymous]⟩]

/-- The order of a query matters where a type of a node is a pattern, where an edge without a
type is asked for by its empty type, where the name of an attribute is a variable, where a
variable is a text and a node, where a derived predicate needs its input, and where a head
repeats a variable. -/
theorem outcome_depends_on_order : Graph.Reachable routes ∧
    ¬ IsOrderFree routes [] [nodeIs "X" (.const "http:*"), edgeXY .anonymous] ∧
    ¬ IsOrderFree routes [] [edgeXY (.const ""), nodeIs "X" .anonymous] ∧
    ¬ IsOrderFree routes [] [nodeIs "X" .anonymous, attrX (.var "N") .anonymous,
      nodeIs "Y" (.var "N")] ∧
    ¬ IsOrderFree routes [] [nodeIs "X" .anonymous, attrX (.const "name") (.var "Y"),
      nodeIs "Y" .anonymous] ∧
    ¬ IsOrderFree routes namedAndSame
      [.positive ⟨"named", [.var "X", .var "N"]⟩, nodeIs "X" .anonymous] ∧
    ¬ IsOrderFree routes namedAndSame
      [.positive ⟨"same", [.var "X", .var "Y"]⟩, nodeIs "X" .anonymous] := by
  refine ⟨reachable_routes, fun h => ?_, fun h => ?_, fun h => ?_, fun h => ?_, fun h => ?_,
    fun h => ?_⟩
  · exact absurd (h (.swap _ _ _)) (by decide +kernel)
  · exact absurd (h (.swap _ _ _)) (by decide +kernel)
  · exact absurd (h ((List.Perm.swap _ _ _).cons _)) (by decide +kernel)
  · exact absurd (h ((List.Perm.swap _ _ _).cons _)) (by decide +kernel)
  · exact absurd (h (.swap _ _ _)) (by decide +kernel)
  · exact absurd (h (.swap _ _ _)) (by decide +kernel)

end CodeGraph.Rules
