import Mathlib
import CodeGraph.Proofs.Pack.Value
import CodeGraph.Proofs.Rules.Readers

/-!
# Parsing undoes writing

Readers read what is written; here is the converse and what follows from both for whole texts.
Everything that a reader reads is well spelled (`wellSpelled_of_term` up to
`wellSpelled_of_rules`): an identifier is the run of characters that was passed, and a constant
in quotes ends with the first quote.  So whatever was read can be written, and is read again from
every text it is written to (`RoundTrips`).

* `parse_roundTrip` : this holds of programs, of rules, and of queries with or without a final
  point.
-/

namespace CodeGraph.Rules

open Pack (bind_eq_ok_iff map_eq_ok_iff)

/-! ### What is read -/

lemma isWord_of_identifier {c c' : Cursor} {word : String} (h : identifier c = .ok (word, c')) :
    IsWord word := by
  simp only [identifier] at h
  split at h
  · simp at h
  · next hne =>
    obtain ⟨rfl, -⟩ := Prod.mk.inj (Except.ok.inj h)
    refine ⟨fun hempty => hne ?_, fun ch hch => ?_⟩
    · rw [← String.toList_ofList (l := List.takeWhile _ _), hempty, String.toList_empty]
    · rw [String.toList_ofList] at hch
      exact List.mem_takeWhile_imp hch

/-- An identifier is never written like a constant in quotes. -/
lemma Term.wellSpelled_ofIdentifier {word : String} (hword : IsWord word) :
    (Term.ofIdentifier word).WellSpelled := by
  have hconst : (Term.const word).WellSpelled :=
    fun hmem => absurd (hword.2 '"' hmem) (by decide)
  rw [ofIdentifier]
  split
  · exact trivial
  · next hne =>
    split
    · next first cs hcs =>
      split
      · next hvariable =>
        refine ⟨hword, hne, fun c hc => ?_⟩
        obtain rfl : first = c := by simpa [hcs] using hc
        simpa using hvariable
      · exact hconst
    · exact hconst

lemma wellSpelled_of_term {c c' : Cursor} {t : Term} (h : term c = .ok (t, c')) :
    t.WellSpelled := by
  rw [term] at h
  split at h
  · dsimp only at h
    split at h
    · obtain ⟨rfl, -⟩ := Prod.mk.inj (Except.ok.inj h)
      intro hmem
      rw [String.toList_ofList] at hmem
      exact absurd (List.mem_takeWhile_imp hmem) (by decide)
    · simp at h
  · obtain ⟨⟨word, after⟩, hidentifier, heq⟩ := map_eq_ok_iff.1 h
    obtain ⟨rfl, -⟩ := Prod.mk.inj heq
    exact Term.wellSpelled_ofIdentifier (isWord_of_identifier hidentifier)

lemma wellSpelled_of_terms {c c' : Cursor} {ts : List Term} (h : terms c = .ok (ts, c')) :
    ∀ t ∈ ts, t.WellSpelled := by
  fun_induction terms c generalizing ts with
  | case1 => simp at h
  | case2 c t after ht c'' hclose =>
    obtain ⟨rfl, -⟩ := Prod.mk.inj (Except.ok.inj h)
    exact List.forall_mem_singleton.2 (wellSpelled_of_term ht)
  | case3 => simp at h
  | case4 c t after ht hclose next hcomma ih =>
    obtain ⟨⟨rest, last⟩, hrest, heq⟩ := map_eq_ok_iff.1 h
    obtain ⟨rfl, rfl⟩ := Prod.mk.inj heq
    exact List.forall_mem_cons.2 ⟨wellSpelled_of_term ht, ih hrest⟩

lemma wellSpelled_of_atom {c c' : Cursor} {a : Atom} (h : atom c = .ok (a, c')) :
    a.WellSpelled := by
  obtain ⟨⟨predicate, after⟩, hidentifier, hargs⟩ := bind_eq_ok_iff.1 h
  have hword := isWord_of_identifier hidentifier
  dsimp only at hargs
  split at hargs
  · obtain ⟨rfl, -⟩ := Prod.mk.inj (Except.ok.inj hargs)
    exact ⟨hword, List.forall_mem_nil _⟩
  · split at hargs
    · obtain ⟨rfl, -⟩ := Prod.mk.inj (Except.ok.inj hargs)
      exact ⟨hword, List.forall_mem_nil _⟩
    · obtain ⟨⟨ts, last⟩, hterms, heq⟩ := bind_eq_ok_iff.1 hargs
      obtain ⟨rfl, -⟩ := Prod.mk.inj (Except.ok.inj heq)
      exact ⟨hword, wellSpelled_of_terms hterms⟩

lemma wellSpelled_of_literal {c c' : Cursor} {l : Literal} (h : literal c = .ok (l, c')) :
    l.atom.WellSpelled := by
  rw [literal] at h
  split at h
  all_goals
    obtain ⟨⟨a, after⟩, hatom, heq⟩ := map_eq_ok_iff.1 h
    obtain ⟨rfl, -⟩ := Prod.mk.inj heq
    exact wellSpelled_of_atom hatom

lemma wellSpelled_of_literals {c c' : Cursor} {ls : List Literal}
    (h : literals c = .ok (ls, c')) : ls ≠ [] ∧ ∀ l ∈ ls, l.atom.WellSpelled := by
  fun_induction literals c generalizing ls with
  | case1 => simp at h
  | case2 c l after hl hcomma =>
    obtain ⟨rfl, -⟩ := Prod.mk.inj (Except.ok.inj h)
    exact ⟨by simp, List.forall_mem_singleton.2 (wellSpelled_of_literal hl)⟩
  | case3 c l after hl next hcomma ih =>
    obtain ⟨⟨rest, last⟩, hrest, heq⟩ := map_eq_ok_iff.1 h
    obtain ⟨rfl, rfl⟩ := Prod.mk.inj heq
    exact ⟨by simp, List.forall_mem_cons.2 ⟨wellSpelled_of_literal hl, (ih hrest).2⟩⟩

lemma wellSpelled_of_rule {c c' : Cursor} {r : Rule} (h : rule c = .ok (r, c')) :
    r.WellSpelled := by
  obtain ⟨⟨head, after⟩, hhead, hrest⟩ := bind_eq_ok_iff.1 h
  have hatom := wellSpelled_of_atom hhead
  dsimp only at hrest
  split at hrest
  · obtain ⟨⟨body, last⟩, hbody, hrest⟩ := bind_eq_ok_iff.1 hrest
    obtain ⟨_, -, heq⟩ := bind_eq_ok_iff.1 hrest
    obtain ⟨rfl, -⟩ := Prod.mk.inj (Except.ok.inj heq)
    exact ⟨hatom, (wellSpelled_of_literals hbody).2⟩
  · obtain ⟨_, -, heq⟩ := bind_eq_ok_iff.1 hrest
    obtain ⟨rfl, -⟩ := Prod.mk.inj (Except.ok.inj heq)
    exact ⟨hatom, List.forall_mem_nil _⟩

lemma wellSpelled_of_rules {c : Cursor} {rs : List Rule} (h : rules c = .ok rs) :
    ∀ r ∈ rs, r.WellSpelled := by
  fun_induction rules c generalizing rs with
  | case1 c hend =>
    obtain rfl := Except.ok.inj h
    exact List.forall_mem_nil _
  | case2 => simp at h
  | case3 c hend r after hr ih =>
    obtain ⟨rest, hrest, rfl⟩ := map_eq_ok_iff.1 h
    exact List.forall_mem_cons.2 ⟨wellSpelled_of_rule hr, ih hrest⟩

/-! ### Whole texts -/

lemma finish_of_shows_nil {α : Type} (a : α) {c : Cursor} (h : Shows [] c.ahead) :
    finish a c = .ok a := by
  rw [finish, if_pos (Cursor.atEnd_of_shows_nil h)]

lemma eq_of_finish {α : Type} {a b : α} {c : Cursor} (h : finish a c = .ok b) : a = b := by
  rw [finish] at h
  split at h
  · exact Except.ok.inj h
  · simp at h

lemma parseRule_of_shows {r : Rule} (hr : r.WellSpelled) {text : String}
    (h : Shows r.tokens text.toList) : parseRule text = .ok r := by
  rw [← List.append_nil r.tokens] at h
  obtain ⟨c, hrule, hc⟩ := exists_rule (c := .start text) hr h
  exact bind_eq_ok_iff.2 ⟨(r, c), hrule, finish_of_shows_nil r hc⟩

lemma parseQuery_of_shows {ls : List Literal} (hne : ls ≠ [])
    (hls : ∀ l ∈ ls, l.atom.WellSpelled) {text : String}
    (h : Shows (literalTokens ls) text.toList) : parseQuery text = .ok ls := by
  rw [← List.append_nil (literalTokens ls)] at h
  obtain ⟨c, hliterals, hc⟩ := exists_literals (c := .start text) hne hls
    (fun c => Cursor.eat?_eq_none_of_nil ⟨[], rfl⟩) h
  refine bind_eq_ok_iff.2 ⟨(ls, c), hliterals, ?_⟩
  dsimp only
  rw [Cursor.eat?_eq_none_of_nil ⟨[], rfl⟩ hc]
  exact finish_of_shows_nil ls hc

lemma parseQuery_of_shows_point {ls : List Literal} (hne : ls ≠ [])
    (hls : ∀ l ∈ ls, l.atom.WellSpelled) {text : String}
    (h : Shows (literalTokens ls ++ ["."]) text.toList) : parseQuery text = .ok ls := by
  obtain ⟨c, hliterals, hc⟩ := exists_literals (c := .start text) hne hls
    (fun c => Cursor.eat?_eq_none ⟨[], rfl⟩ ⟨[], rfl⟩ (by decide) (by decide)) h
  obtain ⟨c', hpoint, hc'⟩ := Cursor.exists_eat? ⟨[], rfl⟩ (by decide) hc
  refine bind_eq_ok_iff.2 ⟨(ls, c), hliterals, ?_⟩
  dsimp only
  rw [hpoint]
  exact finish_of_shows_nil ls hc'

/-- A reader of whole texts undoes writing.  `Spells a tokens` says that `tokens` are a way to
write `a`. -/
structure RoundTrips {α : Type} (parse : String → Except SyntaxError α) (WellSpelled : α → Prop)
    (Spells : α → List String → Prop) : Prop where
  /-- What is written is read, whatever trivia are in the text. -/
  parse_of_shows {a : α} {tokens : List String} {text : String} : WellSpelled a →
    Spells a tokens → Shows tokens text.toList → parse text = .ok a
  /-- Whatever is read could be written. -/
  wellSpelled {a : α} {text : String} : parse text = .ok a → WellSpelled a
  /-- Whatever is read is read again from every text it is written to, and there is one. -/
  parse_again {a : α} {text : String} : parse text = .ok a →
    (∃ (tokens : List String) (text' : String), Spells a tokens ∧ Shows tokens text'.toList) ∧
      ∀ (tokens : List String) (text' : String), Spells a tokens → Shows tokens text'.toList →
        parse text' = .ok a

lemma RoundTrips.of_parse {α : Type} {parse : String → Except SyntaxError α}
    {WellSpelled : α → Prop} {Spells : α → List String → Prop}
    (hshows : ∀ (a : α) (tokens : List String) (text : String), WellSpelled a →
      Spells a tokens → Shows tokens text.toList → parse text = .ok a)
    (hread : ∀ a text, parse text = .ok a → WellSpelled a)
    (hspells : ∀ a, ∃ tokens, Spells a tokens) : RoundTrips parse WellSpelled Spells where
  parse_of_shows := hshows _ _ _
  wellSpelled := hread _ _
  parse_again {a text} h := by
    obtain ⟨tokens, htokens⟩ := hspells a
    exact ⟨⟨tokens, spaced "" tokens, htokens, shows_spaced (by exact .nil) tokens⟩,
      fun tokens' text' => hshows a tokens' text' (hread a text h)⟩

/-- Parsing undoes writing: programs, rules and queries are read from their tokens, whatever
trivia stand between these and whether or not a query has a final point, and nothing is read that
is not well spelled.  The tokens of atoms are those of their text. -/
theorem parse_roundTrip :
    (∀ a : Atom, Shows a.tokens a.text.toList) ∧
    RoundTrips parseProgram (fun rs => ∀ r ∈ rs, r.WellSpelled)
      (fun rs tokens => tokens = rs.flatMap Rule.tokens) ∧
    RoundTrips parseRule Rule.WellSpelled (fun r tokens => tokens = r.tokens) ∧
    RoundTrips parseQuery (fun ls => ls ≠ [] ∧ ∀ l ∈ ls, l.atom.WellSpelled)
      (fun ls tokens => tokens = literalTokens ls ∨ tokens = literalTokens ls ++ ["."]) := by
  refine ⟨Atom.shows_text, ?_, ?_, ?_⟩
  · refine .of_parse ?_ (fun _ _ => wellSpelled_of_rules) fun rs => ⟨_, rfl⟩
    rintro rs _ text hrs rfl h
    exact rules_of_shows hrs h
  · refine .of_parse ?_ (fun r text h => ?_) fun r => ⟨_, rfl⟩
    · rintro r _ text hr rfl h
      exact parseRule_of_shows hr h
    · obtain ⟨⟨r', c⟩, hrule, hfinish⟩ := bind_eq_ok_iff.1 h
      obtain rfl := eq_of_finish hfinish
      exact wellSpelled_of_rule hrule
  · refine .of_parse ?_ (fun ls text h => ?_) fun ls => ⟨_, .inl rfl⟩
    · rintro ls _ text ⟨hne, hls⟩ (rfl | rfl) h
      · exact parseQuery_of_shows hne hls h
      · exact parseQuery_of_shows_point hne hls h
    · obtain ⟨⟨ls', c⟩, hliterals, hfinish⟩ := bind_eq_ok_iff.1 h
      obtain rfl := eq_of_finish hfinish
      exact wellSpelled_of_literals hliterals

/-- `uncalled(X) :- node(X, "js.function"), \+ edge(_, X).` -/
def uncalled : Rule :=
  ⟨⟨"uncalled", [.var "X"]⟩,
    [.positive ⟨"node", [.var "X", .const "js.function"]⟩,
      .negative ⟨"edge", [.anonymous, .var "X"]⟩]⟩

/-- It is read from a text with ` % "(` and the end of a line in every gap. -/
theorem parse_roundTrip_uncalled :
    uncalled.tokens = ["uncalled", "(", "X", ")", ":-", "node", "(", "X", ",",
      "\"js.function\"", ")", ",", "\\+", "edge", "(", "_", ",", "X", ")", "."] ∧
    parseRule (spaced " % \"(\n" uncalled.tokens) = .ok uncalled := by
  have hcomment : Trivia ('%' :: ([' ', '"', '('] ++ ['\n'])) := .comment (by decide) .nil
  have hgap : Trivia " % \"(\n".toList := .blank (by decide) hcomment
  have hspelled : uncalled.WellSpelled := by decide +kernel
  exact ⟨by rfl, parse_roundTrip.2.2.1.parse_of_shows hspelled rfl (shows_spaced hgap _)⟩

end CodeGraph.Rules
