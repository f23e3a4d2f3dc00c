import Mathlib
import CodeGraph.Proofs.Rules.Layout

/-!
# Readers read what is written

Rules are written as tokens: an atom as its predicate and, in parentheses, its terms with commas
between them, constants in quotes (`Atom.tokens`); a literal with `\+` before its atom if it is
negative; a rule as its head, its body behind `:-`, if there is one, and a point (`Rule.tokens`).

Not everything can be written.  A rule is well spelled if predicates are identifiers, variables
are identifiers that look like variables, and constants have no quotes (`Rule.WellSpelled`).

Every reader, placed before the tokens of something well spelled, reads just this and stands
before the tokens that follow (`exists_identifier` up to `exists_rule`, `rules_of_shows`).  An
identifier ends where it should because the next token is a parenthesis or a comma, whatever
trivia stand before it.
-/

namespace CodeGraph.Rules

/-! ### Spelling -/

/-- A run of letters, numbers, `_` and `:`. -/
def IsWord (word : String) : Prop := word ≠ "" ∧ ∀ c ∈ word.toList, isIdentifierChar c = true

/-- Whether a term can be written: a variable is an identifier other than `_` that begins with an
upper case letter or `_`, and a constant has no quote. -/
def Term.WellSpelled : Term → Prop
  | .var name => IsWord name ∧ name ≠ "_" ∧
      ∀ c ∈ name.toList.head?, Text.isUppercase c = true ∨ c = '_'
  | .const value => '"' ∉ value.toList
  | .anonymous => True

/-- Whether an atom can be written. -/
def Atom.WellSpelled (atom : Atom) : Prop :=
  IsWord atom.predicate ∧ ∀ t ∈ atom.args, t.WellSpelled

/-- Whether a rule can be written. -/
def Rule.WellSpelled (rule : Rule) : Prop :=
  rule.head.WellSpelled ∧ ∀ l ∈ rule.body, l.atom.WellSpelled

instance (word : String) : Decidable (IsWord word) :=
  decidable_of_iff (word ≠ "" ∧ word.toList.all isIdentifierChar = true)
    (and_congr_right fun _ => List.all_eq_true)

instance Term.decidableWellSpelled : (t : Term) → Decidable t.WellSpelled
  | .var name => decidable_of_iff (IsWord name ∧ name ≠ "_" ∧
      name.toList.head?.all (fun c => Text.isUppercase c || c == '_') = true)
      (by simp [WellSpelled, Option.all_eq_true])
  | .const value => inferInstanceAs (Decidable ('"' ∉ value.toList))
  | .anonymous => inferInstanceAs (Decidable True)

instance (atom : Atom) : Decidable atom.WellSpelled := inferInstanceAs (Decidable (_ ∧ _))

instance (rule : Rule) : Decidable rule.WellSpelled := inferInstanceAs (Decidable (_ ∧ _))

/-! ### Tokens -/

/-- The tokens of some terms, with commas between them. -/
def termTokens (ts : List Term) : List String :=
  (ts.map Term.text).intersperse ","

/-- The tokens of an atom. -/
def Atom.tokens (atom : Atom) : List String :=
  atom.predicate :: "(" :: (termTokens atom.args ++ [")"])

/-- The tokens of a literal. -/
def Literal.tokens : Literal → List String
  | .positive atom => atom.tokens
  | .negative atom => "\\+" :: atom.tokens

/-- The tokens of some literals, with commas between them. -/
def literalTokens (ls : List Literal) : List String :=
  [","].intercalate (ls.map Literal.tokens)

/-- The tokens of a rule. -/
def Rule.tokens (rule : Rule) : List String :=
  rule.head.tokens ++
    ((if rule.body = [] then [] else ":-" :: literalTokens rule.body) ++ ["."])

lemma termTokens_cons_cons (t t' : Term) (ts : List Term) :
    termTokens (t :: t' :: ts) = t.text :: "," :: termTokens (t' :: ts) :=
  List.intersperse_cons_cons

lemma literalTokens_singleton (l : Literal) : literalTokens [l] = l.tokens := by
  simp [literalTokens, List.intercalate]

lemma literalTokens_cons_cons (l l' : Literal) (ls : List Literal) :
    literalTokens (l :: l' :: ls) = l.tokens ++ "," :: literalTokens (l' :: ls) := by
  rw [literalTokens, List.map_cons, List.map_cons, List.intercalate_cons_cons,
    List.append_assoc]
  rfl

lemma shows_termTokens {gap : List Char} (hgap : Trivia gap) (ts : List Term) :
    Shows (termTokens ts ++ [")"])
      (gap ++ ([',', ' '].intercalate (ts.map fun t => t.text.toList) ++ [')'])) := by
  have hclose : Shows [")"] [')'] := .cons .nil (.nil .nil)
  induction ts generalizing gap with
  | nil => exact .cons hgap (.nil .nil)
  | cons t ts ih =>
    cases ts with
    | nil =>
      have htext : Shows [t.text, ")"] (gap ++ (t.text.toList ++ [')'])) := .cons hgap hclose
      simpa [termTokens, List.intercalate] using htext
    | cons t' ts =>
      have hspace : Trivia [' '] := .blank (by decide) .nil
      have hcomma : Shows ("," :: (termTokens (t' :: ts) ++ [")"])) _ := .cons .nil (ih hspace)
      rw [termTokens_cons_cons, List.map_cons, List.map_cons, List.intercalate_cons_cons,
        List.append_assoc, List.append_assoc]
      exact .cons hgap hcomma

/-- The text of an atom shows its tokens. -/
lemma Atom.shows_text (atom : Atom) : Shows atom.tokens atom.text.toList := by
  have htext : atom.text.toList = atom.predicate.toList ++ (['('] ++
      ([',', ' '].intercalate (atom.args.map fun t => t.text.toList) ++ [')'])) := by
    simp [text, String.toList_intercalate, Function.comp_def]
  rw [htext]
  exact .cons .nil (.cons .nil (shows_termTokens .nil atom.args))

/-! ### First characters -/

lemma begins_of_isWord {word : String} (h : IsWord word) :
    ∃ first, Begins word first ∧ isIdentifierChar first = true := by
  obtain ⟨hne, hall⟩ := h
  cases hword : word.toList with
  | nil => exact absurd (String.toList_inj.1 (hword.trans String.toList_empty.symm)) hne
  | cons first cs => exact ⟨first, ⟨cs, hword⟩, hall first (by simp [hword])⟩

/-- The token of a term begins with a quote or like an identifier. -/
lemma Term.begins_text {t : Term} (h : t.WellSpelled) :
    ∃ first, Begins t.text first ∧ (first = '"' ∨ isIdentifierChar first = true) := by
  cases t with
  | var name =>
    obtain ⟨first, hfirst, hchar⟩ := begins_of_isWord h.1
    exact ⟨first, hfirst, .inr hchar⟩
  | const value =>
    refine ⟨'"', ⟨value.toList ++ ['"'], ?_⟩, .inl rfl⟩
    simp [text]
  | anonymous => exact ⟨'_', ⟨[], rfl⟩, .inr (by decide)⟩

/-! ### Readers -/

/-- A parenthesis or a comma ends an identifier, whatever stands before it. -/
lemma head_not_isIdentifierChar {token : String} {tokens : List String} {text : List Char}
    {first : Char} (hfirst : Begins token first) (hends : isIdentifierChar first = false)
    (h : Shows (token :: tokens) text) : ∀ c ∈ text.head?, isIdentifierChar c = false := by
  obtain ⟨cs, hcs⟩ := hfirst
  cases h with
  | cons hgap hrest =>
    cases hgap with
    | nil => simpa [hcs] using hends
    | blank hblank _ => simpa using isIdentifierChar_of_isBlank hblank
    | comment _ _ =>
      simp only [List.cons_append, List.head?_cons, Option.mem_some_iff,
        forall_eq']
      decide

lemma exists_identifier {c : Cursor} {word token : String} {tokens : List String} {first : Char}
    (hword : IsWord word) (hfirst : Begins token first) (hends : isIdentifierChar first = false)
    (h : Shows (word :: token :: tokens) c.ahead) :
    ∃ c', identifier c = .ok (word, c') ∧ Shows (token :: tokens) c'.ahead := by
  obtain ⟨first', hfirst', hchar⟩ := begins_of_isWord hword
  obtain ⟨offset, rest, hskip, hrest⟩ :=
    Cursor.exists_skip_of_shows hfirst' (isSolid_of_isIdentifierChar hchar) h
  have hstop := head_not_isIdentifierChar hfirst hends hrest
  have hne : word.toList ≠ [] := by
    obtain ⟨cs, hcs⟩ := hfirst'
    simp [hcs]
  refine ⟨⟨offset + Cursor.octets word.toList, rest⟩, ?_, hrest⟩
  rw [identifier, hskip]
  dsimp only
  rw [Cursor.takeWhile_append_of_stop hword.2 hstop, if_neg hne, Cursor.pass_append hword.2 hstop,
    String.ofList_toList]

lemma Term.ofIdentifier_of_wellSpelled {name : String} (h : (Term.var name).WellSpelled) :
    Term.ofIdentifier name = .var name := by
  obtain ⟨hword, hne, hfirst⟩ := h
  obtain ⟨first, ⟨cs, hcs⟩, -⟩ := begins_of_isWord hword
  have hvariable : Text.isUppercase first = true ∨ first = '_' := hfirst first (by simp [hcs])
  rw [ofIdentifier, if_neg hne, hcs]
  simp [hvariable]

lemma term_of_identifier {c c' : Cursor} {word : String}
    (hquote : ∀ rest, c.skip.ahead ≠ '"' :: rest) (h : identifier c = .ok (word, c')) :
    term c = .ok (.ofIdentifier word, c') := by
  rw [term]
  split
  · next rest hahead => exact absurd hahead (hquote rest)
  · rw [h]
    rfl

/-- A text in quotes is read up to the first quote in it. -/
lemma term_of_quoted {c : Cursor} {offset : Nat} {value rest : List Char}
    (hvalue : '"' ∉ value) (hskip : c.skip = ⟨offset, '"' :: (value ++ '"' :: rest)⟩) :
    ∃ offset', term c = .ok (.const (String.ofList value), ⟨offset', rest⟩) := by
  have hall : ∀ c ∈ value, (c != '"') = true := by
    intro c hc
    rw [bne_iff_ne]
    rintro rfl
    exact hvalue hc
  have hstop : ∀ c ∈ ('"' :: rest).head?, (c != '"') = false := by simp
  refine ⟨offset + 1 + Cursor.octets value + 1, ?_⟩
  rw [term, hskip]
  split
  · next body hbody =>
    obtain rfl := (List.cons.inj hbody).2
    rw [Cursor.pass_append hall hstop, Cursor.takeWhile_append_of_stop hall hstop]
  · next hnot => exact absurd rfl (hnot _)

lemma isWord_anonymous : IsWord "_" := by
  refine ⟨by decide, fun c hc => ?_⟩
  obtain rfl : c = '_' := by simpa using hc
  decide

lemma exists_term_word {c : Cursor} {word token : String} {tokens : List String} {first : Char}
    (hword : IsWord word) (hfirst : Begins token first) (hends : isIdentifierChar first = false)
    (h : Shows (word :: token :: tokens) c.ahead) :
    ∃ c', term c = .ok (.ofIdentifier word, c') ∧ Shows (token :: tokens) c'.ahead := by
  obtain ⟨c', hidentifier, hrest⟩ := exists_identifier hword hfirst hends h
  refine ⟨c', term_of_identifier (fun rest hahead => ?_) hidentifier, hrest⟩
  obtain ⟨first', hfirst', hchar⟩ := begins_of_isWord hword
  obtain ⟨offset, text, hskip, -⟩ :=
    Cursor.exists_skip_of_shows hfirst' (isSolid_of_isIdentifierChar hchar) h
  obtain ⟨cs, hcs⟩ := hfirst'
  rw [hskip, hcs, List.cons_append] at hahead
  rw [(List.cons.inj hahead).1] at hchar
  exact absurd hchar (by decide)

lemma exists_term {c : Cursor} {t : Term} {token : String} {tokens : List String} {first : Char}
    (ht : t.WellSpelled) (hfirst : Begins token first) (hends : isIdentifierChar first = false)
    (h : Shows (t.text :: token :: tokens) c.ahead) :
    ∃ c', term c = .ok (t, c') ∧ Shows (token :: tokens) c'.ahead := by
  cases t with
  | var name =>
    have hread := exists_term_word ht.1 hfirst hends h
    rwa [Term.ofIdentifier_of_wellSpelled ht] at hread
  | const value =>
    have hquoted : (Term.const value).text.toList = '"' :: (value.toList ++ ['"']) := by
      simp [Term.text]
    obtain ⟨offset, rest, hskip, hrest⟩ :=
      Cursor.exists_skip_of_shows ⟨_, hquoted⟩ (by decide) h
    rw [hquoted, List.cons_append, List.append_assoc, List.singleton_append] at hskip
    obtain ⟨offset', hterm⟩ := term_of_quoted ht hskip
    rw [String.ofList_toList] at hterm
    exact ⟨_, hterm, hrest⟩
  | anonymous => exact exists_term_word isWord_anonymous hfirst hends h

lemma terms_of_close {c after c' : Cursor} {t : Term} (hterm : term c = .ok (t, after))
    (hclose : after.eat? ")" = some c') : terms c = .ok ([t], c') := by
  rw [terms]
  split
  · next heq => simp [hterm] at heq
  · next heq =>
    obtain ⟨rfl, rfl⟩ := Prod.mk.inj (Except.ok.inj (hterm.symm.trans heq))
    rw [hclose]

lemma terms_of_comma {c after next : Cursor} {t : Term} (hterm : term c = .ok (t, after))
    (hclose : after.eat? ")" = none) (hcomma : after.eat? "," = some next) :
    terms c = (terms next).map fun (ts, c) => (t :: ts, c) := by
  rw [terms]
  split
  · next heq => simp [hterm] at heq
  · next heq =>
    obtain ⟨rfl, rfl⟩ := Prod.mk.inj (Except.ok.inj (hterm.symm.trans heq))
    rw [hclose]
    dsimp only
    split
    · next hnone => simp [hcomma] at hnone
    · next hsome =>
      obtain rfl := Option.some.inj (hcomma.symm.trans hsome)
      rfl

/-- The terms of an atom are read up to the closing parenthesis. -/
lemma exists_terms {ts : List Term} (hne : ts ≠ []) (hts : ∀ t ∈ ts, t.WellSpelled)
    {c : Cursor} {tokens : List String} (h : Shows (termTokens ts ++ ")" :: tokens) c.ahead) :
    ∃ c', terms c = .ok (ts, c') ∧ Shows tokens c'.ahead := by
  induction ts generalizing c with
  | nil => exact absurd rfl hne
  | cons t ts ih =>
    obtain ⟨ht, hts⟩ := List.forall_mem_cons.1 hts
    cases ts with
    | nil =>
      obtain ⟨after, hterm, hafter⟩ := exists_term ht ⟨[], rfl⟩ (by decide) h
      obtain ⟨c', hclose, hrest⟩ := Cursor.exists_eat? ⟨[], rfl⟩ (by decide) hafter
      exact ⟨c', terms_of_close hterm hclose, hrest⟩
    | cons t' ts =>
      rw [termTokens_cons_cons, List.cons_append, List.cons_append] at h
      obtain ⟨after, hterm, hafter⟩ := exists_term ht ⟨[], rfl⟩ (by decide) h
      have hclose : after.eat? ")" = none :=
        Cursor.eat?_eq_none ⟨[], rfl⟩ ⟨[], rfl⟩ (by decide) (by decide) hafter
      obtain ⟨next, hcomma, hnext⟩ := Cursor.exists_eat? ⟨[], rfl⟩ (by decide) hafter
      obtain ⟨c', hterms, hrest⟩ := ih (by simp) hts hnext
      refine ⟨c', ?_, hrest⟩
      rw [terms_of_comma hterm hclose hcomma, hterms]
      rfl

/-- The tokens of terms begin like a term. -/
lemma exists_termTokens_eq_cons {ts : List Term} (hne : ts ≠ []) (hts : ∀ t ∈ ts, t.WellSpelled) :
    ∃ token tokens first, termTokens ts = token :: tokens ∧ Begins token first ∧
      (first = '"' ∨ isIdentifierChar first = true) := by
  cases ts with
  | nil => exact absurd rfl hne
  | cons t ts =>
    obtain ⟨first, hfirst, hchar⟩ := t.begins_text (hts t (by simp))
    cases ts with
    | nil => exact ⟨t.text, [], first, rfl, hfirst, hchar⟩
    | cons t' ts => exact ⟨t.text, _, first, termTokens_cons_cons t t' ts, hfirst, hchar⟩

lemma exists_atom {a : Atom} (ha : a.WellSpelled) {c : Cursor} {tokens : List String}
    (h : Shows (a.tokens ++ tokens) c.ahead) :
    ∃ c', atom c = .ok (a, c') ∧ Shows tokens c'.ahead := by
  obtain ⟨predicate, args⟩ := a
  obtain ⟨hpredicate, hargs⟩ := ha
  rw [Atom.tokens, List.cons_append, List.cons_append, List.append_assoc,
    List.singleton_append] at h
  obtain ⟨opening, hidentifier, hopening⟩ :=
    exists_identifier hpredicate ⟨[], rfl⟩ (by decide) h
  obtain ⟨opened, hopen, hopened⟩ := Cursor.exists_eat? ⟨[], rfl⟩ (by decide) hopening
  by_cases hnil : args = []
  · subst hnil
    obtain ⟨c', hclose, hrest⟩ := Cursor.exists_eat? ⟨[], rfl⟩ (by decide) hopened
    refine ⟨c', ?_, hrest⟩
    simp only [atom, hidentifier, hopen, hclose, bind, Except.bind]
  · obtain ⟨token, _, first, htokens, hfirst, hchar⟩ := exists_termTokens_eq_cons hnil hargs
    have hclose : opened.eat? ")" = none := by
      rw [htokens] at hopened
      refine Cursor.eat?_eq_none ⟨[], rfl⟩ hfirst ?_ ?_ hopened
      · rcases hchar with rfl | hchar
        · decide
        · exact isSolid_of_isIdentifierChar hchar
      · rintro rfl
        revert hchar
        decide
    obtain ⟨c', hterms, hrest⟩ := exists_terms hnil hargs hopened
    refine ⟨c', ?_, hrest⟩
    simp only [atom, hidentifier, hopen, hclose, hterms, bind, Except.bind]

lemma exists_literal {l : Literal} (hl : l.atom.WellSpelled) {c : Cursor} {tokens : List String}
    (h : Shows (l.tokens ++ tokens) c.ahead) :
    ∃ c', literal c = .ok (l, c') ∧ Shows tokens c'.ahead := by
  cases l with
  | positive a =>
    obtain ⟨first, hfirst, hchar⟩ := begins_of_isWord hl.1
    have hsign : c.eat? "\\+" = none := by
      refine Cursor.eat?_eq_none ⟨['+'], rfl⟩ hfirst (isSolid_of_isIdentifierChar hchar) ?_ h
      rintro rfl
      revert hchar
      decide
    obtain ⟨c', hatom, hrest⟩ := exists_atom hl h
    refine ⟨c', ?_, hrest⟩
    rw [literal, hsign, hatom]
    rfl
  | negative a =>
    obtain ⟨after, hsign, hafter⟩ := Cursor.exists_eat? ⟨['+'], rfl⟩ (by decide) h
    obtain ⟨c', hatom, hrest⟩ := exists_atom hl hafter
    refine ⟨c', ?_, hrest⟩
    rw [literal, hsign]
    dsimp only
    rw [hatom]
    rfl

lemma literals_of_no_comma {c after : Cursor} {l : Literal} (hliteral : literal c = .ok (l, after))
    (hcomma : after.eat? "," = none) : literals c = .ok ([l], after) := by
  rw [literals]
  split
  · next heq => simp [hliteral] at heq
  · next heq =>
    obtain ⟨rfl, rfl⟩ := Prod.mk.inj (Except.ok.inj (hliteral.symm.trans heq))
    split
    · rfl
    · next hsome => simp [hcomma] at hsome

lemma literals_of_comma {c after next : Cursor} {l : Literal}
    (hliteral : literal c = .ok (l, after)) (hcomma : after.eat? "," = some next) :
    literals c = (literals next).map fun (ls, c) => (l :: ls, c) := by
  rw [literals]
  split
  · next heq => simp [hliteral] at heq
  · next heq =>
    obtain ⟨rfl, rfl⟩ := Prod.mk.inj (Except.ok.inj (hliteral.symm.trans heq))
    split
    · next hnone => simp [hcomma] at hnone
    · next hsome =>
      obtain rfl := Option.some.inj (hcomma.symm.trans hsome)
      rfl

/-- Literals are read up to a token other than a comma. -/
lemma exists_literals {ls : List Literal} (hne : ls ≠ []) (hls : ∀ l ∈ ls, l.atom.WellSpelled)
    {tokens : List String}
    (hend : ∀ c : Cursor, Shows tokens c.ahead → c.eat? "," = none) {c : Cursor}
    (h : Shows (literalTokens ls ++ tokens) c.ahead) :
    ∃ c', literals c = .ok (ls, c') ∧ Shows tokens c'.ahead := by
  induction ls generalizing c with
  | nil => exact absurd rfl hne
  | cons l ls ih =>
    obtain ⟨hl, hls⟩ := List.forall_mem_cons.1 hls
    cases ls with
    | nil =>
      rw [literalTokens_singleton] at h
      obtain ⟨c', hliteral, hrest⟩ := exists_literal hl h
      exact ⟨c', literals_of_no_comma hliteral (hend c' hrest), hrest⟩
    | cons l' ls =>
      rw [literalTokens_cons_cons, List.append_assoc, List.cons_append] at h
      obtain ⟨after, hliteral, hafter⟩ := exists_literal hl h
      obtain ⟨next, hcomma, hnext⟩ := Cursor.exists_eat? ⟨[], rfl⟩ (by decide) hafter
      obtain ⟨c', hliterals, hrest⟩ := ih (by simp) hls hnext
      refine ⟨c', ?_, hrest⟩
      rw [literals_of_comma hliteral hcomma, hliterals]
      rfl

lemma exists_rule {r : Rule} (hr : r.WellSpelled) {c : Cursor} {tokens : List String}
    (h : Shows (r.tokens ++ tokens) c.ahead) :
    ∃ c', rule c = .ok (r, c') ∧ Shows tokens c'.ahead := by
  obtain ⟨head, body⟩ := r
  obtain ⟨hhead, hbody⟩ := hr
  rw [Rule.tokens, List.append_assoc, List.append_assoc] at h
  obtain ⟨after, hatom, hafter⟩ := exists_atom hhead h
  by_cases hnil : body = []
  · subst hnil
    have hneck : after.eat? ":-" = none :=
      Cursor.eat?_eq_none ⟨['-'], rfl⟩ ⟨[], rfl⟩ (by decide) (by decide) hafter
    obtain ⟨c', hpoint, hrest⟩ := Cursor.exists_eat? ⟨[], rfl⟩ (by decide) hafter
    refine ⟨c', ?_, hrest⟩
    simp only [rule, hatom, hneck, expect, hpoint, bind, Except.bind]
  · rw [if_neg hnil, List.cons_append] at hafter
    obtain ⟨opened, hneck, hopened⟩ := Cursor.exists_eat? ⟨['-'], rfl⟩ (by decide) hafter
    have hend : ∀ c : Cursor, Shows (["."] ++ tokens) c.ahead → c.eat? "," = none :=
      fun c => Cursor.eat?_eq_none ⟨[], rfl⟩ ⟨[], rfl⟩ (by decide) (by decide)
    obtain ⟨last, hliterals, hlast⟩ := exists_literals hnil hbody hend hopened
    obtain ⟨c', hpoint, hrest⟩ := Cursor.exists_eat? ⟨[], rfl⟩ (by decide) hlast
    refine ⟨c', ?_, hrest⟩
    simp only [rule, hatom, hneck, hliterals, expect, hpoint, bind, Except.bind]

lemma rules_of_atEnd {c : Cursor} (h : c.atEnd = true) : rules c = .ok [] := by
  rw [rules, if_pos h]

lemma rules_of_rule {c after : Cursor} {r : Rule} (hend : c.atEnd = false)
    (hrule : rule c = .ok (r, after)) : rules c = (rules after).map (r :: ·) := by
  rw [rules, if_neg (by simp [hend])]
  split
  · next heq => simp [hrule] at heq
  · next heq =>
    obtain ⟨rfl, rfl⟩ := Prod.mk.inj (Except.ok.inj (hrule.symm.trans heq))
    rfl

lemma rules_of_shows {rs : List Rule} (hrs : ∀ r ∈ rs, r.WellSpelled) {c : Cursor}
    (h : Shows (rs.flatMap Rule.tokens) c.ahead) : rules c = .ok rs := by
  induction rs generalizing c with
  | nil => exact rules_of_atEnd (Cursor.atEnd_of_shows_nil h)
  | cons r rs ih =>
    obtain ⟨hr, hrs⟩ := List.forall_mem_cons.1 hrs
    rw [List.flatMap_cons] at h
    obtain ⟨first, hfirst, hchar⟩ := begins_of_isWord hr.1.1
    have hend : c.atEnd = false :=
      Cursor.atEnd_of_shows_cons hfirst (isSolid_of_isIdentifierChar hchar) h
    obtain ⟨after, hrule, hafter⟩ := exists_rule hr h
    rw [rules_of_rule hend hrule, ih hrs hafter]
    rfl

end CodeGraph.Rules
