import Mathlib
import CodeGraph.Proofs.Rules.Moves

/-!
# Reading is safe

A reader moves one cursor.  `parseRuleTrail`, `parseProgramTrail` and `parseQueryTrail` are all
the places where it stands, also those where it only finds out that a token does not come next.

Each reader's trail leads to the place that it gives back or to the one whose offset its error
names (`leads_termTrail` up to `leads_rulesTrail`).  Where a reader looked for a token in vain, its
cursor is left behind the blanks before what it found instead (`Cursor.EndsNear`).  All places on
the trail of a text are between two of its characters, the offsets never decrease, and there are
at most so many as the text has characters, by a factor (`reads_safely`).
-/

namespace CodeGraph.Rules

open Cursor (Leads LeadsWithin)

/-! ### The trails of readers -/

/-- The place behind what was read. -/
def Parsed.behind {α : Type} : Parsed α → List Cursor
  | .ok (_, c) => [c]
  | .error _ => []

/-- The places where reading an identifier stands. -/
def identifierTrail (c : Cursor) : List Cursor :=
  c.skipTrail ++ (identifier c).behind

/-- The places where reading a term stands. -/
def termTrail (c : Cursor) : List Cursor :=
  c.skipTrail ++
    match c.skip.ahead with
    | '"' :: _ => (term c).behind
    | _ => identifierTrail c.skip

/-- The places where reading terms stands. -/
def termsTrail (c : Cursor) : List Cursor :=
  match _ht : term c with
  | .error _ => termTrail c
  | .ok (_, after) =>
    match after.eat? ")" with
    | some _ => termTrail c ++ after.eatTrail ")"
    | none =>
      -- looking for the parenthesis has left the blanks behind
      let trail := termTrail c ++ after.eatTrail ")" ++ after.skip.eatTrail ","
      match _hc : after.eat? "," with
      | none => trail
      | some next => trail ++ termsTrail next
termination_by c.ahead.length
decreasing_by
  have h₁ := length_term_lt _ht
  have h₂ := Cursor.length_eat?_le _hc
  omega

/-- The places where reading an atom stands. -/
def atomTrail (c : Cursor) : List Cursor :=
  match identifier c with
  | .error _ => identifierTrail c
  | .ok (_, after) =>
    let trail := identifierTrail c ++ after.eatTrail "("
    match after.eat? "(" with
    | none => trail
    | some opened =>
      match opened.eat? ")" with
      | some _ => trail ++ opened.eatTrail ")"
      | none => trail ++ opened.eatTrail ")" ++ termsTrail opened.skip

/-- The places where reading a literal stands. -/
def literalTrail (c : Cursor) : List Cursor :=
  c.eatTrail "\\+" ++ atomTrail ((c.eat? "\\+").getD c.skip)

/-- The places where reading literals stands. -/
def literalsTrail (c : Cursor) : List Cursor :=
  match _hl : literal c with
  | .error _ => literalTrail c
  | .ok (_, after) =>
    let trail := literalTrail c ++ ((literalTrail c).getLastD c).eatTrail ","
    match _hc : after.eat? "," with
    | none => trail
    | some next => trail ++ literalsTrail next
termination_by c.ahead.length
decreasing_by
  have h₁ := length_literal_lt _hl
  have h₂ := Cursor.length_eat?_le _hc
  omega

/-- The places where reading a rule stands. -/
def ruleTrail (c : Cursor) : List Cursor :=
  match atom c with
  | .error _ => atomTrail c
  | .ok (_, after) =>
    let trail := atomTrail c ++ ((atomTrail c).getLastD c).eatTrail ":-"
    match after.eat? ":-" with
    | none => trail ++ after.skip.eatTrail "."
    | some opened =>
      match literals opened with
      | .error _ => trail ++ literalsTrail opened
      | .ok _ => trail ++ literalsTrail opened ++
          ((literalsTrail opened).getLastD opened).eatTrail "."

/-- The places where reading rules up to the end of the text stands. -/
def rulesTrail (c : Cursor) : List Cursor :=
  if c.atEnd then c.skipTrail
  else
    match _hr : rule c with
    | .error _ => c.skipTrail ++ ruleTrail c.skip
    | .ok (_, after) => c.skipTrail ++ ruleTrail c.skip ++ rulesTrail after
termination_by c.ahead.length
decreasing_by exact length_rule_lt _hr

/-! ### Where readers end -/

/-- The offset that an error names. -/
def SyntaxError.offset : SyntaxError → Nat
  | expected _ offset | expectedIdentifier offset | unterminatedString offset
  | trailingInput offset => offset

/-- A place is where a reader ends: behind what it read, or where it noticed an error. -/
def Cursor.Ends {α : Type} (d : Cursor) : Parsed α → Prop
  | .ok (_, after) => d = after
  | .error e => d.offset = e.offset

/-- A place is where a reader ends, or behind the blanks there, because something that did not
come next was looked for. -/
def Cursor.EndsNear {α : Type} (d : Cursor) : Parsed α → Prop
  | .ok (_, after) => d = after ∨ d = after.skip
  | .error e => d.offset = e.offset

lemma identifier_skip (c : Cursor) : identifier c.skip = identifier c := by
  rw [identifier, identifier, Cursor.skip_skip]

lemma term_skip (c : Cursor) : term c.skip = term c := by
  rw [term, term, Cursor.skip_skip, identifier_skip]

lemma terms_eq (c : Cursor) : terms c = (term c).bind fun (t, after) =>
    match after.eat? ")" with
    | some last => .ok ([t], last)
    | none =>
      match after.eat? "," with
      | none => .error (.expected "," after.skip.offset)
      | some next => (terms next).map fun (ts, last) => (t :: ts, last) := by
  rw [terms]
  split
  · next e ht => rw [ht]; rfl
  · next t after ht =>
    rw [ht, Except.bind]
    dsimp only
    cases hclose : after.eat? ")" with
    | some last => rfl
    | none =>
      dsimp only
      split
      · next hcomma => simp only [hcomma]
      · next next hcomma => simp only [hcomma]

lemma terms_skip (c : Cursor) : terms c.skip = terms c := by
  rw [terms_eq, terms_eq, term_skip]

lemma atom_skip (c : Cursor) : atom c.skip = atom c := by
  rw [atom, atom, identifier_skip]

lemma rule_skip (c : Cursor) : rule c.skip = rule c := by
  rw [rule, rule, atom_skip]

lemma leads_identifierTrail (c : Cursor) :
    ∃ d, LeadsWithin 2 2 (identifierTrail c) c d ∧ d.Ends (identifier c) := by
  have hskip := Cursor.leads_skipTrail c
  rw [identifierTrail, identifier]
  split
  · refine ⟨c.skip, ?_, rfl⟩
    exact hskip.append ((LeadsWithin.stay 2 c.skip).mono le_rfl (Nat.zero_le 1))
  · refine ⟨_, ?_, rfl⟩
    exact hskip.append (.single 2 (Cursor.movesTo_pass isIdentifierChar c.skip))

lemma Cursor.Ends.map {α β : Type} {f : α → β} {d : Cursor} {r : Parsed α} (h : d.Ends r) :
    d.Ends (r.map fun (a, c) => (f a, c)) := by
  cases r <;> exact h

/-- A constant in quotes ends behind the next quote. -/
lemma movesTo_of_quote {c : Cursor} {quote : Char} {after : List Char}
    (h : (c.pass (· != '"')).ahead = quote :: after) :
    c.MovesTo ⟨(c.pass (· != '"')).offset + 1, after⟩ := by
  have hquote : quote = '"' := by
    have hhead := List.head?_dropWhile_not (· != '"') c.ahead
    rw [show c.ahead.dropWhile (· != '"') = quote :: after from h] at hhead
    simpa using hhead
  exact (Cursor.movesTo_pass _ c).trans ⟨['"'], hquote ▸ h, rfl⟩

lemma term_of_not_quoted {c : Cursor} (h : ∀ rest, c.skip.ahead ≠ '"' :: rest) :
    term c = (identifier c).map fun (word, after) => (.ofIdentifier word, after) := by
  rw [term]
  split
  · next rest hahead => exact absurd hahead (h rest)
  · rfl

lemma leads_termTrail (c : Cursor) :
    ∃ d, LeadsWithin 2 3 (termTrail c) c d ∧ d.Ends (term c) := by
  have hskip := Cursor.leads_skipTrail c
  rw [termTrail]
  split
  · next rest hahead =>
    have hopen : c.skip.MovesTo ⟨c.skip.offset + 1, rest⟩ := ⟨['"'], hahead, rfl⟩
    cases hbody : ((⟨c.skip.offset + 1, rest⟩ : Cursor).pass (· != '"')).ahead with
    | nil =>
      have hterm : term c = .error (.unterminatedString c.skip.offset) := by
        simp only [term, hahead, hbody]
      rw [hterm]
      exact ⟨c.skip, (hskip.append (LeadsWithin.stay 2 c.skip)).mono le_rfl (by decide), rfl⟩
    | cons quote after =>
      have hclose := hopen.trans (movesTo_of_quote hbody)
      have hterm : term c = .ok (.const (String.ofList (rest.takeWhile (· != '"'))),
          ⟨((⟨c.skip.offset + 1, rest⟩ : Cursor).pass (· != '"')).offset + 1, after⟩) := by
        simp only [term, hahead, hbody]
      rw [hterm]
      exact ⟨_, (hskip.append (.single 2 hclose)).mono le_rfl (by decide), rfl⟩
  · next hquote =>
    obtain ⟨d, hd, hends⟩ := leads_identifierTrail c.skip
    rw [identifier_skip] at hends
    rw [term_of_not_quoted hquote]
    exact ⟨d, (hskip.append hd).mono le_rfl (by decide), hends.map⟩

/-- Each round reads a term and looks for two tokens, so it makes 7 moves more than 2 for each
character. -/
lemma leads_termsTrail (c : Cursor) :
    ∃ d, LeadsWithin 9 7 (termsTrail c) c d ∧ d.Ends (terms c) := by
  obtain ⟨d, hd, hends⟩ := leads_termTrail c
  fun_induction termsTrail c generalizing d with
  | case1 c e ht =>
    rw [ht] at hends
    refine ⟨d, hd.mono (by decide) (by decide), ?_⟩
    rw [terms_eq, ht]
    exact hends
  | case2 c t after ht last hclose =>
    rw [ht] at hends
    obtain rfl : d = after := hends
    have hlast := Cursor.leads_eatTrail ")" d
    rw [hclose] at hlast
    refine ⟨last, (hd.append hlast).mono (by decide) (by decide), ?_⟩
    rw [terms_eq, ht]
    simp only [Except.bind, hclose, Cursor.Ends]
  | case3 c t after ht hclose trail hcomma =>
    rw [ht] at hends
    obtain rfl : d = after := hends
    have hopen := Cursor.leads_eatTrail ")" d
    have hlast := Cursor.leads_eatTrail_of_near "," (.inr rfl : d.skip = d ∨ _)
    rw [hclose] at hopen
    rw [hcomma] at hlast
    refine ⟨d.skip, ((hd.append hopen).append hlast).mono (by decide) (by decide), ?_⟩
    rw [terms_eq, ht]
    simp only [Except.bind, hclose, hcomma, Cursor.Ends, SyntaxError.offset]
  | case4 c t after ht hclose trail next hcomma ih =>
    rw [ht] at hends
    obtain rfl : d = after := hends
    have hopen := Cursor.leads_eatTrail ")" d
    have hlast := Cursor.leads_eatTrail_of_near "," (.inr rfl : d.skip = d ∨ _)
    rw [hclose] at hopen
    rw [hcomma] at hlast
    have hshorter := (Cursor.length_eat?_le hcomma).trans_lt (length_term_lt ht)
    obtain ⟨d', hd', hends'⟩ := leads_termTrail next
    obtain ⟨e, he, hrest⟩ := ih d' hd' hends'
    refine ⟨e, ((hd.append hopen).append hlast).round hshorter he, ?_⟩
    rw [terms_eq, ht]
    simp only [Except.bind, hclose, hcomma]
    exact hrest.map

lemma Cursor.EndsNear.map {α β : Type} {f : α → β} {d : Cursor} {r : Parsed α}
    (h : d.EndsNear r) : d.EndsNear (r.map fun (a, c) => (f a, c)) := by
  cases r <;> exact h

lemma leads_atomTrail (c : Cursor) :
    ∃ d, LeadsWithin 9 13 (atomTrail c) c d ∧ d.EndsNear (atom c) := by
  obtain ⟨d, hd, hends⟩ := leads_identifierTrail c
  rw [atomTrail, atom]
  cases hword : identifier c with
  | error e =>
    rw [hword] at hends
    exact ⟨d, hd.mono (by decide) (by decide), hends⟩
  | ok found =>
    obtain ⟨word, after⟩ := found
    rw [hword] at hends
    obtain rfl : d = after := hends
    have hopen := hd.append (Cursor.leads_eatTrail "(" d)
    dsimp only [bind, Except.bind]
    cases heat : d.eat? "(" with
    | none =>
      rw [heat] at hopen
      exact ⟨d.skip, hopen.mono (by decide) (by decide), .inr rfl⟩
    | some opened =>
      rw [heat] at hopen
      have hclose := hopen.append (Cursor.leads_eatTrail ")" opened)
      dsimp only
      cases heat' : opened.eat? ")" with
      | some closed =>
        rw [heat'] at hclose
        exact ⟨closed, hclose.mono (by decide) (by decide), .inl rfl⟩
      | none =>
        rw [heat'] at hclose
        obtain ⟨e, he, hends'⟩ := leads_termsTrail opened.skip
        rw [terms_skip] at hends'
        refine ⟨e, ((hclose.mono (by decide) le_rfl).append he).mono le_rfl (by decide), ?_⟩
        dsimp only
        cases hterms : terms opened with
        | error => rw [hterms] at hends'; exact hends'
        | ok => rw [hterms] at hends'; exact .inl hends'

lemma leads_literalTrail (c : Cursor) :
    ∃ d, LeadsWithin 9 15 (literalTrail c) c d ∧ d.EndsNear (literal c) := by
  have hsign := Cursor.leads_eatTrail "\\+" c
  rw [literalTrail, literal]
  cases heat : c.eat? "\\+" with
  | some opened =>
    rw [heat] at hsign
    obtain ⟨d, hd, hends⟩ := leads_atomTrail opened
    exact ⟨d, ((hsign.mono (by decide) le_rfl).append hd).mono le_rfl (by decide), hends.map⟩
  | none =>
    rw [heat] at hsign
    obtain ⟨d, hd, hends⟩ := leads_atomTrail c.skip
    rw [atom_skip] at hends
    exact ⟨d, ((hsign.mono (by decide) le_rfl).append hd).mono le_rfl (by decide), hends.map⟩

lemma literals_eq (c : Cursor) : literals c = (literal c).bind fun (l, after) =>
    match after.eat? "," with
    | none => .ok ([l], after)
    | some next => (literals next).map fun (ls, last) => (l :: ls, last) := by
  rw [literals]
  split
  · next e hl => rw [hl]; rfl
  · next l after hl =>
    rw [hl, Except.bind]
    dsimp only
    split
    · next hcomma => simp only [hcomma]
    · next next hcomma => simp only [hcomma]

/-- Each round reads a literal and looks for a comma. -/
lemma leads_literalsTrail (c : Cursor) :
    ∃ d, LeadsWithin 26 17 (literalsTrail c) c d ∧ d.EndsNear (literals c) := by
  obtain ⟨d, hd, hends⟩ := leads_literalTrail c
  fun_induction literalsTrail c generalizing d with
  | case1 c e hl =>
    rw [hl] at hends
    refine ⟨d, hd.mono (by decide) (by decide), ?_⟩
    rw [literals_eq, hl]
    exact hends
  | case2 c l after hl trail hcomma =>
    rw [hl] at hends
    have hlast := hd.eatNext (by decide) "," hends
    rw [hcomma] at hlast
    refine ⟨after.skip, hlast.mono (by decide) (by decide), ?_⟩
    rw [literals_eq, hl]
    simp only [Except.bind, hcomma]
    exact .inr rfl
  | case3 c l after hl trail next hcomma ih =>
    rw [hl] at hends
    have hlast := hd.eatNext (by decide) "," hends
    rw [hcomma] at hlast
    have hshorter := (Cursor.length_eat?_le hcomma).trans_lt (length_literal_lt hl)
    obtain ⟨d', hd', hends'⟩ := leads_literalTrail next
    obtain ⟨e, he, hrest⟩ := ih d' hd' hends'
    refine ⟨e, hlast.round hshorter he, ?_⟩
    rw [literals_eq, hl]
    simp only [Except.bind, hcomma]
    exact hrest.map

lemma leads_ruleTrail (c : Cursor) :
    ∃ d, LeadsWithin 26 34 (ruleTrail c) c d ∧ d.Ends (rule c) := by
  obtain ⟨d, hd, hends⟩ := leads_atomTrail c
  rw [ruleTrail, rule]
  cases hhead : atom c with
  | error e =>
    rw [hhead] at hends
    exact ⟨d, hd.mono (by decide) (by decide), hends⟩
  | ok found =>
    obtain ⟨head, after⟩ := found
    rw [hhead] at hends
    have hsign := (hd.eatNext (by decide) ":-" hends).mono (by decide : 9 ≤ 26) le_rfl
    dsimp only [bind, Except.bind]
    cases heat : after.eat? ":-" with
    | none =>
      rw [heat] at hsign
      have hpoint := Cursor.leads_eatTrail_of_near "." (.inr rfl : after.skip = after ∨ _)
      have hall := hsign.append (hpoint.mono (by decide : 2 ≤ 26) le_rfl)
      refine ⟨_, hall.mono le_rfl (by decide), ?_⟩
      dsimp only [expect]
      cases after.eat? "." <;> rfl
    | some opened =>
      rw [heat] at hsign
      obtain ⟨e, he, hends'⟩ := leads_literalsTrail opened
      dsimp only
      cases hbody : literals opened with
      | error e' =>
        rw [hbody] at hends'
        exact ⟨e, (hsign.append he).mono le_rfl (by decide), hends'⟩
      | ok found =>
        obtain ⟨body, last⟩ := found
        rw [hbody] at hends'
        dsimp only
        have hpoint := he.eatNext (by decide) "." hends'
        have hall := hsign.append hpoint
        rw [← List.append_assoc] at hall
        refine ⟨_, hall.mono le_rfl (by decide), ?_⟩
        dsimp only [expect]
        cases last.eat? "." <;> rfl

lemma rules_eq (c : Cursor) : rules c =
    if c.atEnd then .ok []
    else (rule c).bind fun (r, after) => (rules after).map (r :: ·) := by
  rw [rules]
  split
  · rfl
  · split
    · next e hr => rw [hr]; rfl
    · next r after hr => rw [hr, Except.bind]

/-- A place is where the reading of a whole text ends: at the end of the text, or where an error
was noticed. -/
def Cursor.Finishes {α : Type} (d : Cursor) : Except SyntaxError α → Prop
  | .ok _ => d.ahead = []
  | .error e => d.offset = e.offset

lemma Cursor.finishes_finish {α : Type} (a : α) (c : Cursor) : c.skip.Finishes (finish a c) := by
  rw [finish]
  split
  · next hend => exact List.isEmpty_iff.1 hend
  · rfl

/-- Each round skips what stands before a rule and reads it. -/
lemma leads_rulesTrail (c : Cursor) :
    ∃ d, LeadsWithin 61 35 (rulesTrail c) c d ∧ d.Finishes (rules c) := by
  fun_induction rulesTrail c with
  | case1 c hend =>
    refine ⟨c.skip, (Cursor.leads_skipTrail c).mono (by decide) (by decide), ?_⟩
    rw [rules_eq, if_pos hend]
    exact List.isEmpty_iff.1 hend
  | case2 c hend e hr =>
    obtain ⟨d, hd, hends⟩ := leads_ruleTrail c.skip
    have hskip := (Cursor.leads_skipTrail c).mono (by decide : 2 ≤ 26) le_rfl
    refine ⟨d, (hskip.append hd).mono (by decide) (by decide), ?_⟩
    rw [rule_skip, hr] at hends
    rw [rules_eq, if_neg hend, hr]
    exact hends
  | case3 c hend r after hr ih =>
    obtain ⟨d, hd, hends⟩ := leads_ruleTrail c.skip
    have hskip := (Cursor.leads_skipTrail c).mono (by decide : 2 ≤ 26) le_rfl
    rw [rule_skip, hr] at hends
    obtain rfl : d = after := hends
    obtain ⟨e, he, hrest⟩ := ih
    have hround := (hskip.append hd).mono le_rfl (by decide : 1 + 34 ≤ 35)
    refine ⟨e, hround.round (length_rule_lt hr) he, ?_⟩
    rw [rules_eq, if_neg hend, hr]
    simp only [Except.bind]
    cases hrules : rules d with
    | error e' => rw [hrules] at hrest; exact hrest
    | ok rs => rw [hrules] at hrest; exact hrest

/-! ### Whole texts -/

/-- The places where reading a text as a rule stands, its beginning first. -/
def parseRuleTrail (text : String) : List Cursor :=
  let c := Cursor.start text
  c :: match rule c with
    | .error _ => ruleTrail c
    | .ok (_, after) => ruleTrail c ++ after.skipTrail

/-- The places where reading a text as rules stands, its beginning first. -/
def parseProgramTrail (text : String) : List Cursor :=
  Cursor.start text :: rulesTrail (.start text)

/-- The places where reading a text as literals stands, its beginning first. -/
def parseQueryTrail (text : String) : List Cursor :=
  let c := Cursor.start text
  c :: match literals c with
    | .error _ => literalsTrail c
    | .ok _ =>
      let trail := literalsTrail c ++ ((literalsTrail c).getLastD c).eatTrail "."
      trail ++ (trail.getLastD c).skipTrail

/-- Reading a text is safe. -/
structure ReadsSafely {α : Type} (text : String) (trail : List Cursor)
    (outcome : Except SyntaxError α) : Prop where
  /-- What is ahead of a place is what the text has behind its offset. -/
  here : ∀ p ∈ trail, ∃ behind : String,
    text = behind ++ String.ofList p.ahead ∧ behind.utf8ByteSize = p.offset
  /-- Every offset is one between two characters. -/
  valid : ∀ p ∈ trail, (⟨p.offset⟩ : String.Pos.Raw).IsValid text
  inside : ∀ p ∈ trail, p.offset ≤ text.utf8ByteSize
  forward : trail.Pairwise (·.offset ≤ ·.offset)
  few : trail.length ≤ 61 * text.length + 36
  /-- A text is read to its end. -/
  ok : ∀ a, outcome = .ok a → ∃ last, trail.getLast? = some last ∧ last.ahead = []
  /-- An error names the offset where reading stopped. -/
  error : ∀ e, outcome = .error e → e.offset ≤ text.utf8ByteSize ∧
    (∃ last, trail.getLast? = some last ∧ last.offset = e.offset) ∧
    ∃ reason : String, e.message = reason ++ " at offset " ++ toString e.offset

lemma SyntaxError.exists_message_eq (e : SyntaxError) :
    ∃ reason : String, e.message = reason ++ " at offset " ++ toString e.offset := by
  cases e with
  | expected token offset =>
    refine ⟨"expected '" ++ token ++ "'", ?_⟩
    show "expected '" ++ token ++ "' at offset " ++ toString offset = _
    rw [show "' at offset " = "'" ++ " at offset " from rfl, ← String.append_assoc]
    rfl
  | expectedIdentifier offset => exact ⟨"expected identifier", rfl⟩
  | unterminatedString offset => exact ⟨"unterminated string", rfl⟩
  | trailingInput offset => exact ⟨"trailing input", rfl⟩

lemma Cursor.MovesTo.exists_behind {text : String} {p : Cursor}
    (h : (Cursor.start text).MovesTo p) : ∃ behind : String,
      text = behind ++ String.ofList p.ahead ∧ behind.utf8ByteSize = p.offset := by
  obtain ⟨passed, hahead, hoffset⟩ := h
  refine ⟨String.ofList passed, ?_, ?_⟩
  · rw [← String.ofList_append, ← hahead]
    exact String.ofList_toList.symm
  · rw [hoffset, ← Cursor.octets_eq_utf8ByteSize]
    exact (Nat.zero_add _).symm

lemma Cursor.MovesTo.isValid {text : String} {p : Cursor}
    (h : (Cursor.start text).MovesTo p) : (⟨p.offset⟩ : String.Pos.Raw).IsValid text := by
  obtain ⟨behind, htext, hoffset⟩ := h.exists_behind
  exact String.Pos.Raw.isValid_iff_exists_append.2
    ⟨behind, String.ofList p.ahead, htext, by rw [← hoffset]; rfl⟩

lemma ReadsSafely.of_leads {α : Type} {text : String} {trail : List Cursor} {d : Cursor}
    {outcome : Except SyntaxError α} {rate extra : Nat}
    (h : LeadsWithin rate extra trail (.start text) d) (hrate : rate ≤ 61) (hextra : extra ≤ 35)
    (hends : d.Finishes outcome) : ReadsSafely text (.start text :: trail) outcome := by
  have hall : Leads (.start text :: trail) (.start text) d := .move (.refl _) h.leads
  have hlast : (Cursor.start text :: trail).getLast? = some d := by
    rw [List.getLast?_cons, ← List.getLastD_eq_getLast?, h.leads.getLastD_eq]
  have hinside : ∀ p, (Cursor.start text).MovesTo p → p.offset ≤ text.utf8ByteSize :=
    fun p hp => hp.isValid.le_utf8ByteSize
  refine {
    here := fun p hp => (hall.movesTo_of_mem hp).exists_behind
    valid := fun p hp => (hall.movesTo_of_mem hp).isValid
    inside := fun p hp => hinside p (hall.movesTo_of_mem hp)
    forward := hall.pairwise
    few := ?_
    ok := ?_
    error := ?_ }
  · have hfew := (h.mono hrate hextra).few
    have hlength : (Cursor.start text).ahead.length = text.length := String.length_toList
    rw [hlength] at hfew
    rw [List.length_cons]
    omega
  · rintro a rfl
    exact ⟨d, hlast, hends⟩
  · rintro e rfl
    have hoffset : d.offset = e.offset := hends
    exact ⟨hoffset ▸ hinside d hall.movesTo, ⟨d, hlast, hoffset⟩, e.exists_message_eq⟩

lemma readsSafely_parseRule (text : String) :
    ReadsSafely text (parseRuleTrail text) (parseRule text) := by
  obtain ⟨d, hd, hends⟩ := leads_ruleTrail (.start text)
  rw [parseRuleTrail, parseRule]
  cases hrule : rule (.start text) with
  | error e =>
    rw [hrule] at hends
    exact .of_leads hd (by decide) (by decide) hends
  | ok found =>
    obtain ⟨r, after⟩ := found
    rw [hrule] at hends
    obtain rfl : d = after := hends
    have hskip := (Cursor.leads_skipTrail d).mono (by decide : 2 ≤ 26) le_rfl
    exact .of_leads (hd.append hskip) (by decide) (by decide) (Cursor.finishes_finish r d)

lemma readsSafely_parseProgram (text : String) :
    ReadsSafely text (parseProgramTrail text) (parseProgram text) := by
  obtain ⟨d, hd, hends⟩ := leads_rulesTrail (.start text)
  exact .of_leads hd le_rfl le_rfl hends

lemma readsSafely_parseQuery (text : String) :
    ReadsSafely text (parseQueryTrail text) (parseQuery text) := by
  obtain ⟨d, hd, hends⟩ := leads_literalsTrail (.start text)
  rw [parseQueryTrail, parseQuery]
  cases hliterals : literals (.start text) with
  | error e =>
    rw [hliterals] at hends
    exact .of_leads hd (by decide) (by decide) hends
  | ok found =>
    obtain ⟨ls, after⟩ := found
    rw [hliterals] at hends
    have hpoint := hd.eatNext (by decide) "." hends
    have hskip := Cursor.leads_skipTrail ((after.eat? ".").getD after.skip)
    have hlast : ((after.eat? ".").getD after.skip).skip = ((after.eat? ".").getD after).skip := by
      cases after.eat? "." with
      | none => exact Cursor.skip_skip after
      | some point => rfl
    rw [hlast] at hskip
    have hall := hpoint.append (hskip.mono (by decide : 2 ≤ 26) le_rfl)
    rw [← hpoint.leads.getLastD_eq] at hall
    exact .of_leads hall (by decide) (by decide) (Cursor.finishes_finish ls _)

/-- What a rule is read from has at least one character. -/
lemma offset_lt_of_rule {c after : Cursor} {r : Rule} (h : rule c = .ok (r, after)) :
    c.offset < after.offset := by
  obtain ⟨d, hd, hends⟩ := leads_ruleTrail c
  rw [h] at hends
  obtain rfl : d = after := hends
  exact hd.leads.movesTo.offset_lt (length_rule_lt h)

/-- Every text is read safely, as a rule, as rules and as literals.  A rule that is read has
passed an octet, and so has every round of skipping that another one follows. -/
theorem reads_safely (text : String) :
    ReadsSafely text (parseRuleTrail text) (parseRule text) ∧
    ReadsSafely text (parseProgramTrail text) (parseProgram text) ∧
    ReadsSafely text (parseQueryTrail text) (parseQuery text) ∧
    (∀ (c after : Cursor) (r : Rule), rule c = .ok (r, after) → c.offset < after.offset) ∧
    (∀ c d : Cursor, c.comment? = some d → c.offset < d.offset ∧ c.skip = d.skip) ∧
    ∀ c : Cursor, c.comment? = none → c.skip = c.pass Text.isBlank := by
  refine ⟨readsSafely_parseRule text, readsSafely_parseProgram text, readsSafely_parseQuery text,
    fun _ _ _ => offset_lt_of_rule, fun c d h => ?_,
    fun _ => Cursor.skip_eq_of_comment?_eq_none⟩
  have hmoves := (Cursor.movesTo_pass Text.isBlank c).trans (Cursor.movesTo_of_comment? h).1
  exact ⟨hmoves.offset_lt (Cursor.length_comment?_lt h), Cursor.skip_eq_of_comment? h⟩

/-- A rule without its point, which is noticed behind the comment at the end of the text. -/
theorem reads_safely_unfinished :
    parseRule "é%ß" = .error (.expected "." 5) ∧ 5 ≤ "é%ß".utf8ByteSize ∧
      ∃ last, (parseRuleTrail "é%ß").getLast? = some last ∧ last.offset = 5 := by
  have hstart : (Cursor.start "é%ß").skip = ⟨0, ['é', '%', 'ß']⟩ :=
    Cursor.skip_of_isSolid (by decide) 0 ['%', 'ß']
  have hcomment : (⟨2, ['%', 'ß']⟩ : Cursor).skip = ⟨5, []⟩ := by
    rw [Cursor.skip_eq_of_comment? (by decide +kernel : _ = some ⟨5, []⟩), Cursor.skip_nil]
  have hword : identifier (.start "é%ß") = .ok ("é", ⟨2, ['%', 'ß']⟩) := by
    rw [identifier, hstart]
    decide +kernel
  have hread : parseRule "é%ß" = .error (.expected "." 5) := by
    have heat (token : String) (htoken : token.toList ≠ []) :
        (⟨2, ['%', 'ß']⟩ : Cursor).eat? token = none := by
      rw [Cursor.eat?, hcomment, if_neg (by simpa using htoken)]
    simp only [parseRule, rule, atom, hword, bind, Except.bind, heat "(" (by decide),
      heat ":-" (by decide), expect, heat "." (by decide), hcomment]
  obtain ⟨hinside, hlast, -⟩ := (reads_safely "é%ß").1.error _ hread
  exact ⟨hread, hinside, hlast⟩

end CodeGraph.Rules
