import CodeGraph.Rules.Cursor
import CodeGraph.Rules.Syntax
import CodeGraph.Text.Uppercase

/-!
# Reading rules

```
program  = rule*
rule     = atom [ ":-" literals ] "."
literals = literal { "," literal }
literal  = [ "\+" ] atom
atom     = identifier [ "(" [ term { "," term } ] ")" ]
term     = "_" | variable | identifier | '"' text '"'
```

An identifier is a run of letters, numbers, `_` and `:`; as a term it is a variable if it
begins with an upper case letter or `_`.  A query is a list of literals with or without
a final point.

Every reader takes a place and returns the place behind what it read.  Reading an atom or
a term consumes at least one character (`length_atom_lt`, `length_term_lt`), which is why
the lists end.
-/

namespace CodeGraph.Rules

/-- Why a text is not a rule, and where that was noticed, in octets. -/
inductive SyntaxError where
  | expected (token : String) (offset : Nat)
  | expectedIdentifier (offset : Nat)
  | unterminatedString (offset : Nat)
  | trailingInput (offset : Nat)
deriving DecidableEq, Repr

/-- The text of an error. -/
def SyntaxError.message : SyntaxError → String
  | expected token offset => s!"expected '{token}' at offset {offset}"
  | expectedIdentifier offset => s!"expected identifier at offset {offset}"
  | unterminatedString offset => s!"unterminated string at offset {offset}"
  | trailingInput offset => s!"trailing input at offset {offset}"

/-- Whether a character may occur in an identifier. -/
def isIdentifierChar (c : Char) : Bool :=
  Text.isAlphanumeric c || c == '_' || c == ':'

/-- What a reader gives: a value and the place behind it. -/
abbrev Parsed (α : Type) := Except SyntaxError (α × Cursor)

/-- The place behind a token that must come next. -/
def expect (token : String) (c : Cursor) : Except SyntaxError Cursor :=
  match c.eat? token with
  | some c => .ok c
  | none => .error (.expected token c.skip.offset)

/-! ### Terms -/

/-- An identifier. -/
def identifier (c : Cursor) : Parsed String :=
  let word := c.skip.ahead.takeWhile isIdentifierChar
  if word = [] then .error (.expectedIdentifier c.skip.offset)
  else .ok (String.ofList word, c.skip.pass isIdentifierChar)

/-- The term that an identifier stands for. -/
def Term.ofIdentifier (word : String) : Term :=
  if word = "_" then .anonymous
  else
    match word.toList with
    | c :: _ => if Text.isUppercase c || c == '_' then .var word else .const word
    | [] => .const word

/-- A term. -/
def term (c : Cursor) : Parsed Term :=
  match c.skip.ahead with
  | '"' :: rest =>
    let body := (⟨c.skip.offset + 1, rest⟩ : Cursor).pass (· != '"')
    match body.ahead with
    | _ :: after =>
      .ok (.const (String.ofList (rest.takeWhile (· != '"'))), ⟨body.offset + 1, after⟩)
    | [] => .error (.unterminatedString c.skip.offset)
  | _ => (identifier c).map fun (word, c) => (.ofIdentifier word, c)

theorem length_identifier_lt {c c' : Cursor} {word : String}
    (h : identifier c = .ok (word, c')) : c'.ahead.length < c.ahead.length := by
  simp only [identifier] at h
  split at h
  · simp at h
  · next hword =>
    simp only [Except.ok.injEq, Prod.mk.injEq] at h
    obtain ⟨-, rfl⟩ := h
    have hskip := Cursor.length_skip_le c
    have hsplit := congrArg List.length
      (List.takeWhile_append_dropWhile (p := isIdentifierChar) (l := c.skip.ahead))
    have hpos := List.length_pos_iff.2 hword
    simp only [List.length_append] at hsplit
    simp only [Cursor.pass]
    omega

theorem length_term_lt {c c' : Cursor} {t : Term} (h : term c = .ok (t, c')) :
    c'.ahead.length < c.ahead.length := by
  have hskip := Cursor.length_skip_le c
  simp only [term] at h
  split at h
  · next rest hahead =>
    rw [hahead, List.length_cons] at hskip
    split at h
    · next x after hafter =>
      simp only [Except.ok.injEq, Prod.mk.injEq] at h
      obtain ⟨-, rfl⟩ := h
      have hpass := Cursor.length_pass_le (· != '"') ⟨c.skip.offset + 1, rest⟩
      rw [hafter] at hpass
      simp only [List.length_cons] at hpass ⊢
      omega
    · simp at h
  · cases hword : identifier c with
    | error e => simp [hword, Except.map] at h
    | ok found =>
      obtain ⟨word, c''⟩ := found
      simp only [hword, Except.map, Except.ok.injEq, Prod.mk.injEq] at h
      obtain ⟨-, rfl⟩ := h
      exact length_identifier_lt hword

/-! ### Atoms -/

/-- The terms of an atom where at least one is expected, up to the closing parenthesis. -/
def terms (c : Cursor) : Parsed (List Term) :=
  match _ht : term c with
  | .error e => .error e
  | .ok (t, after) =>
    match after.eat? ")" with
    | some c => .ok ([t], c)
    | none =>
      match _hc : after.eat? "," with
      | none => .error (.expected "," after.skip.offset)
      | some next => (terms next).map fun (ts, c) => (t :: ts, c)
termination_by c.ahead.length
decreasing_by
  have h₁ := length_term_lt _ht
  have h₂ := Cursor.length_eat?_le _hc
  omega

/-- An atom; one without parentheses has no terms. -/
def atom (c : Cursor) : Except SyntaxError (Atom × Cursor) := do
  let (predicate, c) ← identifier c
  match c.eat? "(" with
  | none => .ok (⟨predicate, []⟩, c)
  | some c =>
    match c.eat? ")" with
    | some c => .ok (⟨predicate, []⟩, c)
    | none =>
      let (args, c) ← terms c
      .ok (⟨predicate, args⟩, c)

/-- A literal. -/
def literal (c : Cursor) : Parsed Literal :=
  match c.eat? "\\+" with
  | some c => (atom c).map fun (atom, c) => (.negative atom, c)
  | none => (atom c).map fun (atom, c) => (.positive atom, c)

theorem length_terms_lt {c c' : Cursor} {ts : List Term} (h : terms c = .ok (ts, c')) :
    c'.ahead.length < c.ahead.length := by
  fun_induction terms c generalizing ts with
  | case1 => simp at h
  | case2 c t after ht c'' hclose =>
    simp only [Except.ok.injEq, Prod.mk.injEq] at h
    obtain ⟨-, rfl⟩ := h
    have h₁ := length_term_lt ht
    have h₂ := Cursor.length_eat?_le hclose
    omega
  | case3 => simp at h
  | case4 c t after ht hclose next hcomma ih =>
    have h₁ := length_term_lt ht
    have h₂ := Cursor.length_eat?_le hcomma
    cases hrest : terms next with
    | error e => simp [hrest, Except.map] at h
    | ok found =>
      obtain ⟨rest, after'⟩ := found
      simp only [hrest, Except.map, Except.ok.injEq, Prod.mk.injEq] at h
      obtain ⟨-, rfl⟩ := h
      have := ih hrest
      omega

theorem length_atom_lt {c c' : Cursor} {a : Atom} (h : atom c = .ok (a, c')) :
    c'.ahead.length < c.ahead.length := by
  simp only [atom, bind, Except.bind] at h
  cases hword : identifier c with
  | error e => simp [hword] at h
  | ok found =>
    obtain ⟨word, after⟩ := found
    have h₁ := length_identifier_lt hword
    simp only [hword] at h
    split at h
    · simp only [Except.ok.injEq, Prod.mk.injEq] at h
      obtain ⟨-, rfl⟩ := h
      exact h₁
    · next opened hopen =>
      have h₂ := Cursor.length_eat?_le hopen
      split at h
      · next closed hclose =>
        simp only [Except.ok.injEq, Prod.mk.injEq] at h
        obtain ⟨-, rfl⟩ := h
        have h₃ := Cursor.length_eat?_le hclose
        omega
      · cases hterms : terms opened with
        | error e => simp [hterms] at h
        | ok found =>
          obtain ⟨ts, after'⟩ := found
          simp only [hterms, Except.ok.injEq, Prod.mk.injEq] at h
          obtain ⟨-, rfl⟩ := h
          have h₃ := length_terms_lt hterms
          omega

theorem length_literal_lt {c c' : Cursor} {l : Literal} (h : literal c = .ok (l, c')) :
    c'.ahead.length < c.ahead.length := by
  have step {c₀ : Cursor} {f : Atom → Literal} (hle : c₀.ahead.length ≤ c.ahead.length)
      (h : ((atom c₀).map fun (a, c) => (f a, c)) = .ok (l, c')) :
      c'.ahead.length < c.ahead.length := by
    cases hatom : atom c₀ with
    | error e => simp [hatom, Except.map] at h
    | ok found =>
      obtain ⟨a, after⟩ := found
      simp only [hatom, Except.map, Except.ok.injEq, Prod.mk.injEq] at h
      obtain ⟨-, rfl⟩ := h
      have := length_atom_lt hatom
      omega
  simp only [literal] at h
  split at h
  · next hneg => exact step (Cursor.length_eat?_le hneg) h
  · exact step (Nat.le_refl _) h

/-! ### Rules -/

/-- Literals separated by commas, at least one. -/
def literals (c : Cursor) : Parsed (List Literal) :=
  match _hl : literal c with
  | .error e => .error e
  | .ok (l, after) =>
    match _hc : after.eat? "," with
    | none => .ok ([l], after)
    | some next => (literals next).map fun (ls, c) => (l :: ls, c)
termination_by c.ahead.length
decreasing_by
  have h₁ := length_literal_lt _hl
  have h₂ := Cursor.length_eat?_le _hc
  omega

/-- A rule with its final point. -/
def rule (c : Cursor) : Except SyntaxError (Rule × Cursor) := do
  let (head, c) ← atom c
  match c.eat? ":-" with
  | some c =>
    let (body, c) ← literals c
    let c ← expect "." c
    .ok (⟨head, body⟩, c)
  | none =>
    let c ← expect "." c
    .ok (⟨head, []⟩, c)

theorem length_expect_le {token : String} {c c' : Cursor} (h : expect token c = .ok c') :
    c'.ahead.length ≤ c.ahead.length := by
  simp only [expect] at h
  split at h
  · next heat =>
    obtain rfl := Except.ok.inj h
    exact Cursor.length_eat?_le heat
  · simp at h

theorem length_literals_lt {c c' : Cursor} {ls : List Literal}
    (h : literals c = .ok (ls, c')) : c'.ahead.length < c.ahead.length := by
  fun_induction literals c generalizing ls with
  | case1 => simp at h
  | case2 c l after hl hcomma =>
    simp only [Except.ok.injEq, Prod.mk.injEq] at h
    obtain ⟨-, rfl⟩ := h
    exact length_literal_lt hl
  | case3 c l after hl next hcomma ih =>
    have h₁ := length_literal_lt hl
    have h₂ := Cursor.length_eat?_le hcomma
    cases hrest : literals next with
    | error e => simp [hrest, Except.map] at h
    | ok found =>
      obtain ⟨rest, after'⟩ := found
      simp only [hrest, Except.map, Except.ok.injEq, Prod.mk.injEq] at h
      obtain ⟨-, rfl⟩ := h
      have := ih hrest
      omega

theorem length_rule_lt {c c' : Cursor} {r : Rule} (h : rule c = .ok (r, c')) :
    c'.ahead.length < c.ahead.length := by
  simp only [rule, bind, Except.bind] at h
  cases hhead : atom c with
  | error e => simp [hhead] at h
  | ok found =>
    obtain ⟨head, after⟩ := found
    have h₁ := length_atom_lt hhead
    simp only [hhead] at h
    split at h
    · next opened hopen =>
      have h₂ := Cursor.length_eat?_le hopen
      cases hbody : literals opened with
      | error e => simp [hbody] at h
      | ok found =>
        obtain ⟨body, after'⟩ := found
        have h₃ := length_literals_lt hbody
        cases hpoint : expect "." after' with
        | error e => simp [hbody, hpoint] at h
        | ok c'' =>
          simp only [hbody, hpoint, Except.ok.injEq, Prod.mk.injEq] at h
          obtain ⟨-, rfl⟩ := h
          have h₄ := length_expect_le hpoint
          omega
    · cases hpoint : expect "." after with
      | error e => simp [hpoint] at h
      | ok c'' =>
        simp only [hpoint, Except.ok.injEq, Prod.mk.injEq] at h
        obtain ⟨-, rfl⟩ := h
        have h₂ := length_expect_le hpoint
        omega

/-- Rules up to the end of the text. -/
def rules (c : Cursor) : Except SyntaxError (List Rule) :=
  if c.atEnd then .ok []
  else
    match _hr : rule c with
    | .error e => .error e
    | .ok (r, c) => (rules c).map (r :: ·)
termination_by c.ahead.length
decreasing_by exact length_rule_lt _hr

/-! ### Whole texts -/

/-- The value, if nothing but blanks follows it. -/
def finish {α : Type} (a : α) (c : Cursor) : Except SyntaxError α :=
  if c.atEnd then .ok a else .error (.trailingInput c.skip.offset)

/-- The rule that a text is. -/
def parseRule (text : String) : Except SyntaxError Rule := do
  let (r, c) ← rule (.start text)
  finish r c

/-- The rules that a text is. -/
def parseProgram (text : String) : Except SyntaxError (List Rule) :=
  rules (.start text)

/-- The literals that a text is. -/
def parseQuery (text : String) : Except SyntaxError (List Literal) := do
  let (ls, c) ← literals (.start text)
  finish ls ((c.eat? ".").getD c)

end CodeGraph.Rules
