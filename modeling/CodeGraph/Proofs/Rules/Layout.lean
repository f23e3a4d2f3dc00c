import Mathlib
import CodeGraph.Rules.Parser

/-!
# Tokens in a text

Rules are written as tokens.  What stands between tokens means nothing: blanks, and comments with
the ends of their lines (`Trivia`).  A text shows some tokens if they stand in it in this order,
with any trivia before, between and behind them (`Shows`); `spaced` is one such text for every
gap.

A cursor that is before a token skips what stands before it (`Cursor.exists_skip_of_shows`), so it
can be moved over the token and over no token that begins differently (`Cursor.exists_eat?`,
`Cursor.eat?_eq_none`).
-/

namespace CodeGraph.Rules

/-! ### Trivia -/

/-- Blanks and comments, each comment with the end of its line. -/
inductive Trivia : List Char → Prop
  | nil : Trivia []
  | blank {c : Char} {gap : List Char} (hc : Text.isBlank c = true) (h : Trivia gap) :
      Trivia (c :: gap)
  | comment {text gap : List Char} (htext : '\n' ∉ text) (h : Trivia gap) :
      Trivia ('%' :: (text ++ '\n' :: gap))

/-- A text consists of some tokens with trivia before, between and behind them. -/
inductive Shows : List String → List Char → Prop
  | nil {gap : List Char} (hgap : Trivia gap) : Shows [] gap
  | cons {gap text : List Char} {token : String} {tokens : List String} (hgap : Trivia gap)
      (h : Shows tokens text) : Shows (token :: tokens) (gap ++ (token.toList ++ text))

/-- Tokens with the same gap before each of them and behind the last. -/
def spaced (gap : String) (tokens : List String) : String :=
  tokens.foldr (fun token text => gap ++ (token ++ text)) gap

lemma shows_spaced {gap : String} (hgap : Trivia gap.toList) (tokens : List String) :
    Shows tokens (spaced gap tokens).toList := by
  induction tokens with
  | nil => exact .nil hgap
  | cons token tokens ih =>
    have htext : (spaced gap (token :: tokens)).toList
        = gap.toList ++ (token.toList ++ (spaced gap tokens).toList) := by
      rw [spaced, List.foldr_cons, String.toList_append, String.toList_append]
      rfl
    rw [htext]
    exact .cons hgap ih

/-! ### Characters -/

/-- A character that is not skipped. -/
def IsSolid (c : Char) : Prop := Text.isBlank c = false ∧ c ≠ '%'

instance (c : Char) : Decidable (IsSolid c) := inferInstanceAs (Decidable (_ ∧ _))

/-- The blanks. -/
def blanks : List Char :=
  ['\t', '\n', '\x0b', '\x0c', '\x0d', ' ', '\u0085', '\u00a0', '\u1680', '\u2000', '\u2001',
    '\u2002', '\u2003', '\u2004', '\u2005', '\u2006', '\u2007', '\u2008', '\u2009', '\u200a',
    '\u2028', '\u2029', '\u202f', '\u205f', '\u3000']

lemma mem_blanks {c : Char} (h : Text.isBlank c = true) : c ∈ blanks := by
  have hcode : c.toNat ∈ blanks.map Char.toNat := by
    simp only [Text.isBlank, Bool.or_eq_true, Bool.and_eq_true, decide_eq_true_eq,
      beq_iff_eq] at h
    simp only [blanks, List.map_cons, List.map_nil, List.mem_cons, Char.reduceToNat,
      List.not_mem_nil, or_false]
    omega
  obtain ⟨b, hb, heq⟩ := List.mem_map.1 hcode
  rwa [← Char.toNat_inj.1 heq]

/-- No blank occurs in an identifier. -/
lemma isIdentifierChar_of_isBlank {c : Char} (h : Text.isBlank c = true) :
    isIdentifierChar c = false := by
  have hall : blanks.all (fun b => !isIdentifierChar b) = true := by decide +kernel
  simpa using List.all_eq_true.1 hall c (mem_blanks h)

lemma isSolid_of_isIdentifierChar {c : Char} (h : isIdentifierChar c = true) : IsSolid c := by
  refine ⟨?_, ?_⟩
  · cases hblank : Text.isBlank c with
    | false => rfl
    | true => simp [isIdentifierChar_of_isBlank hblank] at h
  · rintro rfl
    revert h
    decide

/-- A token has a first character. -/
def Begins (token : String) (first : Char) : Prop := ∃ cs, token.toList = first :: cs

/-! ### Skipping -/

namespace Cursor

lemma octets_cons (c : Char) (cs : List Char) : octets (c :: cs) = Utf8.width c + octets cs :=
  rfl

/-- What is passed ends where the property does. -/
lemma takeWhile_append_of_stop {p : Char → Bool} {word rest : List Char}
    (hword : ∀ c ∈ word, p c = true) (hstop : ∀ c ∈ rest.head?, p c = false) :
    (word ++ rest).takeWhile p = word := by
  rw [List.takeWhile_append_of_pos hword]
  cases rest with
  | nil => simp
  | cons c rest => simp [hstop c rfl]

lemma pass_append {p : Char → Bool} {word rest : List Char} (hword : ∀ c ∈ word, p c = true)
    (hstop : ∀ c ∈ rest.head?, p c = false) (offset : Nat) :
    (⟨offset, word ++ rest⟩ : Cursor).pass p = ⟨offset + octets word, rest⟩ := by
  rw [pass, takeWhile_append_of_stop hword hstop, List.dropWhile_append_of_pos hword]
  cases rest with
  | nil => rfl
  | cons c rest => simp [hstop c rfl]

/-- A blank can be passed by itself. -/
lemma pass_cons {p : Char → Bool} {c : Char} (hc : p c = true) (offset : Nat) (cs : List Char) :
    (⟨offset, c :: cs⟩ : Cursor).pass p = (⟨offset + Utf8.width c, cs⟩ : Cursor).pass p := by
  simp only [pass, List.takeWhile_cons, hc, if_true, List.dropWhile_cons, octets_cons,
    Nat.add_assoc]

lemma pass_of_not {p : Char → Bool} {c : Char} (hc : p c = false) (offset : Nat)
    (cs : List Char) : (⟨offset, c :: cs⟩ : Cursor).pass p = ⟨offset, c :: cs⟩ := by
  simp [pass, hc, octets]

lemma skip_of_pass_eq {c c' : Cursor} (h : c.pass Text.isBlank = c'.pass Text.isBlank) :
    c.skip = c'.skip := by
  rw [skip, skip, h]

/-- What is solid is not skipped. -/
lemma skip_of_isSolid {first : Char} (hfirst : IsSolid first) (offset : Nat) (cs : List Char) :
    (⟨offset, first :: cs⟩ : Cursor).skip = ⟨offset, first :: cs⟩ := by
  rw [skip, pass_of_not hfirst.1]
  split
  · next rest h => exact absurd (List.cons.inj h).1 hfirst.2
  · rfl

lemma skip_nil (offset : Nat) : (⟨offset, []⟩ : Cursor).skip = ⟨offset, []⟩ := by
  rw [skip]
  rfl

/-- A comment is skipped up to the end of its line. -/
lemma skip_comment {text : List Char} (htext : '\n' ∉ text) (offset : Nat) (rest : List Char) :
    ∃ offset', (⟨offset, '%' :: (text ++ '\n' :: rest)⟩ : Cursor).skip
      = (⟨offset', '\n' :: rest⟩ : Cursor).skip := by
  have hline : ∀ c ∈ text, (c != '\n') = true := by
    intro c hc
    rw [bne_iff_ne]
    rintro rfl
    exact htext hc
  refine ⟨offset + 1 + octets text, ?_⟩
  rw [skip, pass_of_not (by decide)]
  split
  · next rest' h =>
    obtain ⟨-, rfl⟩ := List.cons.inj h
    rw [pass_append hline (by simp)]
  · next hnot => exact absurd rfl (hnot _)

/-- Trivia are skipped. -/
lemma exists_skip_append {gap : List Char} (hgap : Trivia gap) (offset : Nat)
    (rest : List Char) :
    ∃ offset', (⟨offset, gap ++ rest⟩ : Cursor).skip = (⟨offset', rest⟩ : Cursor).skip := by
  induction hgap generalizing offset with
  | nil => exact ⟨offset, rfl⟩
  | @blank c gap hc _ ih =>
    obtain ⟨offset', heq⟩ := ih (offset + Utf8.width c)
    exact ⟨offset', (skip_of_pass_eq (pass_cons hc offset (gap ++ rest))).trans heq⟩
  | @comment text gap htext _ ih =>
    obtain ⟨offset₁, hline⟩ := skip_comment htext offset (gap ++ rest)
    obtain ⟨offset₂, heq⟩ := ih (offset₁ + Utf8.width '\n')
    refine ⟨offset₂, ?_⟩
    rw [List.cons_append, List.append_assoc, List.cons_append, hline, ← heq]
    exact skip_of_pass_eq (pass_cons (by decide) offset₁ (gap ++ rest))

/-- Before a token, what stands before it is skipped. -/
lemma exists_skip_of_shows {c : Cursor} {token : String} {tokens : List String} {first : Char}
    (hfirst : Begins token first) (hsolid : IsSolid first)
    (h : Shows (token :: tokens) c.ahead) :
    ∃ offset rest, c.skip = ⟨offset, token.toList ++ rest⟩ ∧ Shows tokens rest := by
  obtain ⟨offset, ahead⟩ := c
  obtain ⟨cs, hcs⟩ := hfirst
  cases h with
  | @cons gap text _ _ hgap hrest =>
    obtain ⟨offset', heq⟩ := exists_skip_append hgap offset (token.toList ++ text)
    refine ⟨offset', text, heq.trans ?_, hrest⟩
    rw [hcs, List.cons_append, skip_of_isSolid hsolid]

/-- Behind the last token everything is skipped. -/
lemma skip_ahead_of_shows_nil {c : Cursor} (h : Shows [] c.ahead) : c.skip.ahead = [] := by
  obtain ⟨offset, ahead⟩ := c
  cases h with
  | nil hgap =>
    obtain ⟨offset', heq⟩ := exists_skip_append hgap offset []
    rw [List.append_nil] at heq
    rw [heq, skip_nil]

/-! ### Tokens -/

/-- The token that is next can be eaten. -/
lemma exists_eat? {c : Cursor} {token : String} {tokens : List String} {first : Char}
    (hfirst : Begins token first) (hsolid : IsSolid first)
    (h : Shows (token :: tokens) c.ahead) :
    ∃ c', c.eat? token = some c' ∧ Shows tokens c'.ahead := by
  obtain ⟨offset, rest, hskip, hrest⟩ := exists_skip_of_shows hfirst hsolid h
  refine ⟨⟨offset + octets token.toList, rest⟩, ?_, hrest⟩
  rw [eat?, hskip, if_pos (List.isPrefixOf_iff_prefix.2 (List.prefix_append _ _)),
    ← String.length_toList, List.drop_left]

/-- A token that begins differently from the one that is next cannot be eaten. -/
lemma eat?_eq_none {c : Cursor} {token next : String} {tokens : List String}
    {first first' : Char} (hfirst : Begins token first) (hfirst' : Begins next first')
    (hsolid : IsSolid first') (hne : first ≠ first') (h : Shows (next :: tokens) c.ahead) :
    c.eat? token = none := by
  obtain ⟨offset, rest, hskip, -⟩ := exists_skip_of_shows hfirst' hsolid h
  obtain ⟨cs, hcs⟩ := hfirst
  obtain ⟨cs', hcs'⟩ := hfirst'
  rw [eat?, hskip, if_neg]
  rw [List.isPrefixOf_iff_prefix, hcs, hcs', List.cons_append, List.cons_prefix_cons]
  exact fun h => hne h.1

/-- No token can be eaten behind the last one. -/
lemma eat?_eq_none_of_nil {c : Cursor} {token : String} {first : Char}
    (hfirst : Begins token first) (h : Shows [] c.ahead) : c.eat? token = none := by
  obtain ⟨cs, hcs⟩ := hfirst
  rw [eat?, skip_ahead_of_shows_nil h, if_neg]
  rw [List.isPrefixOf_iff_prefix, hcs]
  simp

lemma atEnd_of_shows_nil {c : Cursor} (h : Shows [] c.ahead) : c.atEnd = true := by
  rw [atEnd, skip_ahead_of_shows_nil h]
  rfl

lemma atEnd_of_shows_cons {c : Cursor} {token : String} {tokens : List String} {first : Char}
    (hfirst : Begins token first) (hsolid : IsSolid first)
    (h : Shows (token :: tokens) c.ahead) : c.atEnd = false := by
  obtain ⟨offset, rest, hskip, -⟩ := exists_skip_of_shows hfirst hsolid h
  obtain ⟨cs, hcs⟩ := hfirst
  rw [atEnd, hskip, hcs]
  rfl

end Cursor

end CodeGraph.Rules
