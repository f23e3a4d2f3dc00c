import CodeGraph.Text.Alphanumeric
import CodeGraph.Text.Blank
import CodeGraph.Text.Utf8

/-!
# Places in a text of rules

A cursor is a place in a text: the characters ahead, and how many octets of UTF-8 lie
behind.  Moving it over characters keeps both in step.  Blanks and comments, which run
from `%` to the end of the line, are skipped before every token.

* `Cursor.length_skip_le`, `Cursor.length_eat?_le` : moving never lengthens what is ahead.
-/

namespace CodeGraph.Rules

/-- A place in a text. -/
structure Cursor where
  offset : Nat
  ahead : List Char
deriving DecidableEq, Repr

namespace Cursor

/-- The number of octets of some characters. -/
def octets : List Char → Nat
  | [] => 0
  | c :: cs => Utf8.width c + octets cs

/-- The beginning of a text. -/
def start (text : String) : Cursor := ⟨0, text.toList⟩

/-- The place behind the characters ahead that all have a property. -/
def pass (p : Char → Bool) (c : Cursor) : Cursor :=
  ⟨c.offset + octets (c.ahead.takeWhile p), c.ahead.dropWhile p⟩

theorem length_pass_le (p : Char → Bool) (c : Cursor) :
    (c.pass p).ahead.length ≤ c.ahead.length :=
  (List.dropWhile_suffix p).length_le

/-- The place behind blanks and comments. -/
def skip (c : Cursor) : Cursor :=
  match _h : (c.pass Text.isBlank).ahead with
  | '%' :: rest => ((⟨(c.pass Text.isBlank).offset + 1, rest⟩ : Cursor).pass (· != '\n')).skip
  | _ => c.pass Text.isBlank
termination_by c.ahead.length
decreasing_by
  have h₁ := length_pass_le Text.isBlank c
  have h₂ := length_pass_le (· != '\n') ⟨(c.pass Text.isBlank).offset + 1, rest⟩
  rw [_h] at h₁
  simp only [List.length_cons] at h₁ h₂
  omega

theorem length_skip_le (c : Cursor) : c.skip.ahead.length ≤ c.ahead.length := by
  fun_induction skip c with
  | case1 c rest h ih =>
    have h₁ := length_pass_le Text.isBlank c
    have h₂ := length_pass_le (· != '\n') ⟨(c.pass Text.isBlank).offset + 1, rest⟩
    rw [h] at h₁
    simp only [List.length_cons] at h₁ h₂
    omega
  | case2 c => exact length_pass_le Text.isBlank c

/-- Whether nothing but blanks and comments is ahead. -/
def atEnd (c : Cursor) : Bool := c.skip.ahead.isEmpty

/-- The place behind a token, if it comes next. -/
def eat? (token : String) (c : Cursor) : Option Cursor :=
  if token.toList.isPrefixOf c.skip.ahead then
    some ⟨c.skip.offset + octets token.toList, c.skip.ahead.drop token.length⟩
  else none

theorem length_eat?_le {token : String} {c c' : Cursor} (h : c.eat? token = some c') :
    c'.ahead.length ≤ c.ahead.length := by
  simp only [eat?] at h
  split at h
  · obtain rfl := Option.some.inj h
    have := length_skip_le c
    simp only [List.length_drop]
    omega
  · simp at h

end Cursor

end CodeGraph.Rules
