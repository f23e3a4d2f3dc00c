import CodeGraph.Json.Basic
import CodeGraph.Decimal.Reading

/-!
# Reading JSON text

`Json.parse?` reads one value with blanks around it and nothing else.  Arrays and objects
may nest `Json.maxDepth` deep.  Integers that fit 64 bits, signed if negative, stay
integers; every other number is read as a double, and one out of the range of doubles is
refused.

Every reader takes the characters ahead and returns what follows the part it read, so
that readers compose.
-/

namespace CodeGraph.Json

/-- How deep arrays and objects may nest. -/
def maxDepth : Nat := 127

/-- A reader of some leading part of a text. -/
abbrev Reader (α : Type) := List Char → Option (α × List Char)

/-- The blanks between tokens. -/
def isBlank (c : Char) : Bool :=
  c == ' ' || c == '\n' || c == '\t' || c == '\r'

/-- The text after leading blanks. -/
def skipBlanks (cs : List Char) : List Char :=
  cs.dropWhile isBlank

/-- The text after an expected beginning. -/
def expect? : (token : List Char) → List Char → Option (List Char)
  | [], cs => some cs
  | t :: ts, c :: cs => if t = c then expect? ts cs else none
  | _ :: _, [] => none

/-! ### Numbers -/

/-- The value of a decimal digit. -/
def digit? (c : Char) : Option Nat :=
  if '0' ≤ c ∧ c ≤ '9' then some (c.toNat - 48) else none

/-- The digits at the front of a text. -/
def readDigits (cs : List Char) : List Nat × List Char :=
  ((cs.takeWhile Char.isDigit).filterMap digit?, cs.dropWhile Char.isDigit)

/-- The digits of an integer part: at least one, and a zero only alone. -/
def readIntegerPart : Reader (List Nat) := fun cs =>
  match readDigits cs with
  | ([], _) => none
  | (0 :: _ :: _, _) => none
  | found => some found

/-- The digits after a point, if there is one; at least one digit must follow it. -/
def readFraction? : Reader (Option (List Nat))
  | '.' :: cs =>
    match readDigits cs with
    | ([], _) => none
    | (digits, rest) => some (some digits, rest)
  | cs => some (none, cs)

/-- The value of a string of digits. -/
def digitsValue (digits : List Nat) : Nat :=
  digits.foldl (fun n d => n * 10 + d) 0

/-- The exponent after `e` or `E`, if there is one; at least one digit must follow. -/
def readExponent? : Reader (Option Int) := fun cs =>
  let magnitude (sign : Int) (cs : List Char) : Option (Option Int × List Char) :=
    match readDigits cs with
    | ([], _) => none
    | (digits, rest) => some (some (sign * digitsValue digits), rest)
  match cs with
  | c :: rest =>
    if c = 'e' ∨ c = 'E' then
      match rest with
      | '+' :: more => magnitude 1 more
      | '-' :: more => magnitude (-1) more
      | _ => magnitude 1 rest
    else some (none, cs)
  | [] => some (none, [])

/-- The number with the given parts.  Digits beyond the 64 bits of a significand only
count as powers of ten before the point, and not at all after it. -/
def number? (negative : Bool) (integer : List Nat) (fraction : Option (List Nat))
    (exponent : Option Int) : Option Json :=
  let (significand, dropped) := Decimal.absorb 0 integer
  let float (significand : Nat) (power : Int) : Option Json :=
    (Decimal.toBinary64? negative significand power).map .float
  match fraction, exponent with
  | none, none =>
    if dropped ≠ [] then float significand dropped.length
    else if negative = false then some (.int significand)
    else if significand = 0 ∨ 0x8000000000000000 < significand then float significand 0
    else some (.int (-significand))
  | _, _ =>
    let digits := fraction.getD []
    let (significand, ignored) := Decimal.absorb significand digits
    float significand (dropped.length - (digits.length - ignored.length : Nat) + exponent.getD 0)

/-- A number. -/
def readNumber : Reader Json := fun cs => do
  let (negative, cs) := match cs with
    | '-' :: rest => (true, rest)
    | _ => (false, cs)
  let (integer, cs) ← readIntegerPart cs
  let (fraction, cs) ← readFraction? cs
  let (exponent, cs) ← readExponent? cs
  let value ← number? negative integer fraction exponent
  pure (value, cs)

/-! ### Strings -/

/-- The value of a hexadecimal digit. -/
def hexValue? (c : Char) : Option Nat :=
  if '0' ≤ c ∧ c ≤ '9' then some (c.toNat - 48)
  else if 'a' ≤ c ∧ c ≤ 'f' then some (c.toNat - 87)
  else if 'A' ≤ c ∧ c ≤ 'F' then some (c.toNat - 55)
  else none

/-- A unit of four hexadecimal digits. -/
def readUnit : Reader Nat
  | a :: b :: c :: d :: cs => do
    let digits ← [a, b, c, d].mapM hexValue?
    pure (digits.foldl (fun n d => n * 16 + d) 0, cs)
  | _ => none

/-- The character after `\u`: a unit outside the surrogates, or a high surrogate followed
by an escaped low one. -/
def readEscapedUnit : Reader Char := fun cs => do
  let (high, cs) ← readUnit cs
  if 0xD800 ≤ high ∧ high < 0xDC00 then
    let cs ← expect? ['\\', 'u'] cs
    let (low, cs) ← readUnit cs
    if 0xDC00 ≤ low ∧ low < 0xE000 then
      pure (Char.ofNat (0x10000 + (high - 0xD800) * 0x400 + (low - 0xDC00)), cs)
    else none
  else if 0xDC00 ≤ high ∧ high < 0xE000 then none
  else pure (Char.ofNat high, cs)

/-- The character after a backslash. -/
def readEscape : Reader Char
  | '"' :: cs => some ('"', cs)
  | '\\' :: cs => some ('\\', cs)
  | '/' :: cs => some ('/', cs)
  | 'b' :: cs => some ('\x08', cs)
  | 'f' :: cs => some ('\x0c', cs)
  | 'n' :: cs => some ('\n', cs)
  | 'r' :: cs => some ('\r', cs)
  | 't' :: cs => some ('\t', cs)
  | 'u' :: cs => readEscapedUnit cs
  | _ => none

/-- A character that stands for itself inside a string. -/
def isPlain (c : Char) : Bool :=
  c != '"' && c != '\\' && 0x20 ≤ c.toNat

/-- The characters of a string up to its closing quote, put after those already read.
The limit bounds the number of escapes. -/
def readStringBody (done : List Char) : (limit : Nat) → Reader (List Char)
  | 0, _ => none
  | limit + 1, cs =>
    let done := done ++ cs.takeWhile isPlain
    match cs.dropWhile isPlain with
    | '"' :: rest => some (done, rest)
    | '\\' :: rest =>
      match readEscape rest with
      | some (c, rest) => readStringBody (done ++ [c]) limit rest
      | none => none
    | _ => none

/-- A string after its opening quote. -/
def readString (limit : Nat) : Reader String := fun cs =>
  (readStringBody [] limit cs).map fun (chars, rest) => (String.ofList chars, rest)

/-! ### Values -/

/-- The items of an array after at least one item is expected, up to the closing bracket.
The limit bounds the number of items. -/
def readItems (item : Reader Json) : (limit : Nat) → Reader (List Json)
  | 0, _ => none
  | limit + 1, cs => do
    let (value, cs) ← item (skipBlanks cs)
    match skipBlanks cs with
    | ']' :: cs => pure ([value], cs)
    | ',' :: cs =>
      let (values, cs) ← readItems item limit cs
      pure (value :: values, cs)
    | _ => none

/-- One member of an object: a key, a colon and a value. -/
def readMember (limit : Nat) (item : Reader Json) : Reader (String × Json) := fun cs => do
  let cs ← expect? ['"'] (skipBlanks cs)
  let (key, cs) ← readString limit cs
  let cs ← expect? [':'] (skipBlanks cs)
  let (value, cs) ← item (skipBlanks cs)
  pure ((key, value), cs)

/-- The members of an object where at least one is expected, up to the closing brace.
The limit bounds the number of members. -/
def readMembers (bound : Nat) (item : Reader Json) :
    (limit : Nat) → Reader (List (String × Json))
  | 0, _ => none
  | limit + 1, cs => do
    let (member, cs) ← readMember bound item cs
    match skipBlanks cs with
    | '}' :: cs => pure ([member], cs)
    | ',' :: cs =>
      let (members, cs) ← readMembers bound item limit cs
      pure (member :: members, cs)
    | _ => none

/-- A value in which arrays and objects nest at most `depth` deep.  No string has more
escapes, and no array or object more parts, than `limit`, the length of the text. -/
def readValue (limit : Nat) : (depth : Nat) → Reader Json
  | _, 'n' :: cs => (expect? ['u', 'l', 'l'] cs).map (.null, ·)
  | _, 't' :: cs => (expect? ['r', 'u', 'e'] cs).map (.bool true, ·)
  | _, 'f' :: cs => (expect? ['a', 'l', 's', 'e'] cs).map (.bool false, ·)
  | _, '"' :: cs => (readString limit cs).map fun (s, rest) => (.str s, rest)
  | 0, '[' :: _ => none
  | 0, '{' :: _ => none
  | depth + 1, '[' :: cs =>
    match skipBlanks cs with
    | ']' :: rest => some (.arr [], rest)
    | _ => (readItems (readValue limit depth) limit cs).map fun (items, rest) => (.arr items, rest)
  | depth + 1, '{' :: cs =>
    match skipBlanks cs with
    | '}' :: rest => some (.obj [], rest)
    | _ => (readMembers limit (readValue limit depth) limit cs).map
        fun (members, rest) => (object members, rest)
  | _, cs => readNumber cs

/-- The value of a JSON text; `none` when the text is not one. -/
def parse? (text : String) : Option Json :=
  let cs := text.toList
  match readValue (cs.length + 1) maxDepth (skipBlanks cs) with
  | some (value, rest) => if (skipBlanks rest).isEmpty then some value else none
  | none => none

end CodeGraph.Json
