import CodeGraph.Bytes
import CodeGraph.Transport

/-!
# Messages on a stream

On a stream a message is its length as a big-endian word of four octets, followed by its
octets.  A reader gets the octets of the stream in pieces, in whatever sizes the stream
hands them out, and may be interrupted in between; `Framing.Source.read` puts the messages
together again.  `Framing.decode` says what they are without regard to pieces.
-/

namespace CodeGraph.Framing

/-- Why a stream ends otherwise than between two messages. -/
inductive StreamError where
  | unexpectedEnd
  | tooLarge (length : Nat)
deriving DecidableEq, Repr

/-- The text of an error that has one. -/
def StreamError.message? : StreamError → Option String
  | unexpectedEnd => none
  | tooLarge length => some s!"Message too large: {length} bytes (max {maxMessageSize})"

/-- The number of octets of a length. -/
def lengthWidth : Nat := 4

/-! ### Writing -/

/-- The text for a message that is too large to be sent. -/
def refusal (length : Nat) : String :=
  s!"Refusing to send {length} bytes (max {maxMessageSize})"

/-- Whether a message of some length may be sent. -/
def fits (length : Nat) : Bool :=
  length ≤ maxMessageSize

/-- A message as it is written to a stream; `none` when it is too large. -/
def frame? (message : Bytes) : Option Bytes :=
  if fits message.length then
    some (Bytes.ofNatBE lengthWidth message.length ++ message)
  else none

/-! ### The messages of a whole stream -/

/-- The next message of a stream and what follows it; nothing at its end. -/
def decode (stream : Bytes) : Except StreamError (Option (Bytes × Bytes)) :=
  if stream = [] then .ok none
  else
    match Bytes.take? lengthWidth stream with
    | none => .error .unexpectedEnd
    | some (field, rest) =>
      let length := Bytes.toNatBE field
      if fits length then
        match Bytes.take? length rest with
        | some found => .ok (some found)
        | none => .error .unexpectedEnd
      else .error (.tooLarge length)

/-! ### Streams in pieces -/

/-- How a stream answers one wish for octets: after some interruptions it hands out at
most so many. -/
structure Turn where
  interruptions : Nat
  limit : Nat
  limit_pos : 0 < limit

/-- A stream of which some octets have been taken. -/
structure Source where
  ahead : Bytes
  turn : Nat
  schedule : Nat → Turn

namespace Source

/-- The whole stream, none of it taken. -/
def start (stream : Bytes) (schedule : Nat → Turn) : Source := ⟨stream, 0, schedule⟩

/-- Takes at most `wanted` octets, none being handed out only at the end.  Interruptions
are waited for. -/
def take (source : Source) (wanted : Nat) : Bytes × Source :=
  waitFor (source.schedule source.turn).interruptions
where
  /-- Asks again after each interruption. -/
  waitFor : Nat → Bytes × Source
    | 0 =>
      let n := min wanted (source.schedule source.turn).limit
      (source.ahead.take n, { source with ahead := source.ahead.drop n, turn := source.turn + 1 })
    | interruptions + 1 => waitFor interruptions

/-- Waiting changes nothing. -/
theorem waitFor_eq (source : Source) (wanted n : Nat) :
    take.waitFor source wanted n = take.waitFor source wanted 0 := by
  induction n with
  | zero => rfl
  | succ n ih => exact ih

/-- What is taken is the beginning of what was ahead. -/
theorem take_eq (source : Source) (wanted : Nat) :
    ∃ n, n = min wanted (source.schedule source.turn).limit ∧
      source.take wanted = (source.ahead.take n,
        { source with ahead := source.ahead.drop n, turn := source.turn + 1 }) :=
  ⟨_, rfl, waitFor_eq source wanted _⟩

/-- Takes exactly so many octets, in as many pieces as it takes; `none` when the stream
ends before. -/
def takeExactly (source : Source) (wanted : Nat) : Option Bytes × Source :=
  if _h : wanted = 0 then (some [], source)
  else
    match _ht : source.take wanted with
    | ([], source) => (none, source)
    | (b :: bs, source) =>
      let (rest, source) := takeExactly source (wanted - (b :: bs).length)
      (rest.map ((b :: bs) ++ ·), source)
termination_by wanted
decreasing_by
  simp only [List.length_cons]
  omega

/-- Reads the next message; nothing at the end of the stream. -/
def read (source : Source) : Except StreamError (Option Bytes) × Source :=
  match source.take 1 with
  | ([], source) => (.ok none, source)
  | (first :: _, source) =>
    match source.takeExactly (lengthWidth - 1) with
    | (none, source) => (.error .unexpectedEnd, source)
    | (some rest, source) =>
      let length := Bytes.toNatBE (first :: rest)
      if fits length then
        match source.takeExactly length with
        | (none, source) => (.error .unexpectedEnd, source)
        | (some message, source) => (.ok (some message), source)
      else (.error (.tooLarge length), source)

end Source

/-! ### Schedules -/

/-- The turns of a sequence of answers, of which 0 is an interruption, and how many
interruptions are left at its end. -/
def turnsOf (interruptions : Nat) : List Nat → List Turn × Nat
  | [] => ([], interruptions)
  | 0 :: sizes => turnsOf (interruptions + 1) sizes
  | (size + 1) :: sizes =>
    let (turns, left) := turnsOf 0 sizes
    (⟨interruptions, size + 1, Nat.succ_pos size⟩ :: turns, left)

/-- The schedule that repeats a sequence of answers, of which 0 is an interruption.  A
sequence without any other answer sets no limit to a stream of the given length. -/
def scheduleOf (streamLength : Nat) (sizes : List Nat) (turn : Nat) : Turn :=
  let unlimited : Turn := ⟨0, streamLength + 1, Nat.succ_pos streamLength⟩
  let (first, left) := turnsOf 0 sizes
  let (later, _) := turnsOf left sizes
  if turn < first.length then first.getD turn unlimited
  else later.getD (turn % first.length) unlimited

end CodeGraph.Framing
