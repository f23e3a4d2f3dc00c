import CodeGraph.Config
import CodeGraph.Protocol.Response

/-!
# The command line

A command line names the default database and may set options.  Arguments are looked at
one after the other.  A value that stands in an argument of its own is kept until it is
certain that the argument is complete, and is examined only then; so an unknown argument
is reported before a bad value that comes right before it, but a bad value before
whatever is refused later.
-/

namespace CodeGraph.CommandLine

/-- Why a command line is not carried out. -/
inductive Refusal where
  | missingArgument
  | unknownArgument
  | missingValue
  | badNumber
  | repeated
  | excessValue
  | help
  | version
deriving DecidableEq, Repr

/-- How the program is called. -/
def usage : String :=
  "Usage: rfdb-server <db-path> [--socket <path>] [--ws-port <port>] [--data-dir <path>] [--metrics] [--ws-send-timeout-secs <seconds>]"

/-- What is told to whoever called the program. -/
def Refusal.message : Refusal → String
  | missingArgument => "error: the path of the default database is missing\n\n" ++ usage
  | unknownArgument => "error: there is an unexpected argument\n\n" ++ usage
  | missingValue => "error: an option or path has no value\n\n" ++ usage
  | badNumber => "error: the value of an option is not a number in its range\n\n" ++ usage
  | repeated => "error: an option is given more than once\n\n" ++ usage
  | excessValue => "error: an option has a value but takes none\n\n" ++ usage
  | help => usage
  | version => "rfdb-server " ++ serverVersion

/-- What takes a value. -/
inductive Setting where
  | database
  | socket
  | port
  | dataDirectory
  | sendTimeout
deriving DecidableEq, Repr

/-- What an option means. -/
inductive OptionKind where
  | setting (setting : Setting)
  | metrics
  | help
  | version
deriving DecidableEq, Repr

/-- The option with a long name. -/
def OptionKind.ofName? : String → Option OptionKind
  | "socket" => some (.setting .socket)
  | "ws-port" => some (.setting .port)
  | "data-dir" => some (.setting .dataDirectory)
  | "ws-send-timeout-secs" => some (.setting .sendTimeout)
  | "metrics" => some .metrics
  | "help" => some .help
  | "version" => some .version
  | _ => none

/-- The option with a short name. -/
def OptionKind.ofLetter? : Char → Option OptionKind
  | 'h' => some .help
  | 'V' => some .version
  | _ => none

/-! ### Values -/

/-- A number in decimal digits; leading zeros do no harm. -/
def digits? (cs : List Char) : Option Nat :=
  if cs.isEmpty || !cs.all Char.isDigit then none
  else some (cs.foldl (fun n c => 10 * n + (c.toNat - 48)) 0)

/-- A number that may have a plus sign. -/
def natural? (text : String) : Option Nat :=
  match text.toList with
  | '+' :: cs => digits? cs
  | cs => digits? cs

/-- A number that may have a sign; zero may have either. -/
def signedZero? (text : String) : Option Nat :=
  match text.toList with
  | '-' :: cs => (digits? cs).filter (· == 0)
  | _ => natural? text

/-- The settings made so far; a setting is made at most once. -/
structure Given where
  database : Option Path
  socket : Option Path
  port : Option Nat
  dataDirectory : Option Path
  sendTimeout : Option Nat
  metrics : Bool

/-- Nothing is set. -/
def Given.nothing : Given := ⟨none, none, none, none, none, false⟩

/-- A path; it must not be empty. -/
def readPath (text : String) : Except Refusal Path :=
  if text.isEmpty then .error .missingValue else .ok ⟨text⟩

/-- A number that fits into so many octets. -/
def readNumber (width : Nat) (number? : String → Option Nat) (text : String) :
    Except Refusal Nat :=
  match number? text with
  | some n => if n < Bytes.bound width then .ok n else .error .badNumber
  | none => .error .badNumber

/-- Refuses what has been set before. -/
def once {α : Type} (old : Option α) (new : Except Refusal α) : Except Refusal (Option α) :=
  if old.isSome then .error .repeated else new.map some

/-- The settings after one more. -/
def Given.set (g : Given) (setting : Setting) (text : String) : Except Refusal Given :=
  match setting with
  | .database => (once g.database (readPath text)).map fun v => { g with database := v }
  | .socket => (once g.socket (readPath text)).map fun v => { g with socket := v }
  | .port => (once g.port (readNumber 2 signedZero? text)).map fun v =>
      { g with port := v }
  | .dataDirectory => (once g.dataDirectory (readPath text)).map fun v =>
      { g with dataDirectory := v }
  | .sendTimeout => (once g.sendTimeout (readNumber 8 natural? text)).map fun v =>
      { g with sendTimeout := v }

/-! ### Arguments -/

/-- What is known after some arguments: the settings made, a setting whose value is still
to come or to be examined, whether the database was named, and whether all further
arguments are names. -/
structure Scan where
  given : Given
  pending : Option (Setting × Option String)
  named : Bool
  onlyNames : Bool

namespace Scan

/-- Before the first argument. -/
def start : Scan := ⟨.nothing, none, false, false⟩

/-- Examines the setting that is pending. -/
def settle (scan : Scan) : Except Refusal Scan :=
  match scan.pending with
  | none => .ok scan
  | some (_, none) => .error .missingValue
  | some (setting, some text) =>
    (scan.given.set setting text).map fun given => { scan with given := given, pending := none }

/-- After a name, of which there is only one, that of the database. -/
def name (scan : Scan) (text : String) : Except Refusal Scan :=
  if scan.named then .error .unknownArgument
  else scan.settle.map fun scan =>
    { scan with pending := some (.database, some text), named := true }

/-- After an argument that may be the value of the setting before it. -/
def value (scan : Scan) (text : String) : Except Refusal Scan :=
  match scan.pending with
  | some (setting, none) => .ok { scan with pending := some (setting, some text) }
  | _ => scan.name text

/-- After an option without a value attached to it. -/
def bare (scan : Scan) (kind : OptionKind) : Except Refusal Scan :=
  scan.settle.bind fun scan =>
    match kind with
    | .setting setting => .ok { scan with pending := some (setting, none) }
    | .metrics =>
      if scan.given.metrics then .error .repeated
      else .ok { scan with given := { scan.given with metrics := true } }
    | .help => .error .help
    | .version => .error .version

/-- After an option with a value attached to it. -/
def attached (scan : Scan) (kind : OptionKind) (text : String) : Except Refusal Scan :=
  match kind with
  | .setting setting => scan.settle.bind fun scan =>
      (scan.given.set setting text).map fun given => { scan with given := given }
  | _ => .error .excessValue

/-- After a long option, its dashes left out. -/
def long (scan : Scan) (cs : List Char) : Except Refusal Scan :=
  match OptionKind.ofName? (String.ofList (cs.takeWhile (· != '='))) with
  | none => .error .unknownArgument
  | some kind =>
    match cs.dropWhile (· != '=') with
    | [] => scan.bare kind
    | _ :: text => scan.attached kind (String.ofList text)

/-- After one more argument. -/
def next (scan : Scan) (argument : String) : Except Refusal Scan :=
  if scan.onlyNames then scan.name argument
  else
    match argument.toList with
    | ['-', '-'] => .ok { scan with onlyNames := true }
    | '-' :: '-' :: cs => scan.long cs
    | '-' :: c :: _ =>
      match OptionKind.ofLetter? c with
      | some kind => scan.bare kind
      | none => .error .unknownArgument
    | _ => scan.value argument

/-- The arguments that were given. -/
def finish (scan : Scan) : Except Refusal Arguments :=
  scan.settle.bind fun scan =>
    let g := scan.given
    match g.database with
    | none => .error .missingArgument
    | some database => .ok {
        database := database
        socket := g.socket.getD defaultSocket
        port := g.port
        dataDirectory := g.dataDirectory
        metrics := g.metrics
        sendTimeout := g.sendTimeout.getD defaultSendTimeout }

end Scan

/-- The arguments of a command line, the name of the program left out. -/
def parse (arguments : List String) : Except Refusal Arguments := do
  let scan ← arguments.foldlM Scan.next .start
  scan.finish

end CodeGraph.CommandLine
