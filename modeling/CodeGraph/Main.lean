import CodeGraph.CommandLine
import CodeGraph.Server.Handler

/-!
# The program

The program reads its command line and serves one client, who sends messages on the
standard input and gets replies on the standard output, framed as on a local socket.  The
disk is a fresh one in memory.
-/

namespace CodeGraph.Program

/-- A server with its default database, or why there is none. -/
def start (config : Config) : Except Failure Server :=
  let catalog := Catalog.empty config.dataDirectory (.withDirectory config.dataDirectory)
  match catalog.createDefault config.database with
  | (.ok (), catalog) => .ok ⟨catalog, .start config.metrics, none, 1⟩
  | (.error failure, _) => .error failure

/-- What is read off the clock. -/
def readings : IO Readings := do
  let now ← IO.monoMsNow
  pure ⟨now, 0, 0, now, 0, now / 1000⟩

/-- Sends replies. -/
def send (output : IO.FS.Stream) (frames : List Bytes) : IO Unit := do
  for frame in frames do
    match Framing.frame? frame with
    | some framed => output.write ⟨framed.toArray⟩
    | none => pure ()
  output.flush

/-- Serves what is read, of which some octets may be waiting, until the input ends or
the client tells the server to stop. -/
partial def serve (input output : IO.FS.Stream) (waiting : Bytes) (s : Service) :
    IO Service := do
  match Framing.decode waiting with
  | .ok (some (message, rest)) =>
    let (outcome, s) := s.handle (← readings) message
    send output outcome.frames
    match outcome.action with
    | .proceed => serve input output rest s
    | .shutdown => pure (s.finish .unix)
  | .error (.tooLarge _) => pure (s.finish .unix)
  | .ok none | .error .unexpectedEnd =>
    let more ← input.read 65536
    if more.isEmpty then pure (s.finish .unix)
    else serve input output (waiting ++ more.toList) s

/-- Runs a server with given settings. -/
def run (config : Config) : IO UInt32 := do
  match start config with
  | .error failure =>
    IO.eprintln failure.message
    pure 1
  | .ok server =>
    let service := (Service.start server server.nextClient .unix).openDefault
    let _ ← serve (← IO.getStdin) (← IO.getStdout) [] service
    pure 0

end CodeGraph.Program

/-- Runs the program with the arguments of its command line. -/
def main (arguments : List String) : IO UInt32 := do
  match CodeGraph.CommandLine.parse arguments with
  | .error refusal =>
    IO.eprintln refusal.message
    pure (if refusal = .help ∨ refusal = .version then 0 else 2)
  | .ok arguments =>
    match CodeGraph.Config.ofArguments arguments with
    | .error error =>
      IO.eprintln error.message
      pure 1
    | .ok config => CodeGraph.Program.run config
