import CodeGraph.Config
import CodeGraph.Disk

/-!
# Listening

Before a server accepts connections it takes the place of its socket on the disk and, if
it is asked to, a port.  It gets both or neither.  The file of a socket is an empty file.
-/

namespace CodeGraph

/-- What a server listens to. -/
structure Listeners where
  socket : Path
  port : Option Nat

/-- Why a server cannot listen. -/
inductive ListenError where
  | config (error : ConfigError)
  | portTaken (port : Nat)
  | socket (path : Path)

/-- The text of an error. -/
def ListenError.message : ListenError → String
  | config error => error.message
  | portTaken port => s!"Failed to bind WebSocket listener on 127.0.0.1:{port}. Is the port already in use? Pick another with --ws-port"
  | socket path => s!"Failed to bind Unix socket {path.text}. Check the directory exists and is writable, or pass --socket"

namespace Listeners

/-- The longest path that a socket can have, in octets. -/
def maxSocketPath : Nat := 107

/-- Takes the place of a socket.  A file that is there already is removed first; it is gone
even if the path is too long for a socket. -/
def bindSocket (disk : Disk) (path : Path) : Except ListenError Unit × Disk :=
  let disk := (disk.removeFile? path).getD disk
  if path.text.utf8ByteSize ≤ maxSocketPath then
    match disk.write? path [] with
    | some disk => (.ok (), disk)
    | none => (.error (.socket path), disk)
  else (.error (.socket path), disk)

/-- Takes a port, given which ports are taken.  Clients have to know the port, so it must
not be 0. -/
def bindPort (taken : Nat → Bool) : Option Nat → Except ListenError Unit
  | none => .ok ()
  | some 0 => .error (.config .zeroPort)
  | some port => if taken port then .error (.portTaken port) else .ok ()

/-- Takes the place of the socket and the port; without the port, the socket is released
again. -/
def bind (disk : Disk) (taken : Nat → Bool) (socket : Path) (port : Option Nat) :
    Except ListenError Listeners × Disk :=
  match bindSocket disk socket with
  | (.error error, disk) => (.error error, disk)
  | (.ok (), disk) =>
    match bindPort taken port with
    | .ok () => (.ok ⟨socket, port⟩, disk)
    | .error error => (.error error, (disk.removeFile? socket).getD disk)

end Listeners

end CodeGraph
