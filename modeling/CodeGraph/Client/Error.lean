import CodeGraph.Json.Printer
import CodeGraph.Pack.Fault
import CodeGraph.Path
import CodeGraph.Text.Quoted

/-!
# What can go wrong for a client

A client has no reply because the connection failed, because what came back is not a reply
to its request, because the server refused the request, or because its own settings are
not what it needs.
-/

namespace CodeGraph.Client

/-- Why a message is not the reply that was waited for. -/
inductive ReplyError where
  | unreadable (fault : Pack.Fault)
  | notAMap (value : Json)
  | otherRequest (expected : String) (found : Option String)
  | noVersion

/-- The text of a name that may be absent. -/
def nameText : Option String → String
  | none => "None"
  | some name => "Some(" ++ Text.quoted name ++ ")"

/-- The text of an error. -/
def ReplyError.message : ReplyError → String
  | unreadable fault => fault.message
  | notAMap value => "expected a map, got " ++ value.text
  | otherRequest expected found => s!"expected reply to '{expected}', got " ++ nameText found
  | noVersion => "hello reply without protocolVersion"

/-- Why the settings of a client are refused. -/
inductive SettingsError where
  | unreadable (fault : Pack.Fault)
  | badUrl (url : String)
  | needsDatabase
  | needsUnix
  | needsWebSocket

/-- The text of an error. -/
def SettingsError.message : SettingsError → String
  | unreadable fault => fault.message
  | badUrl url => s!"WebSocket url must start with ws:// or wss://, got '{url}'"
  | needsDatabase => "autoStart needs dbPath so the server knows which database to open"
  | needsUnix => "UnixClient needs a unix transport config"
  | needsWebSocket => "WsClient needs a websocket transport config"

/-- Why a client has no reply. -/
inductive Error where
  | stream
  | webSocket
  | unavailable (socket : Path)
  | reply (error : ReplyError)
  | closed
  | settings (error : SettingsError)
  | server (message : String) (code : Option String)

/-- A code as it is shown before the text of an error. -/
def codeText : Option String → String
  | none => ""
  | some code => " [" ++ code ++ "]"

/-- The text of an error.  Of an error that the system reports, only the kind is told. -/
def Error.message : Error → String
  | stream => "I/O error"
  | webSocket => "WebSocket error"
  | unavailable socket => s!"Could not reach rfdb-server at {socket.text}"
  | reply error => "Malformed response: " ++ error.message
  | closed => "Connection closed before a response arrived"
  | settings error => "Invalid client configuration: " ++ error.message
  | server message code => "Server error" ++ codeText code ++ ": " ++ message

end CodeGraph.Client
