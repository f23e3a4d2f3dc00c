import CodeGraph.Client.Error
import CodeGraph.Config
import CodeGraph.Json.Reader
import CodeGraph.Pack.Fields
import CodeGraph.Pack.Json
import CodeGraph.Transport

/-!
# Settings of a client

The settings of a client are a JSON object whose member `transport` tells what the other
members mean.  The object is read from front to back: the transport is examined where it
stands, and everything else is kept until the end of the object.  An array whose first
item is the transport may stand for the object.
-/

namespace CodeGraph.Client

open Pack

/-- How a client reaches its server. -/
inductive Settings where
  | unix (socket : Path) (autoStart : Bool) (serverBinary : Option Path) (database : Option Path)
  | webSocket (url : String)

namespace Settings

/-- The settings of a client that is told nothing but to use the local socket. -/
def usual : Settings := .unix defaultSocket false none none

/-- Whether two optional paths agree. -/
def pathsAgree : Option Path → Option Path → Bool
  | some a, some b => a.agrees b
  | none, none => true
  | _, _ => false

/-- Whether settings are the same, paths being compared by their names. -/
def agrees : Settings → Settings → Bool
  | .unix socket start binary database, .unix socket' start' binary' database' =>
    socket.agrees socket' && start == start' && pathsAgree binary binary' &&
      pathsAgree database database'
  | .webSocket url, .webSocket url' => url == url'
  | _, _ => false

/-! ### Members -/

/-- The key of the transport. -/
def transportKey : String := "transport"

/-- A path. -/
def asPath (item : Item) : Except Fault Path := item.asText.map Path.mk

/-- How the settings for a transport are read. -/
def fields : Transport → Fields Settings
  | .unix => Settings.unix <$> .optional "socketPath" asPath defaultSocket [] <*>
      .optional "autoStart" Item.asBool false [] <*>
      .optional "serverBinary" (Item.asOption asPath) none [] <*>
      .optional "dbPath" (Item.asOption asPath) none []
  | .webSocket => Settings.webSocket <$> .required "url" Item.asText []

/-- What stands beside the transport. -/
inductive Content where
  | members (members : List (String × Json))
  | items (items : List Json)

/-- The item of a value. -/
def itemOf (value : Json) : Item := value.toItem .widest

/-- The settings for a transport, given what stands beside it. -/
def ofContent (transport : Transport) : Content → Except Fault Settings
  | .members members => (fields transport).ofEntries
      (members.map fun (key, value) => (.str key, itemOf value))
  | .items items => (fields transport).ofElements (items.map itemOf)

/-! ### Text -/

/-- The transport, where a value is expected. -/
def readTransport (limit : Nat) (cs : List Char) : Except Fault (Transport × List Char) :=
  match cs with
  | '[' :: _ | '{' :: _ => .error .invalidType
  | cs => do
    let (value, cs) ← Json.orMalformed (Json.readValue limit 0 cs)
    match value with
    | .str name =>
      match Transport.ofName? name with
      | some transport => pure (transport, cs)
      | none => .error (.unknownVariant name)
    | _ => .error .invalidType

/-- The value of a member or item. -/
def readInner (limit : Nat) (cs : List Char) : Except Fault (Json × List Char) :=
  Json.orMalformed (Json.readValue limit (Json.maxDepth - 1) cs)

/-- A colon with blanks around it. -/
def readColon (cs : List Char) : Except Fault (List Char) :=
  (Json.orMalformed (Json.expect? [':'] (Json.skipBlanks cs))).map Json.skipBlanks

/-- What was found in an object: the transport, and the other members. -/
structure Found where
  transport : Option Transport
  others : List (String × Json)

/-- The member at the front, added to what was found. -/
def readMember (bound : Nat) (found : Found) (cs : List Char) :
    Except Fault (Found × List Char) := do
  let cs ← Json.orMalformed (Json.expect? ['"'] (Json.skipBlanks cs))
  let (key, cs) ← Json.orMalformed (Json.readString bound cs)
  if key = transportKey then
    if found.transport.isSome then .error (.duplicateField transportKey)
    else
      let cs ← readColon cs
      let (transport, cs) ← readTransport bound cs
      pure ({ found with transport := some transport }, cs)
  else
    let cs ← readColon cs
    let (value, cs) ← readInner bound cs
    pure ({ found with others := found.others ++ [(key, value)] }, cs)

/-- The members of an object where at least one is expected, up to the closing brace.
The limit bounds the number of members. -/
def readMembers (bound : Nat) (found : Found) :
    (limit : Nat) → List Char → Except Fault (Found × List Char)
  | 0, _ => .error .malformed
  | limit + 1, cs => do
    let (found, cs) ← readMember bound found cs
    match Json.skipBlanks cs with
    | '}' :: cs => pure (found, cs)
    | ',' :: cs => readMembers bound found limit cs
    | _ => .error .malformed

/-- The further items of an array, up to the closing bracket. -/
def readItems (bound : Nat) (cs : List Char) : Except Fault (List Json × List Char) :=
  match Json.skipBlanks cs with
  | ']' :: cs => pure ([], cs)
  | ',' :: cs => Json.orMalformed
      (Json.readItems (Json.readValue bound (Json.maxDepth - 1)) bound cs)
  | _ => .error .malformed

/-- An object after its opening brace. -/
def readObject (bound : Nat) (cs : List Char) : Except Fault (Settings × List Char) := do
  let (found, cs) ← match Json.skipBlanks cs with
    | '}' :: cs => pure (⟨none, []⟩, cs)
    | cs => readMembers bound ⟨none, []⟩ bound cs
  match found.transport with
  | none => .error (.missingField transportKey)
  | some transport =>
    let settings ← ofContent transport (.members found.others)
    pure (settings, cs)

/-- An array after its opening bracket. -/
def readArray (bound : Nat) (cs : List Char) : Except Fault (Settings × List Char) :=
  match Json.skipBlanks cs with
  | ']' :: _ => .error (.missingField transportKey)
  | cs => do
    let (transport, cs) ← readTransport bound cs
    let (items, cs) ← readItems bound cs
    let settings ← ofContent transport (.items items)
    pure (settings, cs)

/-- The settings at the front of a text. -/
def readSettings (bound : Nat) (cs : List Char) : Except Fault (Settings × List Char) :=
  match cs with
  | '{' :: cs => readObject bound cs
  | '[' :: cs => readArray bound cs
  | cs => do
    let _ ← Json.orMalformed (Json.readValue bound 0 cs)
    .error .invalidType

/-- The settings that a text is. -/
def parse (text : String) : Except Fault Settings := do
  let cs := text.toList
  let (settings, rest) ← readSettings (cs.length + 1) (Json.skipBlanks cs)
  if (Json.skipBlanks rest).isEmpty then pure settings else .error .malformed

/-! ### Validity -/

/-- What is wrong with settings: only WebSocket addresses lead to a server, and a server
that is to be started must be told its database. -/
def fault? : Settings → Option SettingsError
  | .webSocket url =>
    if url.startsWith "ws://" || url.startsWith "wss://" then none else some (.badUrl url)
  | .unix _ true _ none => some .needsDatabase
  | .unix .. => none

/-- The settings, unless something is wrong with them. -/
def checked (settings : Settings) : Except Error Settings :=
  match settings.fault? with
  | some error => .error (.settings error)
  | none => .ok settings

/-- The valid settings that a text is. -/
def ofText (text : String) : Except Error Settings :=
  match parse text with
  | .ok settings => settings.checked
  | .error fault => .error (.settings (.unreadable fault))

/-! ### Writing -/

/-- A path in JSON. -/
def pathJson (path : Path) : Json := .str path.text

/-- A member that is there only if it has a value. -/
def memberIfSome (key : String) (path : Option Path) : List (String × Json) :=
  (path.map fun path => (key, pathJson path)).toList

/-- Settings in JSON. -/
def toJson : Settings → Json
  | .unix socket autoStart serverBinary database => .object
      ([(transportKey, .str Transport.unix.text), ("socketPath", pathJson socket),
        ("autoStart", .bool autoStart)] ++ memberIfSome "serverBinary" serverBinary ++
        memberIfSome "dbPath" database)
  | .webSocket url => .object [(transportKey, .str Transport.webSocket.text), ("url", .str url)]

end Settings

end CodeGraph.Client
