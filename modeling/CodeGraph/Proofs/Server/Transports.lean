import Mathlib
import CodeGraph.Proofs.Server.Streaming

/-!
# One server, two transports

Two clients that differ in nothing but their transport are served alike.  A session keeps its
transport, and no operation on it looks at the transport (`Session.negotiate_over`,
`Session.closeDatabase_over`, `Session.openDatabase_over`), so carrying out a request leaves the
same server and the same session, up to the transport (`Server.dispatch_over`).

Replies differ in two ways only (`SameReply`): the greeting lists `streaming` for the local
socket, and the nodes that a query selects may come there in parts.

* `Server.transports_alike` : any sequence of requests, step by step.
-/

namespace CodeGraph

/-! ### Exchanges -/

/-- The session of a client that is connected in another way. -/
def Session.over (s : Session) (transport : Transport) : Session :=
  { s with transport := transport }

/-- A request that was carried out, its reply, and the server and the session afterwards. -/
structure Exchange where
  request : Request
  reply : Reply
  server : Server
  session : Session

/-- Carries out requests one after the other. -/
def Server.exchanges (server : Server) (s : Session) : List (Readings × Request) → List Exchange
  | [] => []
  | (r, request) :: requests =>
    let (reply, server, s) := server.dispatch s r request
    ⟨request, reply, server, s⟩ :: server.exchanges s requests

lemma Server.exchanges_cons (server : Server) (s : Session) (r : Readings) (request : Request)
    (requests : List (Readings × Request)) :
    server.exchanges s ((r, request) :: requests)
      = ⟨request, (server.dispatch s r request).1, (server.dispatch s r request).2.1,
          (server.dispatch s r request).2.2⟩
        :: (server.dispatch s r request).2.1.exchanges (server.dispatch s r request).2.2 requests :=
  rfl

/-- How the reply to a request over the local socket compares with the one over WebSocket: it is
the same, but the greeting lists one more feature, and nodes may come in numbered parts, of which
the last one is marked. -/
inductive SameReply : Request → Reply → Reply → Prop
  | same {request : Request} {reply : Reply}
      (hgreeting : ∀ version clientId, request ≠ .hello version clientId)
      (hwhole : ∀ responses, reply ≠ .chunked responses) : SameReply request reply reply
  | greeting {requested : Option Nat} {clientId : Option String} {version : Nat}
      {features : List String} (hfeature : "streaming" ∉ features) :
      SameReply (.hello requested clientId) (.single (.hello version (features ++ ["streaming"])))
        (.single (.hello version features))
  | parts {query : Wire.Query} (parts : List (List Wire.Node)) :
      SameReply (.queryNodes query)
        (.chunked (parts.mapIdx fun i part => .nodesChunk part (i + 1 = parts.length) (.ofNat i)))
        (.single (.nodes parts.flatten))

/-- An exchange over the local socket and one over WebSocket that agree up to the transport. -/
structure Exchange.Mirrors (exchange other : Exchange) : Prop where
  request : other.request = exchange.request
  reply : SameReply exchange.request exchange.reply other.reply
  server : other.server = exchange.server
  session : ∃ s : Session, exchange.session = s.over .unix ∧ other.session = s.over .webSocket

/-! ### Sessions -/

namespace Session

variable (s : Session) (t : Transport)

@[simp] lemma over_current : (s.over t).current = s.current := rfl

@[simp] lemma over_batch : (s.over t).batch = s.batch := rfl

@[simp] lemma over_database? (c : Catalog) : (s.over t).database? c = s.database? c := rfl

lemma negotiate_over (requested : Option Nat) (clientName : Option String) :
    (s.over t).negotiate requested clientName = (s.negotiate requested clientName).over t := by
  unfold negotiate
  by_cases hdone : s.negotiated
  · have hdone' : (s.over t).negotiated := hdone
    rw [if_pos hdone, if_pos hdone']
  · have hdone' : ¬(s.over t).negotiated := hdone
    rw [if_neg hdone, if_neg hdone']
    rfl

lemma closeDatabase_over (c : Catalog) :
    (s.over t).closeDatabase c = ((s.closeDatabase c).1.over t, (s.closeDatabase c).2) := by
  unfold closeDatabase
  rw [over_current]
  cases s.current with
  | none => rfl
  | some handle => rfl

lemma openDatabase_over (c : Catalog) (handle : Handle) (mode : AccessMode) :
    (s.over t).openDatabase c handle mode
      = ((s.openDatabase c handle mode).1.over t, (s.openDatabase c handle mode).2) := by
  unfold openDatabase
  rw [over_current, closeDatabase_over]
  split
  · rfl
  · rfl

lemma beginBatch_over : Server.beginBatch (s.over t)
    = ((Server.beginBatch s).1, (Server.beginBatch s).2.over t) := by
  unfold Server.beginBatch beginBatch
  rw [over_batch]
  cases s.batch with
  | none => rfl
  | some name => rfl

lemma abortBatch_over : Server.abortBatch (s.over t)
    = ((Server.abortBatch s).1, (Server.abortBatch s).2.over t) := by
  unfold Server.abortBatch
  rw [over_batch]
  cases s.batch with
  | none => rfl
  | some name => rfl

lemma loadRules_over (source : String) : Server.loadRules (s.over t) source
    = ((Server.loadRules s source).1, (Server.loadRules s source).2.over t) := by
  unfold Server.loadRules
  rw [over_current]
  split
  · rfl
  · split
    · rfl
    · rfl

end Session

/-! ### Requests -/

namespace Server

open Session

variable (server : Server) (s : Session) (t : Transport) (r : Readings)

/-- Opening a database does not depend on the transport. -/
lemma openDatabase_over (name : String) (mode : AccessMode) :
    server.openDatabase (s.over t) name mode
      = ((server.openDatabase s name mode).1, (server.openDatabase s name mode).2.1,
        (server.openDatabase s name mode).2.2.over t) := by
  unfold openDatabase
  split
  · split
    · simp only [Session.openDatabase_over]
    · rfl
  · rfl

/-- Leaving a database does not depend on the transport. -/
lemma closeDatabase_over :
    server.closeDatabase (s.over t)
      = ((server.closeDatabase s).1, (server.closeDatabase s).2.1,
        (server.closeDatabase s).2.2.over t) := by
  simp only [closeDatabase, Session.closeDatabase_over, over_current]
  rfl

/-- Requests about sessions and databases do not depend on the transport, but for the greeting. -/
lemma manage_over {request : Request}
    (hgreeting : ∀ version clientId, request ≠ .hello version clientId) :
    server.manage (s.over t) r request
      = ((server.manage s r request).1, (server.manage s r request).2.1,
        (server.manage s r request).2.2.over t) := by
  cases request with
  | hello version clientId => exact absurd rfl (hgreeting version clientId)
  | openDatabase name mode => exact openDatabase_over server s t name (.ofName mode)
  | closeDatabase => exact closeDatabase_over server s t
  | beginBatch => simp only [manage, beginBatch_over]
  | abortBatch => simp only [manage, abortBatch_over]
  | datalogLoadRules source => simp only [manage, loadRules_over]
  | _ => rfl

/-- What happens after a change does not depend on the transport. -/
lemma afterChange_over (request : Request) (response : Response) :
    server.afterChange (s.over t) r request response
      = ((server.afterChange s r request response).1,
        (server.afterChange s r request response).2.over t) := by
  unfold afterChange
  split
  · rfl
  · split
    · rfl
    · rfl
    · rfl

/-- A request with a single reply does not depend on the transport, but for the greeting. -/
lemma respond_over {request : Request}
    (hgreeting : ∀ version clientId, request ≠ .hello version clientId) :
    server.respond (s.over t) r request
      = ((server.respond s r request).1, (server.respond s r request).2.1,
        (server.respond s r request).2.2.over t) := by
  have hrules : (s.over t).rules = s.rules := rfl
  have hask (question : Graph → Response) :
      server.ask (s.over t) question = server.ask s question :=
    rfl
  have hchange (change : Graph → Disk → Change) :
      server.change (s.over t) change = server.change s change := rfl
  unfold respond
  rw [hrules]
  split
  · rfl
  · simp only [hchange, afterChange_over]
  · exact manage_over server s t r hgreeting

/-- Carrying out a request that is neither a greeting nor a query for nodes does not depend on the
transport. -/
lemma dispatch_over {request : Request}
    (hgreeting : ∀ version clientId, request ≠ .hello version clientId)
    (hquery : ∀ query, request ≠ .queryNodes query) :
    server.dispatch (s.over t) r request
      = ((server.dispatch s r request).1, (server.dispatch s r request).2.1,
        (server.dispatch s r request).2.2.over t) := by
  unfold dispatch
  split
  · next query => exact absurd rfl (hquery query)
  · rfl
  · rw [respond_over server s t r hgreeting]

/-- Such a request has a reply that is not in parts. -/
lemma dispatch_ne_chunked {request : Request} (hquery : ∀ query, request ≠ .queryNodes query)
    (responses : List Response) : (server.dispatch s r request).1 ≠ .chunked responses := by
  unfold dispatch
  split
  · next query => exact absurd rfl (hquery query)
  · simp
  · simp

/-- A greeting is answered with the features for the transport. -/
lemma dispatch_hello (requested : Option Nat) (clientId : Option String) :
    server.dispatch (s.over t) r (.hello requested clientId)
      = (.single (.hello (s.negotiate requested clientId).version (features t)), server,
        (s.negotiate requested clientId).over t) := by
  have hmanage : server.dispatch (s.over t) r (.hello requested clientId)
      = (.single (.hello ((s.over t).negotiate requested clientId).version
          (features ((s.over t).negotiate requested clientId).transport)), server,
        (s.over t).negotiate requested clientId) := rfl
  rw [hmanage, negotiate_over]
  rfl

end Server

/-- Over WebSocket all nodes that a query selects come at once. -/
lemma Session.queryNodes_webSocket (s : Session) (g : Graph) (query : Wire.Query) :
    (s.over .webSocket).queryNodes g query = .single (.nodes (g.selected query)) := by
  have hstreams : ∀ size, (s.over .webSocket).streams size = false := fun _ => rfl
  simp only [queryNodes, hstreams, Bool.false_eq_true, if_false]
  rfl

/-- The nodes that a query selects are the same over both transports, where they may come in
parts over one of them. -/
lemma Session.sameReply_queryNodes (s : Session) (g : Graph) (query : Wire.Query) :
    SameReply (.queryNodes query) ((s.over .unix).queryNodes g query)
      ((s.over .webSocket).queryNodes g query) := by
  rw [queryNodes_webSocket, queryNodes]
  split
  · have hsize : 0 < chunkSize := by decide
    have hcut := isCut_chunksOf hsize (g.findByAttr (.ofWire query))
    have hflatten : ((chunksOf chunkSize (g.findByAttr (.ofWire query))).map g.described).flatten
        = g.selected query := by
      rw [Graph.flatten_map_described, hcut.flatten]
      rfl
    rw [chunkResponses_eq_mapIdx, ← hflatten]
    simp only [UInt32.zero_add]
    exact .parts _
  · exact .same (by simp) (by simp)

namespace Server

variable (server : Server) (s : Session) (r : Readings)

/-- A query for nodes leaves everything as it was. -/
lemma dispatch_queryNodes (query : Wire.Query) :
    server.dispatch s r (.queryNodes query)
      = (match s.database? server.catalog with
        | some db => s.queryNodes db.graph query
        | none => .single (.ofFailure .noDatabaseSelected), server, s) := by
  simp only [dispatch]
  cases s.database? server.catalog with
  | some db => rfl
  | none => rfl

/-- Carrying out a request over either transport gives the same, but for the transport. -/
lemma mirrors_dispatch (request : Request) :
    Exchange.Mirrors
      ⟨request, (server.dispatch (s.over .unix) r request).1,
        (server.dispatch (s.over .unix) r request).2.1,
        (server.dispatch (s.over .unix) r request).2.2⟩
      ⟨request, (server.dispatch (s.over .webSocket) r request).1,
        (server.dispatch (s.over .webSocket) r request).2.1,
        (server.dispatch (s.over .webSocket) r request).2.2⟩ := by
  by_cases hhello : ∃ requested clientId, request = .hello requested clientId
  · obtain ⟨requested, clientId, rfl⟩ := hhello
    simp only [dispatch_hello]
    exact ⟨rfl, .greeting (by decide), rfl, _, rfl, rfl⟩
  · have hgreeting : ∀ requested clientId, request ≠ .hello requested clientId :=
      fun requested clientId heq => hhello ⟨requested, clientId, heq⟩
    by_cases hnodes : ∃ query, request = .queryNodes query
    · obtain ⟨query, rfl⟩ := hnodes
      simp only [dispatch_queryNodes, Session.over_database?]
      refine ⟨rfl, ?_, rfl, s, rfl, rfl⟩
      cases s.database? server.catalog with
      | some db => exact s.sameReply_queryNodes db.graph query
      | none => exact .same (by simp) (by simp)
    · have hquery : ∀ query, request ≠ .queryNodes query := fun query heq => hnodes ⟨query, heq⟩
      simp only [dispatch_over server s _ r hgreeting hquery]
      exact ⟨rfl, .same hgreeting (dispatch_ne_chunked server s r hquery), rfl, _, rfl, rfl⟩

/-- Two clients that differ in their transport only send the same requests to the same server,
each to one of its own.  Request by request the replies are the same, except that the greeting
lists `streaming` only for the local socket, and that the nodes of a query may come there in
parts, which make up the list that is sent over WebSocket.  After every request the servers
are the same, and so are the sessions but for their transport. -/
theorem transports_alike (server : Server) (s : Session) (requests : List (Readings × Request)) :
    List.Forall₂ Exchange.Mirrors (server.exchanges (s.over .unix) requests)
        (server.exchanges (s.over .webSocket) requests) ∧
      (server.exchanges (s.over .unix) requests).map Exchange.request
        = requests.map Prod.snd := by
  induction requests generalizing server s with
  | nil => exact ⟨.nil, rfl⟩
  | cons entry requests ih =>
    obtain ⟨r, request⟩ := entry
    have hstep := mirrors_dispatch server s r request
    obtain ⟨s', hunix, hwebSocket⟩ := hstep.session
    have hserver := hstep.server
    simp only at hunix hwebSocket hserver
    obtain ⟨hothers, hrequests⟩ := ih (server.dispatch (s.over .unix) r request).2.1 s'
    rw [← hunix] at hothers hrequests
    rw [← hwebSocket] at hothers
    nth_rewrite 2 [← hserver] at hothers
    rw [exchanges_cons, exchanges_cons, List.map_cons, List.map_cons, hrequests]
    exact ⟨.cons hstep hothers, rfl⟩

end Server

end CodeGraph
