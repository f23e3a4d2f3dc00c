import Mathlib
import CodeGraph.Proofs.Protocol.Response
import CodeGraph.Proofs.Server.Population

/-!
# What a connection answers

A message that is no request is answered with one error without a name, and nothing else comes
of it.  A request is answered with one reply, or, if it is a query for nodes, with the parts of
a stream (`Reply.Suits`); only the request to shut down makes the connection close.  Every frame
repeats the name of the request, if it has one, and a client can tell from the frame alone
whether it is an error and whether it is a part of a stream
(`Connection.handle_contract`).
-/

namespace CodeGraph

open Pack

/-! ### Replies that are not in parts -/

section Whole

variable {request : Request}

lemma Graph.isChunk_answersResponse (g : Graph)
    {reply : List (List (String × String)) → Response}
    (hreply : ∀ answers, (reply answers).isChunk = false)
    (outcome : Except Rules.QueryError (List Rules.Bindings)) :
    (g.answersResponse reply outcome).isChunk = false := by
  cases outcome with
  | ok answers => exact hreply _
  | error => rfl

lemma Request.isChunk_question {rules : List Rules.Rule} {question : Graph → Response}
    (h : request.question? rules = some question) (g : Graph) :
    (question g).isChunk = false := by
  cases request with
  | queryEdges id direction types limit =>
    obtain rfl := Option.some.inj h
    dsimp only
    split <;> rfl
  | diffSnapshots source target =>
    obtain rfl := Option.some.inj h
    dsimp only
    split <;> rfl
  | checkGuarantee | datalogQuery | executeDatalog =>
    obtain rfl := Option.some.inj h
    exact g.isChunk_answersResponse (fun _ => rfl) _
  | getNode | nodeExists | getNodeIdentifier | isEndpoint | findByType | findByAttr | queryNodes
  | getAllEdges | getOutgoingEdges | getIncomingEdges | findDependentFiles | nodeCount | edgeCount
  | countNodesByType | countEdgesByType | neighbors | bfs | dfs | reachability | listSnapshots
  | findSnapshot =>
    obtain rfl := Option.some.inj h
    rfl
  | _ => simp [Request.question?] at h

lemma Change.isChunk_ofExcept (g : Graph) (disk : Disk) (outcome : Except Failure Graph) :
    (Change.ofExcept g disk outcome).response.isChunk = false := by
  cases outcome <;> rfl

lemma Request.isChunk_change {now : Nat} {change : Graph → Disk → Change}
    (h : request.change? now = some change) (g : Graph) (disk : Disk) :
    (change g disk).response.isChunk = false := by
  cases request with
  | updateNodeVersion id version =>
    obtain rfl := Option.some.inj h
    dsimp only
    unfold Graph.updateVersion
    split <;> rfl
  | commitBatch files nodes edges =>
    obtain rfl := Option.some.inj h
    dsimp only
    unfold Graph.commit
    split <;> rfl
  | flush =>
    obtain rfl := Option.some.inj h
    unfold Graph.flushed
    split <;> rfl
  | compact =>
    obtain rfl := Option.some.inj h
    unfold Graph.compacted
    split <;> rfl
  | restoreSnapshot | deleteSnapshot | tagSnapshot =>
    obtain rfl := Option.some.inj h
    exact Change.isChunk_ofExcept g disk _
  | addNodes | deleteNode | addEdges | deleteEdge | declareFields | rebuildIndexes
  | createSnapshot | clear =>
    obtain rfl := Option.some.inj h
    rfl
  | _ => simp [Request.change?] at h

namespace Server

variable (server : Server) (s : Session) (r : Readings)

lemma isChunk_catalogResponse {reply : Response} (h : reply.isChunk = false)
    (outcome : Except Failure Unit) : (catalogResponse reply outcome).isChunk = false := by
  cases outcome with
  | ok => exact h
  | error => rfl

lemma isChunk_openDatabase (name : String) (mode : AccessMode) :
    (server.openDatabase s name mode).1.isChunk = false := by
  unfold openDatabase
  split
  · split <;> rfl
  · rfl

lemma isChunk_manage (request : Request) : (server.manage s r request).1.isChunk = false := by
  cases request with
  | createDatabase | dropDatabase => exact isChunk_catalogResponse rfl _
  | openDatabase name mode => exact isChunk_openDatabase server s name _
  | closeDatabase =>
    change (server.closeDatabase s).1.isChunk = false
    unfold closeDatabase
    cases s.current <;> rfl
  | beginBatch =>
    change (beginBatch s).1.isChunk = false
    unfold beginBatch
    split <;> rfl
  | abortBatch =>
    change (abortBatch s).1.isChunk = false
    unfold abortBatch
    split <;> rfl
  | datalogLoadRules source =>
    change (loadRules s source).1.isChunk = false
    unfold loadRules
    split
    · rfl
    · split <;> rfl
  | _ => rfl

lemma isChunk_ask {question : Graph → Response} (h : ∀ g, (question g).isChunk = false) :
    (server.ask s question).isChunk = false := by
  unfold ask
  split
  · exact h _
  · rfl

lemma isChunk_serverChange {change : Graph → Disk → Change}
    (h : ∀ g disk, (change g disk).response.isChunk = false) :
    (server.change s change).1.isChunk = false := by
  unfold Server.change
  split
  · split
    · exact h _ _
    · rfl
  · rfl

/-- A single reply is no part of a stream. -/
lemma isChunk_respond (request : Request) :
    (server.respond s r request).1.isChunk = false := by
  unfold respond
  split
  · next question _ hquestion =>
    exact isChunk_ask server s (Request.isChunk_question hquestion)
  · next change _ hchange =>
    exact isChunk_serverChange server s (Request.isChunk_change hchange)
  · exact isChunk_manage server s r request

end Server

end Whole

/-! ### What kind of reply a request gets -/

lemma chunkResponses_ne_nil (index : UInt32) {parts : List (List Wire.Node)}
    (h : parts ≠ []) : chunkResponses index parts ≠ [] := by
  cases parts with
  | nil => exact absurd rfl h
  | cons part rest => cases rest <;> simp [chunkResponses]

lemma chunksOf_ne_nil {α : Type} {size : Nat} {list : List α} (hsize : size ≠ 0)
    (h : list ≠ []) : chunksOf size list ≠ [] := by
  unfold chunksOf
  simp [hsize, h]

lemma isChunk_of_mem_chunkResponses {index : UInt32} {parts : List (List Wire.Node)} :
    ∀ response ∈ chunkResponses index parts, response.isChunk = true := by
  induction index, parts using chunkResponses.induct with
  | case1 index => simp [chunkResponses]
  | case2 index part => simp [chunkResponses, Response.isChunk]
  | case3 index part parts hparts ih =>
    rw [chunkResponses]
    · exact List.forall_mem_cons.2 ⟨rfl, ih⟩
    · exact hparts

/-- A reply of a kind that a request can get: parts of a stream, at least one, only for a query
for nodes, and one that ends the connection for the request to shut down and no other. -/
def Reply.Suits (request : Request) : Reply → Prop
  | single response => response.isChunk = false ∧ request ≠ .shutdown
  | chunked responses => responses ≠ [] ∧ (∀ response ∈ responses, response.isChunk = true) ∧
      ∃ query, request = .queryNodes query
  | shutdown response => response.isChunk = false ∧ request = .shutdown

lemma Session.suits_queryNodes (s : Session) (g : Graph) (query : Wire.Query) :
    (s.queryNodes g query).Suits (.queryNodes query) := by
  unfold queryNodes
  simp only
  split
  · next hstreams =>
    have hfound : g.findByAttr (.ofWire query) ≠ [] := by
      intro hnone
      simp [streams, hnone] at hstreams
    have hparts := chunksOf_ne_nil (by decide : chunkSize ≠ 0) hfound
    refine ⟨chunkResponses_ne_nil 0 ?_, isChunk_of_mem_chunkResponses, query, rfl⟩
    exact fun hnone => hparts (List.map_eq_nil_iff.1 hnone)
  · exact ⟨rfl, by simp⟩

theorem Server.dispatch_suits (server : Server) (s : Session) (r : Readings)
    (request : Request) : (server.dispatch s r request).1.Suits request := by
  unfold dispatch
  split
  · next query =>
    split
    · exact s.suits_queryNodes _ query
    · exact ⟨rfl, by simp⟩
  · exact ⟨rfl, rfl⟩
  · next hquery hshutdown => exact ⟨isChunk_respond server s r request, hshutdown⟩

namespace Reply.Suits

variable {request : Request} {reply : Reply}

lemma responses_ne_nil (h : reply.Suits request) : reply.responses ≠ [] := by
  cases reply with
  | single | shutdown => exact List.cons_ne_nil _ _
  | chunked => exact h.1

lemma length_eq_one (hreply : ∀ responses, reply ≠ .chunked responses) :
    reply.responses.length = 1 := by
  cases reply with
  | single | shutdown => rfl
  | chunked responses => exact absurd rfl (hreply responses)

lemma isChunk_iff (h : reply.Suits request) {response : Response}
    (hresponse : response ∈ reply.responses) :
    response.isChunk = true ↔ ∃ responses, reply = .chunked responses := by
  cases reply with
  | single only | shutdown only =>
    obtain rfl := List.mem_singleton.1 hresponse
    simp [h.1]
  | chunked responses => simp [h.2.1 response hresponse]

lemma action_eq_shutdown_iff (h : reply.Suits request) :
    reply.action = .shutdown ↔ request = .shutdown := by
  cases reply with
  | single => simp [Reply.action, h.2]
  | shutdown => simp [Reply.action, h.2]
  | chunked =>
    obtain ⟨-, -, query, rfl⟩ := h
    simp [Reply.action]

end Reply.Suits

/-! ### Frames -/

namespace Connection

variable (conn : Connection) (server : Server) (r : Readings) {message : Bytes}

lemma handle_of_fault {fault : Fault} (h : Envelope.decode message = .error fault) :
    conn.handle server r message = (⟨[(faultReply fault).encode none], .proceed⟩, conn,
      { server with metrics := server.metrics.recordDecodeError }) := by
  unfold handle
  rw [h]

lemma handle_of_envelope {envelope : Envelope} (h : Envelope.decode message = .ok envelope) :
    (conn.handle server r message).1
      = ⟨(server.dispatch conn.session r envelope.request).1.responses.map
          (Response.encode envelope.requestId),
        (server.dispatch conn.session r envelope.request).1.action⟩ := by
  unfold handle
  rw [h]

/-- What a connection answers to any message, whatever the state of the connection and of the
server is.  A message that is no request is answered with one error without a name, and nothing
changes but the number of such messages.  A request is answered with at least one frame, and
with exactly one unless it is a query for nodes that is answered in parts; only the request to
shut down ends the connection.  From every frame that can be written at all a client reads the
name of the request, if there was one, and whether the frame is an error and whether it is a
part. -/
theorem handle_contract (message : Bytes) :
    (∀ fault, Envelope.decode message = .error fault →
      conn.handle server r message = (⟨[(faultReply fault).encode none], .proceed⟩, conn,
        { server with metrics :=
            { server.metrics with decodeErrors := server.metrics.decodeErrors + 1 } }) ∧
      (((faultReply fault).toItem none).Fits maxNesting →
        ∃ reply, Client.Reply.ofBytes ((faultReply fault).encode none) = .ok reply ∧
          reply.isError = true ∧ reply.get? Client.Reply.idKey = none)) ∧
    ∀ envelope, Envelope.decode message = .ok envelope →
      ∃ reply outcome, (server.dispatch conn.session r envelope.request).1 = reply ∧
        (conn.handle server r message).1 = outcome ∧
        outcome.frames = reply.responses.map (Response.encode envelope.requestId) ∧
        outcome.frames ≠ [] ∧
        ((∀ parts, reply ≠ .chunked parts) → outcome.frames.length = 1) ∧
        (∀ parts, reply = .chunked parts → ∃ query, envelope.request = .queryNodes query) ∧
        (outcome.action = .shutdown ↔ envelope.request = .shutdown) ∧
        ∀ response ∈ reply.responses,
          (response.toItem envelope.requestId).Fits maxNesting →
          ∃ received, Client.Reply.ofBytes (response.encode envelope.requestId) = .ok received ∧
            received.get? Client.Reply.idKey = envelope.requestId.map .str ∧
            (received.isError = true ↔ response.isError = true) ∧
            (received.isChunk = true ↔ ∃ parts, reply = .chunked parts) := by
  constructor
  · intro fault hfault
    refine ⟨conn.handle_of_fault server r hfault, fun hfits => ?_⟩
    obtain ⟨reply, hread, hname, herror, -⟩ := Response.exists_reply_of_fits hfits
    exact ⟨reply, hread, herror, hname⟩
  · intro envelope henvelope
    have hsuits := server.dispatch_suits conn.session r envelope.request
    rw [conn.handle_of_envelope server r henvelope]
    refine ⟨_, _, rfl, rfl, rfl, ?_, ?_, ?_, hsuits.action_eq_shutdown_iff, ?_⟩
    · exact fun hnone => hsuits.responses_ne_nil (List.map_eq_nil_iff.1 hnone)
    · intro hreply
      rw [List.length_map]
      exact Reply.Suits.length_eq_one hreply
    · intro parts hparts
      rw [hparts] at hsuits
      exact hsuits.2.2
    · intro response hresponse hfits
      obtain ⟨received, hread, hname, herror, hchunk⟩ := Response.exists_reply_of_fits hfits
      refine ⟨received, hread, hname, by rw [herror], ?_⟩
      rw [hchunk]
      exact hsuits.isChunk_iff hresponse

/-- An octet that begins no document. -/
def garbled : Bytes := [0xc1]

/-- A request with a name, `{"requestId": "req-42", "cmd": "ping"}`. -/
def namedPing : Bytes :=
  [0x82, 0xa9, 0x72, 0x65, 0x71, 0x75, 0x65, 0x73, 0x74, 0x49, 0x64,
    0xa6, 0x72, 0x65, 0x71, 0x2d, 0x34, 0x32, 0xa3, 0x63, 0x6d, 0x64, 0xa4, 0x70, 0x69, 0x6e, 0x67]

set_option maxRecDepth 2000 in
lemma decode_namedPing : Envelope.decode namedPing = .ok ⟨some "req-42", .ping⟩ :=
  rfl

/-- What is answered to octets that are no request, and to a request with a name. -/
theorem handle_contract_garbled_ping :
    (∃ frame reply,
      (handle (.start 0 .unix) Population.fresh.server Population.atStart garbled).1
        = ⟨[frame], .proceed⟩ ∧
      Client.Reply.ofBytes frame = .ok reply ∧ reply.isError = true ∧
      reply.get? Client.Reply.idKey = none) ∧
    ∃ frame reply,
      (handle (.start 0 .unix) Population.fresh.server Population.atStart namedPing).1
        = ⟨[frame], .proceed⟩ ∧
      Client.Reply.ofBytes frame = .ok reply ∧ reply.isError = false ∧ reply.isChunk = false ∧
      reply.get? Client.Reply.idKey = some (.str "req-42") := by
  have hgarbled : Envelope.decode garbled = .error .malformed := rfl
  have hfault : ((faultReply .malformed).toItem none).Fits maxNesting := by
    refine Item.fits_record (by decide) fun field hfield => ?_
    obtain rfl := List.mem_singleton.1 hfield
    exact ⟨by decide, .str (by decide)⟩
  have hpong : (Response.pong.toItem (some "req-42")).Fits maxNesting := by
    refine Item.fits_record (by decide) fun field hfield => ?_
    simp only [fieldIfSome, Response.fields, List.cons_append, List.nil_append, List.mem_cons,
      List.not_mem_nil, or_false] at hfield
    rcases hfield with rfl | rfl | rfl
    · exact ⟨by decide, .str (by decide)⟩
    · exact ⟨by decide, .bool⟩
    · exact ⟨by decide, .str (by decide)⟩
  constructor
  · obtain ⟨hhandle, hread⟩ := (handle_contract (.start 0 .unix) Population.fresh.server
      Population.atStart garbled).1 .malformed hgarbled
    obtain ⟨reply, hreply, herror, hname⟩ := hread hfault
    exact ⟨_, reply, congrArg Prod.fst hhandle, hreply, herror, hname⟩
  · obtain ⟨reply, outcome, hdispatch, houtcome, hframes, -, -, -, haction, hread⟩ :=
      (handle_contract (.start 0 .unix) Population.fresh.server Population.atStart
        namedPing).2 _ decode_namedPing
    obtain rfl : .single .pong = reply := hdispatch
    obtain ⟨received, hreceived, hname, herror, hchunk⟩ := hread .pong List.mem_cons_self hpong
    have hproceed : outcome.action = .proceed := by
      cases hstop : outcome.action with
      | proceed => rfl
      | shutdown => cases haction.1 hstop
    have honeFrame : outcome
        = ⟨[Response.pong.encode (some "req-42")], .proceed⟩ := by
      cases outcome
      exact congrArg₂ FrameOutcome.mk hframes hproceed
    refine ⟨_, received, houtcome.trans honeFrame, hreceived, ?_, ?_, hname⟩
    · rw [← Bool.not_eq_true, herror]
      decide
    · rw [← Bool.not_eq_true, hchunk]
      simp

end Connection

end CodeGraph
