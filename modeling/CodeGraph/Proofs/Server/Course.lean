import Mathlib
import CodeGraph.Proofs.Server.Contract
import CodeGraph.Proofs.Server.Departure
import CodeGraph.Proofs.Server.Transports

/-!
# How far a handler goes

A handler takes messages until one asks to stop, until a reply cannot be written, or until
nothing more arrives.  Where every reply is one frame, both handlers go equally far
(`reached`): which messages ask to stop is written in the messages, and the rest depends on
which replies are written.

They part at the last step only.  The handler of the local socket stops the server when a message
has asked for it, whatever became of the reply; the handler of WebSocket connections has left
its loop by then if the reply could not be written, and does not stop the server
(`Server.handlers_go_equally_far`, `Server.unwritten_stop_differs`).
-/

namespace CodeGraph

/-! ### Attempts -/

/-- The payloads that arrive before a connection ends or fails. -/
def Inbound.payloads : List Inbound → List Bytes
  | .message payload :: inbound => payload :: payloads inbound
  | _ => []

/-- A message, what comes of it, and whether all replies to it are written. -/
structure Attempt where
  message : Bytes
  outcome : FrameOutcome
  written : Bool

/-- A handler does not go on after a request to stop, and not after a reply that is not
written. -/
def Attempt.isLast (a : Attempt) : Bool :=
  a.outcome.action = .shutdown || !a.written

lemma Attempt.isLast_iff {a : Attempt} :
    a.isLast = true ↔ a.outcome.action = .shutdown ∨ a.written = false := by
  simp [isLast]

lemma Attempt.isLast_eq_false_iff {a : Attempt} :
    a.isLast = false ↔ a.outcome.action = .proceed ∧ a.written = true := by
  unfold isLast
  cases a.outcome.action <;> simp

/-- Attempts up to the first one after which a handler does not go on. -/
def reached : List Attempt → List Attempt
  | [] => []
  | a :: later => a :: if a.isLast then [] else reached later

/-- A message that asks the server to stop. -/
def AsksToStop (message : Bytes) : Prop :=
  ∃ requestId, Envelope.decode message = .ok ⟨requestId, .shutdown⟩

namespace Connection

/-- A message that is handled, with the delivery of this number for each of its replies. -/
def attempt (readings : Nat → Readings) (deliveries : Nat → Delivery) (n : Nat)
    (state : Connection × Server) (message : Bytes) : Attempt where
  message := message
  outcome := (state.1.handle state.2 (readings n) message).1
  written := (state.1.handle state.2 (readings n) message).1.frames.all fun frame =>
    Service.delivery deliveries n frame = .sent

/-- Messages that are handled one after the other, whatever becomes of the replies; each has one
delivery. -/
def attempts (readings : Nat → Readings) (deliveries : Nat → Delivery) (n : Nat) :
    Connection × Server → List Bytes → List Attempt
  | _, [] => []
  | state, message :: messages =>
    attempt readings deliveries n state message ::
      attempts readings deliveries (n + 1)
        (state.1.handle state.2 (readings n) message).2 messages

/-- Only a message that asks for it ends a connection, in whatever state. -/
lemma action_handle_eq_shutdown_iff (conn : Connection) (server : Server) (r : Readings)
    (message : Bytes) :
    (conn.handle server r message).1.action = .shutdown ↔ AsksToStop message := by
  unfold AsksToStop
  cases hdecode : Envelope.decode message with
  | error fault =>
    rw [conn.handle_of_fault server r hdecode]
    simp
  | ok envelope =>
    have hsuits := server.dispatch_suits conn.session r envelope.request
    rw [conn.handle_of_envelope server r hdecode, hsuits.action_eq_shutdown_iff]
    obtain ⟨requestId, request⟩ := envelope
    simp

end Connection

lemma reached_sublist (attempts : List Attempt) : (reached attempts).Sublist attempts := by
  induction attempts with
  | nil => exact .slnil
  | cons a attempts ih =>
    unfold reached
    split
    · exact .cons_cons a (List.nil_sublist _)
    · exact .cons_cons a ih

namespace Connection

variable {readings : Nat → Readings} {deliveries : Nat → Delivery} {n : Nat}
  {state : Connection × Server} {messages : List Bytes}

lemma action_eq_shutdown_iff_of_mem {a : Attempt}
    (ha : a ∈ attempts readings deliveries n state messages) :
    a.outcome.action = .shutdown ↔ AsksToStop a.message := by
  induction messages generalizing n state with
  | nil => exact absurd ha List.not_mem_nil
  | cons message messages ih =>
    rcases List.mem_cons.1 ha with rfl | hlater
    · exact action_handle_eq_shutdown_iff ..
    · exact ih hlater

/-- A request to stop is among what is reached exactly if one of the messages is one. -/
lemma any_shutdown_iff : ((reached (attempts readings deliveries n state messages)).any
      fun a => a.outcome.action = .shutdown) = true ↔
    ∃ message ∈ (reached (attempts readings deliveries n state messages)).map Attempt.message,
      AsksToStop message := by
  simp only [List.any_eq_true, decide_eq_true_eq, List.mem_map, exists_exists_and_eq_and]
  refine exists_congr fun a => and_congr_right fun ha => ?_
  exact action_eq_shutdown_iff_of_mem ((reached_sublist _).subset ha)

end Connection

/-! ### How far two handlers go -/

lemma FrameAction.eq_of_shutdown_iff {action other : FrameAction}
    (h : action = .shutdown ↔ other = .shutdown) : action = other := by
  cases action with
  | shutdown => exact (h.1 rfl).symm
  | proceed =>
    cases other with
    | proceed => rfl
    | shutdown => exact h.2 rfl

/-- Attempts at the same message that ask for the same. -/
structure Attempt.Alike (a b : Attempt) : Prop where
  message : b.message = a.message
  action : b.outcome.action = a.outcome.action

/-- The same messages ask for the same, in whatever states they are handled and whatever becomes
of the replies. -/
lemma Connection.attempts_alike (readings : Nat → Readings) (deliveries other : Nat → Delivery)
    (n : Nat) (state state' : Connection × Server) (messages : List Bytes) :
    List.Forall₂ Attempt.Alike (attempts readings deliveries n state messages)
      (attempts readings other n state' messages) := by
  induction messages generalizing n state state' with
  | nil => exact .nil
  | cons message messages ih =>
    refine .cons ⟨rfl, ?_⟩ (ih _ _ _)
    apply FrameAction.eq_of_shutdown_iff
    exact (action_handle_eq_shutdown_iff ..).trans (action_handle_eq_shutdown_iff ..).symm

/-- What counts about an attempt for what a handler does next. -/
def Attempt.gist (a : Attempt) : Bytes × FrameAction × Bool :=
  (a.message, a.outcome.action, a.written)

/-- Attempts that are alike are reached alike, if as far as one goes the same replies are
written: nothing is asked about replies after that. -/
lemma gist_reached {attempts others : List Attempt} (h : List.Forall₂ Attempt.Alike attempts others)
    (hwritten : ∀ n < (reached attempts).length,
      attempts[n]?.map Attempt.written = others[n]?.map Attempt.written) :
    (reached others).map Attempt.gist = (reached attempts).map Attempt.gist := by
  induction h with
  | nil => rfl
  | @cons a b attempts others halike _ ih =>
    have hfirst : b.written = a.written := by
      simpa using (hwritten 0 (by simp [reached])).symm
    have hgist : b.gist = a.gist := by
      unfold Attempt.gist
      rw [halike.message, halike.action, hfirst]
    have hlast : b.isLast = a.isLast := by
      unfold Attempt.isLast
      rw [halike.action, hfirst]
    unfold reached
    rw [List.map_cons, List.map_cons, hgist, hlast]
    cases hstop : a.isLast with
    | true => rfl
    | false =>
      have hrest := ih fun n hn => by
        simpa using hwritten (n + 1) (by simpa [reached, hstop] using hn)
      simp [hrest]

/-- Of the replies to what is reached all but the last one are written, and the last one is the
reply to a request to stop, if there is one at all. -/
lemma any_reached (attempts : List Attempt) :
    ((reached attempts).any fun a => a.outcome.action = .shutdown && a.written)
      = (((reached attempts).any fun a => a.outcome.action = .shutdown) &&
          (reached attempts).all Attempt.written) := by
  induction attempts with
  | nil => rfl
  | cons a attempts ih =>
    unfold reached
    cases hstop : a.isLast with
    | true => simp
    | false =>
      obtain ⟨haction, hwritten⟩ := Attempt.isLast_eq_false_iff.1 hstop
      simp [haction, hwritten, ih]

/-! ### Replies over WebSocket -/

/-- What a reply over the local socket is compared with comes at once. -/
lemma SameReply.ne_chunked {request : Request} {reply other : Reply}
    (h : SameReply request reply other) (responses : List Response) :
    other ≠ .chunked responses := by
  cases h with
  | same _ hwhole => exact hwhole responses
  | greeting => simp
  | parts => simp

/-- Over WebSocket no reply comes in parts, and the session stays one over WebSocket. -/
lemma Server.dispatch_webSocket (server : Server) {s : Session} (hs : s.transport = .webSocket)
    (r : Readings) (request : Request) :
    (∀ responses, (server.dispatch s r request).1 ≠ .chunked responses) ∧
      (server.dispatch s r request).2.2.transport = .webSocket := by
  have hover : s.over .webSocket = s := by
    unfold Session.over
    rw [← hs]
  have hmirrors := mirrors_dispatch server s r request
  rw [hover] at hmirrors
  constructor
  · exact hmirrors.reply.ne_chunked
  · obtain ⟨s', -, hsession⟩ := hmirrors.session
    dsimp only at hsession
    rw [hsession]
    rfl

/-- Every message is answered over WebSocket with one frame. -/
lemma Connection.handle_webSocket {conn : Connection} (server : Server)
    (hconn : conn.session.transport = .webSocket) (r : Readings) (message : Bytes) :
    (conn.handle server r message).1.frames.length = 1 ∧
      (conn.handle server r message).2.1.session.transport = .webSocket := by
  cases hdecode : Envelope.decode message with
  | error fault =>
    rw [conn.handle_of_fault server r hdecode]
    exact ⟨rfl, hconn⟩
  | ok envelope =>
    obtain ⟨hwhole, htransport⟩ := server.dispatch_webSocket hconn r envelope.request
    constructor
    · rw [conn.handle_of_envelope server r hdecode, List.length_map]
      exact Reply.Suits.length_eq_one hwhole
    · unfold handle
      rw [hdecode]
      exact htransport

/-! ### One message -/

namespace Service

/-- The next message of a service. -/
def attempt (s : Service) (readings : Nat → Readings) (deliveries : Nat → Delivery)
    (payload : Bytes) : Attempt :=
  Connection.attempt readings deliveries s.handled.length (s.connection, s.server) payload

/-- How far a service goes with what arrives. -/
def course (s : Service) (readings : Nat → Readings) (deliveries : Nat → Delivery)
    (inbound : List Inbound) : List Attempt :=
  reached (Connection.attempts readings deliveries s.handled.length (s.connection, s.server)
    (Inbound.payloads inbound))

/-- A service after the reply to one message was sent or could not be sent. -/
structure Advances (s : Service) (readings : Nat → Readings) (deliveries : Nat → Delivery)
    (payload : Bytes) (result : Delivery) (s' : Service) : Prop where
  result : result = .sent ↔ (s.attempt readings deliveries payload).written = true
  nextDelivery : s'.nextDelivery = s'.handled.length
  handled : s'.handled = s.handled ++ [payload]
  terminated : s'.terminated = s.terminated
  state : (s'.connection, s'.server)
    = (s.connection.handle s.server (readings s.handled.length) payload).2

/-- A service has gone on from another by some attempts and has ended, and has stopped the server
after those that make it do so. -/
structure Took (s ended : Service) (course : List Attempt) (stops : Attempt → Bool) : Prop where
  handled : ended.handled = s.handled ++ course.map Attempt.message
  terminated : ended.terminated = (s.terminated || course.any stops)

variable {s s' ended : Service} {readings : Nat → Readings} {deliveries : Nat → Delivery}
  {payload : Bytes} {result : Delivery} {stops : Attempt → Bool}

lemma send_singleton (s : Service) (deliveries : Nat → Delivery) (frame : Bytes) :
    ∃ replies, s.send deliveries [frame] = (delivery deliveries s.nextDelivery frame,
      { s with nextDelivery := s.nextDelivery + 1, replies := replies }) := by
  unfold send
  dsimp only
  cases hdelivery : delivery deliveries s.nextDelivery frame with
  | sent => exact ⟨_, rfl⟩
  | failed => exact ⟨_, rfl⟩
  | timedOut => exact ⟨_, rfl⟩

/-- A message with a single reply takes one delivery. -/
lemma exists_advances (hnext : s.nextDelivery = s.handled.length)
    (hsingle : (s.attempt readings deliveries payload).outcome.frames.length = 1) :
    ∃ result s', (s.handle (readings s.handled.length) payload).2.send deliveries
        (s.attempt readings deliveries payload).outcome.frames = (result, s') ∧
      s.Advances readings deliveries payload result s' := by
  obtain ⟨frame, hframe⟩ := List.length_eq_one_iff.1 hsingle
  obtain ⟨replies, hsend⟩ :=
    (s.handle (readings s.handled.length) payload).2.send_singleton deliveries frame
  rw [hframe, hsend]
  refine ⟨_, _, rfl, ?_, ?_, rfl, rfl, rfl⟩
  -- Each message before has taken one delivery, so the next one has the number of this message.
  · have hwritten : (s.attempt readings deliveries payload).written
        = (s.attempt readings deliveries payload).outcome.frames.all fun frame =>
            delivery deliveries s.handled.length frame = .sent := rfl
    rw [hwritten, hframe]
    change delivery deliveries s.nextDelivery frame = .sent ↔ _
    rw [hnext]
    simp
  · change s.nextDelivery + 1 = (s.handled ++ [payload]).length
    rw [hnext, List.length_append]
    rfl

namespace Advances

lemma written_eq_false (h : s.Advances readings deliveries payload result s')
    (hunsent : result ≠ .sent) : (s.attempt readings deliveries payload).written = false :=
  Bool.eq_false_iff.2 fun hwritten => hunsent (h.result.2 hwritten)

/-- The next message is the first one reached, and what is reached after it begins there. -/
lemma course_eq (h : s.Advances readings deliveries payload result s') (inbound : List Inbound) :
    s.course readings deliveries (.message payload :: inbound)
      = s.attempt readings deliveries payload ::
          if (s.attempt readings deliveries payload).isLast then []
          else s'.course readings deliveries inbound := by
  unfold course
  rw [h.handled, h.state, List.length_append]
  rfl

/-- A service that does not go on has taken this message and nothing else. -/
lemma took_last (h : s.Advances readings deliveries payload result s')
    (hlast : (s.attempt readings deliveries payload).isLast = true)
    (hhandled : ended.handled = s'.handled)
    (hterminated : ended.terminated
      = (s'.terminated || stops (s.attempt readings deliveries payload)))
    (inbound : List Inbound) :
    s.Took ended (s.course readings deliveries (.message payload :: inbound)) stops := by
  rw [h.course_eq, hlast]
  refine ⟨hhandled.trans h.handled, ?_⟩
  rw [hterminated, h.terminated]
  simp

/-- A service that ends because a reply was not sent has not stopped the server. -/
lemma took_unsent (h : s.Advances readings deliveries payload result s') (hunsent : result ≠ .sent)
    (hstops : stops (s.attempt readings deliveries payload) = false)
    (hhandled : ended.handled = s'.handled) (hterminated : ended.terminated = s'.terminated)
    (inbound : List Inbound) :
    s.Took ended (s.course readings deliveries (.message payload :: inbound)) stops := by
  have hlast := Attempt.isLast_iff.2 (.inr (h.written_eq_false hunsent))
  refine h.took_last hlast hhandled ?_ inbound
  rw [hterminated, hstops, Bool.or_false]

/-- A service that goes on takes what it takes afterwards. -/
lemma took_cons (h : s.Advances readings deliveries payload result s')
    (hlast : (s.attempt readings deliveries payload).isLast = false)
    (hstops : stops (s.attempt readings deliveries payload) = false) {inbound : List Inbound}
    (hlater : s'.Took ended (s'.course readings deliveries inbound) stops) :
    s.Took ended (s.course readings deliveries (.message payload :: inbound)) stops := by
  rw [h.course_eq, hlast]
  refine ⟨?_, ?_⟩
  · rw [hlater.handled, h.handled, List.append_assoc]
    rfl
  · rw [hlater.terminated, h.terminated]
    simp [hstops]

end Advances

/-- A service over which nothing more arrives has taken nothing. -/
lemma took_nil (s : Service) (transport : Transport) (stops : Attempt → Bool) :
    s.Took (s.finish transport) [] stops :=
  ⟨(List.append_nil _).symm, (Bool.or_false _).symm⟩

end Service

/-! ### Both handlers -/

/-- The handler of the local socket takes the messages that are reached, and stops the server if
one of them asks for it. -/
lemma Unix.serve_took {readings : Nat → Readings} {deliveries : Nat → Delivery} {s : Service}
    (hnext : s.nextDelivery = s.handled.length) {inbound : List Inbound}
    (hsingle : ∀ a ∈ s.course readings deliveries inbound, a.outcome.frames.length = 1) :
    s.Took (serve readings deliveries s inbound) (s.course readings deliveries inbound)
      fun a => a.outcome.action = .shutdown := by
  induction inbound generalizing s with
  | nil => exact s.took_nil .unix _
  | cons next inbound ih =>
    cases next with
    | ended => exact s.took_nil .unix _
    | failed => exact s.took_nil .unix _
    | message payload =>
      obtain ⟨result, s', hsend, hadvances⟩ := Service.exists_advances hnext
        (hsingle (s.attempt readings deliveries payload) List.mem_cons_self)
      rw [hadvances.course_eq] at hsingle
      change (s.handle (readings s.handled.length) payload).2.send deliveries
        (s.handle (readings s.handled.length) payload).1.frames = (result, s') at hsend
      unfold serve
      dsimp only
      rw [hsend]
      split
      · next hstop =>
        have haction : (s.attempt readings deliveries payload).outcome.action = .shutdown := hstop
        refine hadvances.took_last (Attempt.isLast_iff.2 (.inl haction)) ?_ ?_ inbound
        · rfl
        · simp [haction, Service.terminate]
      · next hproceed hsent =>
        have haction : (s.attempt readings deliveries payload).outcome.action = .proceed :=
          hproceed
        have hlast := Attempt.isLast_eq_false_iff.2 ⟨haction, hadvances.result.1 hsent⟩
        rw [hlast] at hsingle
        refine hadvances.took_cons hlast (by simp [haction]) (ih hadvances.nextDelivery ?_)
        exact fun a ha => hsingle a (List.mem_cons_of_mem _ ha)
      · next hproceed hunsent =>
        have haction : (s.attempt readings deliveries payload).outcome.action = .proceed :=
          hproceed
        refine hadvances.took_unsent hunsent ?_ ?_ ?_ inbound
        · simp [haction]
        · rfl
        · rfl

/-- The handler of WebSocket connections takes the messages that are reached, and stops the server
if one of them asks for it and the reply to it is written. -/
lemma WebSocket.serve_took {s : Service} (readings : Nat → Readings) (deliveries : Nat → Delivery)
    (hnext : s.nextDelivery = s.handled.length)
    (htransport : s.connection.session.transport = .webSocket) (inbound : List Inbound) :
    s.Took (serve readings deliveries s inbound) (s.course readings deliveries inbound)
      fun a => a.outcome.action = .shutdown && a.written := by
  induction inbound generalizing s with
  | nil => exact s.took_nil .webSocket _
  | cons next inbound ih =>
    cases next with
    | ended => exact s.took_nil .webSocket _
    | failed => exact s.took_nil .webSocket _
    | message payload =>
      obtain ⟨hsingle, htransport'⟩ := Connection.handle_webSocket s.server htransport
        (readings s.handled.length) payload
      obtain ⟨result, s', hsend, hadvances⟩ := Service.exists_advances hnext hsingle
      change (s.handle (readings s.handled.length) payload).2.send deliveries
        (s.handle (readings s.handled.length) payload).1.frames = (result, s') at hsend
      unfold serve
      dsimp only
      rw [hsend]
      split
      · next hsent hstop =>
        have haction : (s.attempt readings deliveries payload).outcome.action = .shutdown := hstop
        refine hadvances.took_last (Attempt.isLast_iff.2 (.inl haction)) ?_ ?_ inbound
        · rfl
        · simp [haction, hadvances.result.1 hsent, Service.terminate]
      · next hsent hproceed =>
        have haction : (s.attempt readings deliveries payload).outcome.action = .proceed :=
          hproceed
        have hlast := Attempt.isLast_eq_false_iff.2 ⟨haction, hadvances.result.1 hsent⟩
        refine hadvances.took_cons hlast (by simp [haction]) (ih hadvances.nextDelivery ?_)
        rw [← hadvances.state] at htransport'
        exact htransport'
      · next hlate =>
        have hunsent : result ≠ .sent := fun hsent => by simp [hsent] at hlate
        refine hadvances.took_unsent hunsent ?_ ?_ ?_ inbound
        · simp [hadvances.written_eq_false hunsent]
        · rfl
        · rfl
      · next hfailed =>
        have hunsent : result ≠ .sent := fun hsent => by simp [hsent] at hfailed
        refine hadvances.took_unsent hunsent ?_ ?_ ?_ inbound
        · simp [hadvances.written_eq_false hunsent]
        · rfl
        · rfl

/-- The messages that arrive over a new connection, as if nothing ever made its handler stop. -/
def Server.attempts (server : Server) (id : Nat) (transport : Transport)
    (readings : Nat → Readings) (deliveries : Nat → Delivery) (inbound : List Inbound) :
    List Attempt :=
  Connection.attempts readings deliveries 0 (server.accept id transport)
    (Inbound.payloads inbound)

/-- The handlers of the two transports serve the same messages with the same server, and the
replies over the local socket are single frames, as they always are over WebSocket.  As far as
the handler of the local socket goes, a reply over it is written exactly if the one over WebSocket
is.  Then both handlers take the same messages: all that arrive, up to the first one that asks to
stop or whose reply is not written.  The handler of the local socket stops the server exactly if
it has taken a message that asks for it; the other one does so only if all its replies could be
written, too. -/
theorem Server.handlers_go_equally_far (server : Server) (id : Nat) (readings : Nat → Readings)
    (onUnix onWebSocket : Nat → Delivery) (inbound : List Inbound)
    (hsingle : ∀ a ∈ reached (server.attempts id .unix readings onUnix inbound),
      a.outcome.frames.length = 1)
    (hwritten : ∀ n < (reached (server.attempts id .unix readings onUnix inbound)).length,
      (server.attempts id .unix readings onUnix inbound)[n]?.map Attempt.written
        = (server.attempts id .webSocket readings onWebSocket inbound)[n]?.map Attempt.written) :
    (Unix.handle server id false readings onUnix inbound).handled
        = (reached (server.attempts id .unix readings onUnix inbound)).map Attempt.message ∧
      (WebSocket.handle server id readings onWebSocket inbound).handled
        = (Unix.handle server id false readings onUnix inbound).handled ∧
      ((Unix.handle server id false readings onUnix inbound).terminated = true ↔
        ∃ message ∈ (Unix.handle server id false readings onUnix inbound).handled,
          AsksToStop message) ∧
      ((WebSocket.handle server id readings onWebSocket inbound).terminated = true ↔
        (∃ message ∈ (WebSocket.handle server id readings onWebSocket inbound).handled,
          AsksToStop message) ∧
        ∀ a ∈ reached (server.attempts id .webSocket readings onWebSocket inbound),
          a.written = true) := by
  have hunix := Unix.serve_took (s := Service.start server id .unix) rfl hsingle
  have hwebSocket := WebSocket.serve_took (s := Service.start server id .webSocket) readings
    onWebSocket rfl rfl inbound
  have htaken : (Unix.handle server id false readings onUnix inbound).handled
      = (reached (server.attempts id .unix readings onUnix inbound)).map Attempt.message :=
    hunix.handled
  have htaken' : (WebSocket.handle server id readings onWebSocket inbound).handled
      = (reached (server.attempts id .webSocket readings onWebSocket inbound)).map
          Attempt.message :=
    hwebSocket.handled
  have hstopped : (Unix.handle server id false readings onUnix inbound).terminated
      = (reached (server.attempts id .unix readings onUnix inbound)).any
          fun a => a.outcome.action = .shutdown :=
    hunix.terminated
  have hstopped' : (WebSocket.handle server id readings onWebSocket inbound).terminated
      = (reached (server.attempts id .webSocket readings onWebSocket inbound)).any
          fun a => a.outcome.action = .shutdown && a.written :=
    hwebSocket.terminated
  have hgist := gist_reached (Connection.attempts_alike readings onUnix onWebSocket 0
    (server.accept id .unix) (server.accept id .webSocket) (Inbound.payloads inbound)) hwritten
  have hmessages := congrArg (List.map Prod.fst) hgist
  rw [List.map_map, List.map_map] at hmessages
  refine ⟨htaken, htaken'.trans (hmessages.trans htaken.symm), ?_, ?_⟩
  · rw [hstopped, htaken]
    exact Connection.any_shutdown_iff
  · rw [hstopped', any_reached, Bool.and_eq_true, htaken', List.all_eq_true]
    exact and_congr_left' Connection.any_shutdown_iff

namespace Server

open Population (fresh atStart)

/-- A request that changes nothing. -/
def pingMessage : Bytes := (Envelope.mk none .ping).encode

/-- A request to stop. -/
def stopMessage : Bytes := (Envelope.mk none .shutdown).encode

set_option maxRecDepth 4000 in
lemma asksToStop_stopMessage : AsksToStop stopMessage := ⟨none, rfl⟩

/-- A request, a request to stop and another request. -/
def stopBetween : List Inbound :=
  [.message pingMessage, .message stopMessage, .message pingMessage]

/-- When every reply is written, both handlers take the first two messages and stop the server. -/
theorem handlers_go_equally_far_stopBetween :
    (Unix.handle fresh.server 0 false (fun _ => atStart) (fun _ => .sent) stopBetween).handled
      = [pingMessage, stopMessage] ∧
    (WebSocket.handle fresh.server 0 (fun _ => atStart) (fun _ => .sent) stopBetween).handled
      = [pingMessage, stopMessage] ∧
    (Unix.handle fresh.server 0 false (fun _ => atStart) (fun _ => .sent) stopBetween).terminated
      = true ∧
    (WebSocket.handle fresh.server 0 (fun _ => atStart) (fun _ => .sent) stopBetween).terminated
      = true := by
  obtain ⟨htaken, hsame, hunix, hwebSocket⟩ := handlers_go_equally_far fresh.server 0
    (fun _ => atStart) (fun _ => .sent) (fun _ => .sent) stopBetween (by decide +kernel)
    (by decide +kernel)
  have hmessages : (reached (fresh.server.attempts 0 .unix (fun _ => atStart) (fun _ => .sent)
      stopBetween)).map Attempt.message = [pingMessage, stopMessage] := by decide +kernel
  have hboth := htaken.trans hmessages
  have hasks : ∃ message ∈ [pingMessage, stopMessage], AsksToStop message :=
    ⟨stopMessage, by simp, asksToStop_stopMessage⟩
  refine ⟨hboth, hsame.trans hboth, hunix.2 ?_, hwebSocket.2 ⟨?_, by decide +kernel⟩⟩
  · rw [hboth]
    exact hasks
  · rw [hsame, hboth]
    exact hasks

/-- When the reply to a request to stop cannot be written, both handlers take it, but only the one
of the local socket stops the server. -/
theorem unwritten_stop_differs : AsksToStop stopMessage ∧
    (fresh.server.attempts 0 .unix (fun _ => atStart) (fun _ => .failed)
        [.message stopMessage]).map (fun a => (a.outcome.frames.length, a.written))
      = [(1, false)] ∧
    (fresh.server.attempts 0 .webSocket (fun _ => atStart) (fun _ => .failed)
        [.message stopMessage]).map (fun a => (a.outcome.frames.length, a.written))
      = [(1, false)] ∧
    (Unix.handle fresh.server 0 false (fun _ => atStart) (fun _ => .failed)
        [.message stopMessage]).handled = [stopMessage] ∧
    (WebSocket.handle fresh.server 0 (fun _ => atStart) (fun _ => .failed)
        [.message stopMessage]).handled = [stopMessage] ∧
    (Unix.handle fresh.server 0 false (fun _ => atStart) (fun _ => .failed)
        [.message stopMessage]).terminated = true ∧
    (WebSocket.handle fresh.server 0 (fun _ => atStart) (fun _ => .failed)
        [.message stopMessage]).terminated = false := by
  refine ⟨asksToStop_stopMessage, ?_⟩
  decide +kernel

end Server

end CodeGraph
