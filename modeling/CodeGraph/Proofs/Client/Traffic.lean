import Mathlib
import CodeGraph.Proofs.Client.Pending

/-!
# Many callers of one client

A client on WebSocket is shared by any number of callers.  A call draws the name of its request,
waits until nobody else has the sink, notes that it waits for a reply, and sends the request.
When the request is sent it gives up the sink and waits; when the request cannot be sent, it
gives up the sink and forgets that it waits.  `Traffic` is such a client with its calls, the
server, and the replies under way between them.  A `Step` is what one of them does before it may
have to wait for another, and steps come in any order.

Since the sink is held while a request is sent, requests are noted in the order in which the
server gets them.  The server answers them in that order, so the reply that comes in next is the
one to the request that was noted first and is still there (`Traffic.Orderly.inOrder`).  This is
what errors without a name depend on, which go to whoever has waited longest, and it is kept
when a request is forgotten, as that was the last one noted, and when a caller leaves, whose
name stays until the reply comes in.  So no reply goes astray
(`Traffic.Reachable.no_reply_astray`).
-/

namespace CodeGraph.Client

open Function (update)

/-! ### Calls -/

/-- How far a call has got. -/
inductive Stage where
  /-- Nobody has drawn the number. -/
  | unborn
  /-- It has a name and waits for the sink. -/
  | named
  /-- It has the sink, and the server does not have the request. -/
  | sending
  /-- It has the sink, and the server has the request. -/
  | delivered
  /-- It has the sink, and the request cannot be sent. -/
  | failed
  /-- The request is sent. -/
  | waiting
  /-- The caller has stopped waiting. -/
  | left
  /-- The request was not sent. -/
  | unsent
  /-- The connection had ended before the request could be noted. -/
  | refused
deriving DecidableEq

namespace Stage

/-- Whether the call has the sink. -/
def hasSink : Stage → Bool
  | sending | delivered | failed => true
  | _ => false

/-- Whether the request was noted among those that wait for a reply. -/
def isNoted : Stage → Bool
  | unborn | named | refused => false
  | _ => true

end Stage

/-- A reply that came in: the request that it answers, whether the caller had stopped waiting by
then, and which call got what. -/
structure Arrival where
  request : Nat
  message : Bytes
  hadLeft : Bool
  given : Option (Nat × Reply)

/-- A message answers a request: it is a reply that names the request, or an error without a
name. -/
def Answers (message : Bytes) (call : Nat) (reply : Reply) : Prop :=
  Reply.ofBytes message = .ok reply ∧ Unix.answers (requestName call) reply = true

/-- The reply was given to the caller whose request it answers, unless that caller had stopped
waiting. -/
def Arrival.IsProper (arrival : Arrival) : Prop :=
  ∃ reply, Answers arrival.message arrival.request reply ∧
    arrival.given = if arrival.hadLeft then none else some (arrival.request, reply)

/-- A client that is shared, its calls, and what is under way. -/
structure Traffic where
  client : WebSocket Nat
  stage : Nat → Stage
  /-- Who has the sink. -/
  sink : Option Nat
  /-- The calls that were noted, in that order. -/
  noted : List Nat
  /-- The requests that the server has and has not answered. -/
  received : List Nat
  /-- The replies that have not come in, each with the request that it answers. -/
  underWay : List (Nat × Bytes)
  /-- The replies that have come in. -/
  arrivals : List Arrival
  /-- The calls that were told that the connection has ended. -/
  ended : List Nat

namespace Traffic

/-- Nobody has called. -/
def start : Traffic := ⟨.start, fun _ => .unborn, none, [], [], [], [], []⟩

/-- The traffic when a message has come in.  What is given to a caller who has stopped waiting
is lost. -/
def receive (t : Traffic) (request : Nat) (message : Bytes) : Traffic :=
  let (delivered, client) := t.client.receive message
  { t with
    client
    arrivals := t.arrivals ++
      [{ request, message, hadLeft := t.stage request = .left,
         given := delivered.filter fun (receiver, _) => t.stage receiver ≠ .left }] }

/-- What can happen next. -/
inductive Step (t : Traffic) : Traffic → Prop
  /-- A new call draws its name. -/
  | draw : Step t { t with
      client := t.client.draw.2, stage := update t.stage t.client.nextId .named }
  /-- A call gets the sink and notes that it waits. -/
  | note {call client} (hstage : t.stage call = .named) (hsink : t.sink = none)
      (hclient : t.client.register (requestName call) call = .ok client) :
      Step t { t with
        client, stage := update t.stage call .sending, sink := some call
        noted := t.noted ++ [call] }
  /-- A call gets the sink after the connection has ended. -/
  | refuse {call error} (hstage : t.stage call = .named) (hsink : t.sink = none)
      (herror : t.client.register (requestName call) call = .error error) :
      Step t { t with stage := update t.stage call .refused }
  /-- The server gets a request. -/
  | deliver {call} (hstage : t.stage call = .sending) :
      Step t { t with
        stage := update t.stage call .delivered, received := t.received ++ [call] }
  /-- A call has sent its request and gives up the sink. -/
  | finish {call} (hstage : t.stage call = .delivered) :
      Step t { t with stage := update t.stage call .waiting, sink := none }
  /-- Sending fails before the server has the request. -/
  | fail {call} (hstage : t.stage call = .sending) :
      Step t { t with stage := update t.stage call .failed }
  /-- A call that failed gives up the sink and forgets that it waits.  The two are one step, as
  there is nothing between them for which the call would have to wait. -/
  | forget {call} (hstage : t.stage call = .failed) :
      Step t { t with
        client := t.client.forget (requestName call), stage := update t.stage call .unsent
        sink := none }
  /-- A caller stops waiting. -/
  | leave {call} (hstage : t.stage call = .waiting) :
      Step t { t with stage := update t.stage call .left }
  /-- The server answers the request that it got first. -/
  | answer {call received message reply} (hreceived : t.received = call :: received)
      (hreply : Answers message call reply) :
      Step t { t with received, underWay := t.underWay ++ [(call, message)] }
  /-- The reply that was sent first comes in. -/
  | arrive {call message underWay} (hunderWay : t.underWay = (call, message) :: underWay)
      (hreading : t.client.pending.isSome) :
      Step t { t.receive call message with underWay }
  /-- The connection is no longer read, and all who wait are told. -/
  | stop (hreading : t.client.pending.isSome) :
      Step t { t with client := t.client.stop.2, ended := t.client.stop.1 }

/-- What the traffic can come to. -/
inductive Reachable : Traffic → Prop
  | start : Reachable start
  | step {s t : Traffic} (h : Reachable s) (hstep : Step s t) : Reachable t

/-! ### Traffic in order -/

variable {s t : Traffic}

/-- The request that was noted and that the server does not have. -/
def unreceived (t : Traffic) : List Nat :=
  t.sink.toList.filter fun call => t.stage call ≠ .delivered

/-- The requests to which no reply has come in, in the order in which they were noted. -/
def unanswered (t : Traffic) : List Nat :=
  t.underWay.map Prod.fst ++ t.received ++ t.unreceived

/-- The requests that were noted, those that could not be sent left out. -/
def kept (t : Traffic) : List Nat :=
  t.noted.filter fun call => t.stage call ≠ .unsent

/-- Requests are answered in the order in which they were noted, and while the connection is
read, those without an answer are the ones that wait. -/
structure Orderly (t : Traffic) : Prop where
  unborn : ∀ call, t.client.nextId ≤ call → t.stage call = .unborn
  sink : ∀ call, t.sink = some call ↔ (t.stage call).hasSink = true
  noted : ∀ call, call ∈ t.noted ↔ (t.stage call).isNoted = true
  nodup : t.noted.Nodup
  inOrder : t.kept = t.arrivals.map Arrival.request ++ t.unanswered
  table : ∀ pending, t.client.pending = some pending → pending.Lists t.unanswered
  replies : ∀ reply ∈ t.underWay, ∃ found, Answers reply.2 reply.1 found
  proper : ∀ arrival ∈ t.arrivals, arrival.IsProper
  hadLeft : ∀ arrival ∈ t.arrivals, arrival.hadLeft = true → t.stage arrival.request = .left
  told : t.client.pending = none → ∀ call ∈ t.unanswered, call ∈ t.ended
  untold : ∀ call ∈ t.ended, t.client.pending = none ∧ call ∉ t.arrivals.map Arrival.request

/-- What comes last can be taken away. -/
lemma erase_last {calls : List Nat} {call : Nat} (h : (calls ++ [call]).Nodup) :
    (calls ++ [call]).erase call = calls := by
  have hnew : call ∉ calls := by simpa using List.disjoint_of_nodup_append h
  rw [List.erase_append_right _ hnew, List.erase_cons_head, List.append_nil]

namespace Orderly

variable {call : Nat} {before after : Stage}

lemma unborn_move (h : s.Orderly) (hborn : s.stage call ≠ .unborn) :
    ∀ other, s.client.nextId ≤ other → update s.stage call after other = .unborn := by
  intro other hother
  have hunborn := h.unborn other hother
  have hne : other ≠ call := by
    rintro rfl
    exact hborn hunborn
  rw [Function.update_apply, if_neg hne, hunborn]

/-- Who had the sink has given it up. -/
lemma sink_giveUp (h : s.Orderly) (hsink : s.sink = some call) (hafter : after.hasSink = false) :
    ∀ other, none = some other ↔ (update s.stage call after other).hasSink = true := by
  intro other
  have hother := h.sink other
  rw [hsink, Option.some.injEq] at hother
  rw [Function.update_apply]
  split
  · simp [hafter]
  · next hne => simp [← hother, Ne.symm hne]

/-- Who has taken the sink is alone with it. -/
lemma sink_take (h : s.Orderly) (hsink : s.sink = none) (hafter : after.hasSink = true) :
    ∀ other, some call = some other ↔ (update s.stage call after other).hasSink = true := by
  intro other
  have hother := h.sink other
  rw [hsink] at hother
  rw [Function.update_apply]
  split
  · next heq => simp [heq, hafter]
  · next hne => simp [← hother, Ne.symm hne]

/-- Who had left is not the one that moves. -/
lemma hadLeft_move (h : s.Orderly) (hleft : s.stage call ≠ .left) :
    ∀ arrival ∈ s.arrivals, arrival.hadLeft = true →
      update s.stage call after arrival.request = .left := by
  intro arrival harrival hhad
  have hthere := h.hadLeft arrival harrival hhad
  have hne : arrival.request ≠ call := by
    rintro rfl
    exact hleft hthere
  rw [Function.update_apply, if_neg hne, hthere]

lemma noted_move (h : s.Orderly) (hstage : s.stage call = before)
    (hnoted : after.isNoted = before.isNoted) :
    ∀ other, other ∈ s.noted ↔ (update s.stage call after other).isNoted = true := by
  intro other
  rw [h.noted, Function.update_apply]
  split
  · next heq => rw [heq, hstage, hnoted]
  · rfl

/-- A step of a call that changes nothing about which requests are noted, sent and unanswered. -/
lemma move (h : s.Orderly) (after : Stage) (hstage : s.stage call = before)
    (hnoted : after.isNoted = before.isNoted) (hsent : before ≠ .unsent ∧ after ≠ .unsent)
    (hleft : before ≠ .left) {client : WebSocket Nat} {sink : Option Nat} {received : List Nat}
    (hpending : client.pending = s.client.pending)
    (hunborn : ∀ other, client.nextId ≤ other → update s.stage call after other = .unborn)
    (hsink : ∀ other, sink = some other ↔ (update s.stage call after other).hasSink = true)
    (hunanswered : Traffic.unanswered
      { s with client, stage := update s.stage call after, sink, received } = s.unanswered) :
    Orderly { s with client, stage := update s.stage call after, sink, received } where
  unborn := hunborn
  sink := hsink
  noted := h.noted_move hstage hnoted
  nodup := h.nodup
  inOrder := by
    rw [hunanswered]
    refine Eq.trans (List.filter_congr fun other _ => ?_) h.inOrder
    simp only [Function.update_apply]
    split
    · next heq => simp [heq, hstage, hsent]
    · rfl
  table := by
    rw [hunanswered, hpending]
    exact h.table
  replies := h.replies
  proper := h.proper
  hadLeft := h.hadLeft_move (hstage ▸ hleft)
  told := by
    rw [hunanswered, hpending]
    exact h.told
  untold := by
    rw [hpending]
    exact h.untold

/-! ### Steps after which others wait -/

lemma nodup_unanswered (h : s.Orderly) :
    (s.arrivals.map Arrival.request ++ s.unanswered).Nodup := by
  rw [← h.inOrder]
  exact h.nodup.filter _

/-- Nobody is told that the connection has ended while it is read. -/
lemma ended_eq_nil (h : s.Orderly) {pending : Pending Nat}
    (hpending : s.client.pending = some pending) : s.ended = [] := by
  refine List.eq_nil_iff_forall_not_mem.2 fun call hcall => ?_
  have hnobody := (h.untold call hcall).1
  rw [hpending] at hnobody
  cases hnobody

/-- The request that a call notes is the last that is unanswered. -/
lemma note (h : s.Orderly) {client : WebSocket Nat} (hstage : s.stage call = .named)
    (hsink : s.sink = none) (hclient : s.client.register (requestName call) call = .ok client) :
    Orderly { s with
      client, stage := update s.stage call .sending, sink := some call
      noted := s.noted ++ [call] } := by
  have hnew : call ∉ s.noted := by
    rw [h.noted, hstage]
    decide
  have hwaits : call ∉ s.unanswered := by
    intro hmem
    have hkept := List.mem_append_right (s.arrivals.map Arrival.request) hmem
    rw [← h.inOrder] at hkept
    exact hnew (List.mem_of_mem_filter hkept)
  have hkept : Traffic.kept { s with
      client, stage := update s.stage call .sending, sink := some call
      noted := s.noted ++ [call] } = s.kept ++ [call] := by
    refine (List.filter_append ..).trans (congrArg₂ _ ?_ (by simp))
    refine List.filter_congr fun other hother => ?_
    have hne : other ≠ call := by
      rintro rfl
      exact hnew hother
    simp only [Function.update_of_ne hne]
  have hunanswered : Traffic.unanswered { s with
      client, stage := update s.stage call .sending, sink := some call
      noted := s.noted ++ [call] } = s.unanswered ++ [call] := by
    simp [unanswered, unreceived, hsink]
  unfold WebSocket.register at hclient
  cases hpending : s.client.pending with
  | none => simp [hpending] at hclient
  | some pending =>
    rw [hpending] at hclient
    obtain rfl := Except.ok.inj hclient
    refine
      { unborn := h.unborn_move (by simp [hstage]), sink := h.sink_take hsink rfl, noted := ?_
        nodup := List.concat_eq_append ▸ h.nodup.concat hnew, inOrder := ?_, table := ?_
        replies := h.replies, proper := h.proper
        hadLeft := h.hadLeft_move (by simp [hstage]), told := ?_, untold := ?_ }
    · intro other
      simp only [List.mem_append, List.mem_singleton, h.noted, Function.update_apply]
      split
      · next heq => simp [heq, Stage.isNoted]
      · next hne => simp [hne]
    · rw [hkept, hunanswered, h.inOrder, List.append_assoc]
    · rintro _ ⟨⟩
      rw [hunanswered]
      exact (h.table pending hpending).insert hwaits
    · rintro ⟨⟩
    · rw [h.ended_eq_nil hpending]
      exact fun _ hnobody => absurd hnobody List.not_mem_nil

/-- The request that cannot be sent is the last that is unanswered. -/
lemma forget (h : s.Orderly) (hstage : s.stage call = .failed) :
    Orderly { s with
      client := s.client.forget (requestName call), stage := update s.stage call .unsent
      sink := none } := by
  have hsink := (h.sink call).2 (by rw [hstage]; rfl)
  have hbefore : s.unanswered = s.underWay.map Prod.fst ++ s.received ++ [call] := by
    simp [unanswered, unreceived, hsink, hstage]
  have hafter : Traffic.unanswered { s with
      client := s.client.forget (requestName call), stage := update s.stage call .unsent
      sink := none } = s.underWay.map Prod.fst ++ s.received := by
    simp [unanswered, unreceived]
  have hkept : Traffic.kept { s with
      client := s.client.forget (requestName call), stage := update s.stage call .unsent
      sink := none } = s.kept.erase call := by
    have herase : s.kept.erase call = s.kept.filter (· != call) :=
      (h.nodup.filter _).erase_eq_filter call
    rw [herase, kept, kept, List.filter_filter]
    refine List.filter_congr fun other _ => ?_
    simp only [Function.update_apply]
    split
    · next heq => simp [heq]
    · next hne => simp [hne]
  have hnodup := h.nodup_unanswered
  rw [hbefore, ← List.append_assoc] at hnodup
  refine
    { unborn := h.unborn_move (by simp [hstage]), sink := h.sink_giveUp hsink rfl
      noted := h.noted_move hstage rfl, nodup := h.nodup, inOrder := ?_, table := ?_
      replies := h.replies, proper := h.proper
      hadLeft := h.hadLeft_move (by simp [hstage]), told := ?_, untold := ?_ }
  · rw [hkept, hafter, h.inOrder, hbefore, ← List.append_assoc, erase_last hnodup]
  · intro pending hpending
    obtain ⟨pending, hpending', rfl⟩ := Option.map_eq_some_iff.1 hpending
    have hlists := h.table pending hpending'
    rw [hbefore] at hlists
    obtain ⟨p, hremove, hp⟩ := hlists.remove (List.mem_append_right _ (List.mem_singleton_self _))
    rw [erase_last hlists.nodup] at hp
    rw [hremove, hafter]
    exact hp
  · intro hended other hother
    refine h.told (Option.map_eq_none_iff.1 hended) other ?_
    rw [hafter] at hother
    rw [hbefore]
    exact List.mem_append_left _ hother
  · intro other hother
    obtain ⟨hended, huntold⟩ := h.untold other hother
    exact ⟨Option.map_eq_none_iff.2 hended, huntold⟩

/-- The reply that comes in is the one to the request that is first among the unanswered, and
goes to whoever sent that. -/
lemma receive_eq (h : s.Orderly) {message : Bytes} {underWay : List (Nat × Bytes)}
    (hunderWay : s.underWay = (call, message) :: underWay)
    (hreading : s.client.pending.isSome) : ∃ pending arrival,
    s.receive call message = { s with
      client := { s.client with pending := some pending }, arrivals := s.arrivals ++ [arrival] } ∧
    pending.Lists (underWay.map Prod.fst ++ s.received ++ s.unreceived) ∧
    arrival.request = call ∧ arrival.IsProper ∧
    (arrival.hadLeft = true → s.stage call = .left) := by
  obtain ⟨pending, hpending⟩ := Option.isSome_iff_exists.1 hreading
  obtain ⟨reply, hreply, hanswers⟩ := h.replies (call, message) (by simp [hunderWay])
  have hlists := h.table pending hpending
  rw [unanswered, hunderWay] at hlists
  obtain ⟨p, hroute, hp⟩ := hlists.route hanswers
  have hreceive : s.client.receive message
      = (some (call, reply), { s.client with pending := some p }) := by
    simp only [WebSocket.receive, hreply, hpending, hroute, Option.map_some]
  refine ⟨p, ⟨call, message, s.stage call = .left,
    if s.stage call = .left then none else some (call, reply)⟩, ?_, hp, rfl, ?_, of_decide_eq_true⟩
  · simp only [receive, hreceive, Option.filter_some, ne_eq, decide_not, Bool.not_eq_true',
      decide_eq_false_iff_not, ite_not]
  · exact ⟨reply, ⟨hreply, hanswers⟩, by simp only [decide_eq_true_eq]⟩

lemma arrive (h : s.Orderly) {message : Bytes} {underWay : List (Nat × Bytes)}
    (hunderWay : s.underWay = (call, message) :: underWay)
    (hreading : s.client.pending.isSome) :
    Orderly { s.receive call message with underWay } := by
  obtain ⟨pending, arrival, hreceive, hlists, rfl, hproper, hhadLeft⟩ :=
    h.receive_eq hunderWay hreading
  obtain ⟨before, hpending⟩ := Option.isSome_iff_exists.1 hreading
  rw [hreceive]
  refine { h with inOrder := ?_, table := ?_, replies := ?_, proper := ?_, hadLeft := ?_
                  told := ?_, untold := ?_ }
  · refine h.inOrder.trans ?_
    rw [unanswered, hunderWay, List.map_append]
    exact (List.append_assoc _ [arrival.request] _).symm
  · rintro _ ⟨⟩
    exact hlists
  · intro other hother
    exact h.replies other (hunderWay ▸ List.mem_cons_of_mem _ hother)
  · intro other hother
    rcases List.mem_append.1 hother with hold | hnew
    · exact h.proper other hold
    · exact List.mem_singleton.1 hnew ▸ hproper
  · intro other hother hhad
    rcases List.mem_append.1 hother with hold | hnew
    · exact h.hadLeft other hold hhad
    · obtain rfl := List.mem_singleton.1 hnew
      exact hhadLeft hhad
  · rintro ⟨⟩
  · rw [h.ended_eq_nil hpending]
    exact fun _ hnobody => absurd hnobody List.not_mem_nil

/-- All who wait are told that the connection has ended. -/
lemma stop (h : s.Orderly) (hreading : s.client.pending.isSome) :
    Orderly { s with client := s.client.stop.2, ended := s.client.stop.1 } := by
  obtain ⟨pending, hpending⟩ := Option.isSome_iff_exists.1 hreading
  have htold : s.client.stop.1 = s.unanswered := by
    simp only [WebSocket.stop, hpending, Option.map_some, Option.getD_some]
    exact (h.table pending hpending).toList
  refine { h with table := ?_, told := ?_, untold := ?_ }
  · rintro _ ⟨⟩
  · intro _ other hother
    rw [htold]
    exact hother
  · intro other hother
    rw [htold] at hother
    exact ⟨rfl, fun harrived =>
      List.disjoint_of_nodup_append h.nodup_unanswered harrived hother⟩

/-- Answering changes nothing about what is unanswered, as the answer is still to come in. -/
lemma answer (h : s.Orderly) {received : List Nat} {message : Bytes} {reply : Reply}
    (hreceived : s.received = call :: received) (hreply : Answers message call reply) :
    Orderly { s with received, underWay := s.underWay ++ [(call, message)] } := by
  have hunanswered : Traffic.unanswered
      { s with received, underWay := s.underWay ++ [(call, message)] } = s.unanswered := by
    simp [unanswered, unreceived, hreceived]
  refine { h with inOrder := ?_, table := ?_, replies := ?_, told := ?_ }
  · rw [hunanswered]
    exact h.inOrder
  · rw [hunanswered]
    exact h.table
  · intro answer hanswer
    rcases List.mem_append.1 hanswer with hold | hnew
    · exact h.replies answer hold
    · obtain rfl := List.mem_singleton.1 hnew
      exact ⟨reply, hreply⟩
  · rw [hunanswered]
    exact h.told

end Orderly

/-- Whenever nobody has the sink and the connection is read, another call can have it. -/
lemma Reachable.noteNext (h : Reachable t) {pending : Pending Nat}
    (hpending : t.client.pending = some pending) (hsink : t.sink = none) :
    Reachable { t with
      client := ⟨some (pending.insert (requestName t.client.nextId) t.client.nextId),
        t.client.nextId + 1⟩
      stage := update t.stage t.client.nextId .sending
      sink := some t.client.nextId
      noted := t.noted ++ [t.client.nextId] } := by
  have hnamed := h.step .draw
  have hclient : t.client.draw.2.register (requestName t.client.nextId) t.client.nextId
      = .ok ⟨some (pending.insert (requestName t.client.nextId) t.client.nextId),
        t.client.nextId + 1⟩ := by
    simp only [WebSocket.register, WebSocket.draw, hpending]
  have hnoted := hnamed.step (.note (Function.update_self ..) hsink hclient)
  simpa only [Function.update_idem] using hnoted

/-- The request of such a call can be sent. -/
lemma Reachable.call (h : Reachable t) {pending : Pending Nat}
    (hpending : t.client.pending = some pending) (hsink : t.sink = none) :
    Reachable { t with
      client := ⟨some (pending.insert (requestName t.client.nextId) t.client.nextId),
        t.client.nextId + 1⟩
      stage := update t.stage t.client.nextId .waiting
      sink := none
      noted := t.noted ++ [t.client.nextId]
      received := t.received ++ [t.client.nextId] } := by
  have hdelivered := (h.noteNext hpending hsink).step (.deliver (Function.update_self ..))
  have hfinished := hdelivered.step (.finish (Function.update_self ..))
  simpa only [Function.update_idem] using hfinished

end Traffic

end CodeGraph.Client
