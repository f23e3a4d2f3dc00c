import Mathlib
import CodeGraph.Proofs.Server.Population

/-!
# Opening a database in two steps

To open a database, a client first looks it up, which may read it from the disk, and then
attaches its session to what was found.  Anything can happen in between, also that the database
is dropped, or that it is ephemeral and its last user leaves it: looking up counts nobody as a
user.  A `Crowd` is a population in which the two steps are apart.

All goes well exactly as long as nobody attaches to a database that has lost its name since it
was looked up (`Crowd.settled_iff_timely`).  What is attached too late is no longer registered,
and when it is left, the name is taken from whatever has it by then
(`Crowd.late_attach_unregisters`).
-/

namespace CodeGraph

open Std (ExtTreeMap)
open Catalog

/-- Whether a database is the one that is registered under its name. -/
def Catalog.IsNamed (c : Catalog) (handle : Handle) : Prop :=
  ∃ db, c.database? handle = some db ∧ c.registered[db.name]? = some handle

/-- A population, and for each client what it has looked up and not attached to yet. -/
structure Crowd where
  population : Population
  found : Nat → Option (Handle × AccessMode)

namespace Crowd

/-- What happens in a crowd: a client looks up a database or attaches to what it has found, or
something happens that takes one step only. -/
inductive Turn where
  | lookUp (client : Nat) (name : String) (mode : AccessMode)
  | attach (client : Nat)
  | event (event : Population.Event)

/-- Attaches a session to a database. -/
def attachTo (handle : Handle) (mode : AccessMode) (server : Server) (conn : Connection) :
    Connection × Server :=
  let (session, catalog) := conn.session.openDatabase server.catalog handle mode
  ({ conn with session := session }, server.withCatalog catalog)

/-- A crowd after a turn. -/
def step (crowd : Crowd) : Turn → Crowd
  | .lookUp client name mode =>
    let (result, catalog) := crowd.population.server.catalog.getDatabase name
    { population := { crowd.population with
        server := crowd.population.server.withCatalog catalog }
      found := Function.update crowd.found client (result.toOption.map (·, mode)) }
  | .attach client =>
    match crowd.found client with
    | some (handle, mode) =>
      { population := crowd.population.serve client (attachTo handle mode)
        found := Function.update crowd.found client none }
    | none => crowd
  | .event event => { crowd with population := crowd.population.step event }

/-- A crowd after turns in order. -/
def after (crowd : Crowd) (turns : List Turn) : Crowd :=
  turns.foldl step crowd

/-- Every session that has a database open has the one that is registered under its name. -/
def Settled (crowd : Crowd) : Prop :=
  ∀ conn ∈ crowd.population.connections, ∀ handle, conn.session.current = some handle →
    crowd.population.server.catalog.IsNamed handle

/-- A turn is in time when it does not attach a client to a database that has lost its name. -/
def Timely (crowd : Crowd) (turn : Turn) : Prop :=
  ∀ client < crowd.population.connections.length, turn = .attach client →
    ∀ handle mode, crowd.found client = some (handle, mode) →
      crowd.population.server.catalog.IsNamed handle

/-- The server has counted the users. -/
def Counted (crowd : Crowd) : Prop :=
  crowd.population.server.catalog.Balanced crowd.population.users

variable {crowd : Crowd}

/-- Where the users are counted, what they use has its name. -/
lemma Counted.settled (h : crowd.Counted) : crowd.Settled := by
  intro conn hconn handle hcurrent
  have hused : 0 < crowd.population.users handle :=
    List.countP_pos_iff.2 ⟨conn, hconn, by simp [hcurrent]⟩
  exact h.inUse hused

/-! ### Turns in time -/

/-- The crowd after a client that is there has attached to what it has found. -/
lemma step_attach {client : Nat} {conn : Connection} {handle : Handle} {mode : AccessMode}
    (hconn : crowd.population.connections[client]? = some conn)
    (hfound : crowd.found client = some (handle, mode)) :
    (crowd.step (.attach client)).population
      = ⟨(attachTo handle mode crowd.population.server conn).2, crowd.population.connections.set
          client (attachTo handle mode crowd.population.server conn).1⟩ := by
  simp only [step, hfound, Population.serve, hconn]

/-- A turn in time keeps the count of users.  A name is lost only by the database that is
dropped while nobody uses it, and by an ephemeral one that its last user leaves. -/
lemma Counted.step (h : crowd.Counted) {turn : Turn} (htimely : crowd.Timely turn) :
    (crowd.step turn).Counted ∧ ∀ {name : String} {handle : Handle},
      crowd.population.server.catalog.registered[name]? = some handle →
      (crowd.step turn).population.server.catalog.registered[name]? ≠ some handle →
      (∃ event, turn = .event event ∧ crowd.population.Drops name event ∧
        crowd.population.users handle = 0) ∨
      crowd.population.server.catalog.IsEphemeral handle ∧ 0 < crowd.population.users handle ∧
        (crowd.step turn).population.users handle = 0 := by
  cases turn with
  | lookUp client name mode =>
    rcases hfound : crowd.population.server.catalog.getDatabase name with ⟨failure | handle, c⟩
    · -- What is not found changes nothing.
      obtain rfl := getDatabase_error hfound
      simp only [Counted, Crowd.step, hfound]
      exact ⟨h, fun hname hgone => absurd hname hgone⟩
    · obtain ⟨hbalanced, hbecomes, -⟩ := Balanced.getDatabase h hfound
      simp only [Counted, Crowd.step, hfound]
      exact ⟨hbalanced, fun hname hgone =>
        absurd ((hbecomes.registered hname).2 (Set.notMem_empty _)) hgone⟩
  | attach client =>
    cases hfound : crowd.found client with
    | none =>
      simp only [Crowd.step, hfound]
      exact ⟨h, fun hname hgone => absurd hname hgone⟩
    | some pair =>
      obtain ⟨handle, mode⟩ := pair
      cases hconn : crowd.population.connections[client]? with
      | none =>
        simp only [Counted, Crowd.step, hfound, Population.serve, hconn]
        exact ⟨h, fun hname hgone => absurd hname hgone⟩
      | some conn =>
        obtain ⟨hclient, -⟩ := List.getElem?_eq_some_iff.1 hconn
        obtain ⟨db, -, hnamed⟩ := htimely client hclient rfl handle mode hfound
        unfold Counted at h ⊢
        rw [Population.users_eq hconn] at h ⊢
        rw [step_attach hconn hfound, Population.users_set hconn]
        obtain ⟨hbalanced, hbecomes, hcurrent⟩ := Session.openDatabase_spec h hnamed mode
        rw [← hcurrent] at hbalanced hbecomes
        refine ⟨hbalanced, fun {name other} hname hgone => .inr ?_⟩
        change ¬ (conn.session.openDatabase crowd.population.server.catalog handle
          mode).2.registered[name]? = some other at hgone
        rw [hbecomes.registered hname, not_not] at hgone
        exact Session.mem_abandons_iff.1 hgone
  | event event =>
    refine ⟨Population.balanced_step h event, fun {name handle} hname hgone => ?_⟩
    have hiff := Population.registered_step h event hname
    by_cases hdropped : crowd.population.Drops name event ∧
        (crowd.population.server.catalog.dropDatabase name).1 = .ok ()
    · obtain ⟨found, hfound, hzero⟩ := Balanced.users_eq_zero_of_dropDatabase h hdropped.2
      obtain rfl := Option.some.inj (hname.symm.trans hfound)
      exact .inl ⟨event, rfl, hdropped.1, hzero⟩
    · refine .inr ?_
      by_contra hkept
      exact hgone (hiff.2 ⟨hkept, hdropped⟩)

/-! ### Turns that are too late -/

/-- Whatever a session attaches to, no name is given to anything. -/
lemma openDatabase_becomes {c : Catalog} {others : Handle → Nat} {s : Session}
    (h : c.Balanced (withSession others s.current)) (handle : Handle) (mode : AccessMode) :
    ∃ gone, Becomes c (s.openDatabase c handle mode).2 ∅ gone ∅ := by
  unfold Session.openDatabase
  split
  · exact ⟨∅, .refl c⟩
  · obtain ⟨-, hleft, -⟩ := Session.closeDatabase_spec h
    have hattach : Becomes (s.closeDatabase c).2 ((s.closeDatabase c).2.attach handle) ∅ ∅ ∅ :=
      .modify_same _ handle (fun _ => rfl) (fun _ => rfl) fun db _ => .refl db.graph
    exact ⟨_, (hleft.trans hattach).mono (by simp) rfl le_rfl⟩

/-- A session that attaches to a database has it open. -/
lemma openDatabase_current (s : Session) (c : Catalog) (handle : Handle) (mode : AccessMode) :
    (s.openDatabase c handle mode).1.current = some handle := by
  unfold Session.openDatabase
  split
  · next hsame => exact hsame
  · rfl

/-- If a crowd is settled after a turn, the turn was in time: attaching gives no names, so what
has its name afterwards had it before. -/
lemma Counted.timely_of_settled (h : crowd.Counted) {turn : Turn}
    (hsettled : (crowd.step turn).Settled) : crowd.Timely turn := by
  rintro client hclient rfl handle mode hfound
  have hconn := List.getElem?_eq_getElem hclient
  set conn := crowd.population.connections[client] with hdef
  have hmember : (attachTo handle mode crowd.population.server conn).1
      ∈ (crowd.step (.attach client)).population.connections := by
    rw [step_attach hconn hfound]
    exact List.mem_set hclient _
  have hcurrent : (attachTo handle mode crowd.population.server conn).1.session.current
      = some handle :=
    openDatabase_current conn.session crowd.population.server.catalog handle mode
  obtain ⟨db', hdb', hname'⟩ := hsettled _ hmember handle hcurrent
  rw [step_attach hconn hfound] at hname'
  have hcounted := h
  unfold Counted at hcounted
  rw [Population.users_eq hconn] at hcounted
  obtain ⟨gone, hbecomes⟩ := openDatabase_becomes hcounted handle mode
  rcases hbecomes.added hname' with hbefore | ⟨-, hnever⟩
  · obtain ⟨db, hdb, hname⟩ := Balanced.registered h hbefore
    exact ⟨db, hdb, hname ▸ hbefore⟩
  · exact absurd hnever (Set.notMem_empty _)

/-! ### Whole runs -/

/-- The crowd after one more turn. -/
lemma after_take_succ {turns : List Turn} {n : Nat} {turn : Turn} (hturn : turns[n]? = some turn) :
    crowd.after (turns.take (n + 1)) = (crowd.after (turns.take n)).step turn := by
  unfold after
  rw [List.take_add_one, hturn, Option.toList_some, List.foldl_append]
  rfl

/-- As long as all turns are in time, the users are counted. -/
lemma Counted.after (h : crowd.Counted) {turns : List Turn}
    (htimely : ∀ (n : Nat) (turn : Turn), turns[n]? = some turn →
      (crowd.after (turns.take n)).Counted → (crowd.after (turns.take n)).Timely turn) (n : Nat) :
    (crowd.after (turns.take n)).Counted := by
  induction n with
  | zero => exact h
  | succ n ih =>
    cases hturn : turns[n]? with
    | none =>
      have hlength : turns.length ≤ n := List.getElem?_eq_none_iff.1 hturn
      rw [List.take_of_length_le (by omega)]
      rwa [List.take_of_length_le hlength] at ih
    | some turn =>
      rw [after_take_succ hturn]
      exact (ih.step (htimely n turn hturn ih)).1

/-- In every run of a crowd, each session always has the very database open that is registered
under its name, if and only if every client attaches to what it has looked up while that still
has its name.  And then no database ever loses its name but one that is dropped while nobody
uses it, and an ephemeral one that its own last user leaves. -/
theorem settled_iff_timely (h : crowd.population.Reachable) (turns : List Turn) :
    ((∀ n, (crowd.after (turns.take n)).Settled) ↔
      ∀ (n : Nat) (turn : Turn), turns[n]? = some turn →
        (crowd.after (turns.take n)).Timely turn) ∧
    ((∀ n, (crowd.after (turns.take n)).Settled) →
      ∀ (n : Nat) (turn : Turn), turns[n]? = some turn → ∀ (name : String) (handle : Handle),
        (crowd.after (turns.take n)).population.server.catalog.registered[name]? = some handle →
        (crowd.after (turns.take (n + 1))).population.server.catalog.registered[name]?
          ≠ some handle →
        (∃ event, turn = .event event ∧
          (crowd.after (turns.take n)).population.Drops name event ∧
          (crowd.after (turns.take n)).population.users handle = 0) ∨
        (crowd.after (turns.take n)).population.server.catalog.IsEphemeral handle ∧
          0 < (crowd.after (turns.take n)).population.users handle ∧
          (crowd.after (turns.take (n + 1))).population.users handle = 0) := by
  have hcounted : crowd.Counted := h.balanced
  -- A settled moment shows that the turn before it was in time, which keeps the count.
  have hstep : (∀ n, (crowd.after (turns.take n)).Settled) →
      ∀ (n : Nat) (turn : Turn), turns[n]? = some turn →
        (crowd.after (turns.take n)).Counted → (crowd.after (turns.take n)).Timely turn := by
    intro hsettled n turn hturn hbefore
    have hnext := hsettled (n + 1)
    rw [after_take_succ hturn] at hnext
    exact hbefore.timely_of_settled hnext
  refine ⟨⟨fun hsettled n turn hturn => ?_, fun htimely n => ?_⟩, ?_⟩
  · exact hstep hsettled n turn hturn (hcounted.after (hstep hsettled) n)
  · exact (hcounted.after (fun n turn hturn _ => htimely n turn hturn) n).settled
  · intro hsettled n turn hturn name handle hname hgone
    have hbefore := hcounted.after (hstep hsettled) n
    rw [after_take_succ hturn] at hgone ⊢
    exact (hbefore.step (hstep hsettled n turn hturn hbefore)).2 hname hgone

/-! ### Too late by one turn -/

/-- Two clients, neither of which has anything open, and an ephemeral database. -/
def waiting : Crowd where
  population := [.accept .unix, .accept .unix,
    .request 0 Population.atStart (.createDatabase "shared" true)].foldl Population.step
      Population.fresh
  found := fun _ => none

lemma reachable_waiting : waiting.population.Reachable :=
  (Population.Reachable.start rfl).steps _

/-- A client looks a database up and attaches to it; then nobody can drop it. -/
def inTime : List Turn :=
  [.lookUp 1 "shared" .readWrite, .attach 1,
    .event (.request 0 Population.atStart (.dropDatabase "shared"))]

/-- A client looks a database up, and attaches to it after it was dropped.  Another database
gets the name before the client leaves. -/
def tooLate : List Turn :=
  [.lookUp 1 "shared" .readWrite,
    .event (.request 0 Population.atStart (.dropDatabase "shared")), .attach 1,
    .event (.request 0 Population.atStart (.createDatabase "shared" true)), .event (.close 1)]

theorem settled_inTime : waiting.population.Reachable ∧
    (∀ n, (waiting.after (inTime.take n)).Settled) ∧
    (waiting.after inTime).population.server.catalog.registered["shared"]? = some 0 ∧
    (waiting.after inTime).population.users 0 = 1 := by
  obtain ⟨hiff, -⟩ := settled_iff_timely reachable_waiting inTime
  refine ⟨reachable_waiting, hiff.2 fun n turn hturn => ?_, by decide +kernel, by decide +kernel⟩
  rintro client - rfl handle mode hfound
  match n, hturn with
  | 1, hturn =>
    obtain rfl : client = 1 := by simpa [inTime, eq_comm] using hturn
    have hhandle : ((waiting.after (inTime.take 1)).found 1).map Prod.fst = some 0 := by
      decide +kernel
    rw [hfound, Option.map_some] at hhandle
    obtain rfl := Option.some.inj hhandle
    have hname : ((waiting.after (inTime.take 1)).population.server.catalog.database? 0).map
        Database.name = some "shared" := by decide +kernel
    obtain ⟨db, hdb, hshared⟩ := Option.map_eq_some_iff.1 hname
    refine ⟨db, hdb, ?_⟩
    rw [hshared]
    decide +kernel
  | 0, hturn => simp [inTime] at hturn
  | 2, hturn => simp [inTime] at hturn
  | n + 3, hturn => simp [inTime] at hturn

/-- A client that attaches too late has a database open that is not registered, and when it
leaves, another database loses its name. -/
theorem late_attach_unregisters : waiting.population.Reachable ∧
    (∃ conn ∈ (waiting.after (tooLate.take 3)).population.connections,
      conn.session.current = some 0) ∧
    (waiting.after (tooLate.take 3)).population.server.catalog.registered["shared"]? = none ∧
    ¬ (waiting.after (tooLate.take 3)).Settled ∧
    tooLate[4]? = some (.event (.close 1)) ∧
    (waiting.after (tooLate.take 4)).population.server.catalog.registered["shared"]? = some 1 ∧
    (waiting.after (tooLate.take 4)).population.users 1 = 0 ∧
    (waiting.after tooLate).population.server.catalog.registered["shared"]? = none := by
  have hcurrent : ((waiting.after (tooLate.take 3)).population.connections[1]?).map
      (fun conn => conn.session.current) = some (some 0) := by decide +kernel
  obtain ⟨conn, hconn, hopen⟩ := Option.map_eq_some_iff.1 hcurrent
  have hmember := List.mem_of_getElem? hconn
  have hlost : (waiting.after (tooLate.take 3)).population.server.catalog.registered["shared"]?
      = none := by decide +kernel
  refine ⟨reachable_waiting, ⟨conn, hmember, hopen⟩, hlost, fun hsettled => ?_, rfl,
    by decide +kernel, by decide +kernel, by decide +kernel⟩
  have hname : ((waiting.after (tooLate.take 3)).population.server.catalog.database? 0).map
      Database.name = some "shared" := by decide +kernel
  obtain ⟨db, hdb, hregistered⟩ := hsettled conn hmember 0 hopen
  rw [hdb, Option.map_some] at hname
  rw [Option.some.inj hname, hlost] at hregistered
  simp at hregistered

end Crowd

end CodeGraph
