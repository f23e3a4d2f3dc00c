import Mathlib
import CodeGraph.Proofs.Graph.Run
import CodeGraph.Session

/-!
# Databases and their users

Two things are said of every operation on a catalog.

* `Catalog.Balanced` : the counts of connections are the numbers of users, and what is in
  use is registered under its name.  Every operation keeps the balance, where a session that
  comes or goes is one user more or less.
* `Catalog.Becomes` : which databases an operation may change, which ones lose their names,
  and which names it may give to new ones.  Whatever is not named is as it was.

`Session.closeDatabase_spec` and `Session.openDatabase_spec` say both of a session that leaves
its database or goes to another one.
-/

namespace CodeGraph

open Std (ExtTreeMap)

/-- Graphs that hold the same: only the counts of changes since the last flush may differ. -/
def Graph.SameData (g g' : Graph) : Prop :=
  g' = { g with unflushed := g'.unflushed }

namespace Graph.SameData

lemma refl (g : Graph) : g.SameData g := rfl

lemma trans {g g' g'' : Graph} (h : g.SameData g') (h' : g'.SameData g'') : g.SameData g'' := by
  unfold SameData at *
  rw [h', h]

/-- Flushing changes nothing but the count of changes. -/
lemma of_flush {g g' : Graph} {disk : Disk} (h : (g.flush disk).1 = .ok g') : g.SameData g' := by
  obtain rfl := flush_fst_eq_ok h
  rfl

end Graph.SameData

namespace Catalog

variable {c c' c'' : Catalog} {users others : Handle → Nat}

/-! ### Looking up -/

lemma database?_modify (c : Catalog) (handle : Handle) (f : Database → Database)
    (other : Handle) : (c.modify handle f).database? other =
      if handle = other then (c.database? handle).map f else c.database? other := by
  simp [modify, database?, ExtTreeMap.getElem?_modify]

lemma database?_register (c : Catalog) (name : String) (graph : Graph) (ephemeral : Bool)
    (other : Handle) : (c.register name graph ephemeral).2.database? other =
      if c.nextHandle = other then some ⟨name, graph, ephemeral, 0⟩ else c.database? other := by
  simp [register, database?, ExtTreeMap.getElem?_insert]

lemma registered_register (c : Catalog) (name : String) (graph : Graph) (ephemeral : Bool)
    (other : String) : (c.register name graph ephemeral).2.registered[other]? =
      if name = other then some c.nextHandle else c.registered[other]? := by
  simp [register, ExtTreeMap.getElem?_insert]

lemma isRegistered_eq_false_iff {name : String} :
    c.isRegistered name = false ↔ c.registered[name]? = none := by
  rw [isRegistered, ExtTreeMap.contains_eq_isSome_getElem?, Option.isSome_eq_false_iff,
    Option.isNone_iff_eq_none]

/-- Whether a handle is that of an ephemeral database. -/
def IsEphemeral (c : Catalog) (handle : Handle) : Prop :=
  ∃ db, c.database? handle = some db ∧ db.ephemeral = true

/-! ### What becomes of the databases -/

/-- What becomes of the databases of a catalog: all are there with their names and kinds, and
only those that are `touched` may hold something else; the registered ones stay registered
but for those that are `gone`; and only names that are `added` may be given to new ones. -/
structure Becomes (c c' : Catalog) (touched gone : Set Handle) (added : Set String) : Prop where
  database : ∀ {handle : Handle} {db : Database}, c.database? handle = some db →
    ∃ db', c'.database? handle = some db' ∧ db'.name = db.name ∧ db'.ephemeral = db.ephemeral ∧
      (handle ∉ touched → db.graph.SameData db'.graph)
  registered : ∀ {name : String} {handle : Handle}, c.registered[name]? = some handle →
    (c'.registered[name]? = some handle ↔ handle ∉ gone)
  added : ∀ {name : String} {handle : Handle}, c'.registered[name]? = some handle →
    c.registered[name]? = some handle ∨ c.database? handle = none ∧ name ∈ added

namespace Becomes

variable {touched touched' gone gone' : Set Handle} {added added' : Set String}

lemma refl (c : Catalog) : Becomes c c ∅ ∅ ∅ where
  database {_ db} h := ⟨db, h, rfl, rfl, fun _ => .refl _⟩
  registered h := by simp [h]
  added h := .inl h

lemma mono (h : Becomes c c' touched gone added) (htouched : touched ⊆ touched')
    (hgone : gone = gone') (hadded : added ⊆ added') : Becomes c c' touched' gone' added' where
  database hdb := by
    obtain ⟨db', hdb', hname, hephemeral, hsame⟩ := h.database hdb
    exact ⟨db', hdb', hname, hephemeral, fun hhandle => hsame fun hmem => hhandle (htouched hmem)⟩
  registered := hgone ▸ h.registered
  added hname := (h.added hname).imp_right fun ⟨hnew, hmem⟩ => ⟨hnew, hadded hmem⟩

lemma trans (h : Becomes c c' touched gone added) (h' : Becomes c' c'' touched' gone' ∅) :
    Becomes c c'' (touched ∪ touched') (gone ∪ gone') added where
  database hdb := by
    obtain ⟨db', hdb', hname, hephemeral, hsame⟩ := h.database hdb
    obtain ⟨db'', hdb'', hname', hephemeral', hsame'⟩ := h'.database hdb'
    refine ⟨db'', hdb'', hname'.trans hname, hephemeral'.trans hephemeral, fun hhandle => ?_⟩
    rw [Set.mem_union, not_or] at hhandle
    exact (hsame hhandle.1).trans (hsame' hhandle.2)
  registered {name handle} hname := by
    -- The second step adds no names, so what the first one took away does not come back.
    rw [Set.mem_union, not_or, ← h.registered hname]
    constructor
    · intro hafter
      rcases h'.added hafter with hbetween | ⟨-, hempty⟩
      · exact ⟨hbetween, (h'.registered hbetween).1 hafter⟩
      · exact hempty.elim
    · rintro ⟨hbetween, hstays⟩
      exact (h'.registered hbetween).2 hstays
  added hname := by
    rcases h'.added hname with hbetween | ⟨-, hempty⟩
    · exact h.added hbetween
    · exact hempty.elim

/-- A database stays of its kind. -/
lemma isEphemeral_iff (h : Becomes c c' touched gone added) {handle : Handle} {db : Database}
    (hdb : c.database? handle = some db) : c'.IsEphemeral handle ↔ c.IsEphemeral handle := by
  obtain ⟨db', hdb', -, hephemeral, -⟩ := h.database hdb
  simp [IsEphemeral, hdb, hdb', hephemeral]

/-- Catalogs that differ in nothing but their disks. -/
lemma withDisk (c : Catalog) (disk : Disk) : Becomes c { c with disk := disk } ∅ ∅ ∅ where
  database {_ db} h := ⟨db, h, rfl, rfl, fun _ => .refl _⟩
  registered h := by simp [h]
  added h := .inl h

/-- One database is changed. -/
lemma modify (c : Catalog) (handle : Handle) {f : Database → Database}
    (hname : ∀ db, (f db).name = db.name) (hephemeral : ∀ db, (f db).ephemeral = db.ephemeral) :
    Becomes c (c.modify handle f)
      {other | other = handle ∧ ∃ db, c.database? handle = some db ∧
        ¬ db.graph.SameData (f db).graph} ∅ ∅ where
  database {other db} hdb := by
    by_cases heq : handle = other
    · subst heq
      refine ⟨f db, ?_, hname db, hephemeral db, fun hsame => ?_⟩
      · rw [database?_modify, if_pos rfl, hdb, Option.map_some]
      · by_contra hdiffers
        exact hsame ⟨rfl, db, hdb, hdiffers⟩
    · refine ⟨db, ?_, rfl, rfl, fun _ => .refl _⟩
      rw [database?_modify, if_neg heq]
      exact hdb
  registered h := by simp [Catalog.modify, h]
  added h := .inl h

/-- One database is changed in nothing that matters. -/
lemma modify_same (c : Catalog) (handle : Handle) {f : Database → Database}
    (hname : ∀ db, (f db).name = db.name) (hephemeral : ∀ db, (f db).ephemeral = db.ephemeral)
    (hgraph : ∀ db, c.database? handle = some db → db.graph.SameData (f db).graph) :
    Becomes c (c.modify handle f) ∅ ∅ ∅ := by
  refine (modify c handle hname hephemeral).mono ?_ rfl le_rfl
  rintro other ⟨-, db, hdb, hdiffers⟩
  exact hdiffers (hgraph db hdb)

end Becomes

/-! ### Counting users -/

/-- The users of each database are counted, and those that are in use are registered. -/
structure Balanced (users : Handle → Nat) (c : Catalog) : Prop where
  registered : ∀ {name : String} {handle : Handle}, c.registered[name]? = some handle →
    ∃ db, c.database? handle = some db ∧ db.name = name
  fresh : ∀ {handle : Handle}, c.nextHandle ≤ handle → c.database? handle = none
  counted : ∀ {handle : Handle} {db : Database}, c.database? handle = some db →
    db.connections = users handle
  inUse : ∀ {handle : Handle}, 0 < users handle →
    ∃ db, c.database? handle = some db ∧ c.registered[db.name]? = some handle

/-- The users of each database, those of other sessions being known. -/
def withSession (others : Handle → Nat) (current : Option Handle) (handle : Handle) : Nat :=
  others handle + if current = some handle then 1 else 0

@[simp] lemma withSession_none : withSession others none = others := by
  funext handle
  simp [withSession]

@[simp] lemma withSession_self (handle : Handle) :
    withSession others (some handle) handle = others handle + 1 := by
  simp [withSession]

lemma withSession_pos (others : Handle → Nat) (handle : Handle) :
    0 < withSession others (some handle) handle := by
  rw [withSession_self]
  exact Nat.succ_pos _

lemma withSession_of_ne {handle other : Handle} (h : other ≠ handle) :
    withSession others (some handle) other = others other := by
  have hne : ¬ handle = other := fun heq => h heq.symm
  simp [withSession, hne]

lemma balanced_empty (base : Path) (disk : Disk) : Balanced (fun _ => 0) (empty base disk) where
  registered h := by simp [empty] at h
  fresh _ := by simp [empty, database?]
  counted h := by simp [empty, database?] at h
  inUse h := by simp at h

namespace Balanced

/-- A database is registered under its own name only. -/
lemma name_eq (h : c.Balanced users) {name : String} {handle : Handle} {db : Database}
    (hname : c.registered[name]? = some handle) (hdb : c.database? handle = some db) :
    db.name = name := by
  obtain ⟨found, hfound, rfl⟩ := h.registered hname
  rw [hdb] at hfound
  rw [Option.some.inj hfound]

lemma withDisk (h : c.Balanced users) (disk : Disk) :
    Balanced users { c with disk := disk } :=
  ⟨h.registered, h.fresh, h.counted, h.inUse⟩

/-- One database is changed and its users with it. -/
lemma modify (h : c.Balanced users) {users' : Handle → Nat} {handle : Handle}
    {f : Database → Database} (hname : ∀ db, (f db).name = db.name)
    (hcount : ∀ db, c.database? handle = some db → (f db).connections = users' handle)
    (hothers : ∀ other ≠ handle, users' other = users other)
    (huse : 0 < users' handle →
      ∃ db, c.database? handle = some db ∧ c.registered[db.name]? = some handle) :
    Balanced users' (c.modify handle f) where
  registered {name other} hregistered := by
    obtain ⟨db, hdb, rfl⟩ := h.registered hregistered
    rw [database?_modify]
    by_cases heq : handle = other
    · subst heq
      exact ⟨f db, by rw [if_pos rfl, hdb, Option.map_some], hname db⟩
    · exact ⟨db, by rw [if_neg heq, hdb], rfl⟩
  fresh {other} hother := by
    have hnone := h.fresh hother
    rw [database?_modify]
    by_cases heq : handle = other
    · subst heq
      rw [if_pos rfl, hnone, Option.map_none]
    · rw [if_neg heq, hnone]
  counted {other db} hdb := by
    rw [database?_modify] at hdb
    by_cases heq : handle = other
    · subst heq
      rw [if_pos rfl, Option.map_eq_some_iff] at hdb
      obtain ⟨old, hold, rfl⟩ := hdb
      exact hcount old hold
    · rw [if_neg heq] at hdb
      rw [hothers other fun h => heq h.symm]
      exact h.counted hdb
  inUse {other} hother := by
    rw [database?_modify]
    by_cases heq : handle = other
    · subst heq
      obtain ⟨db, hdb, hregistered⟩ := huse hother
      refine ⟨f db, by rw [if_pos rfl, hdb, Option.map_some], ?_⟩
      rw [hname]
      exact hregistered
    · rw [hothers other fun h => heq h.symm] at hother
      obtain ⟨db, hdb, hregistered⟩ := h.inUse hother
      exact ⟨db, by rw [if_neg heq, hdb], hregistered⟩

/-- The graph of a database is changed. -/
lemma modifyGraph (h : c.Balanced users) (handle : Handle) (graph : Graph) :
    Balanced users (c.modify handle fun db => { db with graph := graph }) :=
  h.modify (fun _ => rfl) (fun db hdb => (h.counted hdb : db.connections = users handle))
    (fun _ _ => rfl) h.inUse

/-- A registered database gains a user. -/
lemma attach (h : c.Balanced others) {name : String} {handle : Handle}
    (hname : c.registered[name]? = some handle) :
    Balanced (withSession others (some handle)) (c.attach handle) := by
  refine h.modify (fun _ => rfl) (fun db hdb => ?_) (fun _ hother => withSession_of_ne hother) ?_
  · rw [withSession_self, h.counted hdb]
  · intro _
    obtain ⟨db, hdb, rfl⟩ := h.registered hname
    exact ⟨db, hdb, hname⟩

/-- A database loses a user. -/
lemma detach {handle : Handle} (h : c.Balanced (withSession others (some handle))) :
    Balanced others (c.detach handle) := by
  have huse := h.inUse (withSession_pos others handle)
  refine h.modify (fun _ => rfl) (fun db hdb => ?_) (fun _ hother => ?_) fun _ => huse
  · have hcount := h.counted hdb
    rw [withSession_self] at hcount
    change db.connections - 1 = others handle
    omega
  · exact (withSession_of_ne hother).symm

/-- A name that no database in use has is given up. -/
lemma unregister (h : c.Balanced users) {name : String}
    (hunused : ∀ handle, c.registered[name]? = some handle → users handle = 0) :
    Balanced users { c with registered := c.registered.erase name } where
  registered {other handle} hother := by
    simp only [ExtTreeMap.getElem?_erase] at hother
    split at hother
    · simp at hother
    · exact h.registered hother
  fresh := h.fresh
  counted := h.counted
  inUse {handle} hhandle := by
    obtain ⟨db, hdb, hregistered⟩ := h.inUse hhandle
    refine ⟨db, hdb, ?_⟩
    -- The name that is given up is not that of a database in use.
    have hne : compare name db.name ≠ .eq := by
      intro heq
      rw [Std.LawfulEqOrd.eq_of_compare heq] at hunused
      have := hunused handle hregistered
      omega
    simp only [ExtTreeMap.getElem?_erase, if_neg hne, hregistered]

/-- A name that is not registered is given to a new database. -/
lemma register (h : c.Balanced users) {name : String} (hname : c.registered[name]? = none)
    (graph : Graph) (ephemeral : Bool) :
    Balanced users (c.register name graph ephemeral).2 where
  registered {other handle} hother := by
    rw [registered_register] at hother
    rw [database?_register]
    by_cases heq : name = other
    · subst heq
      rw [if_pos rfl] at hother
      obtain rfl := Option.some.inj hother
      exact ⟨_, if_pos rfl, rfl⟩
    · rw [if_neg heq] at hother
      obtain ⟨db, hdb, rfl⟩ := h.registered hother
      have hne : c.nextHandle ≠ handle := by
        rintro rfl
        simp [h.fresh le_rfl] at hdb
      exact ⟨db, by rw [if_neg hne, hdb], rfl⟩
  fresh {handle} hhandle := by
    have hlt : c.nextHandle < handle := hhandle
    rw [database?_register, if_neg hlt.ne]
    exact h.fresh hlt.le
  counted {handle db} hdb := by
    rw [database?_register] at hdb
    by_cases heq : c.nextHandle = handle
    · subst heq
      rw [if_pos rfl] at hdb
      obtain rfl := Option.some.inj hdb
      -- A handle that was not given out has no users.
      by_contra hused
      obtain ⟨db, hdb, -⟩ := h.inUse (Nat.pos_of_ne_zero fun h => hused h.symm)
      simp [h.fresh le_rfl] at hdb
    · rw [if_neg heq] at hdb
      exact h.counted hdb
  inUse {handle} hhandle := by
    obtain ⟨db, hdb, hregistered⟩ := h.inUse hhandle
    have hne : c.nextHandle ≠ handle := by
      rintro rfl
      simp [h.fresh le_rfl] at hdb
    have hnames : name ≠ db.name := by
      rintro rfl
      simp [hname] at hregistered
    refine ⟨db, by rw [database?_register, if_neg hne, hdb], ?_⟩
    rw [registered_register, if_neg hnames]
    exact hregistered

/-! ### What the operations do to the databases -/

lemma becomes_unregister (h : c.Balanced users) (name : String) :
    Becomes c { c with registered := c.registered.erase name } ∅
      {handle | c.registered[name]? = some handle} ∅ where
  database {_ db} hdb := ⟨db, hdb, rfl, rfl, fun _ => .refl _⟩
  registered {other handle} hother := by
    simp only [ExtTreeMap.getElem?_erase, Set.mem_ofPred_eq]
    split
    · next heq =>
      rw [Std.LawfulEqOrd.eq_of_compare heq]
      simp [hother]
    · next hne =>
      have hdiffers : c.registered[name]? ≠ some handle := by
        intro hname
        obtain ⟨db, hdb, rfl⟩ := h.registered hother
        obtain rfl := h.name_eq hname hdb
        exact hne Std.ReflOrd.compare_self
      simp [hother, hdiffers]
  added {other handle} hother := by
    simp only [ExtTreeMap.getElem?_erase] at hother
    split at hother
    · simp at hother
    · exact .inl hother

lemma becomes_register (h : c.Balanced users) {name : String}
    (hname : c.registered[name]? = none) (graph : Graph) (ephemeral : Bool) :
    Becomes c (c.register name graph ephemeral).2 ∅ ∅ {name} where
  database {handle db} hdb := by
    have hne : c.nextHandle ≠ handle := by
      rintro rfl
      simp [h.fresh le_rfl] at hdb
    exact ⟨db, by rw [database?_register, if_neg hne, hdb], rfl, rfl, fun _ => .refl _⟩
  registered {other handle} hother := by
    have hne : name ≠ other := by
      rintro rfl
      simp [hname] at hother
    simp [registered_register, hne, hother]
  added {other handle} hother := by
    rw [registered_register] at hother
    by_cases heq : name = other
    · rw [if_pos heq] at hother
      obtain rfl := Option.some.inj hother
      exact .inr ⟨h.fresh le_rfl, heq.symm⟩
    · rw [if_neg heq] at hother
      exact .inl hother

/-- An ephemeral database without users loses its name, and nothing else happens. -/
lemma cleanUp (h : c.Balanced users) (name : String) :
    (c.cleanUp name).Balanced users ∧ Becomes c (c.cleanUp name) ∅
      {handle | c.registered[name]? = some handle ∧ users handle = 0 ∧ c.IsEphemeral handle} ∅ := by
  unfold Catalog.cleanUp registered?
  cases hname : c.registered[name]? with
  | none =>
    refine ⟨h, (Becomes.refl c).mono le_rfl ?_ le_rfl⟩
    simp
  | some handle =>
    obtain ⟨db, hdb, rfl⟩ := h.registered hname
    have hcount := h.counted hdb
    simp only [Option.bind_some, hdb]
    split
    · next hunused =>
      rw [Bool.and_eq_true, beq_iff_eq, hcount] at hunused
      refine ⟨h.unregister fun other hother => ?_, (h.becomes_unregister db.name).mono le_rfl ?_
        le_rfl⟩
      · rw [hname] at hother
        obtain rfl := Option.some.inj hother
        exact hunused.2
      · ext other
        simp only [Set.mem_ofPred_eq, hname, Option.some.injEq]
        constructor
        · rintro rfl
          exact ⟨rfl, hunused.2, db, hdb, hunused.1⟩
        · exact And.left
    · next hkept =>
      refine ⟨h, (Becomes.refl c).mono le_rfl ?_ le_rfl⟩
      ext other
      simp only [Set.mem_empty_iff_false, Set.mem_ofPred_eq, false_iff, Option.some.injEq]
      rintro ⟨rfl, hzero, found, hfound, hephemeral⟩
      rw [hdb] at hfound
      obtain rfl := Option.some.inj hfound
      rw [hcount, hzero, hephemeral] at hkept
      simp at hkept

/-- A database is found, or read from the disk and registered. -/
lemma getDatabase (h : c.Balanced users) {name : String} {handle : Handle}
    (hok : c.getDatabase name = (.ok handle, c')) :
    c'.Balanced users ∧ Becomes c c' ∅ ∅ {name} ∧ c'.registered[name]? = some handle := by
  unfold Catalog.getDatabase at hok
  split at hok
  · next found hfound =>
    obtain ⟨hhandle, rfl⟩ := Prod.mk.inj hok
    obtain rfl := Except.ok.inj hhandle
    exact ⟨h, (Becomes.refl c).mono le_rfl rfl (Set.empty_subset _), hfound⟩
  · next hname =>
    split at hok
    · simp at hok
    · split at hok
      · split at hok
        · next graph _ =>
          obtain ⟨hhandle, rfl⟩ := Prod.mk.inj hok
          obtain rfl := Except.ok.inj hhandle
          refine ⟨h.register hname graph false, h.becomes_register hname graph false, ?_⟩
          exact (registered_register c name graph false name).trans (if_pos rfl)
        · simp at hok
      · simp at hok

/-- A new database is registered, or nothing happens but on the disk. -/
lemma createDatabase (h : c.Balanced users) (name : String) (ephemeral : Bool) :
    (c.createDatabase name ephemeral).2.Balanced users ∧
      Becomes c (c.createDatabase name ephemeral).2 ∅ ∅ {name} := by
  have hnothing (disk : Disk) : Becomes c { c with disk := disk } ∅ ∅ {name} :=
    (Becomes.withDisk c disk).mono le_rfl rfl (Set.empty_subset _)
  unfold Catalog.createDatabase
  split
  · exact ⟨h, hnothing c.disk⟩
  · split
    · exact ⟨h, hnothing c.disk⟩
    · next hname =>
      rw [Bool.not_eq_true, isRegistered_eq_false_iff] at hname
      split
      · exact ⟨h.register hname _ _, h.becomes_register hname _ _⟩
      · simp only
        have hdisk := h.withDisk (Graph.loadOrCreate c.disk (c.location name)).2
        split
        · next graph _ =>
          have hregister := hdisk.becomes_register hname graph false
          exact ⟨hdisk.register hname graph false, hregister.database, hregister.registered,
            hregister.added⟩
        · exact ⟨hdisk, hnothing _⟩

/-- Flushing one database changes nothing but the disk and a count of changes. -/
lemma flushOne (h : c.Balanced users) (failures : Nat) (handle : Handle) :
    (Catalog.flushOne (failures, c) handle).2.Balanced users ∧
      Becomes c (Catalog.flushOne (failures, c) handle).2 ∅ ∅ ∅ := by
  unfold Catalog.flushOne
  simp only
  split
  · exact ⟨h, .refl c⟩
  · next db hdb =>
    have hdisk := Becomes.withDisk c (db.graph.flush c.disk).2
    split
    · next graph hflush =>
      refine ⟨(h.withDisk _).modifyGraph handle graph, ?_⟩
      have hsame := Becomes.modify_same { c with disk := (db.graph.flush c.disk).2 } handle
        (f := fun db => { db with graph := graph }) (fun _ => rfl) (fun _ => rfl)
        fun found hfound => by
          obtain rfl := Option.some.inj (hdb.symm.trans hfound)
          exact .of_flush hflush
      exact (hdisk.trans hsame).mono (by simp) (by simp) (by simp)
    · exact ⟨h.withDisk _, hdisk⟩

/-- Flushing all databases changes nothing but the disk and counts of changes. -/
lemma flushAll (h : c.Balanced users) :
    c.flushAll.2.Balanced users ∧ Becomes c c.flushAll.2 ∅ ∅ ∅ := by
  refine List.foldlRecOn
    (motive := fun state => state.2.Balanced users ∧ Becomes c state.2 ∅ ∅ ∅)
    (c.registered.toList.map Prod.snd) Catalog.flushOne ?_ ?_
  · exact ⟨h, .refl c⟩
  · rintro ⟨failures, flushed⟩ ⟨hbalanced, hbecomes⟩ handle -
    obtain ⟨hbalanced', hbecomes'⟩ := hbalanced.flushOne failures handle
    exact ⟨hbalanced', (hbecomes.trans hbecomes').mono (by simp) (by simp) (by simp)⟩

/-- Dropping a database is refused without a trace when it is not registered or in use.  One
that nobody uses loses its name, unless its files cannot be removed. -/
lemma dropDatabase_cases (h : c.Balanced users) (name : String) :
    c.registered[name]? = none ∧
        c.dropDatabase name = (.error (.databaseNotFound name), c) ∨
      (∃ handle, c.registered[name]? = some handle ∧ 0 < users handle ∧
        c.dropDatabase name = (.error (.databaseInUse name), c)) ∨
      ∃ handle disk, c.registered[name]? = some handle ∧ users handle = 0 ∧
        (c.dropDatabase name
            = (.ok (), { c with disk := disk, registered := c.registered.erase name }) ∨
          ¬ c.IsEphemeral handle ∧
            c.dropDatabase name = (.error .io, { c with disk := disk })) := by
  unfold Catalog.dropDatabase registered?
  cases hname : c.registered[name]? with
  | none => exact .inl ⟨rfl, rfl⟩
  | some handle =>
    obtain ⟨db, hdb, -⟩ := h.registered hname
    have hcount := h.counted hdb
    simp only [Option.bind_some, hdb]
    split
    · next hused => exact .inr (.inl ⟨handle, rfl, hcount ▸ hused, rfl⟩)
    · next hunused =>
      have hzero : users handle = 0 := by omega
      rcases hremoved : c.removeFiles db with ⟨_ | _, disk⟩
      · refine .inr (.inr ⟨handle, disk, rfl, hzero, .inr ⟨?_, rfl⟩⟩)
        rintro ⟨found, hfound, hephemeral⟩
        obtain rfl := Option.some.inj (hdb.symm.trans hfound)
        simp [removeFiles, hephemeral] at hremoved
      · exact .inr (.inr ⟨handle, disk, rfl, hzero, .inl rfl⟩)

/-- Only a database that nobody uses is dropped. -/
lemma users_eq_zero_of_dropDatabase (h : c.Balanced users) {name : String}
    (hok : (c.dropDatabase name).1 = .ok ()) :
    ∃ handle, c.registered[name]? = some handle ∧ users handle = 0 := by
  rcases h.dropDatabase_cases name with ⟨-, heq⟩ | ⟨handle, -, -, heq⟩ |
    ⟨handle, disk, hname, hzero, -⟩
  · simp [heq] at hok
  · simp [heq] at hok
  · exact ⟨handle, hname, hzero⟩

/-- An ephemeral database is dropped when nobody uses it. -/
lemma dropDatabase_eq_ok_iff (h : c.Balanced users) {name : String} {handle : Handle}
    (hname : c.registered[name]? = some handle) (hephemeral : c.IsEphemeral handle) :
    (c.dropDatabase name).1 = .ok () ↔ users handle = 0 := by
  rcases h.dropDatabase_cases name with ⟨hnone, -⟩ | ⟨found, hfound, hused, heq⟩ |
    ⟨found, disk, hfound, hzero, heq | ⟨hpersistent, -⟩⟩
  · simp [hname] at hnone
  · obtain rfl := Option.some.inj (hname.symm.trans hfound)
    simp [heq, hused.ne']
  · obtain rfl := Option.some.inj (hname.symm.trans hfound)
    simp [heq, hzero]
  · obtain rfl := Option.some.inj (hname.symm.trans hfound)
    exact absurd hephemeral hpersistent

/-- What dropping a database does. -/
lemma dropDatabase (h : c.Balanced users) (name : String) :
    (c.dropDatabase name).2.Balanced users ∧ Becomes c (c.dropDatabase name).2 ∅
      {handle | c.registered[name]? = some handle ∧ (c.dropDatabase name).1 = .ok ()} ∅ := by
  rcases h.dropDatabase_cases name with ⟨hname, heq⟩ | ⟨handle, hname, -, heq⟩ |
    ⟨handle, disk, hname, hzero, heq | ⟨-, heq⟩⟩
  · rw [heq]
    exact ⟨h, (Becomes.refl c).mono le_rfl (by simp) le_rfl⟩
  · rw [heq]
    exact ⟨h, (Becomes.refl c).mono le_rfl (by simp) le_rfl⟩
  · rw [heq]
    have hdisk := h.withDisk disk
    refine ⟨hdisk.unregister fun other hother => ?_, ?_⟩
    · obtain rfl := Option.some.inj (hname.symm.trans hother)
      exact hzero
    · exact ((Becomes.withDisk c disk).trans (hdisk.becomes_unregister name)).mono (by simp)
        (by simp) (by simp)
  · rw [heq]
    exact ⟨h.withDisk disk, (Becomes.withDisk c disk).mono le_rfl (by simp) le_rfl⟩

/-- A server that begins with a default database. -/
lemma createDefault (base path : Path) (disk : Disk) :
    ((empty base disk).createDefault path).2.Balanced fun _ => 0 := by
  have hempty := balanced_empty base (Graph.loadOrCreate disk path).2
  unfold Catalog.createDefault
  simp only
  split
  · exact hempty.register (by simp [empty]) _ false
  · exact hempty

end Balanced

end Catalog

/-! ### Sessions coming and going -/

namespace Session

open Catalog

variable {c : Catalog} {others : Handle → Nat}

/-- The ephemeral database that a session leaves for another one or for none, when no other
session has it open. -/
def abandons (s : Session) (c : Catalog) (others : Handle → Nat) (next : Option Handle) :
    Set Handle :=
  {handle | s.current = some handle ∧ next ≠ some handle ∧ others handle = 0 ∧
    c.IsEphemeral handle}

/-- What a session abandons are the ephemeral databases that lose their last user. -/
lemma mem_abandons_iff {s : Session} {next : Option Handle} {handle : Handle} :
    handle ∈ s.abandons c others next ↔ c.IsEphemeral handle ∧
      0 < withSession others s.current handle ∧ withSession others next handle = 0 := by
  simp only [abandons, Set.mem_ofPred_eq, withSession]
  by_cases hbefore : s.current = some handle
  · by_cases hafter : next = some handle
    · simp [hafter]
    · simp [hbefore, hafter, and_comm]
  · simp only [hbefore, false_and, if_false, Nat.add_zero, false_iff, not_and]
    omega

/-- A session that does not move abandons nothing. -/
lemma abandons_self (s : Session) (c : Catalog) (others : Handle → Nat) :
    s.abandons c others s.current = ∅ := by
  ext handle
  simp only [abandons, Set.mem_ofPred_eq, Set.mem_empty_iff_false, iff_false]
  rintro ⟨hcurrent, hleft, -⟩
  exact hleft hcurrent

/-- What a session abandons is told as well after other databases have changed. -/
lemma abandons_eq {c' : Catalog} {s : Session} (h : c.Balanced (withSession others s.current))
    {touched gone : Set Handle} {added : Set String} (hbecomes : Becomes c c' touched gone added)
    (next : Option Handle) : s.abandons c' others next = s.abandons c others next := by
  ext handle
  refine and_congr_right fun hcurrent => ?_
  obtain ⟨db, hdb, -⟩ := h.inUse (hcurrent ▸ withSession_pos others handle)
  rw [hbecomes.isEphemeral_iff hdb]

/-- What a session does that leaves its database. -/
lemma closeDatabase_spec {s : Session} (h : c.Balanced (withSession others s.current)) :
    (s.closeDatabase c).2.Balanced others ∧
      Becomes c (s.closeDatabase c).2 ∅ (s.abandons c others none) ∅ ∧
      (s.closeDatabase c).1.current = none := by
  unfold closeDatabase
  cases hcurrent : s.current with
  | none =>
    rw [hcurrent, withSession_none] at h
    exact ⟨h, (Becomes.refl c).mono le_rfl (by simp [abandons, hcurrent]) le_rfl, rfl⟩
  | some handle =>
    rw [hcurrent] at h
    obtain ⟨db, hdb, hname⟩ := h.inUse (withSession_pos others handle)
    have hdetach : Becomes c (c.detach handle) ∅ ∅ ∅ :=
      .modify_same c handle (fun _ => rfl) (fun _ => rfl) fun db _ => .refl db.graph
    have hleft : (c.detach handle).database? handle
        = some { db with connections := db.connections - 1 } := by
      rw [detach, database?_modify, if_pos rfl, hdb, Option.map_some]
    obtain ⟨hbalanced, hcleaned⟩ := h.detach.cleanUp db.name
    simp only [hleft, and_true]
    refine ⟨hbalanced, (hdetach.trans hcleaned).mono (by simp) ?_ (by simp)⟩
    -- The name that is cleaned up is that of the database that was left.
    have hname' : (c.detach handle).registered[db.name]? = some handle := hname
    ext other
    simp only [Set.empty_union, Set.mem_ofPred_eq, abandons, hname', hcurrent,
      Option.some.injEq, ne_eq, reduceCtorEq, not_false_eq_true, true_and]
    refine and_congr_right fun heq => and_congr_right fun _ => ?_
    subst heq
    simp [IsEphemeral, hleft, hdb]

/-- What a session does that goes to a registered database. -/
lemma openDatabase_spec {s : Session} (h : c.Balanced (withSession others s.current))
    {name : String} {handle : Handle} (hname : c.registered[name]? = some handle)
    (mode : AccessMode) :
    (s.openDatabase c handle mode).2.Balanced (withSession others (some handle)) ∧
      Becomes c (s.openDatabase c handle mode).2 ∅ (s.abandons c others (some handle)) ∅ ∧
      (s.openDatabase c handle mode).1.current = some handle := by
  unfold openDatabase
  by_cases hsame : s.current = some handle
  · rw [hsame] at h
    rw [if_pos hsame]
    refine ⟨h, (Becomes.refl c).mono le_rfl ?_ le_rfl, hsame⟩
    ext other
    simp only [Set.mem_empty_iff_false, abandons, hsame, Set.mem_ofPred_eq, false_iff]
    rintro ⟨heq, hne, -⟩
    exact hne heq
  · rw [if_neg hsame]
    obtain ⟨hbalanced, hbecomes, -⟩ := closeDatabase_spec h
    have hstays : (s.closeDatabase c).2.registered[name]? = some handle :=
      (hbecomes.registered hname).2 fun hgone => hsame hgone.1
    have hattach : Becomes (s.closeDatabase c).2 ((s.closeDatabase c).2.attach handle) ∅ ∅ ∅ :=
      .modify_same _ handle (fun _ => rfl) (fun _ => rfl) fun db _ => .refl db.graph
    refine ⟨hbalanced.attach hstays, (hbecomes.trans hattach).mono (by simp) ?_ (by simp), rfl⟩
    ext other
    simp only [Set.union_empty, abandons, Set.mem_ofPred_eq, ne_eq, reduceCtorEq,
      not_false_eq_true, true_and, Option.some.injEq]
    refine and_congr_right fun hother => ?_
    have hne : ¬ handle = other := by
      rintro rfl
      exact hsame hother
    simp [hne]

end Session

end CodeGraph
