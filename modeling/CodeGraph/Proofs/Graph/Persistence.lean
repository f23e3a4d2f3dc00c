import Mathlib
import CodeGraph.Proofs.Disk
import CodeGraph.Proofs.Graph.Image
import CodeGraph.Proofs.Graph.Snapshot

/-!
# A flushed graph is opened again

A graph is not written as it is: its image lists records, and a graph is read from an image
by adding them one after the other.  Three facts make this a round trip.

* The records of a keyed graph are added under the keys they came from, so the maps of nodes
  and edges come back (`ofImage_image`).
* An index that describes contents is determined by them, once no empty sets are left in it
  (`Index.Describes.unique`).  The index of a reachable graph has none (`Reachable.tidyEnds`).
* What was written and moved into place is read back (`read?_of_writeImage`).
-/

namespace CodeGraph

open Std (ExtTreeMap ExtTreeSet LawfulEqCmp)

/-! ### Indexes without empty sets -/

/-- Multimaps without empty sets are equal when they have the same values. -/
lemma Multimap.Tidy.ext {κ ι : Type} [Ord κ] [Std.TransOrd κ] [Std.LawfulEqOrd κ] [Ord ι]
    [Std.TransOrd ι] [Std.LawfulEqOrd ι] {m m' : Multimap κ ι} (h : m.Tidy) (h' : m'.Tidy)
    (hvalues : ∀ key value, value ∈ m.values key ↔ value ∈ m'.values key) : m = m' := by
  apply ExtTreeMap.ext_getElem?
  intro key
  have hsame : m.values key = m'.values key := ExtTreeSet.ext_mem (hvalues key)
  have hmem : key ∈ m ↔ key ∈ m' := by
    rw [h.mem_iff, h'.mem_iff, hsame]
  by_cases hkey : key ∈ m
  · have hkey' : key ∈ m' := hmem.1 hkey
    simp only [Multimap.values, ExtTreeMap.getElem?_eq_some_getElem hkey,
      ExtTreeMap.getElem?_eq_some_getElem hkey', Option.getD_some] at hsame
    rw [ExtTreeMap.getElem?_eq_some_getElem hkey, ExtTreeMap.getElem?_eq_some_getElem hkey',
      hsame]
  · have hkey' : key ∉ m' := fun hkey' => hkey (hmem.2 hkey')
    rw [ExtTreeMap.getElem?_eq_none hkey, ExtTreeMap.getElem?_eq_none hkey']

namespace Index

/-- No node has an empty set of edges entered at it. -/
structure TidyEnds (index : Index) : Prop where
  outgoing : index.outgoing.Tidy
  incoming : index.incoming.Tidy

/-- Entering and taking away nodes and edges leaves no empty set at a node. -/
lemma invariant_tidyEnds : Graph.IndexInvariant TidyEnds where
  empty := ⟨Multimap.tidy_empty, Multimap.tidy_empty⟩
  addNode _ _ _ h := ⟨h.outgoing, h.incoming⟩
  removeNode _ _ _ h := ⟨h.outgoing, h.incoming⟩
  addEdge _ h := ⟨h.outgoing.add _ _, h.incoming.add _ _⟩
  removeEdge _ h := ⟨h.outgoing.remove _ _, h.incoming.remove _ _⟩

/-- Two descriptions of the same contents agree: in all multimaps, and in the values under
every field. -/
lemma Describes.unique {fields : List FieldDecl} {index index' : Index} {contents : Contents}
    (h : Describes fields index contents) (h' : Describes fields index' contents)
    (htidy : index.TidyEnds) (htidy' : index'.TidyEnds) :
    index.byType = index'.byType ∧ index.byFile = index'.byFile ∧
      index.outgoing = index'.outgoing ∧ index.incoming = index'.incoming ∧
      ∀ field value, index.withValue field value = index'.withValue field value := by
  refine ⟨?_, ?_, ?_, ?_, fun field value => ?_⟩
  · refine h.tidyTypes.ext h'.tidyTypes fun type id => ?_
    rw [h.byType, h'.byType]
  · refine h.tidyFiles.ext h'.tidyFiles fun file id => ?_
    rw [h.byFile, h'.byFile]
  · refine htidy.outgoing.ext htidy'.outgoing fun id key => ?_
    rw [h.outgoing, h'.outgoing]
  · refine htidy.incoming.ext htidy'.incoming fun id key => ?_
    rw [h.incoming, h'.incoming]
  · refine ExtTreeSet.ext_mem fun id => ?_
    rw [h.byField, h'.byField]

end Index

namespace Graph

/-- In a reachable graph no node has an empty set of edges entered at it. -/
lemma Reachable.tidyEnds {g : Graph} (h : Reachable g) : g.index.TidyEnds :=
  Index.invariant_tidyEnds.reachable h

/-! ### Adding the records of an image -/

/-- Adding nodes one after the other inserts each under its identifier, and changes neither
the edges nor the declarations. -/
lemma addNodes_contents (g : Graph) (nodes : List Node) :
    (g.addNodes nodes).nodes = nodes.foldl (fun m node => m.insert node.id node) g.nodes ∧
      (g.addNodes nodes).edges = g.edges ∧ (g.addNodes nodes).fields = g.fields := by
  induction nodes generalizing g with
  | nil => exact ⟨rfl, rfl, rfl⟩
  | cons node nodes ih => exact ih (g.addNode node)

/-- Adding edges one after the other inserts each under its key, and changes neither the
nodes nor the declarations. -/
lemma foldl_addEdge_contents (g : Graph) (edges : List Edge) :
    (edges.foldl addEdge g).edges = edges.foldl (fun m edge => m.insert edge.key edge) g.edges ∧
      (edges.foldl addEdge g).nodes = g.nodes ∧ (edges.foldl addEdge g).fields = g.fields := by
  induction edges generalizing g with
  | nil => exact ⟨rfl, rfl, rfl⟩
  | cons edge edges ih => exact ih (g.addEdge edge)

/-- The values of a map, inserted under keys that can be read off them, give the map. -/
lemma foldl_insert_values {κ ι : Type} [Ord κ] [Std.TransOrd κ] [Std.LawfulEqOrd κ]
    [DecidableEq κ] (m : ExtTreeMap κ ι) {keyOf : ι → κ}
    (hkeys : ∀ {key value}, m[key]? = some value → keyOf value = key) :
    (m.toList.map Prod.snd).foldl (fun built value => built.insert (keyOf value) value) ∅ = m := by
  have hstep : ∀ (built : ExtTreeMap κ ι), ∀ entry ∈ m.toList,
      built.insert (keyOf entry.2) entry.2 = built.insert entry.1 entry.2 := by
    intro built entry hentry
    rw [hkeys (ExtTreeMap.mem_toList_iff_getElem?_eq_some.1 hentry)]
  rw [List.foldl_map, List.foldl_ext _ _ _ hstep]
  exact Index.foldl_insert_toList m

/-- The graph of an image has the contents and the declarations of the graph from which the
image was made. -/
lemma ofImage_image {g : Graph} (hkeyed : g.toContents.Keyed) (location : Path) :
    (ofImage location g.image).toContents = g.toContents ∧
      (ofImage location g.image).fields = g.fields := by
  set blank : Graph := { empty (some location) with fields := g.fields } with hblank
  obtain ⟨hnodes, hedges, hfields⟩ := addNodes_contents blank g.image.nodes
  obtain ⟨hedges', hnodes', hfields'⟩ :=
    foldl_addEdge_contents (blank.addNodes g.image.nodes) g.image.edges
  have hallNodes : (ofImage location g.image).nodes = g.nodes := by
    change (g.image.edges.foldl addEdge (blank.addNodes g.image.nodes)).nodes = g.nodes
    rw [hnodes', hnodes]
    exact foldl_insert_values g.nodes hkeyed.node
  have hallEdges : (ofImage location g.image).edges = g.edges := by
    change (g.image.edges.foldl addEdge (blank.addNodes g.image.nodes)).edges = g.edges
    rw [hedges', hedges]
    exact foldl_insert_values g.edges hkeyed.edge
  refine ⟨?_, hfields'.trans hfields⟩
  change Contents.mk (ofImage location g.image).nodes (ofImage location g.image).edges
    = ⟨g.nodes, g.edges⟩
  rw [hallNodes, hallEdges]

/-! ### Writing and reading -/

/-- The image that was written into a directory is read from it. -/
lemma read?_of_writeImage {disk disk' : Disk} {location : Path} {image : Image}
    (h : writeImage disk location image = (true, disk')) :
    disk'.read? (location.join imageName) = some image.encode := by
  unfold writeImage at h
  split at h
  · simp at h
  · split at h
    · simp at h
    · next hwrite =>
      split at h
      · simp at h
      · next hrename =>
        obtain rfl := (Prod.mk.inj h).2
        exact Disk.read?_of_rename? (Disk.read?_of_write? hwrite) hrename

/-- A directory into which an image was written is opened as the graph of the image. -/
lemma load_of_writeImage {disk disk' : Disk} {location : Path} {image : Image}
    (hdecode : Image.decode? image.encode = some image)
    (h : writeImage disk location image = (true, disk')) :
    load disk' location = .ok (ofImage location image) := by
  have hread := read?_of_writeImage h
  have himage : hasImage disk' location = true := Disk.contains_of_read? hread
  unfold load
  rw [if_pos himage, hread, Option.bind_some, hdecode]

/-- An image is written where its directory can be made, and neither its place nor that of
its draft is taken by a directory. -/
lemma writeImage_eq_true {disk made : Disk} {location : Path} {draft goal : List String}
    (hmade : disk.createDirectory location = (true, made))
    (hdraft : made.place? (location.join draftName) = some draft)
    (hgoal : made.place? (location.join imageName) = some goal)
    (hunused : made.entryAt? draft ≠ some .directory)
    (hfree : made.entryAt? goal ≠ some .directory)
    (hslash : (location.join draftName).endsInSlash = false)
    (hslash' : (location.join imageName).endsInSlash = false) (image : Image) :
    (writeImage disk location image).1 = true := by
  have hwrite := Disk.write?_eq_insert hslash hdraft hunused image.encode
  obtain ⟨moved, hrename⟩ := Option.isSome_iff_exists.1
    (Disk.rename?_of_write? hwrite hslash' hgoal hfree)
  simp only [writeImage, hmade, hwrite, hrename]

/-- An image is not written where its draft would have to take the place of a directory. -/
lemma writeImage_eq_false {disk made : Disk} {location : Path} {draft : List String}
    (hmade : disk.createDirectory location = (true, made))
    (hdraft : made.place? (location.join draftName) = some draft)
    (htaken : made.entryAt? draft = some .directory) (image : Image) :
    writeImage disk location image = (false, made) := by
  have hwrite : made.write? (location.join draftName) image.encode = none := by
    simp [Disk.write?, hdraft, htaken]
  simp only [writeImage, hmade, hwrite]

/-- What the contents of all files have in common stays so when an image is written that has
it, whether all of the writing goes well or not. -/
lemma allFiles_writeImage {P : Bytes → Prop} {disk : Disk} (h : disk.AllFiles P)
    (location : Path) {image : Image} (himage : P image.encode) :
    (writeImage disk location image).2.AllFiles P := by
  have hmade := h.createDirectory location
  unfold writeImage
  split
  · next heq => rwa [heq] at hmade
  · next heq =>
    rw [heq] at hmade
    split
    · exact hmade
    · next hwrite =>
      have hwritten := hmade.write? himage hwrite
      split
      · exact hwritten
      · next hrename => exact hwritten.rename? hrename

/-- A graph is flushed by writing its image, if it has a directory. -/
lemma flush_snd (g : Graph) (disk : Disk) : (g.flush disk).2
    = g.location.elim disk fun location => (writeImage disk location g.image).2 := by
  unfold flush
  cases g.location with
  | none => rfl
  | some location =>
    simp only [Option.elim_some]
    split
    · next heq => rw [heq]
    · next heq => rw [heq]

/-- The count of changes is not written. -/
lemma flush_snd_withUnflushed (g : Graph) (n : Nat) (disk : Disk) :
    ({ g with unflushed := n }.flush disk).2 = (g.flush disk).2 := by
  rw [flush_snd, flush_snd]
  rfl

lemma allFiles_flush {P : Bytes → Prop} {disk : Disk} (h : disk.AllFiles P) {g : Graph}
    (hg : P g.image.encode) : (g.flush disk).2.AllFiles P := by
  rw [flush_snd]
  cases g.location with
  | none => exact h
  | some location => exact allFiles_writeImage h location hg

/-- A successful flush of a persistent graph has written its image. -/
lemma writeImage_of_flush {g g' : Graph} {location : Path} {disk disk' : Disk}
    (hlocation : g.location = some location) (h : g.flush disk = (.ok g', disk')) :
    writeImage disk location g.image = (true, disk') := by
  unfold flush at h
  rw [hlocation] at h
  simp only at h
  split at h
  · next hwrite => rw [hwrite, (Prod.mk.inj h).2]
  · simp at h

/-- A persistent graph whose image can be written is flushed. -/
lemma flush_of_writeImage {g : Graph} {location : Path} {disk : Disk}
    (hlocation : g.location = some location) (h : (writeImage disk location g.image).1 = true) :
    g.flush disk
      = (.ok { g with unflushed := 0 }, (writeImage disk location g.image).2) := by
  have hwritten : writeImage disk location g.image
      = (true, (writeImage disk location g.image).2) := Prod.ext h rfl
  unfold flush
  rw [hlocation]
  simp only
  rw [hwritten]

/-! ### Operations on a graph that lies on a disk -/

/-- The operation at a disk: where a graph is written, it is written to that disk. -/
def Operation.at (disk : Disk) : Operation → Operation
  | commitBatch _ changedFiles nodes edges => commitBatch disk changedFiles nodes edges
  | flush _ => flush disk
  | compact _ => compact disk
  | op => op

/-- The disk after an operation. -/
def Operation.diskAfter (g : Graph) (disk : Disk) : Operation → Disk
  | commitBatch _ changedFiles nodes edges => (g.commitBatch disk changedFiles nodes edges).2.2
  | flush _ => (g.flush disk).2
  | compact _ => (g.compact disk).2.2
  | _ => disk

/-- Whether an operation flushes the graph. -/
def Operation.flushes : Operation → Bool
  | commitBatch .. | flush _ | compact _ => true
  | _ => false

/-- A graph and the disk on which it lies after an operation. -/
def performOn (state : Graph × Disk) (op : Operation) : Graph × Disk :=
  (state.1.perform (op.at state.2), op.diskAfter state.1 state.2)

lemma diskAfter_eq_self {g : Graph} {disk : Disk} {op : Operation} (hop : op.flushes = false) :
    op.diskAfter g disk = disk := by
  cases op <;> first | rfl | simp [Operation.flushes] at hop

/-- The disk on which nothing is but the directory `/db`. -/
def homeDisk : Disk :=
  ⟨(∅ : ExtTreeMap (List String) DiskEntry).insert ["db"] .directory⟩

lemma entryAt?_home : homeDisk.entryAt? ["db"] = some .directory := by
  simp [Disk.entryAt?, homeDisk]

/-- The directory `/db` is there once it has been made. -/
lemma createDirectory_db {disk : Disk} (hthere : disk.entryAt? ["db"] = some .directory) :
    disk.createDirectory ⟨"/db"⟩ = (true, disk) := by
  have husable : (Path.mk "/db").isUsable = true := by cbv
  have hbeginnings : (Path.mk "/db").beginnings = [⟨"/db"⟩] := by cbv
  have hsteps : (Path.mk "/db").steps = [.into "db"] := by cbv
  have hshort : "db".utf8ByteSize ≤ Disk.maxName := by cbv
  have hroot : disk.entryAt? [] = some .directory := rfl
  have hplace : disk.place? ⟨"/db"⟩ = some ["db"] := by
    simp [Disk.place?, husable, hsteps, Disk.walk?, Disk.stepFrom?, hroot, hshort]
  simp [Disk.createDirectory, husable, hbeginnings, Disk.makeDirectories, Disk.makeDirectory,
    hplace, hthere]

lemma createDirectory_home : homeDisk.createDirectory ⟨"/db"⟩ = (true, homeDisk) :=
  createDirectory_db entryAt?_home

/-- A name below `/db` leads to a place. -/
lemma place?_db {disk : Disk} (hthere : disk.entryAt? ["db"] = some .directory) {path : Path}
    {name : String} (husable : path.isUsable = true)
    (hsteps : path.steps = [.into "db", .into name]) (hshort : name.utf8ByteSize ≤ Disk.maxName) :
    disk.place? path = some ["db", name] := by
  have hhome : "db".utf8ByteSize ≤ Disk.maxName := by cbv
  have hroot : disk.entryAt? [] = some .directory := rfl
  simp [Disk.place?, husable, hsteps, Disk.walk?, Disk.stepFrom?, hroot, hthere, hshort, hhome]

lemma place?_draft {disk : Disk} (hthere : disk.entryAt? ["db"] = some .directory) :
    disk.place? ((Path.mk "/db").join draftName) = some ["db", "graph.bin.tmp"] := by
  have hdraft : (Path.mk "/db").join draftName = ⟨"/db/graph.bin.tmp"⟩ := by cbv
  have hsteps : (Path.mk "/db/graph.bin.tmp").steps = [.into "db", .into "graph.bin.tmp"] := by
    simp +decide [Path.steps, Path.parts, String.splitOn, String.splitOnAux, Path.Step.ofPart?]
  rw [hdraft]
  exact place?_db hthere (by simp +decide [Path.isUsable]) hsteps (by decide +kernel)

lemma place?_image {disk : Disk} (hthere : disk.entryAt? ["db"] = some .directory) :
    disk.place? ((Path.mk "/db").join imageName) = some ["db", "graph.bin"] := by
  have himage : (Path.mk "/db").join imageName = ⟨"/db/graph.bin"⟩ := by cbv
  have hsteps : (Path.mk "/db/graph.bin").steps = [.into "db", .into "graph.bin"] := by
    simp +decide [Path.steps, Path.parts, String.splitOn, String.splitOnAux, Path.Step.ofPart?]
  rw [himage]
  exact place?_db hthere (by simp +decide [Path.isUsable]) hsteps (by decide +kernel)

lemma writeImage_home (image : Image) : (writeImage homeDisk ⟨"/db"⟩ image).1 = true := by
  have hdraft : (Path.mk "/db").join draftName = ⟨"/db/graph.bin.tmp"⟩ := by cbv
  have himage : (Path.mk "/db").join imageName = ⟨"/db/graph.bin"⟩ := by cbv
  refine writeImage_eq_true createDirectory_home (place?_draft entryAt?_home)
    (place?_image entryAt?_home) ?_ ?_ ?_ ?_ image
  · simp [Disk.entryAt?, homeDisk]
  · simp [Disk.entryAt?, homeDisk]
  · rw [hdraft, Path.endsInSlash_eq_false_iff]
    decide
  · rw [himage, Path.endsInSlash_eq_false_iff]
    decide

end Graph

end CodeGraph
