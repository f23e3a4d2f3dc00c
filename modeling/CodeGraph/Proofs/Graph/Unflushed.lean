import Mathlib
import CodeGraph.Proofs.Graph.Batch
import CodeGraph.Proofs.Graph.Declaring
import CodeGraph.Proofs.Path

/-!
# What is not flushed

A graph counts its changes since it was flushed or opened.  Every operation that changes nodes or
edges counts what it does, so as long as nothing is counted they are those of the image that was
written or read last (`Counted`).  Declaring fields is not counted although the image lists the
declarations: they are those of the image with all later ones on top, whatever the count is
(`foldl_declare_eq_self_iff`, `Stored.Runs.nothing_unflushed`).

Writing an image can fail at any step.  Until the draft is moved onto it, the old image stays as it
was (`read?_of_writeImage_eq_false`), so the directory holds the image flushed last all along.
-/

namespace CodeGraph.Graph

/-! ### Changes that are counted -/

/-- A graph comes from another one by some declarations and by changes of the contents that are
counted. -/
structure Counted (g : Graph) (decls : List FieldDecl) (g' : Graph) : Prop where
  fields : g'.fields = decls.foldl declare g.fields
  contents : g'.unflushed = 0 → g.unflushed = 0 ∧ g'.toContents = g.toContents

namespace Counted

variable {g g' g'' : Graph} {decls decls' : List FieldDecl}

lemma refl (g : Graph) : g.Counted [] g := ⟨rfl, fun hnone => ⟨hnone, rfl⟩⟩

lemma trans (h : g.Counted decls g') (h' : g'.Counted decls' g'') :
    g.Counted (decls ++ decls') g'' := by
  constructor
  · rw [h'.fields, h.fields, List.foldl_append]
  · intro hnone
    obtain ⟨hnone', hsame'⟩ := h'.contents hnone
    obtain ⟨hnone'', hsame⟩ := h.contents hnone'
    exact ⟨hnone'', hsame'.trans hsame⟩

/-- Anything may become of the contents if it is counted. -/
lemma of_count (hfields : g'.fields = g.fields) (hcount : g'.unflushed = g.unflushed + 1) :
    g.Counted [] g' := by
  refine ⟨hfields, ?_⟩
  intro hnone
  rw [hnone] at hcount
  cases hcount

lemma addNode (h : g.Counted [] g') (node : Node) : g.Counted [] (g'.addNode node) :=
  h.trans (of_count rfl rfl)

lemma addEdge (h : g.Counted [] g') (edge : Edge) : g.Counted [] (g'.addEdge edge) :=
  h.trans (of_count rfl rfl)

/-- Deleting a node counts once, with all edges at it. -/
lemma deleteNode (h : g.Counted [] g') (id : NodeId) : g.Counted [] (g'.deleteNode id) := by
  have hstep : g'.Counted [] (g'.deleteNode id) := by
    unfold Graph.deleteNode
    split
    · exact .refl g'
    · have hdropped : ∀ (keys : List EdgeKey) (start : Graph),
          (keys.foldl dropEdge start).fields = start.fields ∧
            (keys.foldl dropEdge start).unflushed = start.unflushed := by
        intro keys start
        exact List.foldlRecOn
          (motive := fun g => Graph.fields g = start.fields ∧ g.unflushed = start.unflushed)
          keys dropEdge ⟨rfl, rfl⟩ fun _ h _ _ => h
      obtain ⟨hfields, hcount⟩ := hdropped _ _
      exact of_count hfields hcount
  exact h.trans hstep

lemma deleteEdge (g : Graph) (key : EdgeKey) : g.Counted [] (g.deleteEdge key) := by
  unfold Graph.deleteEdge
  split
  · exact of_count rfl rfl
  · exact .refl g

lemma refilled (g : Graph) (files : List String) (nodes : List Node) (edges : List Edge) :
    g.Counted [] (g.refilled files nodes edges) :=
  refilled_keeps (fun _ id h => h.deleteNode id) (fun _ node h => h.addNode node)
    (fun _ edge h => h.addEdge edge) (.refl g) files nodes edges

end Counted

/-- The fields that an operation declares. -/
def Operation.declarations : Operation → List FieldDecl
  | declareFields decls => decls
  | _ => []

/-- What an operation that does not flush does to the contents is counted, also when it is about
snapshots. -/
lemma counted_perform (g : Graph) {op : Operation} (hop : op.flushes = false) :
    g.Counted op.declarations (g.perform op) := by
  cases op with
  | addNodes nodes => exact addNodes_keeps (fun _ node h => h.addNode node) (.refl g) nodes
  | deleteNode id => exact (Counted.refl g).deleteNode id
  | addEdges edges skipValidation =>
    exact addEdges_keeps (fun _ edge h => h.addEdge edge) (.refl g) edges skipValidation
  | deleteEdge key => exact Counted.deleteEdge g key
  | declareFields decls => exact ⟨rfl, fun hnone => ⟨hnone, rfl⟩⟩
  | rebuild => exact ⟨rfl, fun hnone => ⟨hnone, rfl⟩⟩
  | clear => exact .of_count rfl rfl
  | createSnapshot tags now => exact ⟨rfl, fun hnone => ⟨hnone, rfl⟩⟩
  | tagSnapshot version tags =>
    apply unlessRefused_keeps (P := g.Counted []) (.refl g)
    intro g' hg'
    obtain ⟨kept, -, rfl⟩ := map_snapshot_eq_ok hg'
    exact ⟨rfl, fun hnone => ⟨hnone, rfl⟩⟩
  | restoreSnapshot version =>
    apply unlessRefused_keeps (P := g.Counted []) (.refl g)
    intro g' hg'
    obtain ⟨kept, -, rfl⟩ := map_snapshot_eq_ok hg'
    exact .of_count rfl rfl
  | deleteSnapshot version =>
    apply unlessRefused_keeps (P := g.Counted []) (.refl g)
    intro g' hg'
    obtain ⟨kept, -, rfl⟩ := map_snapshot_eq_ok hg'
    exact ⟨rfl, fun hnone => ⟨hnone, rfl⟩⟩
  | commitBatch | flush | compact => cases hop

/-! ### Operations that flush -/

/-- Whether an operation at a disk flushes a graph and succeeds. -/
def Operation.hasFlushed (g : Graph) (disk : Disk) : Operation → Bool
  | commitBatch _ changedFiles nodes edges => (g.commitBatch disk changedFiles nodes edges).1.isOk
  | flush _ => (g.flush disk).1.isOk
  | compact _ => (g.compact disk).1.isOk
  | _ => false

/-- An operation that flushes ends by flushing a graph to which counted changes have led, and stays
there if that is refused. -/
lemma exists_flushed (g : Graph) (disk : Disk) {op : Operation} (hop : op.flushes = true) :
    ∃ written, g.Counted [] written ∧ written.location = g.location ∧ op.declarations = [] ∧
      op.hasFlushed g disk = (written.flush disk).1.isOk ∧
      performOn (g, disk) op =
        (written.unlessRefused (written.flush disk).1, (written.flush disk).2) := by
  cases op with
  | flush _ => exact ⟨g, .refl g, rfl, rfl, rfl, rfl⟩
  | compact _ =>
    refine ⟨g.rebuild, ⟨rfl, fun hnone => ⟨hnone, rfl⟩⟩, rfl, rfl, ?_⟩
    simp only [performOn, Operation.at, Operation.diskAfter, Operation.hasFlushed, perform, compact]
    rcases g.rebuild.flush disk with ⟨failure | flushed, disk'⟩ <;> exact ⟨rfl, rfl⟩
  | commitBatch _ files nodes edges =>
    have hplace : (g.refilled files nodes edges).location = g.location := by
      rw [sameHousing_refilled g files nodes edges]
    refine ⟨g.refilled files nodes edges, .refilled g files nodes edges, hplace, rfl, ?_⟩
    have hbatch : ∀ outcome, (g.refilled files nodes edges).flush disk = outcome →
        (g.commitBatch disk files nodes edges).1.isOk = outcome.1.isOk ∧
          (g.commitBatch disk files nodes edges).2 =
            ((g.refilled files nodes edges).unlessRefused outcome.1, outcome.2) := by
      intro outcome hflush
      rw [refilled] at hflush
      rcases outcome with ⟨failure | flushed, disk'⟩
      · simp only [commitBatch, hflush]
        exact ⟨rfl, rfl⟩
      · simp only [commitBatch, hflush]
        exact ⟨rfl, rfl⟩
    obtain ⟨hok, hafter⟩ := hbatch _ rfl
    refine ⟨hok, ?_⟩
    rw [← hafter]
    rfl
  | _ => cases hop

/-! ### The image in a directory -/

/-- The draft of an image has a place of its own. -/
lemma place?_draft_ne {disk : Disk} {location : Path} {draft goal : List String}
    (hdraft : disk.place? (location.join draftName) = some draft)
    (hgoal : disk.place? (location.join imageName) = some goal) : draft ≠ goal := by
  have hdraft' := Disk.target?_of_place? hdraft
  have hgoal' := Disk.target?_of_place? hgoal
  rw [Path.target?_join location (by decide) (by decide) (by decide +kernel)] at hdraft' hgoal'
  obtain ⟨base, hbase, rfl⟩ := Option.map_eq_some_iff.1 hdraft'
  obtain ⟨base', hbase', rfl⟩ := Option.map_eq_some_iff.1 hgoal'
  intro heq
  have hnames := congrArg List.getLast? heq
  simp [draftName, imageName] at hnames

/-- When an image cannot be written, the one that is there stays. -/
lemma read?_of_writeImage_eq_false {disk disk' : Disk} {location : Path} {image : Image}
    {octets : Bytes} (h : writeImage disk location image = (false, disk'))
    (hread : disk.read? (location.join imageName) = some octets) :
    disk'.read? (location.join imageName) = some octets := by
  have hmade : (disk.createDirectory location).2.read? (location.join imageName) = some octets :=
    (Disk.grows_createDirectory disk location).read? hread
  unfold writeImage at h
  split at h
  · next heq =>
    rw [heq] at hmade
    exact (Prod.mk.inj h).2 ▸ hmade
  · next made heq =>
    rw [heq] at hmade
    split at h
    · exact (Prod.mk.inj h).2 ▸ hmade
    · next drafted hwrite =>
      split at h
      · -- The draft was written but cannot be moved.
        obtain ⟨-, draft, hdraft, hfree, rfl⟩ := Disk.write?_eq_some hwrite
        obtain ⟨hslash, goal, hgoal, hentry⟩ := Disk.read?_eq_some_iff.1 hmade
        rw [← (Prod.mk.inj h).2]
        refine Disk.read?_eq_some_iff.2 ⟨hslash, goal, ?_, ?_⟩
        · rw [Disk.place?_congr (Disk.sameDirectories_insert hfree _)]
          exact hgoal
        · rw [Disk.entryAt?_insert (Disk.ne_nil_of_entryAt?_ne hfree),
            if_neg (place?_draft_ne hdraft hgoal).symm]
          exact hentry
      · cases h

/-- A directory holds an image that was encoded into its file or is decoded from it. -/
def Holds (disk : Disk) (location : Path) (image : Image) : Prop :=
  ∃ octets, disk.read? (location.join imageName) = some octets ∧
    (Image.decode? octets = some image ∨ octets = image.encode)

lemma Holds.load {disk : Disk} {location : Path} {image : Image} (h : Holds disk location image)
    (hdecode : Image.decode? image.encode = some image) :
    load disk location = .ok (ofImage location image) := by
  obtain ⟨octets, hread, himage⟩ := h
  have hdecode' : Image.decode? octets = some image := by
    rcases himage with himage | rfl
    · exact himage
    · exact hdecode
  have hthere : hasImage disk location = true := Disk.contains_of_read? hread
  unfold Graph.load
  rw [if_pos hthere, hread, Option.bind_some, hdecode']

/-- What flushing does to a directory that holds an image. -/
lemma holds_flush {g g' : Graph} {location : Path} {disk disk' : Disk}
    (hlocation : g.location = some location) (h : g.flush disk = (.ok g', disk')) :
    Holds disk' location g'.image := by
  refine ⟨g'.image.encode, ?_, .inr rfl⟩
  rw [flush_fst_eq_ok (congrArg Prod.fst h)]
  exact read?_of_writeImage (writeImage_of_flush hlocation h)

lemma Holds.flush_error {g : Graph} {location : Path} {disk disk' : Disk} {failure : Failure}
    {image : Image} (hheld : Holds disk location image) (hlocation : g.location = some location)
    (h : g.flush disk = (.error failure, disk')) : Holds disk' location image := by
  obtain ⟨octets, hread, himage⟩ := hheld
  refine ⟨octets, ?_, himage⟩
  unfold flush at h
  rw [hlocation] at h
  dsimp only at h
  split at h
  · simp at h
  · next hwrite => exact read?_of_writeImage_eq_false ((Prod.mk.inj h).2 ▸ hwrite) hread

/-! ### Runs of a stored graph -/

/-- The graph that an image gives in a directory, or nothing if there is no image. -/
def reopened (location : Path) (image? : Option Image) : Graph :=
  image?.elim (empty (some location)) (ofImage location)

/-- A graph and the disk on which it lies, with the image that was last flushed or opened, if any,
and the fields that were declared since then. -/
structure Stored where
  graph : Graph
  disk : Disk
  image? : Option Image
  declared : List FieldDecl

namespace Stored

/-- A stored graph after an operation. -/
def perform (s : Stored) (op : Operation) : Stored :=
  let (graph, disk) := performOn (s.graph, s.disk) op
  if op.hasFlushed s.graph s.disk then ⟨graph, disk, some graph.image, []⟩
  else ⟨graph, disk, s.image?, s.declared ++ op.declarations⟩

/-- What operations make of a graph that was created in a directory or opened from it. -/
inductive Runs (location : Path) : Stored → Prop
  | created {disk disk' : Disk} {g : Graph} (h : create disk location = (.ok g, disk')) :
      Runs location ⟨g, disk', none, []⟩
  | opened {disk : Disk} {g : Graph} (h : load disk location = .ok g) :
      Runs location ⟨g, disk, (disk.read? (location.join imageName)).bind Image.decode?, []⟩
  | step {s : Stored} (op : Operation) (h : Runs location s) : Runs location (s.perform op)

/-- What is known about a graph in a directory all along. -/
structure Tracked (location : Path) (s : Stored) : Prop where
  reachable : s.graph.Reachable
  location_eq : s.graph.location = some location
  counted : (reopened location s.image?).Counted s.declared s.graph
  held : ∀ image, s.image? = some image → Holds s.disk location image

variable {location : Path} {s : Stored}

/-- What is opened is the graph of the image that is there. -/
lemma load_eq_reopened {disk : Disk} {g : Graph} (h : load disk location = .ok g) :
    g = reopened location ((disk.read? (location.join imageName)).bind Image.decode?) := by
  unfold load at h
  split at h
  · split at h
    · next image himage =>
      rw [himage]
      exact (Except.ok.inj h).symm
    · cases h
  · next hnone =>
    have hread : disk.read? (location.join imageName) = none := by
      rw [Option.eq_none_iff_forall_ne_some]
      intro octets hread
      exact hnone (Disk.contains_of_read? hread)
    rw [hread]
    split at h
    · exact (Except.ok.inj h).symm
    · cases h

lemma tracked_opened {disk : Disk} {g : Graph} (h : load disk location = .ok g) :
    Tracked location
      ⟨g, disk, (disk.read? (location.join imageName)).bind Image.decode?, []⟩ where
  reachable := .opened h
  location_eq := load_location h
  counted := load_eq_reopened h ▸ .refl g
  held image himage := by
    obtain ⟨octets, hread, hdecode⟩ := Option.bind_eq_some_iff.1 himage
    exact ⟨octets, hread, .inl hdecode⟩

/-- A graph that was flushed is the one that its image gives. -/
lemma counted_image {g : Graph} (hkeyed : g.toContents.Keyed) (location : Path) :
    (ofImage location g.image).Counted [] g := by
  obtain ⟨hcontents, hfields⟩ := ofImage_image hkeyed location
  exact ⟨hfields.symm, fun _ => ⟨rfl, hcontents.symm⟩⟩

lemma perform_graph (s : Stored) (op : Operation) :
    (s.perform op).graph = s.graph.perform (op.at s.disk) := by
  unfold Stored.perform
  dsimp only
  split <;> rfl

/-- An operation that does not flush leaves the disk and the image alone. -/
lemma perform_unflushed (s : Stored) {op : Operation} (hop : op.flushes = false) :
    s.perform op =
      ⟨s.graph.perform op, s.disk, s.image?, s.declared ++ op.declarations⟩ := by
  cases op <;> first | rfl | cases hop

/-- Flushing brings the image up to date, or fails and leaves it as it was. -/
lemma Tracked.perform_flushing (h : Tracked location s) {op : Operation}
    (hop : op.flushes = true) (hkeyed : (s.perform op).graph.toContents.Keyed) :
    (reopened location (s.perform op).image?).Counted (s.perform op).declared
        (s.perform op).graph ∧
      ∀ image, (s.perform op).image? = some image → Holds (s.perform op).disk location image := by
  obtain ⟨written, hcounted, hlocation, hdecls, hok, hafter⟩ :=
    exists_flushed s.graph s.disk hop
  rw [h.location_eq] at hlocation
  rcases hflush : written.flush s.disk with ⟨failure | flushed, disk'⟩
  · have hkept : s.perform op = ⟨written, disk', s.image?, s.declared⟩ := by
      unfold Stored.perform
      rw [hafter, hok, hflush, hdecls, List.append_nil]
      rfl
    rw [hkept]
    constructor
    · have htrans := h.counted.trans hcounted
      rwa [List.append_nil] at htrans
    · intro image himage
      exact (h.held image himage).flush_error hlocation hflush
  · have hkept : s.perform op = ⟨flushed, disk', some flushed.image, []⟩ := by
      unfold Stored.perform
      rw [hafter, hok, hflush]
      rfl
    rw [hkept] at hkeyed ⊢
    refine ⟨counted_image hkeyed location, ?_⟩
    rintro image ⟨⟩
    exact holds_flush hlocation hflush

lemma Tracked.perform (h : Tracked location s) (op : Operation) :
    Tracked location (s.perform op) := by
  have hreach : (s.perform op).graph.Reachable := by
    rw [perform_graph]
    exact h.reachable.step _
  have hplace : (s.perform op).graph.location = some location := by
    rw [perform_graph, perform_location]
    exact h.location_eq
  cases hop : op.flushes with
  | false =>
    rw [perform_unflushed s hop] at hreach hplace ⊢
    exact ⟨hreach, hplace, h.counted.trans (counted_perform s.graph hop), h.held⟩
  | true =>
    obtain ⟨hcounted, hheld⟩ := h.perform_flushing hop hreach.consistent.keyed
    exact ⟨hreach, hplace, hcounted, hheld⟩

lemma Runs.tracked (h : Runs location s) : Tracked location s := by
  induction h with
  | created h =>
    have hcreate := create_fst_eq_ok (congrArg Prod.fst h)
    subst hcreate
    refine ⟨.created h, rfl, .refl _, ?_⟩
    intro image himage
    cases himage
  | opened h => exact tracked_opened h
  | step op _ ih => exact ih.perform op

/-- In every run of a graph in a directory, as long as nothing is counted the nodes and edges are
those of the image that was last flushed or opened, and none if there was no image.  The declared
fields are always those of the image with all later declarations on top, so they are those of the
image exactly if each of these declarations that is the last with its name is there already.  The
directory is opened as the graph of the image, where this is decoded from its octets. -/
theorem Runs.nothing_unflushed (h : Runs location s) :
    let kept := reopened location s.image?
    (s.graph.unflushed = 0 → s.graph.toContents = kept.toContents) ∧
    s.graph.fields = s.declared.foldl declare kept.fields ∧
    (s.graph.fields = kept.fields ↔ ∀ decl,
      fieldNamed? s.declared.reverse decl.name = some decl →
        fieldNamed? kept.fields decl.name = some decl) ∧
    ∀ image, s.image? = some image → Image.decode? image.encode = some image →
      load s.disk location = .ok kept := by
  intro kept
  have htracked := h.tracked
  have hfields : s.graph.fields = s.declared.foldl declare kept.fields := htracked.counted.fields
  refine ⟨?_, hfields, ?_, ?_⟩
  · intro hnone
    exact (htracked.counted.contents hnone).2
  · rw [hfields]
    exact foldl_declare_eq_self_iff s.declared kept.fields
  · intro image himage hdecode
    have hload := (htracked.held image himage).load hdecode
    simp only [kept, himage]
    exact hload

/-- A graph that was created in the directory `/db`. -/
def start : Stored := ⟨empty (some ⟨"/db"⟩), homeDisk, none, []⟩

lemma runs_start : start.Runs ⟨"/db"⟩ := by
  have hcreate : create homeDisk ⟨"/db"⟩ = (.ok (empty (some ⟨"/db"⟩)), homeDisk) := by
    rw [create, createDirectory_home]
  exact .created hcreate

lemma perform_flush {g' : Graph} {disk' : Disk} (h : s.graph.flush s.disk = (.ok g', disk'))
    (disk : Disk) : s.perform (.flush disk) = ⟨g', disk', some g'.image, []⟩ := by
  simp only [Stored.perform, performOn, Operation.at, Operation.diskAfter, Operation.hasFlushed,
    Graph.perform, h]
  rfl

/-- A field is declared and a node is added. -/
def changed : Stored :=
  (start.perform (.declareFields [⟨"method", .text, none⟩])).perform
    (.addNodes [bareNode 1 (some "call")])

/-- Then the graph is flushed. -/
def secured : Stored := changed.perform (.flush homeDisk)

/-- Once both are flushed nothing is lost by opening the directory. -/
theorem nothing_unflushed_secured :
    secured.Runs ⟨"/db"⟩ ∧ secured.graph.unflushed = 0 ∧ secured.graph.nodes.size = 1 ∧
      ∃ opened, load secured.disk ⟨"/db"⟩ = .ok opened ∧
        secured.graph.toContents = opened.toContents ∧ secured.graph.fields = opened.fields := by
  have hruns : secured.Runs ⟨"/db"⟩ := ((runs_start.step _).step _).step _
  have hflush : changed.graph.flush changed.disk = _ :=
    flush_of_writeImage rfl (writeImage_home changed.graph.image)
  have hsecured : secured = _ := perform_flush hflush homeDisk
  have hcount : secured.graph.unflushed = 0 := by rw [hsecured]
  have himage : secured.image? = some changed.graph.image := by
    rw [hsecured]
    rfl
  have hdeclared : secured.declared = [] := by rw [hsecured]
  have hdecode : Image.decode? changed.graph.image.encode = some changed.graph.image :=
    Image.decode?_encode (by decide +kernel)
  obtain ⟨hcontents, -, hfields, hload⟩ := hruns.nothing_unflushed
  refine ⟨hruns, hcount, ?_, _, hload _ himage hdecode, hcontents hcount, hfields.2 ?_⟩
  · rw [hsecured]
    decide +kernel
  · intro decl hlast
    rw [hdeclared] at hlast
    cases hlast

/-- But a declaration alone is not counted, and without an image it is lost. -/
theorem declarations_are_not_counted :
    let declared := start.perform (.declareFields [⟨"method", .text, none⟩])
    declared.Runs ⟨"/db"⟩ ∧ declared.image? = none ∧ declared.graph.unflushed = 0 ∧
      declared.graph.fields = [⟨"method", .text, none⟩] ∧
      (reopened ⟨"/db"⟩ declared.image?).fields = [] :=
  ⟨runs_start.step _, rfl, rfl, rfl, rfl⟩

end Stored

end CodeGraph.Graph
