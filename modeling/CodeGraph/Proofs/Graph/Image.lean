import Mathlib
import CodeGraph.Graph.Image

/-!
# Images are read back

Every format reads back what it writes, as long as lengths fit into their words.  There is
one lemma for each way of putting formats together (`Format.reads_pair`, `Format.reads_list`,
...); what is read back of nodes, edges and declarations follows from them, part by part.

An image `Fits` when all its texts and lists are shorter than `Bytes.bound 8`.  Such an image
is decoded from its octets (`Image.decode?_encode`).
-/

namespace CodeGraph

/-- Whether the length of a text fits into eight octets. -/
def ShortText (s : String) : Prop :=
  (Utf8.encode s).length < Bytes.bound 8

/-- Whether the length of a list fits into eight octets. -/
def ShortList {α : Type} (l : List α) : Prop :=
  l.length < Bytes.bound 8

instance (s : String) : Decidable (ShortText s) :=
  inferInstanceAs (Decidable (_ < _))

instance {α : Type} (l : List α) : Decidable (ShortList l) :=
  inferInstanceAs (Decidable (_ < _))

namespace Format

variable {α β : Type}

/-! ### Ways of putting formats together -/

lemma reads_word {width n : Nat} (h : n < Bytes.bound width) : (word width).Reads n := by
  intro rest
  have htake := Bytes.take?_append (Bytes.ofNatLE width n) rest
  rw [Bytes.length_ofNatLE] at htake
  simp only [word, htake, Option.map_some, Bytes.toNatLE_ofNatLE h]

lemma reads_text {s : String} (h : ShortText s) : text.Reads s := by
  intro rest
  have hlength := reads_word h (Utf8.encode s ++ rest)
  simp only [text, List.append_assoc, hlength, Option.bind_eq_bind, Option.bind_some,
    Bytes.take?_append, Utf8.decode?_encode, Option.pure_def]

lemma reads_flag (b : Bool) : flag.Reads b := by
  intro rest
  cases b <;> rfl

lemma reads_option {format : Format α} {a : Option α} (h : ∀ value ∈ a, format.Reads value) :
    format.option.Reads a := by
  intro rest
  cases a with
  | none => rfl
  | some value =>
    have hvalue := h value rfl rest
    simp only [option, List.cons_append, hvalue, Option.map_some]

lemma readMany_flatMap {format : Format α} {items : List α} (h : ∀ a ∈ items, format.Reads a)
    (rest : Bytes) :
    format.readMany items.length (items.flatMap format.write ++ rest) = some (items, rest) := by
  induction items with
  | nil => rfl
  | cons a items ih =>
    have hfirst := h a List.mem_cons_self (items.flatMap format.write ++ rest)
    have hothers := ih fun b hb => h b (List.mem_cons_of_mem a hb)
    rw [List.length_cons, List.flatMap_cons, List.append_assoc]
    simp only [readMany, hfirst, hothers, Option.bind_eq_bind, Option.bind_some,
      Option.pure_def]

lemma reads_list {format : Format α} {items : List α} (hlength : ShortList items)
    (h : ∀ a ∈ items, format.Reads a) : format.list.Reads items := by
  intro rest
  have hcount := reads_word hlength (items.flatMap format.write ++ rest)
  have hitems := readMany_flatMap h rest
  simp only [list, List.append_assoc, hcount, Option.bind_eq_bind, Option.bind_some, hitems]

lemma reads_pair {first : Format α} {second : Format β} {a : α} {b : β}
    (ha : first.Reads a) (hb : second.Reads b) : (first.pair second).Reads (a, b) := by
  intro rest
  have hfirst := ha (second.write b ++ rest)
  have hsecond := hb rest
  simp only [pair, List.append_assoc, hfirst, Option.bind_eq_bind, Option.bind_some, hsecond,
    Option.pure_def]

lemma reads_via {format : Format α} {toForm : β → α} {ofForm? : α → Option β} {b : β}
    (hform : format.Reads (toForm b)) (hback : ofForm? (toForm b) = some b) :
    (format.via toForm ofForm?).Reads b := by
  intro rest
  have hread := hform rest
  simp only [via, hread, Option.bind_eq_bind, Option.bind_some, hback, Option.pure_def]

/-- Optional texts are read back when they are short. -/
lemma reads_text? {a : Option String} (h : ∀ s ∈ a, ShortText s) : text.option.Reads a :=
  reads_option fun s hs => reads_text (h s hs)

end Format

/-! ### The parts of an image -/

open Format

lemma NodeId.reads_format (id : NodeId) : NodeId.format.Reads id := by
  refine reads_via (reads_word id.toNat_lt) ?_
  have hmod : id.toNat % NodeId.bound = id.toNat := Nat.mod_eq_of_lt id.toNat_lt
  simp only [Function.comp_apply, Option.some.injEq]
  exact NodeId.ext hmod

/-- The texts of a node are short. -/
structure Node.Fits (node : Node) : Prop where
  type : ∀ s ∈ node.type, ShortText s
  name : ∀ s ∈ node.name, ShortText s
  file : ∀ s ∈ node.file, ShortText s
  metadata : ∀ s ∈ node.metadata, ShortText s
  semanticId : ∀ s ∈ node.semanticId, ShortText s

instance (node : Node) : Decidable node.Fits :=
  decidable_of_iff (_ ∧ _ ∧ _ ∧ _ ∧ _)
    ⟨fun ⟨type, name, file, metadata, semanticId⟩ => ⟨type, name, file, metadata, semanticId⟩,
      fun h => ⟨h.type, h.name, h.file, h.metadata, h.semanticId⟩⟩

lemma Node.reads_format {node : Node} (h : node.Fits) : Node.format.Reads node := by
  refine reads_via ?_ rfl
  refine reads_pair node.id.reads_format ?_
  refine reads_pair (reads_text? h.type) ?_
  refine reads_pair (reads_text? h.name) ?_
  refine reads_pair (reads_text? h.file) ?_
  refine reads_pair (reads_flag node.exported) ?_
  exact reads_pair (reads_text? h.metadata) (reads_text? h.semanticId)

/-- The texts of an edge are short. -/
structure Edge.Fits (edge : Edge) : Prop where
  type : ∀ s ∈ edge.type, ShortText s
  metadata : ∀ s ∈ edge.metadata, ShortText s

instance (edge : Edge) : Decidable edge.Fits :=
  decidable_of_iff (_ ∧ _)
    ⟨fun ⟨type, metadata⟩ => ⟨type, metadata⟩, fun h => ⟨h.type, h.metadata⟩⟩

lemma Edge.reads_format {edge : Edge} (h : edge.Fits) : Edge.format.Reads edge := by
  refine reads_via ?_ rfl
  refine reads_pair edge.src.reads_format ?_
  refine reads_pair edge.dst.reads_format ?_
  exact reads_pair (reads_text? h.type) (reads_text? h.metadata)

lemma FieldKind.reads_format (kind : FieldKind) : FieldKind.format.Reads kind := by
  have hnumber : kind.number < Bytes.bound 4 := by cases kind <;> decide
  refine reads_via (reads_word hnumber) ?_
  cases kind <;> rfl

/-- The texts of a declaration and its list of types are short. -/
structure FieldDecl.Fits (decl : FieldDecl) : Prop where
  name : ShortText decl.name
  nodeTypes : ∀ types ∈ decl.nodeTypes, ShortList types ∧ ∀ s ∈ types, ShortText s

instance (decl : FieldDecl) : Decidable decl.Fits :=
  decidable_of_iff (_ ∧ _)
    ⟨fun ⟨name, nodeTypes⟩ => ⟨name, nodeTypes⟩, fun h => ⟨h.name, h.nodeTypes⟩⟩

lemma FieldDecl.reads_format {decl : FieldDecl} (h : decl.Fits) :
    FieldDecl.format.Reads decl := by
  refine reads_via ?_ rfl
  refine reads_pair (reads_text h.name) ?_
  refine reads_pair decl.kind.reads_format ?_
  refine reads_option fun types htypes => ?_
  obtain ⟨hlength, htexts⟩ := h.nodeTypes types htypes
  exact reads_list hlength fun s hs => reads_text (htexts s hs)

namespace Image

/-- All texts and lists of an image are short. -/
structure Fits (image : Image) : Prop where
  nodes : ShortList image.nodes ∧ ∀ node ∈ image.nodes, node.Fits
  edges : ShortList image.edges ∧ ∀ edge ∈ image.edges, edge.Fits
  fields : ShortList image.fields ∧ ∀ decl ∈ image.fields, decl.Fits

instance (image : Image) : Decidable image.Fits :=
  decidable_of_iff (_ ∧ _ ∧ _)
    ⟨fun ⟨nodes, edges, fields⟩ => ⟨nodes, edges, fields⟩, fun h => ⟨h.nodes, h.edges, h.fields⟩⟩

lemma reads_format {image : Image} (h : image.Fits) : Image.format.Reads image := by
  refine reads_via ?_ rfl
  refine reads_pair ?_ (reads_pair ?_ ?_)
  · exact reads_list h.nodes.1 fun node hnode => Node.reads_format (h.nodes.2 node hnode)
  · exact reads_list h.edges.1 fun edge hedge => Edge.reads_format (h.edges.2 edge hedge)
  · exact reads_list h.fields.1 fun decl hdecl => FieldDecl.reads_format (h.fields.2 decl hdecl)

/-- An image whose texts and lists are short is decoded from its octets. -/
theorem decode?_encode {image : Image} (h : image.Fits) :
    decode? image.encode = some image := by
  have hread := reads_format h []
  rw [List.append_nil] at hread
  unfold decode? encode
  rw [hread]
  rfl

end Image

end CodeGraph
