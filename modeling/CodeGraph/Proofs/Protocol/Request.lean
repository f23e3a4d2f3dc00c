import Mathlib
import CodeGraph.Proofs.Protocol.Wire
import CodeGraph.Protocol.Envelope

/-!
# Requests are read back

Every command of the table is read back from its own arguments (`Request.rereads_commands`), and
the table has each name once, so the command is found again by its name
(`Request.ofEntries_written`).
-/

namespace CodeGraph.Request

open Pack Fields
open Wire (text text? flag texts? rereads_text rereads_text? rereads_texts?)

/-! ### Arguments -/

section Arguments

variable {depth : Nat}

lemma rereads_flag (name : String) :
    (flag name).Rereads depth fun value given => given = [(name, .bool value)] :=
  rereads_always Item.rereads_asBool .bool rfl

lemma rereads_texts (name : String) :
    (texts name).Rereads depth fun texts given => given = [(name, .ofTexts texts)] :=
  rereads_required Item.rereads_asText.asList

lemma fits_noItems : (Item.arr []).Fits (depth + 1) :=
  .arr (by decide) fun _ hitem => by cases hitem

lemma rereads_textsOrNone (name : String) :
    (textsOrNone name).Rereads (depth + 1) fun texts given => given = [(name, .ofTexts texts)] :=
  rereads_always Item.rereads_asText.asList fits_noItems rfl

lemma rereads_number (name : String) {width : Nat} (hwidth : width ≤ 8) :
    (number name width).Rereads depth fun n given => given = [(name, .ofNat n)] :=
  rereads_required (Item.rereads_asNat hwidth)

lemma rereads_number? (name : String) :
    (number? name).Rereads depth fun n given => given = fieldIfSome name .ofNat n :=
  rereads_ifSome (Item.rereads_asNat (by decide)) fun _ => Item.noConfusion

lemma rereads_query :
    query.Rereads depth fun query given => given = [("query", query.toItem)] :=
  rereads_required Wire.Query.rereads

lemma rereads_tags (aliases : List String) :
    (Fields.optional "tags" Item.asTextMap ∅ aliases).Rereads (depth + 1)
      fun tags given => given = [("tags", .ofTextMap tags)] := by
  have hempty : (Item.map []).Fits (depth + 1) := by
    refine .map (by decide) ?_ ?_ <;> simp
  have hread : Item.asTextMap (.map []) = .ok ∅ := by
    change Except.ok (Std.ExtTreeMap.ofList ([] : List (String × String))) = _
    rw [Std.ExtTreeMap.ofList_nil]
  obtain ⟨hfits, hback⟩ := Item.rereads_asTextMap (depth + 1) _ _ hempty hread
  exact rereads_always Item.rereads_asTextMap hfits hback

lemma rereads_nodes (aliases : List String) :
    (Fields.optional "nodes" (Item.asList Wire.Node.fields.ofItem) [] aliases).Rereads (depth + 1)
      fun nodes given => given = [("nodes", itemList Wire.Node.toItem nodes)] :=
  rereads_always Wire.Node.rereads.asList fits_noItems rfl

lemma rereads_edges (aliases : List String) :
    (Fields.optional "edges" (Item.asList Wire.Edge.fields.ofItem) [] aliases).Rereads (depth + 1)
      fun edges given => given = [("edges", itemList Wire.Edge.toItem edges)] :=
  rereads_always Wire.Edge.rereads.asList fits_noItems rfl

end Arguments

/-! ### Commands -/

/-- Whether fields may be the arguments of a command, beside the other keys of an envelope. -/
structure AreArguments (slots : List Slot) : Prop where
  wellNamed : WellNamed slots
  few : slots.length ≤ 4
  command : commandKey ∉ slots.map Slot.name
  id : Envelope.idKey ∉ slots.map Slot.name

instance (slots : List Slot) : Decidable (AreArguments slots) :=
  decidable_of_iff
    (WellNamed slots ∧ slots.length ≤ 4 ∧ commandKey ∉ slots.map Slot.name ∧
      Envelope.idKey ∉ slots.map Slot.name)
    ⟨fun h => ⟨h.1, h.2.1, h.2.2.1, h.2.2.2⟩, fun h => ⟨h.wellNamed, h.few, h.command, h.id⟩⟩

/-- Whether arguments can be written beside the other keys of an envelope. -/
structure Writable (depth : Nat) (arguments : List (String × Item)) : Prop where
  few : arguments.length ≤ 4
  fits : ∀ field ∈ arguments, Item.FieldFits depth field
  command : ∀ field ∈ arguments, field.1 ≠ commandKey
  id : ∀ field ∈ arguments, field.1 ≠ Envelope.idKey

/-- Whether the requests that are read as a command have its name, and are read from their own
arguments too. -/
def Rereads (depth : Nat) (command : String × Reader) : Prop :=
  ∀ (entries : List (Item × Item)) (request : Request),
    (∀ entry ∈ entries, entry.2.Fits depth) → command.2 entries = .ok request →
      request.name = command.1 ∧ Writable depth request.arguments ∧
        command.2 (entriesOf request.arguments) = .ok request

variable {depth : Nat}

lemma rereads_alone {request : Request} {name : String} (hname : request.name = name)
    (harguments : request.arguments = []) : Rereads depth (name, alone request) := by
  intro entries found _ hread
  obtain rfl := Except.ok.inj hread
  refine ⟨hname, ?_, rfl⟩
  rw [harguments]
  constructor <;> simp

lemma rereads_taking {fields : Fields Request} {name : String}
    (h : fields.Rereads depth fun request given => request.name = name ∧
      given = request.arguments)
    (hslots : AreArguments fields.slots := by decide +kernel) :
    Rereads depth (name, taking fields) := by
  intro entries request hfits hread
  obtain ⟨_, ⟨hname, rfl⟩, hreads, hgiven⟩ := h.ofEntries hslots.wellNamed hfits hread
  have hmem : ∀ field ∈ request.arguments, field.1 ∈ fields.slots.map Slot.name :=
    fun field hfield => hreads.names.subset (List.mem_map_of_mem hfield)
  have hcount := hreads.names.length_le
  rw [List.length_map, List.length_map] at hcount
  refine ⟨hname, ⟨hcount.trans hslots.few, hreads.fieldFits hslots.wellNamed hgiven, ?_, ?_⟩,
    hreads.ofEntries hslots.wellNamed⟩
  · exact fun field hfield heq => hslots.command (heq ▸ hmem field hfield)
  · exact fun field hfield heq => hslots.id (heq ▸ hmem field hfield)

/-- Every command of the table is read back from its own arguments. -/
theorem rereads_commands : ∀ command ∈ commands, Rereads (depth + 1) command := by
  simp only [commands, List.forall_mem_cons]
  -- In the order of the table: the fields of a command, then its own name and arguments.
  exact ⟨
    rereads_taking (rereads_two (rereads_number? _) (rereads_text? _) fun _ _ => ⟨rfl, rfl⟩),
    rereads_taking (rereads_two (rereads_text _) (rereads_flag _) fun _ _ => ⟨rfl, rfl⟩),
    rereads_taking (rereads_two (rereads_text _)
      (rereads_always Item.rereads_asText (.str (by decide)) rfl) fun _ _ => ⟨rfl, rfl⟩),
    rereads_alone rfl rfl,
    rereads_taking (rereads_one (rereads_text _) fun _ => ⟨rfl, rfl⟩),
    rereads_alone rfl rfl,
    rereads_alone rfl rfl,
    rereads_taking (rereads_one (rereads_required Wire.Node.rereads.asList) fun _ => ⟨rfl, rfl⟩),
    rereads_taking (rereads_two (rereads_required Wire.Edge.rereads.asList) (rereads_flag _)
      fun _ _ => ⟨rfl, rfl⟩),
    rereads_taking (rereads_one (rereads_text _) fun _ => ⟨rfl, rfl⟩),
    rereads_taking (rereads_three (rereads_text _) (rereads_text _) (rereads_text _)
      fun _ _ _ => ⟨rfl, rfl⟩),
    rereads_taking (rereads_one (rereads_text _) fun _ => ⟨rfl, rfl⟩),
    rereads_taking (rereads_one (rereads_text _) fun _ => ⟨rfl, rfl⟩),
    rereads_taking (rereads_one (rereads_text _) fun _ => ⟨rfl, rfl⟩),
    rereads_taking (rereads_one (rereads_text _) fun _ => ⟨rfl, rfl⟩),
    rereads_taking (rereads_two (rereads_text _) (rereads_text _) fun _ _ => ⟨rfl, rfl⟩),
    rereads_taking (rereads_one (rereads_text _ _) fun _ => ⟨rfl, rfl⟩),
    rereads_taking (rereads_one rereads_query fun _ => ⟨rfl, rfl⟩),
    rereads_taking (rereads_one rereads_query fun _ => ⟨rfl, rfl⟩),
    rereads_alone rfl rfl,
    rereads_taking (rereads_two (rereads_text _) (rereads_texts? _) fun _ _ => ⟨rfl, rfl⟩),
    rereads_taking (rereads_two (rereads_text _) (rereads_texts? _) fun _ _ => ⟨rfl, rfl⟩),
    rereads_taking (rereads_four (rereads_text _) (rereads_text _) (rereads_texts? _)
      (rereads_number? _) fun _ _ _ _ => ⟨rfl, rfl⟩),
    rereads_taking (rereads_two (rereads_text _) (rereads_texts? _) fun _ _ => ⟨rfl, rfl⟩),
    rereads_alone rfl rfl,
    rereads_alone rfl rfl,
    rereads_taking (rereads_one (rereads_texts? _) fun _ => ⟨rfl, rfl⟩),
    rereads_taking (rereads_one (rereads_texts? _) fun _ => ⟨rfl, rfl⟩),
    rereads_taking (rereads_one (rereads_required Wire.Field.rereads.asList) fun _ => ⟨rfl, rfl⟩),
    rereads_taking (rereads_two (rereads_text _) (rereads_textsOrNone _) fun _ _ => ⟨rfl, rfl⟩),
    rereads_taking (rereads_three (rereads_texts _) (rereads_number _ (by decide))
      (rereads_textsOrNone _) fun _ _ _ => ⟨rfl, rfl⟩),
    rereads_taking (rereads_three (rereads_texts _) (rereads_number _ (by decide))
      (rereads_textsOrNone _) fun _ _ _ => ⟨rfl, rfl⟩),
    rereads_taking (rereads_four (rereads_texts _) (rereads_number _ (by decide))
      (rereads_textsOrNone _) (rereads_flag _) fun _ _ _ _ => ⟨rfl, rfl⟩),
    rereads_alone rfl rfl,
    rereads_taking (rereads_three (rereads_texts _) (rereads_nodes _) (rereads_edges _)
      fun _ _ _ => ⟨rfl, rfl⟩),
    rereads_alone rfl rfl,
    rereads_alone rfl rfl,
    rereads_taking (rereads_one (rereads_tags _) fun _ => ⟨rfl, rfl⟩),
    rereads_taking (rereads_one (rereads_text? _) fun _ => ⟨rfl, rfl⟩),
    rereads_taking (rereads_two (rereads_number _ (by decide)) (rereads_number _ (by decide))
      fun _ _ => ⟨rfl, rfl⟩),
    rereads_taking (rereads_one (rereads_number _ (by decide)) fun _ => ⟨rfl, rfl⟩),
    rereads_taking (rereads_one (rereads_number _ (by decide)) fun _ => ⟨rfl, rfl⟩),
    rereads_taking (rereads_two (rereads_number _ (by decide))
      (rereads_required Item.rereads_asTextMap) fun _ _ => ⟨rfl, rfl⟩),
    rereads_taking (rereads_two (rereads_text _) (rereads_text _) fun _ _ => ⟨rfl, rfl⟩),
    rereads_taking (rereads_one (rereads_text _) fun _ => ⟨rfl, rfl⟩),
    rereads_taking (rereads_one (rereads_text _) fun _ => ⟨rfl, rfl⟩),
    rereads_alone rfl rfl,
    rereads_taking (rereads_one (rereads_text _) fun _ => ⟨rfl, rfl⟩),
    rereads_taking (rereads_one (rereads_text _) fun _ => ⟨rfl, rfl⟩),
    rereads_alone rfl rfl,
    rereads_alone rfl rfl,
    rereads_alone rfl rfl,
    rereads_alone rfl rfl,
    rereads_alone rfl rfl,
    rereads_alone rfl rfl,
    fun _ hcommand => by cases hcommand⟩

/-! ### Finding the command -/

lemma nodup_names : (commands.map Prod.fst).Nodup := by
  decide +kernel

lemma short_names : ∀ name ∈ commands.map Prod.fst,
    (Utf8.encode name).length < Bytes.bound 4 := by
  decide +kernel

/-- Whatever names a command, by text or by number, names one of the table. -/
lemma mem_commands_of_readerOf {item : Item} {reader : Reader} (h : readerOf item = .ok reader) :
    ∃ name, (name, reader) ∈ commands := by
  have hnamed : ∀ name, readerOf.named name = .ok reader → ∃ name, (name, reader) ∈ commands := by
    intro name hname
    simp only [readerOf.named] at hname
    split at hname
    · next found hlookup =>
      obtain rfl := Except.ok.inj hname
      exact ⟨name, mem_of_lookup hlookup⟩
    · simp at hname
  unfold readerOf at h
  split at h
  · exact hnamed _ h
  · exact hnamed _ h
  all_goals first
    | simp at h
    | split at h
      · next command hcommand =>
        obtain rfl := Except.ok.inj h
        exact ⟨command.1, List.mem_of_getElem? hcommand⟩
      · simp at h

/-- The arguments are entries, and the reader is the one known before or one of the table. -/
lemma splitCommand_spec {found reader : Option Reader} {entries arguments : List (Item × Item)}
    (h : splitCommand found entries = .ok (reader, arguments)) :
    (reader = found ∨ ∃ command ∈ commands, reader = some command.2) ∧ arguments ⊆ entries := by
  induction entries generalizing found arguments with
  | nil =>
    obtain ⟨rfl, rfl⟩ := Prod.mk.inj (Except.ok.inj h)
    exact ⟨.inl rfl, List.Subset.refl _⟩
  | cons entry entries ih =>
    obtain ⟨key, item⟩ := entry
    simp only [splitCommand] at h
    split at h
    · split at h
      · simp at h
      · obtain ⟨next, hnext, hothers⟩ := bind_eq_ok_iff.1 h
        obtain ⟨name, hmem⟩ := mem_commands_of_readerOf hnext
        obtain ⟨hreader, hsubset⟩ := ih hothers
        refine ⟨.inr ?_, List.Subset.trans hsubset (List.subset_cons_self _ _)⟩
        rcases hreader with rfl | hreader
        · exact ⟨(name, next), hmem, rfl⟩
        · exact hreader
    · obtain ⟨⟨next, others⟩, hothers, heq⟩ := bind_eq_ok_iff.1 h
      obtain ⟨rfl, rfl⟩ := Prod.mk.inj (Except.ok.inj heq)
      obtain ⟨hreader, hsubset⟩ := ih hothers
      exact ⟨hreader, List.cons_subset_cons _ hsubset⟩

/-- Entries of other names are all arguments. -/
lemma splitCommand_entriesOf {found : Option Reader} {arguments : List (String × Item)}
    (h : ∀ field ∈ arguments, field.1 ≠ commandKey) :
    splitCommand found (entriesOf arguments) = .ok (found, entriesOf arguments) := by
  induction arguments with
  | nil => rfl
  | cons field arguments ih =>
    have hkey : isKey commandKey (.str field.1) = false := by
      have hne := h field List.mem_cons_self
      simpa [isKey, Item.asText] using hne
    have hothers := ih fun other hother => h other (List.mem_cons_of_mem _ hother)
    have hentries : entriesOf (field :: arguments)
        = (.str field.1, field.2) :: entriesOf arguments := rfl
    rw [hentries, splitCommand, hkey, hothers]
    rfl

/-- A request that was read is read again from its command and its arguments. -/
theorem ofEntries_written {entries : List (Item × Item)} {request : Request}
    (hfits : ∀ entry ∈ entries, entry.2.Fits (depth + 1)) (h : ofEntries entries = .ok request) :
    (Utf8.encode request.name).length < Bytes.bound 4 ∧ Writable (depth + 1) request.arguments ∧
      ofEntries (entriesOf ((commandKey, .str request.name) :: request.arguments))
        = .ok request := by
  obtain ⟨⟨reader, arguments⟩, hsplit, hread⟩ := bind_eq_ok_iff.1 h
  obtain ⟨hreader, hsubset⟩ := splitCommand_spec hsplit
  cases reader with
  | none => simp at hread
  | some reader =>
    obtain ⟨command, hcommand, rfl⟩ : ∃ command ∈ commands, reader = command.2 := by
      rcases hreader with hnone | ⟨command, hcommand, heq⟩
      · cases hnone
      · exact ⟨command, hcommand, Option.some.inj heq⟩
    obtain ⟨hname, hwritable, hback⟩ := rereads_commands command hcommand arguments request
      (fun entry hentry => hfits entry (hsubset hentry)) hread
    have hnamed : readerOf (.str request.name) = .ok command.2 := by
      simp only [readerOf, readerOf.named, hname, lookup_of_mem nodup_names hcommand]
    refine ⟨?_, hwritable, ?_⟩
    · rw [hname]
      exact short_names _ (List.mem_map_of_mem hcommand)
    · refine bind_eq_ok_iff.2 ⟨(some command.2, entriesOf request.arguments), ?_, hback⟩
      have hentries : entriesOf ((commandKey, .str request.name) :: request.arguments)
          = (.str commandKey, .str request.name) :: entriesOf request.arguments := rfl
      have hkey : isKey commandKey (.str commandKey) = true := by decide
      rw [hentries, splitCommand, hkey]
      simp only [hnamed, bind, Except.bind]
      exact splitCommand_entriesOf hwritable.command

end CodeGraph.Request
