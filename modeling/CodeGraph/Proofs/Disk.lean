import Mathlib
import CodeGraph.Disk

/-!
# What is written is read back

A path is followed through directories only, so where it leads depends on nothing but which
places are directories (`Disk.walk?_congr`).  Writing, moving and removing files changes no
directory (`SameDirectories`): the same paths lead to the same places as before, and at the
place that was written the content is found (`Disk.read?_of_write?`, `Disk.read?_of_rename?`).

Making directories takes nothing away either: what could be read still can be (`Disk.Grows`).

What the contents of all files have in common (`Disk.AllFiles`) stays so while directories are
made and removed and files are moved, and is lost only by writing a file without it.
-/

namespace CodeGraph

open Std (ExtTreeMap LawfulEqCmp)

/-- A path ends in a slash when its last character is one. -/
lemma Path.endsInSlash_eq_false_iff {path : Path} :
    path.endsInSlash = false ↔ ¬ "/".toList <:+ path.text.toList := by
  rw [endsInSlash, String.endsWith_eq_endsWith_toSlice, String.Slice.endsWith_string_eq_false_iff,
    String.copy_toSlice]

namespace Disk

variable {disk disk' : Disk}

/-! ### Directories -/

/-- Two disks on which the same places are directories. -/
def SameDirectories (disk disk' : Disk) : Prop :=
  ∀ place, disk'.entryAt? place = some .directory ↔ disk.entryAt? place = some .directory

lemma SameDirectories.trans {disk'' : Disk} (h : SameDirectories disk disk')
    (h' : SameDirectories disk' disk'') : SameDirectories disk disk'' :=
  fun place => (h' place).trans (h place)

/-- A path leads to the same place on disks with the same directories. -/
lemma walk?_congr (h : SameDirectories disk disk') (place : List String)
    (steps : List Path.Step) : disk'.walk? place steps = disk.walk? place steps := by
  induction steps generalizing place with
  | nil => rfl
  | cons step steps ih =>
    have hdirectory := h place
    unfold walk?
    by_cases hplace : disk.entryAt? place = some .directory
    · rw [if_pos hplace, if_pos (hdirectory.2 hplace)]
      cases stepFrom? place step with
      | none => rfl
      | some next => exact ih next
    · rw [if_neg hplace, if_neg fun hplace' => hplace (hdirectory.1 hplace')]

lemma place?_congr (h : SameDirectories disk disk') (path : Path) :
    disk'.place? path = disk.place? path := by
  unfold place?
  rw [walk?_congr h]

/-! ### One place -/

/-- The place above all others is a directory. -/
lemma ne_nil_of_entryAt?_ne {place : List String} (h : disk.entryAt? place ≠ some .directory) :
    place ≠ [] := by
  rintro rfl
  exact h rfl

lemma entryAt?_insert {place : List String} (hplace : place ≠ []) (entry : DiskEntry)
    (other : List String) : entryAt? ⟨disk.entries.insert place entry⟩ other =
      if other = place then some entry else disk.entryAt? other := by
  unfold entryAt?
  rw [ExtTreeMap.getElem?_insert]
  by_cases heq : place = other
  · subst heq
    simp [hplace]
  · have hne : ¬ other = place := fun h => heq h.symm
    simp [heq, hne]

lemma entryAt?_erase {place : List String} (hplace : place ≠ []) (other : List String) :
    entryAt? ⟨disk.entries.erase place⟩ other =
      if other = place then none else disk.entryAt? other := by
  unfold entryAt?
  rw [ExtTreeMap.getElem?_erase]
  by_cases heq : place = other
  · subst heq
    simp [hplace]
  · have hne : ¬ other = place := fun h => heq h.symm
    simp [heq, hne]

/-- A file in a place where no directory is changes no directory. -/
lemma sameDirectories_insert {place : List String} (h : disk.entryAt? place ≠ some .directory)
    (content : Bytes) : SameDirectories disk ⟨disk.entries.insert place (.file content)⟩ := by
  intro other
  rw [entryAt?_insert (ne_nil_of_entryAt?_ne h)]
  by_cases heq : other = place
  · rw [if_pos heq, heq]
    simp [h]
  · rw [if_neg heq]

/-- Taking away what is no directory changes no directory. -/
lemma sameDirectories_erase {place : List String} (h : disk.entryAt? place ≠ some .directory) :
    SameDirectories disk ⟨disk.entries.erase place⟩ := by
  intro other
  rw [entryAt?_erase (ne_nil_of_entryAt?_ne h)]
  by_cases heq : other = place
  · rw [if_pos heq, heq]
    simp [h]
  · rw [if_neg heq]

/-! ### Reading -/

/-- A file is read where a path leads to it and does not end in a slash. -/
lemma read?_eq_some_iff {path : Path} {content : Bytes} :
    disk.read? path = some content ↔ path.endsInSlash = false ∧
      ∃ place, disk.place? path = some place ∧ disk.entryAt? place = some (.file content) := by
  unfold read? lookup?
  cases hplace : disk.place? path with
  | none => simp
  | some place =>
    cases hentry : disk.entryAt? place with
    | none => simp [hentry]
    | some entry =>
      cases entry with
      | directory => simp [hentry]
      | file stored =>
        cases hslash : path.endsInSlash <;> simp [hentry]

/-- There is something at a path from which a file can be read. -/
lemma contains_of_read? {path : Path} {content : Bytes} (h : disk.read? path = some content) :
    disk.contains path = true := by
  obtain ⟨hslash, place, hplace, hentry⟩ := read?_eq_some_iff.1 h
  simp [contains, lookup?, hplace, hentry, hslash]

/-! ### Writing and moving -/

/-- What writing a file does: its place, which is no directory, holds the content. -/
lemma write?_eq_some {path : Path} {content : Bytes} (h : disk.write? path content = some disk') :
    path.endsInSlash = false ∧ ∃ place, disk.place? path = some place ∧
      disk.entryAt? place ≠ some .directory ∧
      disk' = ⟨disk.entries.insert place (.file content)⟩ := by
  unfold write? at h
  split at h
  · simp at h
  · next place hplace =>
    split at h
    · simp at h
    · next hrefused =>
      rw [Bool.or_eq_true, not_or, decide_eq_true_eq] at hrefused
      refine ⟨by simpa using hrefused.1, place, hplace, hrefused.2, ?_⟩
      exact (Option.some.inj h).symm

/-- What was written to a path is read from it. -/
theorem read?_of_write? {path : Path} {content : Bytes}
    (h : disk.write? path content = some disk') : disk'.read? path = some content := by
  obtain ⟨hslash, place, hplace, hfree, rfl⟩ := write?_eq_some h
  refine read?_eq_some_iff.2 ⟨hslash, place, ?_, ?_⟩
  · rw [place?_congr (sameDirectories_insert hfree content)]
    exact hplace
  · rw [entryAt?_insert (ne_nil_of_entryAt?_ne hfree), if_pos rfl]

/-- A file is written at a path that leads to a place where no directory is. -/
lemma write?_eq_insert {path : Path} {place : List String} (hslash : path.endsInSlash = false)
    (hplace : disk.place? path = some place) (hfree : disk.entryAt? place ≠ some .directory)
    (content : Bytes) :
    disk.write? path content = some ⟨disk.entries.insert place (.file content)⟩ := by
  unfold write?
  simp [hplace, hslash, hfree]

/-- What was written can be moved to a path that leads to a place where no directory is. -/
lemma rename?_of_write? {source target : Path} {content : Bytes} {goal : List String}
    (hwrite : disk.write? source content = some disk') (hslash : target.endsInSlash = false)
    (hgoal : disk.place? target = some goal) (hfree : disk.entryAt? goal ≠ some .directory) :
    (disk'.rename? source target).isSome := by
  have hread := read?_of_write? hwrite
  obtain ⟨-, origin, horigin, hunused, rfl⟩ := write?_eq_some hwrite
  have hsame := sameDirectories_insert hunused content
  have horigin' := (place?_congr hsame source).trans horigin
  have hgoal' := (place?_congr hsame target).trans hgoal
  have hmoved := write?_eq_insert hslash hgoal' (fun h => hfree ((hsame goal).1 h)) content
  simp only [rename?, horigin', hgoal', hread, hmoved, Option.bind_eq_bind, Option.bind_some]
  split <;> rfl

/-- What was moved to a path is read from it. -/
theorem read?_of_rename? {source target : Path} {content : Bytes}
    (hcontent : disk.read? source = some content)
    (h : disk.rename? source target = some disk') : disk'.read? target = some content := by
  obtain ⟨-, origin, horigin, hfile⟩ := read?_eq_some_iff.1 hcontent
  simp only [rename?, horigin, hcontent, Option.bind_eq_bind, Option.bind_some,
    Option.bind_eq_some_iff] at h
  obtain ⟨goal, hgoal, moved, hmoved, h⟩ := h
  obtain ⟨hslash, place, hplace, hfree, rfl⟩ := write?_eq_some hmoved
  obtain rfl : goal = place := Option.some.inj (hgoal.symm.trans hplace)
  have hread := read?_of_write? hmoved
  by_cases heq : origin = goal
  · -- A file moved onto itself stays, and its content is already there.
    rw [if_pos (by simpa using heq)] at h
    obtain rfl := Option.some.inj h
    exact read?_eq_some_iff.2 ⟨hslash, goal, hgoal, heq ▸ hfile⟩
  · rw [if_neg (by simpa using heq)] at h
    obtain rfl := Option.some.inj h
    have hkept : SameDirectories disk ⟨disk.entries.insert goal (.file content)⟩ :=
      sameDirectories_insert hfree content
    have hnotDirectory : entryAt? ⟨disk.entries.insert goal (.file content)⟩ origin
        ≠ some .directory := by
      intro hdirectory
      have := (hkept origin).1 hdirectory
      rw [hfile] at this
      simp at this
    have hgone := sameDirectories_erase hnotDirectory
    refine read?_eq_some_iff.2 ⟨hslash, goal, ?_, ?_⟩
    · rw [place?_congr (hkept.trans hgone)]
      exact hgoal
    · rw [entryAt?_erase (ne_nil_of_entryAt?_ne hnotDirectory), if_neg fun h => heq h.symm,
        entryAt?_insert (ne_nil_of_entryAt?_ne hfree), if_pos rfl]

/-! ### Making directories -/

/-- Whatever is at a place on one disk is there on the other one. -/
def Grows (disk disk' : Disk) : Prop :=
  ∀ (place : List String) (entry : DiskEntry),
    disk.entryAt? place = some entry → disk'.entryAt? place = some entry

lemma Grows.refl (disk : Disk) : disk.Grows disk := fun _ _ h => h

lemma Grows.trans {disk'' : Disk} (h : disk.Grows disk') (h' : disk'.Grows disk'') :
    disk.Grows disk'' :=
  fun place entry hentry => h' place entry (h place entry hentry)

/-- Where a path led it still leads. -/
lemma Grows.place? (h : disk.Grows disk') {path : Path} {place : List String}
    (hplace : disk.place? path = some place) : disk'.place? path = some place := by
  have hwalk : ∀ (steps : List Path.Step) (start : List String),
      disk.walk? start steps = some place → disk'.walk? start steps = some place := by
    intro steps
    induction steps with
    | nil => exact fun _ h => h
    | cons step steps ih =>
      intro start hwalk
      unfold walk? at hwalk ⊢
      split at hwalk
      · next hdirectory =>
        obtain ⟨next, hnext, hrest⟩ := Option.bind_eq_some_iff.1 hwalk
        rw [if_pos (h start .directory hdirectory), hnext]
        exact ih next hrest
      · cases hwalk
  unfold Disk.place? at hplace ⊢
  split at hplace
  · next husable =>
    rw [if_pos husable]
    exact hwalk path.steps [] hplace
  · cases hplace

/-- What could be read can still be read. -/
lemma Grows.read? (h : disk.Grows disk') {path : Path} {content : Bytes}
    (hread : disk.read? path = some content) : disk'.read? path = some content := by
  obtain ⟨hslash, place, hplace, hentry⟩ := read?_eq_some_iff.1 hread
  exact read?_eq_some_iff.2 ⟨hslash, place, h.place? hplace, h place _ hentry⟩

lemma grows_makeDirectory (disk : Disk) (path : Path) : disk.Grows (disk.makeDirectory path).2 := by
  unfold makeDirectory
  split
  · exact .refl disk
  · next place _ =>
    split
    · exact .refl disk
    · exact .refl disk
    · next hfree =>
      have hunused : disk.entryAt? place ≠ some .directory := by simp [hfree]
      intro other entry hentry
      have hother : other ≠ place := by
        rintro rfl
        rw [hfree] at hentry
        cases hentry
      rw [entryAt?_insert (ne_nil_of_entryAt?_ne hunused), if_neg hother]
      exact hentry

lemma grows_makeDirectories (disk : Disk) (paths : List Path) :
    disk.Grows (disk.makeDirectories paths).2 := by
  induction paths generalizing disk with
  | nil => exact .refl disk
  | cons path paths ih =>
    have hfirst := grows_makeDirectory disk path
    unfold makeDirectories
    split
    · next made heq =>
      rw [heq] at hfirst
      exact hfirst.trans (ih made)
    · next heq => rwa [heq] at hfirst

/-- Making a directory takes nothing away. -/
lemma grows_createDirectory (disk : Disk) (path : Path) :
    disk.Grows (disk.createDirectory path).2 := by
  unfold createDirectory
  split
  · exact .refl disk
  · split
    · exact grows_makeDirectories disk _
    · exact .refl disk

/-! ### What all files have in common -/

/-- The contents of all files on a disk have a property. -/
def AllFiles (P : Bytes → Prop) (disk : Disk) : Prop :=
  ∀ (place : List String) (content : Bytes),
    disk.entries[place]? = some (.file content) → P content

namespace AllFiles

variable {P : Bytes → Prop}

lemma empty : Disk.empty.AllFiles P := fun _ _ hfile => by
  simp [Disk.empty] at hfile

lemma insertDirectory (h : disk.AllFiles P) (place : List String) :
    AllFiles P ⟨disk.entries.insert place .directory⟩ := fun other content hfile => by
  rw [ExtTreeMap.getElem?_insert] at hfile
  split at hfile
  · simp at hfile
  · exact h other content hfile

lemma erase (h : disk.AllFiles P) (place : List String) :
    AllFiles P ⟨disk.entries.erase place⟩ := fun other content hfile => by
  rw [ExtTreeMap.getElem?_erase] at hfile
  split at hfile
  · simp at hfile
  · exact h other content hfile

lemma makeDirectory (h : disk.AllFiles P) (path : Path) :
    (disk.makeDirectory path).2.AllFiles P := by
  unfold Disk.makeDirectory
  split
  · exact h
  · split
    · exact h
    · exact h
    · exact h.insertDirectory _

lemma makeDirectories (h : disk.AllFiles P) (paths : List Path) :
    (disk.makeDirectories paths).2.AllFiles P := by
  induction paths generalizing disk with
  | nil => exact h
  | cons path paths ih =>
    have hfirst := h.makeDirectory path
    unfold Disk.makeDirectories
    split
    · next heq => exact ih (by rwa [heq] at hfirst)
    · next heq => rwa [heq] at hfirst

lemma createDirectory (h : disk.AllFiles P) (path : Path) :
    (disk.createDirectory path).2.AllFiles P := by
  unfold Disk.createDirectory
  split
  · exact h
  · split
    · exact h.makeDirectories _
    · exact h

lemma removeDirectory (h : disk.AllFiles P) (path : Path) :
    (disk.removeDirectory path).2.AllFiles P := by
  have hemptied (place : List String) : (disk.emptied place).AllFiles P :=
    fun other content hfile => by
      rw [emptied, ExtTreeMap.getElem?_filter', Option.filter_eq_some_iff] at hfile
      exact h other content hfile.1
  unfold Disk.removeDirectory
  split
  · next place _ _ =>
    simp only
    split
    · exact hemptied place
    · split
      · exact (hemptied place).erase place
      · exact hemptied place
  · exact h

lemma write? (h : disk.AllFiles P) {path : Path} {content : Bytes} (hcontent : P content)
    (hwrite : disk.write? path content = some disk') : disk'.AllFiles P := by
  obtain ⟨-, place, -, -, rfl⟩ := write?_eq_some hwrite
  intro other found hfile
  rw [ExtTreeMap.getElem?_insert] at hfile
  split at hfile
  · obtain rfl : content = found := by simpa using hfile
    exact hcontent
  · exact h other found hfile

/-- The property is had by whatever is read. -/
lemma read? (h : disk.AllFiles P) {path : Path} {content : Bytes}
    (hread : disk.read? path = some content) : P content := by
  obtain ⟨-, place, -, hentry⟩ := read?_eq_some_iff.1 hread
  unfold entryAt? at hentry
  split at hentry
  · simp at hentry
  · exact h place content hentry

lemma rename? (h : disk.AllFiles P) {source target : Path}
    (hrename : disk.rename? source target = some disk') : disk'.AllFiles P := by
  simp only [Disk.rename?, Option.bind_eq_bind, Option.bind_eq_some_iff] at hrename
  obtain ⟨origin, -, goal, -, content, hread, moved, hmoved, hdisk⟩ := hrename
  have hall := h.write? (h.read? hread) hmoved
  split at hdisk
  · exact Option.some.inj hdisk ▸ h
  · exact Option.some.inj hdisk ▸ hall.erase origin

end AllFiles

end Disk

end CodeGraph
