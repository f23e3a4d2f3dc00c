import Mathlib
import CodeGraph.Disk

/-!
# Where paths lead

A path is read by splitting its text at slashes, so a name put after a path is one more step
(`Path.steps_join`), however the path is written.  `Path.target?` is the place to which a path
leads when nothing on the disk stops it; a path that a disk follows leads there
(`Disk.target?_of_place?`).  Paths written differently can have the same target, but different
names after one path never do (`Path.target?_join`).
-/

namespace CodeGraph

open String

/-! ### Splitting at slashes -/

/-- Splitting at slashes goes on from what has been found, where `m` is the part begun. -/
lemma splitOnAux_slash (l m r : List Char) (found : List String) :
    splitOnAux (ofList (l ++ m ++ r)) "/" ⟨utf8Len l⟩ ⟨utf8Len l + utf8Len m⟩ 0 found =
      found.reverse ++ (List.splitOnPPrepend (· == '/') r m.reverse).map ofList := by
  have hget : Pos.Raw.get "/" 0 = '/' := rfl
  have hnext : Pos.Raw.next "/" 0 = ⟨1⟩ := rfl
  have hend : Pos.Raw.atEnd "/" ⟨1⟩ = true := rfl
  induction r generalizing l m found with
  | nil =>
    have hlast := atEnd_of_valid (l ++ m) []
    have hextract := extract_of_valid l m []
    rw [utf8Len_append] at hlast
    rw [splitOnAux, if_pos (by simpa using hlast), hextract]
    simp
  | cons c r ih =>
    have hmore := atEnd_of_valid (l ++ m) (c :: r)
    have hhere := get_of_valid (l ++ m) (c :: r)
    have hthen := next_of_valid (l ++ m) c r
    have hextract := extract_of_valid l m (c :: r)
    rw [utf8Len_append] at hhere hthen hmore
    rw [splitOnAux, if_neg (by simpa using hmore)]
    simp only [hhere, hthen, hget, hnext, hend, if_true, List.headD_cons, beq_iff_eq]
    split
    · next hslash =>
      subst hslash
      -- The part ends before the slash, which takes one octet.
      have hback : (Pos.Raw.mk (utf8Len l + utf8Len m + Char.utf8Size '/')).unoffsetBy ⟨1⟩
          = ⟨utf8Len l + utf8Len m⟩ := by
        have hsize : Char.utf8Size '/' = 1 := rfl
        rw [hsize]
        rfl
      have hrest := ih (l ++ m ++ ['/']) [] (ofList m :: found)
      rw [hback, hextract, List.splitOnPPrepend_cons_pos (by simp), List.reverse_reverse]
      simpa [Nat.add_assoc] using hrest
    · next hother =>
      have hstay : (Pos.Raw.mk (utf8Len l + utf8Len m)).unoffsetBy 0
          = ⟨utf8Len l + utf8Len m⟩ := rfl
      have hrest := ih l (m ++ [c]) found
      rw [hstay, hthen, List.splitOnPPrepend_cons_neg (by simpa using hother)]
      simpa [Nat.add_assoc] using hrest

/-- A text is split at slashes as the list of its characters is. -/
lemma splitOn_slash (text : String) :
    text.splitOn "/" = (text.toList.splitOn '/').map ofList := by
  have hall := splitOnAux_slash [] [] text.toList []
  simpa [splitOn, List.splitOn_eq_splitOnP] using hall

namespace Path

/-! ### A name after a path -/

/-- A name without slashes after a slash is one more part. -/
lemma parts_append_slash (text : String) {name : String} (hname : '/' ∉ name.toList) :
    parts ⟨text ++ "/" ++ name⟩ = parts ⟨text⟩ ++ [name] := by
  have hslash : "/".toList = ['/'] := rfl
  have hlist : (text ++ "/" ++ name).toList = text.toList ++ '/' :: name.toList := by
    rw [toList_append, toList_append, hslash, List.append_assoc, List.singleton_append]
  unfold parts
  rw [splitOn_slash, splitOn_slash, hlist, List.splitOn_append_cons_self,
    List.splitOn_eq_singleton hname, List.map_append, List.map_singleton, ofList_toList]

/-- A slash at the end of a path is no step. -/
lemma steps_slash (text : String) : steps ⟨text ++ "/"⟩ = steps ⟨text⟩ := by
  have hempty : '/' ∉ "".toList := by decide
  have hparts := parts_append_slash text hempty
  rw [String.append_empty] at hparts
  unfold steps
  rw [hparts, List.filterMap_append]
  exact List.append_nil _

/-- The steps along a path with a name after it are those along the path and the one to the
name, however the path ends. -/
lemma steps_join (base : Path) {name : String} (hname : '/' ∉ name.toList) :
    (base.join name).steps = base.steps ++ (Step.ofPart? name).toList := by
  have hslash : "/".toList = ['/'] := rfl
  have hafter (text : String) : steps ⟨text ++ "/" ++ name⟩
      = steps ⟨text⟩ ++ (Step.ofPart? name).toList := by
    unfold steps
    rw [parts_append_slash text hname, List.filterMap_append]
    cases hstep : Step.ofPart? name <;> simp [hstep]
  have hrelative : ¬ name.startsWith "/" = true := by
    intro hstart
    rw [String.startsWith_string_iff, hslash] at hstart
    exact hname (hstart.subset (List.mem_singleton_self _))
  obtain ⟨text⟩ := base
  unfold join
  rw [Bool.not_eq_true] at hrelative
  rw [hrelative, Bool.false_or]
  split
  · next hempty =>
    -- After the empty path there is nothing but the name.
    obtain rfl : text = "" := by simpa using hempty
    have hparts : parts ⟨name⟩ = [name] := by
      unfold parts
      rw [splitOn_slash, List.splitOn_eq_singleton hname, List.map_singleton, ofList_toList]
    have hnone : steps ⟨""⟩ = [] := by
      unfold steps parts
      rw [splitOn_slash]
      rfl
    rw [hnone, List.nil_append]
    unfold steps
    rw [hparts]
    cases hstep : Step.ofPart? name <;> simp [hstep]
  · split
    · next hends =>
      rw [String.endsWith_eq_endsWith_toSlice, String.Slice.endsWith_string_iff,
        String.copy_toSlice, hslash] at hends
      obtain ⟨before, hbefore⟩ := hends
      obtain rfl : text = ofList before ++ "/" := by
        rw [← String.toList_inj, toList_append, hslash, toList_ofList, hbefore]
      rw [hafter, steps_slash]
    · exact hafter text

/-! ### Targets -/

/-- The place to which a path leads when nothing on the disk stops it. -/
def target? (path : Path) : Option (List String) :=
  path.steps.foldlM Disk.stepFrom? []

/-- Two paths that lead to the same place. -/
def SameTarget (a b : Path) : Prop :=
  ∃ place, a.target? = some place ∧ b.target? = some place

lemma SameTarget.symm {a b : Path} (h : a.SameTarget b) : b.SameTarget a := by
  obtain ⟨place, ha, hb⟩ := h
  exact ⟨place, hb, ha⟩

/-- A name after a path leads from the target of the path to one place below it. -/
lemma target?_join (base : Path) {name : String} (hname : '/' ∉ name.toList)
    (hstep : Step.ofPart? name = some (.into name)) (hshort : name.utf8ByteSize ≤ Disk.maxName) :
    (base.join name).target? = base.target?.map (· ++ [name]) := by
  unfold target?
  rw [steps_join base hname, hstep, Option.toList_some, List.foldlM_append]
  cases base.steps.foldlM Disk.stepFrom? [] with
  | none => rfl
  | some place => simp [Disk.stepFrom?, hshort]

end Path

/-- A path that a disk follows leads to its target. -/
lemma Disk.target?_of_place? {disk : Disk} {path : Path} {place : List String}
    (h : disk.place? path = some place) : path.target? = some place := by
  have hwalk : ∀ (steps : List Path.Step) (start : List String),
      disk.walk? start steps = some place → steps.foldlM Disk.stepFrom? start = some place := by
    intro steps
    induction steps with
    | nil => exact fun _ h => h
    | cons step steps ih =>
      intro start h
      unfold Disk.walk? at h
      split at h
      · obtain ⟨next, hnext, hrest⟩ := Option.bind_eq_some_iff.1 h
        rw [List.foldlM_cons, hnext]
        exact ih next hrest
      · simp at h
  unfold Disk.place? at h
  split at h
  · exact hwalk path.steps [] h
  · simp at h

end CodeGraph
