import Mathlib
import CodeGraph.Proofs.Rules.Layout

/-!
# Moving a cursor

Whatever moves a cursor moves it over characters (`Cursor.MovesTo`), so its offset is the number
of octets of what lies behind it.  The places between two of its moves make up a trail
(`Cursor.Leads`).  Skipping goes in rounds, each of which passes a comment and goes on behind it
(`Cursor.comment?`); `Cursor.skipTrail` and `Cursor.eatTrail` are the trails of skipping and of
looking for a token.

A loop makes so many moves for each character that it passes, and some more
(`Cursor.LeadsWithin`): what a round adds to the first number is paid for by the character that
the round passes at least (`Cursor.LeadsWithin.round`).
-/

namespace CodeGraph.Rules

namespace Cursor

lemma octets_append (cs ds : List Char) : octets (cs ++ ds) = octets cs + octets ds := by
  induction cs with
  | nil => simp [octets]
  | cons c cs ih => rw [List.cons_append, octets_cons, octets_cons, ih, Nat.add_assoc]

lemma octets_pos {cs : List Char} (h : cs ≠ []) : 0 < octets cs := by
  obtain ⟨c, cs, rfl⟩ := List.exists_cons_of_ne_nil h
  have hpos : 0 < Utf8.width c := Char.utf8Size_pos c
  rw [octets_cons]
  omega

lemma octets_eq_utf8ByteSize (cs : List Char) : octets cs = (String.ofList cs).utf8ByteSize := by
  induction cs with
  | nil => rfl
  | cons c cs ih =>
    have hsplit : String.ofList (c :: cs) = String.singleton c ++ String.ofList cs := by
      rw [String.singleton_eq_ofList, ← String.ofList_append]
      rfl
    rw [octets_cons, ih, hsplit, String.utf8ByteSize_append, String.utf8ByteSize_singleton]
    rfl

/-- A cursor is another one moved over characters. -/
def MovesTo (c d : Cursor) : Prop :=
  ∃ passed, c.ahead = passed ++ d.ahead ∧ d.offset = c.offset + octets passed

lemma MovesTo.refl (c : Cursor) : c.MovesTo c := ⟨[], by simp [octets]⟩

lemma MovesTo.trans {c d e : Cursor} (h : c.MovesTo d) (h' : d.MovesTo e) : c.MovesTo e := by
  obtain ⟨passed, hahead, hoffset⟩ := h
  obtain ⟨passed', hahead', hoffset'⟩ := h'
  refine ⟨passed ++ passed', ?_, ?_⟩
  · rw [hahead, hahead', List.append_assoc]
  · rw [hoffset', hoffset, octets_append, Nat.add_assoc]

lemma MovesTo.length_le {c d : Cursor} (h : c.MovesTo d) : d.ahead.length ≤ c.ahead.length := by
  obtain ⟨passed, hahead, -⟩ := h
  rw [hahead, List.length_append]
  omega

lemma MovesTo.offset_le {c d : Cursor} (h : c.MovesTo d) : c.offset ≤ d.offset := by
  obtain ⟨passed, -, hoffset⟩ := h
  omega

lemma MovesTo.offset_lt {c d : Cursor} (h : c.MovesTo d) (hlt : d.ahead.length < c.ahead.length) :
    c.offset < d.offset := by
  obtain ⟨passed, hahead, hoffset⟩ := h
  have hne : passed ≠ [] := by
    rintro rfl
    rw [hahead] at hlt
    simp at hlt
  have := octets_pos hne
  omega

lemma movesTo_pass (p : Char → Bool) (c : Cursor) : c.MovesTo (c.pass p) :=
  ⟨c.ahead.takeWhile p, List.takeWhile_append_dropWhile.symm, rfl⟩

/-! ### Skipping -/

/-- The place behind the comment that comes next behind blanks, if one does.  One round of
skipping that is followed by another one leads there. -/
def comment? (c : Cursor) : Option Cursor :=
  match (c.pass Text.isBlank).ahead with
  | '%' :: rest => some ((⟨(c.pass Text.isBlank).offset + 1, rest⟩ : Cursor).pass (· != '\n'))
  | _ => none

lemma comment?_eq_some {c d : Cursor} : c.comment? = some d ↔
    ∃ rest, (c.pass Text.isBlank).ahead = '%' :: rest ∧
      (⟨(c.pass Text.isBlank).offset + 1, rest⟩ : Cursor).pass (· != '\n') = d := by
  rw [comment?]
  split
  · next rest h => simp [h]
  · next hnot => simpa using fun rest h => absurd h (hnot rest)

lemma skip_eq_of_comment? {c d : Cursor} (h : c.comment? = some d) : c.skip = d.skip := by
  obtain ⟨rest, hahead, rfl⟩ := comment?_eq_some.1 h
  rw [skip]
  split
  · next rest' hahead' =>
    obtain ⟨-, rfl⟩ := List.cons.inj (hahead.symm.trans hahead')
    rfl
  · next hnot => exact absurd hahead (hnot rest)

lemma skip_eq_of_comment?_eq_none {c : Cursor} (h : c.comment? = none) :
    c.skip = c.pass Text.isBlank := by
  rw [skip]
  split
  · next rest hahead => simp [comment?, hahead] at h
  · rfl

/-- A comment is passed from its sign on. -/
lemma movesTo_of_comment? {c d : Cursor} (h : c.comment? = some d) :
    (c.pass Text.isBlank).MovesTo d ∧ d.ahead.length < (c.pass Text.isBlank).ahead.length := by
  obtain ⟨rest, hahead, rfl⟩ := comment?_eq_some.1 h
  have hsign : (c.pass Text.isBlank).MovesTo ⟨(c.pass Text.isBlank).offset + 1, rest⟩ :=
    ⟨['%'], hahead, rfl⟩
  have hline := movesTo_pass (· != '\n') ⟨(c.pass Text.isBlank).offset + 1, rest⟩
  have hlength := hline.length_le
  refine ⟨hsign.trans hline, ?_⟩
  rw [hahead, List.length_cons]
  exact Nat.lt_succ_of_le hlength

lemma length_comment?_lt {c d : Cursor} (h : c.comment? = some d) :
    d.ahead.length < c.ahead.length :=
  (movesTo_of_comment? h).2.trans_le (movesTo_pass Text.isBlank c).length_le

/-- The places where skipping stands: behind blanks and behind each comment. -/
def skipTrail (c : Cursor) : List Cursor :=
  match _h : c.comment? with
  | some d => c.pass Text.isBlank :: d :: d.skipTrail
  | none => [c.pass Text.isBlank]
termination_by c.ahead.length
decreasing_by exact length_comment?_lt _h

/-- What comes after skipping is solid. -/
lemma isSolid_of_mem_head?_skip (c : Cursor) : ∀ first ∈ c.skip.ahead.head?, IsSolid first := by
  fun_induction skip c with
  | case1 c rest h ih => exact ih
  | case2 c hnot =>
    intro first hfirst
    obtain ⟨cs, hcs⟩ := List.head?_eq_some_iff.1 hfirst
    refine ⟨?_, ?_⟩
    · have hhead := List.head?_dropWhile_not Text.isBlank c.ahead
      rw [show (c.ahead.dropWhile Text.isBlank).head? = some first from hfirst] at hhead
      simpa using hhead
    · rintro rfl
      exact hnot cs hcs

lemma skip_eq_self {c : Cursor} (h : ∀ first ∈ c.ahead.head?, IsSolid first) : c.skip = c := by
  obtain ⟨offset, ahead⟩ := c
  cases ahead with
  | nil => exact skip_nil offset
  | cons first cs => exact skip_of_isSolid (h first rfl) offset cs

lemma skip_skip (c : Cursor) : c.skip.skip = c.skip :=
  skip_eq_self (isSolid_of_mem_head?_skip c)

lemma eat?_skip (token : String) (c : Cursor) : c.skip.eat? token = c.eat? token := by
  rw [eat?, eat?, skip_skip]

/-! ### Trails -/

/-- A trail leads from one place to another: every place on it is the one before moved over
characters. -/
inductive Leads : List Cursor → Cursor → Cursor → Prop
  | stay (c : Cursor) : Leads [] c c
  | move {c d e : Cursor} {trail : List Cursor} (h : c.MovesTo d) (htrail : Leads trail d e) :
      Leads (d :: trail) c e

namespace Leads

variable {trail more : List Cursor} {c d e : Cursor}

lemma append (h : Leads trail c d) (h' : Leads more d e) : Leads (trail ++ more) c e := by
  induction h with
  | stay => exact h'
  | move hmove _ ih => exact .move hmove (ih h')

lemma movesTo (h : Leads trail c d) : c.MovesTo d := by
  induction h with
  | stay c => exact .refl c
  | move hmove _ ih => exact hmove.trans ih

lemma movesTo_of_mem (h : Leads trail c d) {p : Cursor} (hp : p ∈ trail) : c.MovesTo p := by
  induction h with
  | stay => simp at hp
  | move hmove _ ih =>
    obtain rfl | hp := List.mem_cons.1 hp
    · exact hmove
    · exact hmove.trans (ih hp)

lemma getLastD_eq (h : Leads trail c d) : trail.getLastD c = d := by
  induction h with
  | stay => rfl
  | @move c d e trail _ _ ih => rw [List.getLastD_cons, ih]

lemma pairwise (h : Leads trail c d) : trail.Pairwise (·.offset ≤ ·.offset) := by
  induction h with
  | stay => exact List.Pairwise.nil
  | move _ htrail ih =>
    exact List.pairwise_cons.2 ⟨fun p hp => (htrail.movesTo_of_mem hp).offset_le, ih⟩

end Leads

/-- A trail leads from one place to another with so many moves for each character passed, and
some more. -/
structure LeadsWithin (rate extra : Nat) (trail : List Cursor) (c d : Cursor) : Prop where
  leads : Leads trail c d
  few : trail.length + rate * d.ahead.length ≤ rate * c.ahead.length + extra

namespace LeadsWithin

variable {rate extra extra' : Nat} {trail more : List Cursor} {c d e : Cursor}

lemma stay (rate : Nat) (c : Cursor) : LeadsWithin rate 0 [] c c :=
  ⟨.stay c, by simp⟩

lemma single (rate : Nat) (h : c.MovesTo d) : LeadsWithin rate 1 [d] c d := by
  refine ⟨.move h (.stay d), ?_⟩
  have := Nat.mul_le_mul_left rate h.length_le
  simp only [List.length_singleton]
  omega

lemma append (h : LeadsWithin rate extra trail c d) (h' : LeadsWithin rate extra' more d e) :
    LeadsWithin rate (extra + extra') (trail ++ more) c e := by
  refine ⟨h.leads.append h'.leads, ?_⟩
  have h₁ := h.few
  have h₂ := h'.few
  rw [List.length_append]
  omega

lemma mono {rate' : Nat} (h : LeadsWithin rate extra trail c d) (hrate : rate ≤ rate')
    (hextra : extra ≤ extra') : LeadsWithin rate' extra' trail c d := by
  refine ⟨h.leads, ?_⟩
  obtain ⟨more, rfl⟩ := Nat.exists_eq_add_of_le hrate
  have h₁ := h.few
  have h₂ := Nat.mul_le_mul_left more h.leads.movesTo.length_le
  rw [Nat.add_mul, Nat.add_mul]
  omega

/-- What a round of a loop costs beyond what it passes is paid for by the character that it
passes at least. -/
lemma round (h : LeadsWithin rate extra trail c d) (hshorter : d.ahead.length < c.ahead.length)
    (h' : LeadsWithin (rate + extra) extra' more d e) :
    LeadsWithin (rate + extra) extra' (trail ++ more) c e := by
  refine ⟨h.leads.append h'.leads, ?_⟩
  have h₁ := h.few
  have h₂ := h'.few
  have h₃ := Nat.mul_le_mul_left extra (Nat.succ_le_of_lt hshorter)
  rw [Nat.add_mul, Nat.add_mul] at h₂ ⊢
  rw [Nat.mul_succ] at h₃
  rw [List.length_append]
  omega

end LeadsWithin

lemma leads_skipTrail (c : Cursor) : LeadsWithin 2 1 c.skipTrail c c.skip := by
  fun_induction skipTrail c with
  | case1 c d h ih =>
    have hblanks := movesTo_pass Text.isBlank c
    have hcomment := (movesTo_of_comment? h).1
    have hround : LeadsWithin 0 2 [c.pass Text.isBlank, d] c d :=
      ⟨.move hblanks (.move hcomment (.stay d)), by simp⟩
    rw [skip_eq_of_comment? h]
    exact hround.round (length_comment?_lt h) ih
  | case2 c h =>
    rw [skip_eq_of_comment?_eq_none h]
    exact .single 2 (movesTo_pass Text.isBlank c)

lemma movesTo_of_eat? {token : String} {c d : Cursor} (h : c.eat? token = some d) :
    c.skip.MovesTo d := by
  rw [eat?] at h
  split at h
  · next hprefix =>
    obtain rfl := Option.some.inj h
    obtain ⟨rest, hrest⟩ := List.isPrefixOf_iff_prefix.1 hprefix
    refine ⟨token.toList, ?_, rfl⟩
    rw [← hrest, ← String.length_toList, List.drop_left]
  · simp at h

/-- The places where eating a token stands. -/
def eatTrail (token : String) (c : Cursor) : List Cursor :=
  c.skipTrail ++ (c.eat? token).toList

lemma leads_eatTrail (token : String) (c : Cursor) :
    LeadsWithin 2 2 (c.eatTrail token) c ((c.eat? token).getD c.skip) := by
  have hskip := leads_skipTrail c
  rw [eatTrail]
  cases heat : c.eat? token with
  | none => exact hskip.append ((LeadsWithin.stay 2 c.skip).mono le_rfl (Nat.zero_le 1))
  | some d => exact hskip.append (.single 2 (movesTo_of_eat? heat))

/-- Where a token is looked for after a reader, whether the reader left blanks unpassed or not. -/
lemma leads_eatTrail_of_near (token : String) {d after : Cursor}
    (hnear : d = after ∨ d = after.skip) :
    LeadsWithin 2 2 (d.eatTrail token) d ((after.eat? token).getD after.skip) := by
  obtain rfl | rfl := hnear
  · exact leads_eatTrail token d
  · have heat := leads_eatTrail token after.skip
    rwa [eat?_skip, skip_skip] at heat

/-- A token is looked for where the trail before it ended. -/
lemma LeadsWithin.eatNext {rate extra : Nat} {trail : List Cursor} {c d after : Cursor}
    (h : LeadsWithin rate extra trail c d) (hrate : 2 ≤ rate) (token : String)
    (hnear : d = after ∨ d = after.skip) :
    LeadsWithin rate (extra + 2) (trail ++ (trail.getLastD c).eatTrail token) c
      ((after.eat? token).getD after.skip) := by
  rw [h.leads.getLastD_eq]
  exact h.append ((leads_eatTrail_of_near token hnear).mono hrate le_rfl)

end Cursor

end CodeGraph.Rules
