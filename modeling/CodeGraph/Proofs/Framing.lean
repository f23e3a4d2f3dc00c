import Mathlib
import CodeGraph.Framing

/-!
# Pieces do not matter

A reader gets the octets of a stream in pieces and may be interrupted, but what it reads
depends on the octets alone.  `next` says what that is: it tells the outcome of one read by the
length of the stream, the announced length and the length of what follows, and what is left of
the stream for the next read.  Every read takes as many octets as `next` says, whatever the
schedule (`Source.read_spec`), so any number of reads gives what `outcomes` lists.

A frame is read back whatever follows it (`next_frame`), which gives the way back from writing
to reading.

* `reads_are_outcomes` : reading in pieces, decoding whole streams, and reading what was written.
-/

namespace CodeGraph.Framing

/-! ### Outcomes -/

/-- What one read gives: a message, nothing at the end of the stream, or an error. -/
abbrev Outcome := Except StreamError (Option Bytes)

/-- The outcome of a read, and what is left of the stream.  If the announced length is too
large, nothing but the length is taken. -/
def next (stream : Bytes) : Outcome × Bytes :=
  if stream.length = 0 then (.ok none, [])
  else if stream.length < lengthWidth then (.error .unexpectedEnd, [])
  else
    let length := Bytes.toNatBE (stream.take lengthWidth)
    let rest := stream.drop lengthWidth
    if maxMessageSize < length then (.error (.tooLarge length), rest)
    else if rest.length < length then (.error .unexpectedEnd, [])
    else (.ok (some (rest.take length)), rest.drop length)

/-- The outcomes of so many reads, one after the other, and what is left of the stream. -/
def outcomes (stream : Bytes) : (count : Nat) → List Outcome × Bytes
  | 0 => ([], stream)
  | count + 1 =>
    let (outcome, rest) := next stream
    let (others, rest) := outcomes rest count
    (outcome :: others, rest)

/-- A message with what is left of the stream, nothing at its end, or an error. -/
def found : Outcome × Bytes → Except StreamError (Option (Bytes × Bytes))
  | (.ok (some message), rest) => .ok (some (message, rest))
  | (.ok none, _) => .ok none
  | (.error error, _) => .error error

/-- What so many reads from a source give, and the source after them. -/
def Source.readMany (source : Source) : (count : Nat) → List Outcome × Source
  | 0 => ([], source)
  | count + 1 =>
    let (outcome, source) := source.read
    let (others, source) := source.readMany count
    (outcome :: others, source)

lemma fits_iff {length : Nat} : fits length ↔ ¬maxMessageSize < length := by
  rw [fits, decide_eq_true_iff, not_lt]

/-- So many octets are split off unless there are fewer. -/
lemma take?_eq (n : Nat) (bs : Bytes) :
    Bytes.take? n bs = if bs.length < n then none else some (bs.take n, bs.drop n) := by
  have hiff : (bs.take n).length = n ↔ ¬bs.length < n := by
    rw [List.length_take]
    omega
  by_cases hshort : bs.length < n
  · rw [Bytes.take?, if_neg fun h => hiff.1 h hshort, if_pos hshort]
  · rw [Bytes.take?, if_pos (hiff.2 hshort), if_neg hshort]

/-- Decoding a stream finds the message of the next outcome. -/
lemma decode_eq_found (stream : Bytes) : decode stream = found (next stream) := by
  unfold decode next
  by_cases hempty : stream = []
  · rw [if_pos hempty, if_pos (List.length_eq_zero_iff.2 hempty)]
    rfl
  · rw [if_neg hempty, if_neg (mt List.length_eq_zero_iff.1 hempty), take?_eq]
    by_cases hshort : stream.length < lengthWidth
    · simp only [if_pos hshort]
      rfl
    · simp only [if_neg hshort, fits_iff, take?_eq]
      by_cases hlarge : maxMessageSize < Bytes.toNatBE (stream.take lengthWidth)
      · simp only [if_pos hlarge, not_not.2 hlarge, if_false]
        rfl
      · by_cases hcut : (stream.drop lengthWidth).length < Bytes.toNatBE (stream.take lengthWidth)
        · simp only [if_neg hlarge, if_pos hlarge, if_pos hcut]
          rfl
        · simp only [if_neg hlarge, if_pos hlarge, if_neg hcut]
          rfl

/-- The next outcome when the first octet is taken by itself. -/
lemma next_cons (first : UInt8) (tail : Bytes) :
    next (first :: tail) =
      if tail.length < lengthWidth - 1 then (.error .unexpectedEnd, [])
      else
        let length := Bytes.toNatBE (first :: tail.take (lengthWidth - 1))
        let rest := tail.drop (lengthWidth - 1)
        if maxMessageSize < length then (.error (.tooLarge length), rest)
        else if rest.length < length then (.error .unexpectedEnd, [])
        else (.ok (some (rest.take length)), rest.drop length) := by
  have hcount : (first :: tail).length < lengthWidth ↔ tail.length < lengthWidth - 1 := by
    simp only [List.length_cons, lengthWidth]
    omega
  rw [next, if_neg (by simp), if_congr hcount rfl rfl]
  rfl

/-! ### Reading in pieces -/

namespace Source

variable (source : Source)

/-- A wish for octets is met by some of them, unless there are none, and the schedule stays as
it is. -/
lemma take_spec {wanted : Nat} (hwanted : 0 < wanted) :
    ∃ n turn, n ≤ wanted ∧ n ≤ source.ahead.length ∧ (n = 0 → source.ahead = []) ∧
      source.take wanted = (source.ahead.take n, ⟨source.ahead.drop n, turn, source.schedule⟩) := by
  obtain ⟨n, hn, htake⟩ := source.take_eq wanted
  have hpos := (source.schedule source.turn).limit_pos
  refine ⟨min n source.ahead.length, source.turn + 1, by omega, min_le_right _ _,
    fun hzero => ?_, ?_⟩
  · exact List.length_eq_zero_iff.1 (by omega)
  · rw [htake, ← List.take_eq_take_min, ← List.drop_eq_drop_min]

/-- In however many pieces they come, so many octets are taken, or all of them if there are
fewer. -/
lemma takeExactly_spec (wanted : Nat) :
    ∃ turn, source.takeExactly wanted =
      (if source.ahead.length < wanted then none else some (source.ahead.take wanted),
        ⟨source.ahead.drop wanted, turn, source.schedule⟩) := by
  induction wanted using Nat.strong_induction_on generalizing source with
  | _ wanted ih =>
  by_cases hzero : wanted = 0
  · subst hzero
    rw [takeExactly, dif_pos rfl]
    exact ⟨source.turn, by simp⟩
  · obtain ⟨n, turn, hle, hthere, hend, htake⟩ := source.take_spec (Nat.pos_of_ne_zero hzero)
    rw [takeExactly, dif_neg hzero, htake]
    split
    · next heq =>
      obtain ⟨hnone, rfl⟩ := Prod.mk.inj heq
      -- Nothing is handed out only when nothing is left.
      have hahead : source.ahead = [] := by
        rcases List.take_eq_nil_iff.1 hnone with hn | hahead
        · exact hend hn
        · exact hahead
      rw [hahead, List.length_nil, if_pos (Nat.pos_of_ne_zero hzero), List.drop_nil, List.drop_nil]
      exact ⟨turn, rfl⟩
    · next first piece source' heq =>
      obtain ⟨hpiece, rfl⟩ := Prod.mk.inj heq
      have hlength : (first :: piece).length = n := by
        rw [← hpiece, List.length_take, min_eq_left hthere]
      have hsome : 0 < n := by simp [← hlength]
      obtain ⟨turn', hrest⟩ := ih (wanted - n) (by omega)
        ⟨source.ahead.drop n, turn, source.schedule⟩
      rw [hlength, hrest]
      refine ⟨turn', ?_⟩
      obtain ⟨more, rfl⟩ := Nat.exists_eq_add_of_le hle
      simp only [← hpiece, Nat.add_sub_cancel_left, List.length_drop, List.drop_drop]
      by_cases hshort : source.ahead.length < n + more
      · rw [if_pos (by omega), if_pos hshort]
        rfl
      · rw [if_neg (by omega), if_neg hshort, List.take_add]
        rfl

/-- One read gives the next outcome and leaves what `next` leaves. -/
lemma read_spec :
    ∃ turn, source.read
      = ((next source.ahead).1, ⟨(next source.ahead).2, turn, source.schedule⟩) := by
  obtain ⟨n, turn, hle, hthere, hend, htake⟩ := source.take_spec Nat.one_pos
  rw [read, htake]
  cases hahead : source.ahead with
  | nil =>
    simp only [List.take_nil, List.drop_nil]
    exact ⟨turn, rfl⟩
  | cons first tail =>
    have hone : n = 1 := by
      have hsome : n ≠ 0 := fun hzero => by simp [hend hzero] at hahead
      omega
    subst hone
    simp only [List.take_succ_cons, List.take_zero, List.drop_succ_cons, List.drop_zero]
    obtain ⟨turn, hlength⟩ := takeExactly_spec ⟨tail, turn, source.schedule⟩ (lengthWidth - 1)
    rw [hlength, next_cons]
    by_cases hshort : tail.length < lengthWidth - 1
    · simp only [if_pos hshort, List.drop_of_length_le hshort.le]
      exact ⟨turn, rfl⟩
    · simp only [if_neg hshort, fits_iff]
      generalize Bytes.toNatBE (first :: tail.take (lengthWidth - 1)) = length
      generalize tail.drop (lengthWidth - 1) = rest
      by_cases hlarge : maxMessageSize < length
      · simp only [if_pos hlarge, not_not.2 hlarge, if_false]
        exact ⟨turn, rfl⟩
      · obtain ⟨turn, hmessage⟩ := takeExactly_spec ⟨rest, turn, source.schedule⟩ length
        simp only [if_neg hlarge, if_pos hlarge, hmessage]
        by_cases hcut : rest.length < length
        · simp only [if_pos hcut, List.drop_of_length_le hcut.le]
          exact ⟨turn, rfl⟩
        · simp only [if_neg hcut]
          exact ⟨turn, rfl⟩

/-- Any number of reads gives the outcomes for what is ahead and leaves what they leave. -/
lemma readMany_spec (count : Nat) :
    ∃ turn, source.readMany count = ((outcomes source.ahead count).1,
      ⟨(outcomes source.ahead count).2, turn, source.schedule⟩) := by
  induction count generalizing source with
  | zero => exact ⟨source.turn, rfl⟩
  | succ count ih =>
    obtain ⟨turn, hread⟩ := source.read_spec
    obtain ⟨turn, hothers⟩ := ih ⟨(next source.ahead).2, turn, source.schedule⟩
    refine ⟨turn, ?_⟩
    rw [readMany, hread]
    simp only [hothers]
    rfl

end Source

/-! ### Reading what was written -/

/-- A message has a frame unless it is too large. -/
lemma frame?_eq (message : Bytes) :
    frame? message = if maxMessageSize < message.length then none
      else some (Bytes.ofNatBE lengthWidth message.length ++ message) := by
  by_cases hlarge : maxMessageSize < message.length
  · rw [frame?, if_neg fun hfits => fits_iff.1 hfits hlarge, if_pos hlarge]
  · rw [frame?, if_pos (fits_iff.2 hlarge), if_neg hlarge]

/-- A frame is read as its message, and what follows it is left. -/
lemma next_frame {message frame : Bytes} (h : frame? message = some frame) (rest : Bytes) :
    next (frame ++ rest) = (.ok (some message), rest) := by
  rw [frame?_eq] at h
  split at h
  · simp at h
  · next hfits =>
    obtain rfl := Option.some.inj h
    have hlength : message.length < Bytes.bound lengthWidth :=
      lt_of_le_of_lt (not_lt.1 hfits) (by decide)
    set field := Bytes.ofNatBE lengthWidth message.length with hfield
    have hwidth : field.length = lengthWidth := Bytes.length_ofNatBE ..
    have hvalue : Bytes.toNatBE field = message.length := Bytes.toNatBE_ofNatBE hlength
    have htake : (field ++ (message ++ rest)).take lengthWidth = field := by
      rw [← hwidth, List.take_left]
    have hdrop : (field ++ (message ++ rest)).drop lengthWidth = message ++ rest := by
      rw [← hwidth, List.drop_left]
    have hlong : lengthWidth ≤ (field ++ (message ++ rest)).length := by
      rw [List.length_append, hwidth]
      omega
    rw [List.append_assoc, next, if_neg (by simp only [lengthWidth] at hlong; omega),
      if_neg (not_lt.2 hlong)]
    simp only [htake, hdrop, hvalue, if_neg hfits]
    rw [if_neg (by simp), List.take_left, List.drop_left]

/-- What is written of messages is read as those that are not too large, and then it ends. -/
lemma outcomes_frames (messages : List Bytes) :
    outcomes (messages.filterMap frame?).flatten
        ((messages.filter fun message => fits message.length).length + 1)
      = ((messages.filter fun message => fits message.length).map
          (fun message => .ok (some message))
          ++ [.ok none], []) := by
  induction messages with
  | nil => rfl
  | cons message messages ih =>
    by_cases hfits : fits message.length
    · have hframe : ∃ frame, frame? message = some frame := by
        rw [frame?, if_pos hfits]
        exact ⟨_, rfl⟩
      obtain ⟨frame, hframe⟩ := hframe
      rw [List.filter_cons_of_pos (by exact hfits), List.filterMap_cons_some hframe,
        List.flatten_cons, List.length_cons, outcomes, next_frame hframe]
      simp only [ih]
      rfl
    · have hframe : frame? message = none := by rw [frame?, if_neg hfits]
      rw [List.filter_cons_of_neg (by exact hfits), List.filterMap_cons_none hframe, ih]

/-- However a stream is handed out, any number of reads gives the same outcomes and leaves the
same octets, which are told by the octets of the stream alone; decoding the stream finds the
same message.  A message has no frame, and nothing is written of it, exactly if it is too large.
From what is written of messages those that are not too large are read, in the same order, and
then nothing. -/
theorem reads_are_outcomes :
    (∀ stream schedule count,
      ((Source.start stream schedule).readMany count).1 = (outcomes stream count).1 ∧
      ((Source.start stream schedule).readMany count).2.ahead = (outcomes stream count).2) ∧
    (∀ stream, decode stream = found (next stream)) ∧
    (∀ message, frame? message = none ↔ maxMessageSize < message.length) ∧
    ∀ (messages : List Bytes) schedule,
      let written := (messages.filterMap frame?).flatten
      let kept := messages.filter fun message => message.length ≤ maxMessageSize
      ((Source.start written schedule).readMany (kept.length + 1)).1
        = kept.map (fun message => .ok (some message)) ++ [.ok none] := by
  refine ⟨fun stream schedule count => ?_, decode_eq_found, fun message => ?_,
    fun messages schedule => ?_⟩
  · obtain ⟨turn, hreads⟩ := (Source.start stream schedule).readMany_spec count
    rw [hreads]
    exact ⟨rfl, rfl⟩
  · rw [frame?_eq]
    split
    · next hlarge => simp [hlarge]
    · next hfits => simp [hfits]
  · intro written kept
    obtain ⟨turn, hreads⟩ := (Source.start written schedule).readMany_spec (kept.length + 1)
    rw [hreads]
    exact congrArg Prod.fst (outcomes_frames messages)

end CodeGraph.Framing
