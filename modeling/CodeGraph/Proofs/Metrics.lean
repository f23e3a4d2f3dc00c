import Mathlib
import CodeGraph.Metrics
import CodeGraph.Proofs.Listing

/-!
# What metrics tell

Metrics keep a window of durations and their sum apart from each other, and counts of commands
beside a count of all requests.  `Metrics.Tells` says what all of them are after some requests.
One more request keeps it (`Metrics.Tells.recordQuery?`), as long as the time that all requests
took fits a word, and so it holds after every run (`Metrics.tells_recordAll?`).

What is summarized follows from it: percentiles from the order of the window, and the commands
asked for most often from a sort that keeps the order of what it does not tell apart
(`Metrics.recordAll?_exact`).
-/

namespace CodeGraph

open Std (ExtTreeMap LawfulEqCmp)

/-! ### The last members of a sequence -/

section Lists

variable {α : Type}

/-- The last members of a sequence do not depend on those before them. -/
lemma rtake_concat (l : List α) (a : α) (n : Nat) :
    (l.rtake n ++ [a]).rtake n = (l ++ [a]).rtake n := by
  cases n with
  | zero => rw [List.rtake_zero, List.rtake_zero]
  | succ n =>
    rw [List.rtake_concat_succ, List.rtake_concat_succ, List.append_left_inj]
    simp only [List.rtake_eq_reverse_take_reverse, List.reverse_reverse, List.take_take,
      min_eq_left n.le_succ]

/-- A window that holds the last members of a sequence does so after one more. -/
lemma Window.toList_push_of_eq {limit : Nat} {w : Window limit α} {l : List α}
    (h : w.toList = l.rtake limit) (a : α) : (w.push a).toList = (l ++ [a]).rtake limit := by
  have hpush : (w.push a).toList = (w.toList ++ [a]).rtake limit := by
    rw [Window.toList_push, List.rtake, List.length_append, Window.length_toList,
      List.length_singleton]
  rw [hpush, h, rtake_concat]

/-! ### Sorting keeps the order of what it does not tell apart -/

lemma pair_sublist_or {l : List α} {a b : α} (ha : a ∈ l) (hb : b ∈ l) (hne : a ≠ b) :
    [a, b].Sublist l ∨ [b, a].Sublist l := by
  obtain ⟨before, after, rfl⟩ := List.append_of_mem ha
  rcases List.mem_append.1 hb with hbefore | hafter
  · right
    exact (List.singleton_sublist.2 hbefore).append
      (List.singleton_sublist.2 List.mem_cons_self)
  · left
    have hb' : b ∈ after := (List.mem_cons.1 hafter).resolve_left hne.symm
    exact ((List.singleton_sublist.2 hb').cons_cons a).trans (List.sublist_append_right _ _)

/-- A sorted list is in order, and members that may stand either way are in the order in which
they were before. -/
lemma pairwise_mergeSort_of_pairwise {le : α → α → Bool}
    (htrans : ∀ a b c, le a b = true → le b c = true → le a c = true)
    (htotal : ∀ a b, (le a b || le b a) = true) {R : α → α → Prop} {l : List α}
    (hR : l.Pairwise R) (hnodup : l.Nodup) :
    (l.mergeSort le).Pairwise fun a b => le a b = true ∧ (le b a = true → R a b) := by
  have hperm := List.mergeSort_perm l le
  have hnodup' : (l.mergeSort le).Nodup := hperm.nodup_iff.2 hnodup
  rw [List.pairwise_iff_forall_sublist]
  intro a b hab
  have hle : le a b = true :=
    List.pairwise_iff_forall_sublist.1 (List.pairwise_mergeSort htrans htotal l) hab
  refine ⟨hle, fun hle' => ?_⟩
  have hne : a ≠ b := List.pairwise_pair.1 (hnodup'.sublist hab)
  have hmem : a ∈ l ∧ b ∈ l :=
    ⟨hperm.mem_iff.1 (hab.subset (by simp)), hperm.mem_iff.1 (hab.subset (by simp))⟩
  rcases pair_sublist_or hmem.1 hmem.2 hne with hsame | hswapped
  · exact List.pairwise_iff_forall_sublist.1 hR hsame
  · -- The pair would stand both ways in the sorted list.
    have hba := List.pair_sublist_mergeSort htrans htotal hle' hswapped
    have heq := (hnodup'.perm_iff_eq_of_sublist hab hba).1 (List.Perm.swap b a [])
    exact absurd (List.cons.inj heq).1 hne

end Lists

/-! ### Places in a sorted window -/

section Sorted

variable {l : List UInt64} (h : l.Pairwise (· ≤ ·)) {i j : Nat}

include h

lemma getElem_le_getElem_of_le (hij : i ≤ j) (hj : j < l.length) : l[i] ≤ l[j] := by
  rcases hij.eq_or_lt with rfl | hlt
  · exact UInt64.le_refl _
  · exact List.pairwise_iff_getElem.1 h i j (hlt.trans hj) hj hlt

/-- As many members as stand up to a place are not above the one there. -/
lemma lt_countP_le (hi : i < l.length) : i < l.countP (· ≤ l[i]) := by
  have hall : (l.take (i + 1)).countP (· ≤ l[i]) = (l.take (i + 1)).length := by
    refine List.countP_eq_length.2 fun a ha => ?_
    obtain ⟨j, hj, rfl⟩ := List.mem_take_iff_getElem.1 ha
    exact decide_eq_true (getElem_le_getElem_of_le h (by omega) hi)
  have hle : (l.take (i + 1)).countP (· ≤ l[i]) ≤ l.countP (· ≤ l[i]) :=
    (List.take_sublist _ _).countP_le
  rw [hall, List.length_take] at hle
  omega

/-- No more members than stand before a place are below the one there. -/
lemma countP_lt_le (hi : i < l.length) : l.countP (· < l[i]) ≤ i := by
  have hnone : (l.drop i).countP (· < l[i]) = 0 := by
    refine List.countP_eq_zero.2 fun a ha => ?_
    obtain ⟨j, hj, rfl⟩ := List.mem_drop_iff_getElem.1 ha
    rw [decide_eq_true_eq, UInt64.not_lt]
    exact getElem_le_getElem_of_le h (Nat.le_add_right i j) (by omega)
  have hfront : (l.take i).countP (· < l[i]) ≤ i :=
    List.countP_le_length.trans (List.length_take_le _ _)
  have hparts : l.countP (· < l[i])
      = (l.take i).countP (· < l[i]) + (l.drop i).countP (· < l[i]) := by
    rw [← List.countP_append, List.take_append_drop]
  omega

end Sorted

namespace Metrics

/-! ### Recordings -/

/-- A request that was carried out: its command, how long it took, and when it is recorded. -/
structure Timing where
  operation : String
  duration : UInt64
  recordedAt : Nat

namespace Timing

/-- Whether a request took long. -/
def isSlow (timing : Timing) : Bool :=
  slowThreshold ≤ timing.duration

/-- What is kept of a request that took long. -/
def toSlowQuery (timing : Timing) : SlowQuery :=
  ⟨timing.operation, timing.duration, timing.recordedAt⟩

end Timing

/-- How long requests took altogether. -/
def totalTime (timings : List Timing) : Nat :=
  (timings.map (·.duration.toNat)).sum

/-- What is recorded. -/
inductive Recording where
  | query (timing : Timing)
  | flush (duration : UInt64)
  | opened (transport : Transport)
  | closed (transport : Transport)
  | decodeError
  | sendTimeout

/-- The request that is recorded, if it is one. -/
def Recording.timing? : Recording → Option Timing
  | .query timing => some timing
  | _ => none

/-- Records something; `none` if the time that a command took would outgrow a word. -/
def record? (m : Metrics) : Recording → Option Metrics
  | .query timing => m.recordQuery? timing.operation timing.duration timing.recordedAt
  | .flush duration => some (m.recordFlush duration)
  | .opened transport => some (m.connectionOpened transport)
  | .closed transport => some (m.connectionClosed transport)
  | .decodeError => some m.recordDecodeError
  | .sendTimeout => some m.recordSendTimeout

/-- Records one thing after the other. -/
def recordAll? (m : Metrics) (recordings : List Recording) : Option Metrics :=
  recordings.foldlM record? m

/-! ### What is told about requests -/

/-- What metrics tell about the requests that were recorded. -/
structure Tells (m : Metrics) (timings : List Timing) : Prop where
  enabled : m.enabled = true
  queryCount : m.queryCount = timings.length
  window : m.window.toList = (timings.map Timing.duration).rtake windowSize
  windowSum : m.windowSum.toNat = (m.window.toList.map UInt64.toNat).sum
  known : ∀ name, name ∈ m.commands ↔ name ∈ timings.map Timing.operation
  count : ∀ name, (m.command name).count = (timings.map Timing.operation).count name
  total : ∀ name, (m.command name).total.toNat = totalTime (timings.filter (·.operation = name))
  slowCount : m.slowCount = timings.countP Timing.isSlow
  slowQueries : m.slowQueries.toList
    = ((timings.filter Timing.isSlow).map Timing.toSlowQuery).rtake maxSlowQueries

lemma tells_start : (start true).Tells [] where
  enabled := rfl
  queryCount := rfl
  window := rfl
  windowSum := rfl
  known name := by simp [start]
  count name := by simp [start, command]
  total name := by simp [start, command, totalTime]
  slowCount := rfl
  slowQueries := rfl

variable {m m' : Metrics} {timings : List Timing}

/-- What is told about requests depends on these parts of metrics only. -/
lemma Tells.congr (h : m.Tells timings) (henabled : m'.enabled = m.enabled)
    (hqueryCount : m'.queryCount = m.queryCount) (hwindow : m'.window = m.window)
    (hwindowSum : m'.windowSum = m.windowSum) (hcommands : m'.commands = m.commands)
    (hslowCount : m'.slowCount = m.slowCount) (hslowQueries : m'.slowQueries = m.slowQueries) :
    m'.Tells timings := by
  obtain ⟨enabled, queryCount, slowCount, window, windowSum, commands, slowQueries, _⟩ := m'
  subst henabled hqueryCount hwindow hwindowSum hcommands hslowCount hslowQueries
  exact ⟨h.enabled, h.queryCount, h.window, h.windowSum, h.known, h.count, h.total, h.slowCount,
    h.slowQueries⟩

/-! ### The sum of the window -/

/-- The longest-kept duration is part of the sum, so that the sum does not wrap when it leaves. -/
lemma toNat_sumWithoutOldest (hsum : m.windowSum.toNat = (m.window.toList.map UInt64.toNat).sum) :
    m.window.oldest?.getD 0 ≤ m.windowSum ∧ m.sumWithoutOldest.toNat =
      ((m.window.toList.drop (m.window.size + 1 - windowSize)).map UInt64.toNat).sum := by
  have holdest : m.window.oldest? = m.window.toList.head? := m.window.oldest?_eq
  have hlength : m.window.toList.length = m.window.size := m.window.length_toList
  have hlimit : m.window.size ≤ windowSize := m.window.size_le
  unfold sumWithoutOldest
  cases hlist : m.window.toList with
  | nil =>
    rw [hlist] at holdest hsum hlength
    have hempty : m.window.size = 0 := hlength.symm
    rw [holdest, if_pos (by rw [hempty]; decide), List.drop_nil]
    exact ⟨UInt64.zero_le, hsum⟩
  | cons first rest =>
    rw [hlist] at holdest hsum hlength
    rw [List.map_cons, List.sum_cons] at hsum
    have hle : first ≤ m.windowSum := by
      rw [UInt64.le_iff_toNat_le, hsum]
      exact Nat.le_add_right _ _
    rw [holdest]
    refine ⟨hle, ?_⟩
    split
    · next hroom =>
      have hnone : m.window.size + 1 - windowSize = 0 := by omega
      rw [hnone, List.drop_zero, List.map_cons, List.sum_cons, hsum]
    · next hfull =>
      have hone : m.window.size + 1 - windowSize = 1 := by omega
      rw [hone, List.drop_one, List.tail_cons, List.head?_cons, Option.getD_some,
        UInt64.toNat_sub_of_le _ _ hle, hsum]
      omega

/-! ### One more request -/

lemma totalTime_append (timings timings' : List Timing) :
    totalTime (timings ++ timings') = totalTime timings + totalTime timings' := by
  rw [totalTime, List.map_append, List.sum_append, totalTime, totalTime]

lemma totalTime_le_of_sublist {timings timings' : List Timing} (h : timings.Sublist timings') :
    totalTime timings ≤ totalTime timings' :=
  (h.map _).sum_le_sum fun _ _ => Nat.zero_le _

/-- No more time passed in the window than altogether. -/
lemma Tells.sum_window_le (h : m.Tells timings) :
    (m.window.toList.map UInt64.toNat).sum ≤ totalTime timings := by
  have hsuffix : m.window.toList.Sublist (timings.map Timing.duration) := by
    rw [h.window]
    exact List.drop_sublist _ _
  have hle := (hsuffix.map UInt64.toNat).sum_le_sum fun _ _ => Nat.zero_le _
  rwa [List.map_map] at hle

lemma recordQuery_eq (henabled : m.enabled = true) (timing : Timing) :
    m.recordQuery timing.operation timing.duration timing.recordedAt = { m with
      queryCount := m.queryCount + 1
      slowCount := if timing.isSlow then m.slowCount + 1 else m.slowCount
      window := m.window.push timing.duration
      windowSum := m.sumWithoutOldest + timing.duration
      commands := m.commands.insert timing.operation
        ((m.command timing.operation).adding timing.duration)
      slowQueries := if timing.isSlow then m.slowQueries.push timing.toSlowQuery
        else m.slowQueries } := by
  unfold recordQuery Timing.isSlow
  rw [if_pos henabled]
  by_cases hslow : slowThreshold ≤ timing.duration
  · simp only [hslow, if_true, decide_true]
    rfl
  · simp only [hslow, if_false, decide_false, Bool.false_eq_true]

/-- One more duration is in the sum of the window, if the time that all requests took fits a
word. -/
lemma Tells.toNat_windowSum_push (h : m.Tells timings) {duration : UInt64}
    (hfits : totalTime timings + duration.toNat < UInt64.size) :
    (m.sumWithoutOldest + duration).toNat
      = ((m.window.push duration).toList.map UInt64.toNat).sum := by
  have hpos : 0 < windowSize := by decide
  obtain ⟨-, hrest⟩ := toNat_sumWithoutOldest h.windowSum
  set rest := m.window.toList.drop (m.window.size + 1 - windowSize) with hdef
  have hle : (rest.map UInt64.toNat).sum ≤ totalTime timings := by
    have hpart : rest.Sublist m.window.toList := List.drop_sublist _ _
    exact ((hpart.map _).sum_le_sum fun _ _ => Nat.zero_le _).trans h.sum_window_le
  have hpush : (m.window.push duration).toList = rest ++ [duration] := by
    have hlimit := m.window.size_le
    rw [Window.toList_push, List.drop_append_of_le_length]
    rw [Window.length_toList]
    omega
  rw [UInt64.toNat_add, hrest, hpush, List.map_append, List.sum_append, List.map_singleton,
    List.sum_singleton]
  exact Nat.mod_eq_of_lt (lt_of_le_of_lt (Nat.add_le_add_right hle _) hfits)

lemma command_of_insert {operation : String} {count : CommandCount}
    (h : m'.commands = m.commands.insert operation count) (name : String) :
    m'.command name = if operation = name then count else m.command name := by
  rw [command, h]
  simp only [ExtTreeMap.getD_insert, LawfulEqCmp.compare_eq_iff_eq]
  rfl

/-- One more request is recorded, if the time that all requests took fits a word. -/
lemma Tells.recordQuery? (h : m.Tells timings) (timing : Timing)
    (hfits : totalTime (timings ++ [timing]) < UInt64.size) :
    ∃ m', m.recordQuery? timing.operation timing.duration timing.recordedAt = some m' ∧
      m'.Tells (timings ++ [timing]) := by
  have hlast : totalTime [timing] = timing.duration.toNat := by simp [totalTime]
  rw [totalTime_append, hlast] at hfits
  have hroom : (m.command timing.operation).hasRoom timing.duration = true := by
    have hle := totalTime_le_of_sublist
      (List.filter_sublist (p := (·.operation = timing.operation)) (l := timings))
    rw [CommandCount.hasRoom, decide_eq_true_eq, h.total]
    omega
  refine ⟨_, by rw [Metrics.recordQuery?, h.enabled, hroom]; rfl, ?_⟩
  rw [recordQuery_eq h.enabled]
  refine ⟨h.enabled, ?_, ?_, h.toNat_windowSum_push hfits, fun name => ?_, fun name => ?_,
    fun name => ?_, ?_, ?_⟩
  · simp [h.queryCount]
  · rw [List.map_append]
    exact Window.toList_push_of_eq h.window timing.duration
  · simp only [ExtTreeMap.mem_insert, LawfulEqCmp.compare_eq_iff_eq, h.known, List.map_append,
      List.mem_append, List.map_cons, List.map_nil, List.mem_singleton]
    rw [or_comm, eq_comm]
  · rw [command_of_insert rfl, List.map_append, List.count_append]
    split
    · next hname => simp [CommandCount.adding, h.count, hname]
    · next hname => simp [h.count, hname]
  · rw [command_of_insert rfl, List.filter_append, totalTime_append]
    split
    · next hname =>
      subst hname
      rw [CommandCount.toNat_total_adding hroom, h.total, List.filter_singleton]
      simp [hlast]
    · next hname => simp [h.total, hname, totalTime]
  · rw [List.countP_append, List.countP_singleton]
    split <;> simp [h.slowCount]
  · rw [List.filter_append, List.map_append]
    by_cases hslow : timing.isSlow
    · simpa [hslow] using Window.toList_push_of_eq h.slowQueries timing.toSlowQuery
    · simpa [hslow] using h.slowQueries

/-- One more thing is recorded; if it is not a request, it does not concern them. -/
lemma Tells.record? (h : m.Tells timings) (recording : Recording)
    (hfits : totalTime (timings ++ recording.timing?.toList) < UInt64.size) :
    ∃ m', m.record? recording = some m' ∧ m'.Tells (timings ++ recording.timing?.toList) := by
  have haside : ∀ {m' : Metrics}, m'.Tells timings →
      m'.Tells (timings ++ (none : Option Timing).toList) := by
    intro m' hm'
    rwa [Option.toList_none, List.append_nil]
  cases recording with
  | query timing => exact h.recordQuery? timing hfits
  | opened transport =>
    refine ⟨_, rfl, haside ?_⟩
    cases transport <;> exact h.congr rfl rfl rfl rfl rfl rfl rfl
  | closed transport =>
    refine ⟨_, rfl, haside ?_⟩
    cases transport <;> exact h.congr rfl rfl rfl rfl rfl rfl rfl
  | flush | decodeError | sendTimeout =>
    exact ⟨_, rfl, haside (h.congr rfl rfl rfl rfl rfl rfl rfl)⟩

/-- After every run, if the time that all requests took fits a word. -/
theorem tells_recordAll? (recordings : List Recording)
    (hfits : totalTime (recordings.filterMap Recording.timing?) < UInt64.size) :
    ∃ m, (start true).recordAll? recordings = some m ∧
      m.Tells (recordings.filterMap Recording.timing?) := by
  induction recordings using List.reverseRecOn with
  | nil => exact ⟨_, rfl, tells_start⟩
  | append_singleton recordings recording ih =>
    have hlast : [recording].filterMap Recording.timing? = recording.timing?.toList := by
      cases hkind : recording.timing? <;> simp [hkind]
    rw [List.filterMap_append, hlast] at hfits ⊢
    have hbefore := totalTime_append (recordings.filterMap Recording.timing?)
      recording.timing?.toList
    obtain ⟨m, hrun, hm⟩ := ih (by omega)
    obtain ⟨m', hrecord, hm'⟩ := hm.record? recording hfits
    refine ⟨m', ?_, hm'⟩
    rw [recordAll?] at hrun ⊢
    rw [List.foldlM_append, hrun]
    simp [hrecord]

/-! ### Percentiles -/

lemma pairwise_sortedWindow (m : Metrics) : m.sortedWindow.Pairwise (· ≤ ·) := by
  have htrans : ∀ a b c : UInt64, decide (a ≤ b) = true → decide (b ≤ c) = true →
      decide (a ≤ c) = true := by
    simp only [decide_eq_true_eq]
    exact fun a b c => UInt64.le_trans
  have htotal : ∀ a b : UInt64, (decide (a ≤ b) || decide (b ≤ a)) = true := by
    simp only [Bool.or_eq_true, decide_eq_true_eq]
    exact UInt64.le_total
  exact (List.pairwise_mergeSort htrans htotal m.window.toList).imp of_decide_eq_true

lemma sortedWindow_perm (m : Metrics) : m.sortedWindow.Perm m.window.toList :=
  List.mergeSort_perm _ _

lemma length_sortedWindow (m : Metrics) : m.sortedWindow.length = m.window.size := by
  rw [m.sortedWindow_perm.length_eq, Window.length_toList]

/-- A percentile is the member of the sorted window at its place. -/
lemma percentile_eq_getElem (hpos : 0 < m.window.size) (percent : Nat) :
    ∃ hplace : min (m.window.size * percent / 100) (m.window.size - 1) < m.sortedWindow.length,
      m.percentile percent
        = m.sortedWindow[min (m.window.size * percent / 100) (m.window.size - 1)] := by
  have hplace : min (m.window.size * percent / 100) (m.window.size - 1)
      < m.sortedWindow.length := by
    rw [length_sortedWindow]
    omega
  exact ⟨hplace, List.getD_eq_getElem _ _ hplace⟩

/-- Of an empty window all percentiles are zero. -/
lemma percentile_eq_zero (hempty : m.window.size = 0) (percent : Nat) :
    m.percentile percent = 0 := by
  have hlength : m.sortedWindow.length = 0 := by rw [length_sortedWindow, hempty]
  unfold percentile
  rw [List.length_eq_zero_iff.1 hlength]
  rfl

lemma percentile_mono (m : Metrics) {percent percent' : Nat} (h : percent ≤ percent') :
    m.percentile percent ≤ m.percentile percent' := by
  rcases Nat.eq_zero_or_pos m.window.size with hempty | hpos
  · rw [percentile_eq_zero hempty, percentile_eq_zero hempty]
    exact UInt64.le_refl _
  · obtain ⟨hplace, heq⟩ := percentile_eq_getElem hpos percent
    obtain ⟨hplace', heq'⟩ := percentile_eq_getElem hpos percent'
    rw [heq, heq']
    refine getElem_le_getElem_of_le m.pairwise_sortedWindow (min_le_min_right _ ?_) hplace'
    exact Nat.div_le_div_right (Nat.mul_le_mul_left _ h)

/-- A percentile of a window that is not empty is a member of it, which at least the percentage
of the members do not exceed, and at most the percentage stay below. -/
lemma percentile_spec (hpos : 0 < m.window.size) {percent : Nat} (hpercent : percent ≤ 100) :
    m.percentile percent ∈ m.window.toList ∧
      m.window.size * percent / 100 ≤ m.window.toList.countP (· ≤ m.percentile percent) ∧
      m.window.toList.countP (· < m.percentile percent) ≤ m.window.size * percent / 100 := by
  obtain ⟨hplace, heq⟩ := percentile_eq_getElem hpos percent
  have hshare : m.window.size * percent / 100 ≤ m.window.size := by
    refine Nat.div_le_of_le_mul ?_
    rw [Nat.mul_comm 100]
    exact Nat.mul_le_mul_left _ hpercent
  rw [heq]
  refine ⟨m.sortedWindow_perm.mem_iff.1 (List.getElem_mem hplace), ?_, ?_⟩
  · have habove := lt_countP_le m.pairwise_sortedWindow hplace
    rw [m.sortedWindow_perm.countP_eq] at habove
    omega
  · have hbelow := countP_lt_le m.pairwise_sortedWindow hplace
    rw [m.sortedWindow_perm.countP_eq] at hbelow
    omega

/-! ### The window -/

lemma Tells.size_window (h : m.Tells timings) :
    m.window.size = min windowSize timings.length := by
  rw [← Window.length_toList, h.window, List.rtake, List.length_drop, List.length_map]
  omega

/-- The average is the mean of the window, rounded down. -/
lemma Tells.toNat_average (h : m.Tells timings) :
    m.average.toNat = (m.window.toList.map UInt64.toNat).sum / m.window.toList.length := by
  have hlimit : m.window.size < UInt64.size := lt_of_le_of_lt m.window.size_le (by decide)
  rw [average, UInt64.toNat_div, h.windowSum, Window.length_toList,
    UInt64.toNat_ofNat_of_lt' hlimit]

/-! ### Commands -/

lemma command_eq {name : String} {count : CommandCount}
    (h : m.commands[name]? = some count) : m.command name = count := by
  rw [command, ExtTreeMap.getD_eq_getD_getElem?, h, Option.getD_some]

/-- The counts of all commands together are the count of all requests. -/
lemma Tells.sum_counts (h : m.Tells timings) :
    (m.commands.toList.map (·.2.count)).sum = timings.length := by
  have hcounts : m.commands.toList.map (·.2.count)
      = m.commands.keys.map fun name => (timings.map Timing.operation).count name := by
    rw [← ExtTreeMap.map_fst_toList_eq_keys, List.map_map]
    refine List.map_congr_left fun ⟨name, count⟩ hentry => ?_
    rw [Function.comp, ← h.count,
      command_eq (ExtTreeMap.mem_toList_iff_getElem?_eq_some.1 hentry)]
  have hperm : m.commands.keys.Perm (timings.map Timing.operation).dedup := by
    refine (List.perm_ext_iff_of_nodup ExtTreeMap.nodup_keys (List.nodup_dedup _)).2 fun name => ?_
    rw [ExtTreeMap.mem_keys, List.mem_dedup, h.known]
  rw [hcounts, (hperm.map _).sum_eq, List.sum_map_count_dedup_eq_length, List.length_map]

/-- A command with its counts comes before another one: it was asked for more often, or equally
often and its name comes first. -/
def Outranks (a b : String × CommandCount) : Prop :=
  b.2.count < a.2.count ∨ a.2.count = b.2.count ∧ a.1 < b.1

/-- All commands in the order in which they are listed. -/
def rankedCommands (m : Metrics) : List (String × CommandCount) :=
  m.commands.toList.mergeSort fun a b => b.2.count ≤ a.2.count

lemma rankedCommands_perm (m : Metrics) : m.rankedCommands.Perm m.commands.toList :=
  List.mergeSort_perm _ _

/-- Commands come in the order of their names out of the map, so sorting them by their counts
leaves those with the same count in this order. -/
lemma pairwise_rankedCommands (m : Metrics) : m.rankedCommands.Pairwise Outranks := by
  have hnames : IncreasingBy Prod.fst m.commands.toList := increasing_entries m.commands
  have htrans : ∀ a b c : String × CommandCount, decide (b.2.count ≤ a.2.count) = true →
      decide (c.2.count ≤ b.2.count) = true → decide (c.2.count ≤ a.2.count) = true := by
    simp only [decide_eq_true_eq]
    exact fun a b c hab hbc => hbc.trans hab
  have htotal : ∀ a b : String × CommandCount,
      (decide (b.2.count ≤ a.2.count) || decide (a.2.count ≤ b.2.count)) = true := by
    simp only [Bool.or_eq_true, decide_eq_true_eq]
    exact fun a b => le_total _ _
  have hsorted := pairwise_mergeSort_of_pairwise htrans htotal hnames hnames.nodup
  refine hsorted.imp fun {a b} hab => ?_
  obtain ⟨hle, hsame⟩ := hab
  simp only [decide_eq_true_eq] at hle hsame
  rcases hle.lt_or_eq with hlt | heq
  · exact .inl hlt
  · exact .inr ⟨heq.symm, compare_lt_iff_lt.1 (hsame heq.ge)⟩

/-- The commands that are listed are at most five, in their order, and none that is left out
comes before one of them. -/
lemma topCommands_spec (m : Metrics) :
    m.topCommands.length = min maxListedCommands m.commands.size ∧
      m.topCommands.Pairwise Outranks ∧
      ∀ listed ∈ m.topCommands, m.commands[listed.1]? = some listed.2 ∧
        ∀ omitted ∈ m.commands.toList, omitted ∉ m.topCommands → Outranks listed omitted := by
  have htop : m.topCommands = m.rankedCommands.take maxListedCommands := rfl
  have hparts := List.take_append_drop maxListedCommands m.rankedCommands
  have hpairwise := m.pairwise_rankedCommands
  rw [← hparts, ← htop, List.pairwise_append] at hpairwise
  obtain ⟨hlisted, -, hbefore⟩ := hpairwise
  refine ⟨?_, hlisted, fun listed hmem => ⟨?_, fun omitted hcommand hnot => ?_⟩⟩
  · rw [htop, List.length_take, m.rankedCommands_perm.length_eq, ExtTreeMap.length_toList]
  · rw [htop] at hmem
    exact ExtTreeMap.mem_toList_iff_getElem?_eq_some.1
      (m.rankedCommands_perm.mem_iff.1 (List.mem_of_mem_take hmem))
  · have hranked : omitted ∈ m.rankedCommands := m.rankedCommands_perm.mem_iff.2 hcommand
    rw [← hparts, ← htop, List.mem_append] at hranked
    exact hbefore listed hmem omitted (hranked.resolve_left hnot)

/-! ### Everything that is summarized -/

/-- Whatever is recorded from the start, all requests are recorded if the time that they took
altogether fits a word.  The window holds the last durations, its sum is kept without wrapping, and
the counts are right.  The average is the mean of the window, rounded down; the percentiles
increase, and each is a duration in the window that at least so many percent of the durations do not
exceed and at most so many stay below, or zero if there is none.  The counts of all commands add up
to that of all requests, and at most five commands are listed in their order, none that is left out
coming before one of them. -/
theorem recordAll?_exact (recordings : List Recording)
    (hfits : totalTime (recordings.filterMap Recording.timing?) < UInt64.size) :
    let timings := recordings.filterMap Recording.timing?
    ∃ m, (start true).recordAll? recordings = some m ∧ m.Tells timings ∧
      m.window.oldest?.getD 0 ≤ m.windowSum ∧
      m.average.toNat = (m.window.toList.map UInt64.toNat).sum / m.window.toList.length ∧
      m.percentile 50 ≤ m.percentile 95 ∧ m.percentile 95 ≤ m.percentile 99 ∧
      (timings ≠ [] → ∀ percent ≤ 100, m.percentile percent ∈ m.window.toList ∧
        m.window.toList.length * percent / 100
          ≤ m.window.toList.countP (· ≤ m.percentile percent) ∧
        m.window.toList.countP (· < m.percentile percent)
          ≤ m.window.toList.length * percent / 100) ∧
      (timings = [] → ∀ percent, m.percentile percent = 0) ∧
      (m.commands.toList.map (·.2.count)).sum = timings.length ∧
      m.topCommands.length = min maxListedCommands m.commands.size ∧
      m.topCommands.Pairwise Outranks ∧
      ∀ listed ∈ m.topCommands, m.commands[listed.1]? = some listed.2 ∧
        ∀ omitted ∈ m.commands.toList, omitted ∉ m.topCommands → Outranks listed omitted := by
  intro timings
  obtain ⟨m, hrun, hm⟩ := tells_recordAll? recordings hfits
  obtain ⟨hlength, hlisted, houtrank⟩ := m.topCommands_spec
  have hsize : m.window.size = min windowSize timings.length := hm.size_window
  refine ⟨m, hrun, hm, (toNat_sumWithoutOldest hm.windowSum).1, hm.toNat_average,
    m.percentile_mono (by decide), m.percentile_mono (by decide), fun hsome percent hpercent => ?_,
    fun hnone percent => ?_, hm.sum_counts, hlength, hlisted, houtrank⟩
  · have hpos : 0 < m.window.size := by
      have hrequests : 0 < timings.length := List.length_pos_iff.2 hsome
      have hwindow : 0 < windowSize := by decide
      omega
    rw [Window.length_toList]
    exact percentile_spec hpos hpercent
  · exact percentile_eq_zero (by rw [hsize, hnone]; decide) percent

/-- Seven requests for three commands, two of them slow, with other things between them. -/
def mixedRecordings : List Recording :=
  [.opened .unix, .query ⟨"getNode", 3, 0⟩, .query ⟨"addNodes", 120, 1⟩, .flush 40,
    .query ⟨"getNode", 5, 2⟩, .query ⟨"ping", 0, 3⟩, .decodeError, .query ⟨"addNodes", 100, 4⟩,
    .query ⟨"getNode", 1, 5⟩, .query ⟨"ping", 7, 6⟩, .closed .unix]

theorem recordAll?_exact_mixed :
    totalTime (mixedRecordings.filterMap Recording.timing?) < UInt64.size ∧
    ∃ m, (start true).recordAll? mixedRecordings = some m ∧
      m.queryCount = 7 ∧ m.slowCount = 2 ∧ m.window.toList = [3, 120, 5, 0, 100, 1, 7] ∧
      m.slowQueries.toList = [⟨"addNodes", 120, 1⟩, ⟨"addNodes", 100, 4⟩] ∧
      m.average.toNat = 33 ∧ m.percentile 50 = 5 ∧ m.percentile 95 = 120 ∧
      3 ≤ m.window.toList.countP (· ≤ m.percentile 50) ∧
      m.topCommands = [("getNode", ⟨3, 9⟩), ("addNodes", ⟨2, 220⟩), ("ping", ⟨2, 7⟩)] ∧
      (m.commands.toList.map (·.2.count)).sum = 7 := by
  have hfits : totalTime (mixedRecordings.filterMap Recording.timing?) < UInt64.size := by
    decide
  obtain ⟨m, hrun, hm, -, haverage, -, -, hpercentile, -, hcounts, -⟩ :=
    recordAll?_exact mixedRecordings hfits
  have hwindow : m.window.toList = [3, 120, 5, 0, 100, 1, 7] := hm.window
  have hsorted : m.sortedWindow = [0, 1, 3, 5, 7, 100, 120] := by
    rw [sortedWindow, hwindow]
    cbv
  have hsize : m.window.size = 7 := hm.size_window
  have hcommands : ((start true).recordAll? mixedRecordings).map (·.commands.toList)
      = some [("addNodes", ⟨2, 220⟩), ("getNode", ⟨3, 9⟩), ("ping", ⟨2, 7⟩)] := by
    decide +kernel
  rw [hrun, Option.map_some, Option.some.injEq] at hcommands
  obtain ⟨-, hhalf, -⟩ := hpercentile (by decide) 50 (by decide)
  refine ⟨hfits, m, hrun, hm.queryCount, hm.slowCount, hwindow, hm.slowQueries, ?_, ?_, ?_, ?_, ?_,
    hcounts⟩
  · rw [haverage, hwindow]
    decide
  · rw [percentile, hsorted, hsize]
    rfl
  · rw [percentile, hsorted, hsize]
    rfl
  · rw [hwindow] at hhalf ⊢
    exact hhalf
  · rw [topCommands, hcommands]
    cbv

end Metrics

end CodeGraph
