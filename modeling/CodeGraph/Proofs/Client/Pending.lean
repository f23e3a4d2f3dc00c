import Mathlib
import CodeGraph.Client.WebSocket

/-!
# Who waits for a reply

Calls are told apart by the numbers in the names of their requests.  `Pending.Lists` says which
calls wait, in which order.  What answers the request that was noted first goes to the call that
sent it, whether it names the request or is an error without a name (`Pending.Lists.route`).
-/

namespace CodeGraph.Client

open Std (ExtTreeMap)

lemma requestName_injective : Function.Injective requestName := by
  intro i j heq
  have hrepr : i.repr = j.repr := (String.append_right_inj "c").1 heq
  exact Nat.repr_inj.1 hrepr

/-- Exactly these calls wait, in this order; a call is known by the number in the name of its
request. -/
structure Pending.Lists (p : Pending Nat) (calls : List Nat) : Prop where
  order : p.order = calls.map requestName
  waiters : ∀ id call, p.waiters[id]? = some call ↔ call ∈ calls ∧ requestName call = id
  nodup : calls.Nodup

namespace Pending.Lists

variable {p : Pending Nat} {calls : List Nat} {call : Nat}

lemma empty : Pending.empty.Lists [] where
  order := rfl
  waiters := by simp [Pending.empty]
  nodup := List.nodup_nil

lemma getElem?_of_mem (h : p.Lists calls) (hcall : call ∈ calls) :
    p.waiters[requestName call]? = some call :=
  (h.waiters _ call).2 ⟨hcall, rfl⟩

lemma insert (h : p.Lists calls) (hcall : call ∉ calls) :
    (p.insert (requestName call) call).Lists (calls ++ [call]) where
  order := by
    rw [List.map_append, ← h.order]
    rfl
  waiters := by
    intro id other
    simp only [Pending.insert, ExtTreeMap.getElem?_insert, Std.LawfulEqCmp.compare_eq_iff_eq,
      List.mem_append, List.mem_singleton]
    split
    · next hid =>
      subst hid
      rw [Option.some.injEq, requestName_injective.eq_iff]
      exact ⟨fun heq => ⟨.inr heq.symm, heq.symm⟩, fun ⟨_, heq⟩ => heq.symm⟩
    · next hid =>
      rw [h.waiters, or_and_right, or_iff_left]
      rintro ⟨rfl, heq⟩
      exact hid heq
  nodup := List.concat_eq_append ▸ h.nodup.concat hcall

lemma erase (h : p.Lists calls) (call : Nat) :
    Pending.Lists ⟨p.waiters.erase (requestName call), p.order.erase (requestName call)⟩
      (calls.erase call) where
  order := by
    rw [h.order, List.map_erase requestName_injective]
  waiters := by
    intro id other
    simp only [ExtTreeMap.getElem?_erase, Std.LawfulEqCmp.compare_eq_iff_eq, h.nodup.mem_erase_iff]
    split
    · next hid =>
      subst hid
      simp only [requestName_injective.eq_iff, reduceCtorEq, false_iff]
      rintro ⟨⟨hne, _⟩, heq⟩
      exact hne heq
    · next hid =>
      rw [h.waiters]
      refine ⟨fun ⟨hmem, heq⟩ => ⟨⟨?_, hmem⟩, heq⟩, fun ⟨⟨_, hmem⟩, heq⟩ => ⟨hmem, heq⟩⟩
      rintro rfl
      exact hid heq
  nodup := h.nodup.erase call

/-- Whoever waits can be found and taken off. -/
lemma remove (h : p.Lists calls) (hcall : call ∈ calls) : ∃ p',
    p.remove (requestName call) = (some call, p') ∧ p'.Lists (calls.erase call) := by
  refine ⟨_, ?_, h.erase call⟩
  simp only [Pending.remove, h.getElem?_of_mem hcall]

/-- Whoever has waited longest is at the front. -/
lemma removeOldest (h : p.Lists (call :: calls)) : ∃ p',
    p.removeOldest = (some call, p') ∧ p'.Lists calls := by
  have hrest := h.erase call
  rw [List.erase_cons_head] at hrest
  refine ⟨_, ?_, hrest⟩
  have hfound := h.getElem?_of_mem List.mem_cons_self
  simp only [Pending.removeOldest, h.order, List.map_cons, Pending.removeOldest.oldest, hfound,
    List.erase_cons_head]

lemma toList (h : p.Lists calls) : p.toList = calls := by
  rw [Pending.toList, h.order, List.filterMap_map]
  have hfound : ∀ call ∈ calls, ((p.waiters[·]?) ∘ requestName) call = some call :=
    fun call hcall => h.getElem?_of_mem hcall
  rw [List.filterMap_congr hfound, List.filterMap_some]

/-- A reply to the request that was noted first goes to whoever sent it, whether the reply names
the request or is an error without a name. -/
lemma route (h : p.Lists (call :: calls)) {reply : Reply}
    (hreply : Unix.answers (requestName call) reply = true) : ∃ p',
    WebSocket.route p reply = (some call, p') ∧ p'.Lists calls := by
  unfold Unix.answers at hreply
  unfold WebSocket.route
  cases hid : reply.requestId? with
  | some id =>
    rw [hid] at hreply
    obtain rfl : id = requestName call := eq_of_beq hreply
    have hremoved := h.remove List.mem_cons_self
    rw [List.erase_cons_head] at hremoved
    exact hremoved
  | none =>
    rw [hid] at hreply
    simp only at hreply
    simp only [hreply, if_true]
    exact h.removeOldest

end Pending.Lists

end CodeGraph.Client
