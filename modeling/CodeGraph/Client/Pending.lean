import Std.Data.ExtTreeMap

/-!
# Requests that wait for a reply

Those who wait are found by the name of their request, and the names are kept in the order
in which the requests were sent.
-/

namespace CodeGraph.Client

/-- Waiters by the name of their request, and the names in the order of sending. -/
structure Pending (ω : Type) where
  waiters : Std.ExtTreeMap String ω
  order : List String

namespace Pending

variable {ω : Type}

/-- Nobody waits. -/
def empty : Pending ω := ⟨∅, []⟩

/-- After another request was sent. -/
def insert (p : Pending ω) (id : String) (waiter : ω) : Pending ω :=
  ⟨p.waiters.insert id waiter, p.order ++ [id]⟩

/-- Who waits for the reply to a request, and those who wait still. -/
def remove (p : Pending ω) (id : String) : Option ω × Pending ω :=
  match p.waiters[id]? with
  | none => (none, p)
  | some waiter => (some waiter, ⟨p.waiters.erase id, p.order.erase id⟩)

/-- Who has waited longest, and those who wait still. -/
def removeOldest (p : Pending ω) : Option ω × Pending ω :=
  oldest p.waiters p.order
where
  /-- The first name for which there is a waiter. -/
  oldest (waiters : Std.ExtTreeMap String ω) : List String → Option ω × Pending ω
    | [] => (none, ⟨waiters, []⟩)
    | id :: order =>
      match waiters[id]? with
      | some waiter => (some waiter, ⟨waiters.erase id, order⟩)
      | none => oldest waiters order

/-- All who wait, those who have waited longest first. -/
def toList (p : Pending ω) : List ω :=
  p.order.filterMap (p.waiters[·]?)

end Pending

end CodeGraph.Client
