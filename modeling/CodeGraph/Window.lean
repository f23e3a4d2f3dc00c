/-!
# Windows

A window of limit `n` holds the last `n` members of a sequence that grows at its end.
`Window.toList` lists them, oldest first, and is how the rest of the library sees a window.

The members are kept in two parts, so that one more of them costs a constant number of
steps on average: the newest wait in reverse order until every older one has left.

* `Window.toList_push` : what a window holds after one more member.
* `Window.oldest?_eq` : which member leaves first.
-/

namespace CodeGraph

/-- The last members of a sequence, at most `limit` of them. -/
structure Window (limit : Nat) (α : Type) where
  /-- The older members, oldest first. -/
  early : List α
  /-- The members after those, newest first. -/
  late : List α
  /-- How many members there are. -/
  size : Nat
  size_eq : size = early.length + late.length
  size_le : size ≤ limit

namespace Window

variable {limit : Nat} {α : Type}

/-- The window of the empty sequence. -/
def empty : Window limit α := ⟨[], [], 0, rfl, Nat.zero_le _⟩

/-- The members, oldest first. -/
def toList (w : Window limit α) : List α := w.early ++ w.late.reverse

/-- The member that leaves first. -/
def oldest? (w : Window limit α) : Option α :=
  match w.early with
  | a :: _ => some a
  | [] => w.late.getLast?

/-- Puts a member at the end; the oldest one leaves when there is no room for both. -/
def push (w : Window limit α) (a : α) : Window limit α :=
  if room : w.size < limit then
    { early := w.early
      late := a :: w.late
      size := w.size + 1
      size_eq := by simp [w.size_eq]; omega
      size_le := room }
  else
    match h : w.early with
    | _ :: early =>
      { early := early
        late := a :: w.late
        size := w.size
        size_eq := by simp [w.size_eq, h]; omega
        size_le := w.size_le }
    | [] =>
      { early := (a :: w.late).reverse.drop 1
        late := []
        size := w.size
        size_eq := by simp [w.size_eq, h]
        size_le := w.size_le }

/-! ### The members after a change -/

@[simp] theorem toList_empty : (empty : Window limit α).toList = [] := rfl

@[simp] theorem length_toList (w : Window limit α) : w.toList.length = w.size := by
  simp [toList, w.size_eq]

theorem oldest?_eq (w : Window limit α) : w.oldest? = w.toList.head? := by
  unfold oldest? toList
  split <;> simp [*]

/-- With one more member a window holds the last `limit` of the longer sequence. -/
theorem toList_push (w : Window limit α) (a : α) :
    (w.push a).toList = (w.toList ++ [a]).drop (w.size + 1 - limit) := by
  by_cases room : w.size < limit
  · have : w.size + 1 - limit = 0 := by omega
    simp [push, room, toList, this]
  · have : w.size + 1 - limit = 1 := by have := w.size_le; omega
    rw [this]
    simp only [push, room, dif_neg, not_false_eq_true]
    split <;> simp [toList, *]

end Window

end CodeGraph
