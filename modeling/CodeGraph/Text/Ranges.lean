/-!
# Ranges of characters

A class of characters beyond ASCII is given by a sorted list of ranges of code points,
each by its first and last member.
-/

namespace CodeGraph.Text

/-- Whether a code point lies in one of the ranges of a sorted list. -/
def inRanges (code : Nat) : (ranges : List (Nat × Nat)) → Bool
  | [] => false
  | (first, last) :: ranges =>
    if code < first then false else code ≤ last || inRanges code ranges

/-- A list without ranges has no members. -/
theorem inRanges_nil (code : Nat) : inRanges code [] = false := rfl

end CodeGraph.Text
