/-
# Text.CharSet -- sets of characters as ranges of code points

A set is the list of its maximal runs of consecutive code points, in ascending
order, each run given by its first and its last member.  Membership asks for one
run around the character, so the order of the runs does not matter to it.
-/

namespace OperatorGrammar.Text

set_option autoImplicit false

/-- Runs of code points, each with its first and its last member. -/
abbrev CharSet := List (Nat × Nat)

/-- Whether some run holds the code point of `c`. -/
def CharSet.has (set : CharSet) (c : Char) : Bool :=
  set.any fun run => run.1 ≤ c.toNat && c.toNat ≤ run.2

theorem CharSet.has_iff {set : CharSet} {c : Char} :
    set.has c = true ↔ ∃ run ∈ set, run.1 ≤ c.toNat ∧ c.toNat ≤ run.2 := by
  simp [CharSet.has]

end OperatorGrammar.Text
