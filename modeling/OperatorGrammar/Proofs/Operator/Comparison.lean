/-
# Proofs.Operator.Comparison -- what two operators can be to each other

An operator accepts whatever binds tighter, and an operator of its own precedence on
the side of its associativity (`leftAccepts_iff`, `rightAccepts_iff`).  Hence each
outcome of `Shunting.nests` says which of the two operators accepts the other:

* the right one goes inside the left one: the left one accepts it, and the right one
  does not accept the left one;
* it does not: the other way round;
* a clash: neither accepts the other;
* an ambiguity: both do (`Operator.Interchangeable`).
-/
import OperatorGrammar.Builder.Shunting

namespace OperatorGrammar

set_option autoImplicit false

namespace Operator

theorem leftAccepts_iff (op arg : Operator) :
    op.leftAccepts arg = true ↔
      arg.prec < op.prec ∨ arg.prec = op.prec ∧ op.spec.associativity = .left := by
  unfold leftAccepts
  cases op.spec <;> simp [Specifier.left, Specifier.associativity, Relation.holds] <;> omega

theorem rightAccepts_iff (op arg : Operator) :
    op.rightAccepts arg = true ↔
      arg.prec < op.prec ∨ arg.prec = op.prec ∧ op.spec.associativity = .right := by
  unfold rightAccepts
  cases op.spec <;> simp [Specifier.right, Specifier.associativity, Relation.holds] <;> omega

variable {op arg inner : Operator}

theorem prec_le_of_leftAccepts (accepts : op.leftAccepts arg = true) : arg.prec ≤ op.prec := by
  rcases (leftAccepts_iff op arg).1 accepts with less | ⟨same, -⟩ <;> omega

theorem prec_le_of_rightAccepts (accepts : op.rightAccepts arg = true) : arg.prec ≤ op.prec := by
  rcases (rightAccepts_iff op arg).1 accepts with less | ⟨same, -⟩ <;> omega

/-- What is accepted to the left stays so when it binds tighter. -/
theorem leftAccepts_of_le (accepts : op.leftAccepts arg = true) (le : inner.prec ≤ arg.prec) :
    op.leftAccepts inner = true := by
  rw [leftAccepts_iff] at accepts ⊢
  rcases accepts with less | ⟨same, left⟩
  · exact Or.inl (by omega)
  · rcases Nat.lt_or_eq_of_le le with less | same'
    · exact Or.inl (by omega)
    · exact Or.inr ⟨by omega, left⟩

theorem rightAccepts_of_le (accepts : op.rightAccepts arg = true) (le : inner.prec ≤ arg.prec) :
    op.rightAccepts inner = true := by
  rw [rightAccepts_iff] at accepts ⊢
  rcases accepts with less | ⟨same, right⟩
  · exact Or.inl (by omega)
  · rcases Nat.lt_or_eq_of_le le with less | same'
    · exact Or.inl (by omega)
    · exact Or.inr ⟨by omega, right⟩

theorem associativity_ne_left_of_prefixOp (fixity : op.fixity = .prefixOp) :
    op.spec.associativity ≠ .left := by
  unfold Operator.fixity at fixity
  cases spec : op.spec <;> simp_all [Specifier.fixity, Specifier.associativity]

theorem associativity_ne_right_of_postfixOp (fixity : op.fixity = .postfixOp) :
    op.spec.associativity ≠ .right := by
  unfold Operator.fixity at fixity
  cases spec : op.spec <;> simp_all [Specifier.fixity, Specifier.associativity]

/-- `l` and, to the right of it, `r` have one precedence, and either may take the
other in. -/
structure Interchangeable (l r : Operator) : Prop where
  samePrec : l.prec = r.prec
  takesRight : l.spec.associativity = .right
  takesLeft : r.spec.associativity = .left

variable {l r : Operator}

theorem Interchangeable.rightAccepts (both : Interchangeable l r) (le : inner.prec ≤ r.prec) :
    l.rightAccepts inner = true := by
  rw [rightAccepts_iff, both.samePrec]
  rcases Nat.lt_or_eq_of_le le with less | same
  · exact Or.inl less
  · exact Or.inr ⟨same, both.takesRight⟩

theorem Interchangeable.leftAccepts (both : Interchangeable l r) (le : inner.prec ≤ l.prec) :
    r.leftAccepts inner = true := by
  rw [leftAccepts_iff, ← both.samePrec]
  rcases Nat.lt_or_eq_of_le le with less | same
  · exact Or.inl less
  · exact Or.inr ⟨same, both.takesLeft⟩

end Operator

namespace Shunting

open Operator

variable {l r : Operator}

theorem rightAccepts_of_nests (nested : nests l r = .ok true) : l.rightAccepts r = true := by
  rw [rightAccepts_iff]
  unfold nests at nested
  split at nested
  · exact Or.inl ‹_›
  · split at nested
    · cases nested
    · by_cases right : l.spec.associativity = .right
      · exact Or.inr ⟨by omega, right⟩
      · by_cases left : r.spec.associativity = .left <;> simp [tie, left, right] at nested

theorem leftAccepts_of_not_nests (apart : nests l r = .ok false) : r.leftAccepts l = true := by
  rw [leftAccepts_iff]
  unfold nests at apart
  split at apart
  · cases apart
  · split at apart
    · exact Or.inl ‹_›
    · by_cases left : r.spec.associativity = .left
      · exact Or.inr ⟨by omega, left⟩
      · by_cases right : l.spec.associativity = .right <;> simp [tie, left, right] at apart

/-- An operator that accepts the one behind it takes it in, unless the other would
accept it as well. -/
theorem nests_of_rightAccepts (accepts : l.rightAccepts r = true) :
    nests l r = .ok true ∨
      Interchangeable l r ∧ nests l r = .error (.ambiguous l.text r.text) := by
  unfold nests
  rcases (rightAccepts_iff l r).1 accepts with less | ⟨same, right⟩
  · exact Or.inl (by simp [less])
  · by_cases left : r.spec.associativity = .left
    · exact Or.inr ⟨⟨same.symm, right, left⟩, by simp [same, tie, left, right]⟩
    · exact Or.inl (by simp [same, tie, left, right])

/-- An operator that is accepted by the one behind it leaves it outside, unless it
would accept the other as well. -/
theorem nests_of_leftAccepts (accepts : r.leftAccepts l = true) :
    nests l r = .ok false ∨
      Interchangeable l r ∧ nests l r = .error (.ambiguous l.text r.text) := by
  unfold nests
  rcases (leftAccepts_iff r l).1 accepts with less | ⟨same, left⟩
  · exact Or.inl (by simp [less, Nat.lt_asymm less])
  · by_cases right : l.spec.associativity = .right
    · exact Or.inr ⟨⟨same, right, left⟩, by simp [same, tie, left, right]⟩
    · exact Or.inl (by simp [same, tie, left, right])

/-- A comparison that fails says that there is a clash or an ambiguity. -/
theorem cause_of_nests_error {cause : Rejection} (stuck : nests l r = .error cause) :
    cause = .clash l.text r.text ∨ cause = .ambiguous l.text r.text := by
  unfold nests at stuck
  split at stuck
  · cases stuck
  · split at stuck
    · cases stuck
    · split at stuck <;> cases stuck
      · exact Or.inl rfl
      · exact Or.inr rfl

end Shunting

end OperatorGrammar
