/-
# Proofs.Sequence.Shape -- the roles of a sequence that goes on

The roles of a complete sequence form an expression (`Role.IsExpression`):

    Expr   = Factor (infix Factor)*
    Factor = prefix* operand postfix*

A sequence that was read from the left is an expression itself, or it awaits a factor, so that
it is one with any factor behind it (`Role.Awaits`).  Which of the two is up to its last part
(`Part.Viable.continues`); in either case it can be completed.
-/
import OperatorGrammar.Proofs.Sequence.Standing

namespace OperatorGrammar

set_option autoImplicit false

namespace Role

variable {roles more : List Role}

def IsFactor (roles : List Role) : Prop :=
  ∃ before behind, roles =
    List.replicate before .prefixOp ++ .operand :: List.replicate behind .postfixOp

inductive IsExpression : List Role → Prop
  | factor {roles : List Role} (isFactor : IsFactor roles) : IsExpression roles
  | infixOp {roles more : List Role} (left : IsExpression roles) (isFactor : IsFactor more) :
      IsExpression (roles ++ .infixOp :: more)

/-- With any factor behind them, the roles form an expression. -/
def Awaits (roles : List Role) : Prop := ∀ factor, IsFactor factor → IsExpression (roles ++ factor)

/-- The roles are the front of an expression. -/
def Begins (roles : List Role) : Prop := ∃ rest, IsExpression (roles ++ rest)

theorem isFactor_operand : IsFactor [.operand] := ⟨0, 0, rfl⟩

theorem IsFactor.prefixOp (isFactor : IsFactor roles) : IsFactor (.prefixOp :: roles) := by
  obtain ⟨before, behind, rfl⟩ := isFactor
  exact ⟨before + 1, behind, by rw [List.replicate_succ, List.cons_append]⟩

theorem IsFactor.postfixOp (isFactor : IsFactor roles) : IsFactor (roles ++ [.postfixOp]) := by
  obtain ⟨before, behind, rfl⟩ := isFactor
  exact ⟨before, behind + 1, by
    rw [List.replicate_succ', List.append_assoc, List.cons_append]⟩

theorem IsExpression.postfixOp (expression : IsExpression roles) :
    IsExpression (roles ++ [.postfixOp]) := by
  cases expression with
  | factor isFactor => exact .factor isFactor.postfixOp
  | infixOp left isFactor =>
      rw [List.append_assoc, List.cons_append]
      exact .infixOp left isFactor.postfixOp

theorem IsExpression.infixOp_awaits (expression : IsExpression roles) :
    Awaits (roles ++ [.infixOp]) := by
  intro factor isFactor
  rw [List.append_assoc]
  exact .infixOp expression isFactor

theorem awaits_nil : Awaits [] := fun _ isFactor => .factor isFactor

theorem Awaits.prefixOp (awaits : Awaits roles) : Awaits (roles ++ [.prefixOp]) := by
  intro factor isFactor
  rw [List.append_assoc]
  exact awaits _ isFactor.prefixOp

theorem Awaits.operand (awaits : Awaits roles) : IsExpression (roles ++ [.operand]) :=
  awaits _ isFactor_operand

/-- The roles await a factor, or are an expression. -/
def Continues : Bool → List Role → Prop
  | true, roles => Awaits roles
  | false, roles => IsExpression roles

theorem Continues.begins {due : Bool} (continues : Continues due roles) : Begins roles := by
  cases due with
  | true => exact ⟨_, continues.operand⟩
  | false => exact ⟨[], by rw [List.append_nil]; exact continues⟩

end Role

namespace Part

open Role

variable {table : Table} {p : Part} {ps : List Part}

/-- The role of the part in an expression, where an atom is an operand. -/
def grammarRole : Part → Role
  | .operand _ | .atom _ => .operand
  | .operator f _ => f.role

/-- Whether an operand is due behind the parts, the latest first. -/
def due : List Part → Bool
  | [] => true
  | p :: _ => p.opens

/-- A part joins as an argument where an operand is due, and as an operator with a left argument
where it is not. -/
theorem takesLeft_of_joins (joins : Joins table ps p) : p.takesLeft = !due ps := by
  cases ps with
  | nil => exact joins.1
  | cons q ps => exact joins.1.sides

theorem Viable.continues (viable : Viable table ps) :
    Continues (due ps) (ps.map grammarRole).reverse := by
  induction ps with
  | nil => exact awaits_nil
  | cons p ps ih =>
      obtain ⟨before, -, joins⟩ := viable
      have continues := ih before
      have sides := takesLeft_of_joins joins
      rw [List.map_cons, List.reverse_cons]
      generalize (ps.map grammarRole).reverse = roles at continues ⊢
      cases isDue : due ps with
      | true =>
          rw [isDue] at continues sides
          cases p with
          | operand term => exact continues.operand
          | atom name => exact continues.operand
          | operator f op =>
              cases takesLeft_eq_false_iff.1 sides
              exact Awaits.prefixOp continues
      | false =>
          rw [isDue] at continues sides
          cases p with
          | operator f op =>
              cases f with
              | prefixOp => cases sides
              | infixOp => exact continues.infixOp_awaits
              | postfixOp => exact continues.postfixOp
          | _ => cases sides

end Part

end OperatorGrammar
