/-
# Layout.Items -- terms as sequences of items

A compound whose functor names an operator of as many arguments is laid out as
that operator between or beside its arguments.  An argument that is itself such a
compound is laid out in place if it can be read back there without parentheses
(`fits`); any other argument becomes a single operand.

An operator that embeds its fixity is never laid out, nor is a compound whose
first argument is the atom of a fixity that some operator of its functor embeds:
such a compound is taken for one that the operator has built.
-/
import OperatorGrammar.Builder.Item

namespace OperatorGrammar

set_option autoImplicit false

/-- A side of an operator on which an argument stands. -/
inductive Side where
  | left
  | right
deriving DecidableEq

namespace Layout

/-- Whether the arguments start with the fixity of an operator that embeds it. -/
def startsEmbedded (entry : Entry) : List Term → Bool
  | .atom name :: _ => entry.forms.any fun op => op.embed && op.fixity.text = name
  | _ => false

/-- The operator that a compound is laid out with. -/
def form? (table : Table) (functor : String) (args : List Term) : Option Operator := do
  let entry ← table.find? functor
  if startsEmbedded entry args then none
  else
    let op ← entry.formOfArity? args.length
    if op.embed then none else some op

/-- The operator that a term is laid out with. -/
def head? (table : Table) : Term → Option Operator
  | .compound functor args => form? table functor args
  | _ => none

/-- Whether a term is an atom that names an operator. -/
def isOperatorAtom (table : Table) : Term → Bool
  | .atom name => (table.find? name).isSome
  | _ => false

/-- Whether a term headed by `child` may stand at a side of `parent` without
parentheses. -/
def fits (parent : Operator) (side : Side) (child : Operator) : Bool :=
  match side with
  | .left =>
      parent.leftAccepts child &&
        (child.prec < parent.prec || child.fixity = .postfixOp || child.tie parent = .left)
  | .right =>
      parent.rightAccepts child &&
        (child.prec < parent.prec || child.fixity = .prefixOp || parent.tie child = .right)

/-- The items of an argument, given those of its own layout. -/
def argumentItems (table : Table) (parent : Operator) (side : Side) (arg : Term)
    (items : List Item) : List Item :=
  match head? table arg with
  | some child => if fits parent side child then items else [.operand arg]
  | none => [.operand arg]

/-- The items of a compound, given those of its arguments' own layouts. -/
def compoundItems (table : Table) (functor : String) (args : List Term)
    (items : List (List Item)) : List Item :=
  match form? table functor args, args, items with
  | some op, [arg], [inner] =>
      match op.fixity with
      | .prefixOp => .operator op.name :: argumentItems table op .right arg inner
      | _ => argumentItems table op .left arg inner ++ [.operator op.name]
  | some op, [left, right], [before, behind] =>
      argumentItems table op .left left before ++
        .operator op.name :: argumentItems table op .right right behind
  | _, _, _ => [.operand (.compound functor args)]

mutual

/-- The items of a term in operator layout. -/
def flatten (table : Table) : Term → List Item
  | .compound functor args => compoundItems table functor args (flattenAll table args)
  | t => [.operand t]

/-- The items of each of some terms. -/
def flattenAll (table : Table) : List Term → List (List Item)
  | [] => []
  | t :: ts => flatten table t :: flattenAll table ts

end

/-- The items of a whole term.  An atom that names an operator is that operator by
itself, which a builder takes for the atom. -/
def items (table : Table) (t : Term) : List Item :=
  match t with
  | .atom name => if (table.find? name).isSome then [.operator name] else [.operand t]
  | _ => flatten table t

end Layout

end OperatorGrammar
