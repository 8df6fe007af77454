/-
# Tree.Basic -- operator trees

A tree chooses a form for every operator item of a sequence and nests the items.
Read from left to right, `parts` lists the items with their forms and `items` the
items alone.  `eval` is the term that the tree stands for.

A tree is a parse of a sequence (`IsParse`) if it lists the sequence, takes its
forms from the table, and every operator accepts the operators that head its
arguments.  An operator item may also be read as an atom: if it is the only item,
or if it is the first one and its name has a postfix form.
-/
import OperatorGrammar.Builder.Item

namespace OperatorGrammar

set_option autoImplicit false

inductive Tree where
  | operand (term : Term)
  /-- An operator item that is read as an atom. -/
  | atom (name : String)
  | prefixOp (op : Operator) (arg : Tree)
  | postfixOp (op : Operator) (arg : Tree)
  | infixOp (op : Operator) (left right : Tree)

/-- An item with the form in which it is read. -/
inductive Part where
  | operand (term : Term)
  | atom (name : String)
  | operator (fixity : Fixity) (op : Operator)

/-- The item without its form. -/
def Part.item : Part → Item
  | .operand term => .operand term
  | .atom name => .operator name
  | .operator _ op => .operator op.name

namespace Tree

/-- The items with their forms, from left to right. -/
def parts : Tree → List Part
  | .operand term => [.operand term]
  | .atom name => [.atom name]
  | .prefixOp op arg => .operator .prefixOp op :: arg.parts
  | .postfixOp op arg => arg.parts ++ [.operator .postfixOp op]
  | .infixOp op left right => left.parts ++ .operator .infixOp op :: right.parts

/-- The items from left to right. -/
def items (t : Tree) : List Item := t.parts.map Part.item

/-- The operator at the root. -/
def head? : Tree → Option Operator
  | .operand _ | .atom _ => none
  | .prefixOp op _ | .postfixOp op _ | .infixOp op _ _ => some op

/-- The term that a tree stands for. -/
def eval : Tree → Term
  | .operand term => term
  | .atom name => .atom name
  | .prefixOp op arg | .postfixOp op arg => op.apply [arg.eval]
  | .infixOp op left right => op.apply [left.eval, right.eval]

/-- Every operator accepts the operators that head its arguments. -/
def Accepted : Tree → Prop
  | .operand _ | .atom _ => True
  | .prefixOp op arg => arg.Accepted ∧ ∀ d ∈ arg.head?, op.rightAccepts d = true
  | .postfixOp op arg => arg.Accepted ∧ ∀ d ∈ arg.head?, op.leftAccepts d = true
  | .infixOp op left right =>
      left.Accepted ∧ right.Accepted ∧ (∀ d ∈ left.head?, op.leftAccepts d = true) ∧
        ∀ d ∈ right.head?, op.rightAccepts d = true

end Tree

namespace Part

/-- Whether a part takes its operator from the table. -/
def IsDefined (table : Table) : Part → Prop
  | .operand _ => True
  | .atom name => (table.find? name).isSome = true
  | .operator fixity op => ∃ e, table.find? op.name = some e ∧ e.form? fixity = some op

/-- Whether a name has a postfix operator. -/
def hasPostfix (table : Table) (name : String) : Prop :=
  ∃ e, table.find? name = some e ∧ e.postfixForm.isSome = true

/-- Whether an operator item is read as an atom only where that is possible. -/
def AtomsAllowed (table : Table) : List Part → Prop
  | [.atom _] => True
  | first :: rest =>
      (∀ name, first = .atom name → hasPostfix table name) ∧ ∀ name, .atom name ∉ rest
  | [] => True

end Part

namespace Tree

/-- The tree is a parse of a sequence of items. -/
structure IsParse (table : Table) (sequence : List Item) (t : Tree) : Prop where
  items_eq : t.items = sequence
  isDefined : ∀ part ∈ t.parts, part.IsDefined table
  atomsAllowed : Part.AtomsAllowed table t.parts
  accepted : t.Accepted

end Tree

end OperatorGrammar
