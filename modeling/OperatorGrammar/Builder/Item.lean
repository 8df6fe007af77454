/-
# Builder.Item -- sequences of items

An item is a finished term or the name of an operator.  A sequence of items is
built by a fresh builder that takes them in order.
-/
import OperatorGrammar.Builder.Basic

namespace OperatorGrammar

set_option autoImplicit false

inductive Item where
  | operand (term : Term)
  | operator (name : String)

namespace Builder

def addItem (table : Table) (b : Builder) : Item → Except Failure Builder
  | .operand term => b.addOperand term
  | .operator name => Builder.addOperator table b name

/-- Adds items in order. -/
def addItems (table : Table) (b : Builder) (items : List Item) : Except Failure Builder :=
  items.foldlM (addItem table) b

end Builder

/-- The term that a sequence of items builds. -/
def Item.build (table : Table) (items : List Item) : Except Failure Term := do
  let b ← Builder.addItems table .empty items
  b.finish

end OperatorGrammar
