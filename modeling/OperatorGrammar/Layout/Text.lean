/-
# Layout.Text -- terms in operator notation

The text of a term follows its items: operator names stand as they are, one space
between them and their arguments.  An argument that is an operator term and does
not fit, or an atom that names an operator, stands in parentheses.  Between the
commas of a compound or a list an operator term above precedence 999 stands in
parentheses too, so that no comma of its own is taken for a separator.
-/
import OperatorGrammar.Layout.Items

namespace OperatorGrammar.Layout

set_option autoImplicit false

/-- The loosest precedence that needs no parentheses between commas. -/
def argumentPrec : Nat := 999

def parenthesized (text : String) : String := "(" ++ text ++ ")"

/-- The text of an argument beside an operator, given its text by itself. -/
def operandText (table : Table) (parent : Operator) (side : Side) (arg : Term)
    (text : String) : String :=
  match head? table arg with
  | some child => if fits parent side child then text else parenthesized text
  | none => if isOperatorAtom table arg then parenthesized text else text

/-- The text of an argument between commas, given its text by itself. -/
def argumentText (table : Table) (arg : Term) (text : String) : String :=
  match head? table arg with
  | some op => if argumentPrec < op.prec then parenthesized text else text
  | none => text

/-- The text of a compound, given its arguments' texts by themselves. -/
def compoundText (table : Table) (functor : String) (args : List Term)
    (texts : List String) : String :=
  match form? table functor args, args, texts with
  | some op, [arg], [text] =>
      match op.fixity with
      | .prefixOp => op.name ++ " " ++ operandText table op .right arg text
      | _ => operandText table op .left arg text ++ " " ++ op.name
  | some op, [left, right], [before, behind] =>
      operandText table op .left left before ++ " " ++ op.name ++ " "
        ++ operandText table op .right right behind
  | _, _, _ => Term.applicationText functor (args.zipWith (argumentText table) texts)

/-- The text of an atom by itself. -/
def atomText (table : Table) (name : String) : String :=
  if (table.find? name).isSome then name else Atom.text name

mutual

/-- Both texts of a term in operator notation. -/
def written (table : Table) : Term → Written
  | .compound functor args =>
      let text := compoundText table functor args (texts table args)
      ⟨text, " | " ++ argumentText table (.compound functor args) text⟩
  | .cons head tail =>
      .cell (argumentText table head (written table head).alone) (written table tail).rest
  | .atom name =>
      if name = Term.nilName then .nil (atomText table name) else .ending (atomText table name)
  | t => .ending t.text

/-- The texts of some terms by themselves. -/
def texts (table : Table) : List Term → List String
  | [] => []
  | t :: ts => (written table t).alone :: texts table ts

end

/-- The text of a term in operator notation. -/
def text (table : Table) (t : Term) : String := (written table t).alone

theorem texts_eq_map (table : Table) (ts : List Term) : texts table ts = ts.map (text table) := by
  induction ts with
  | nil => simp [texts]
  | cons t ts ih => simp [texts, ih, text]

end OperatorGrammar.Layout
