/-
# Term.Basic -- terms

A term is a number, a string, a variable, an atom, a compound of a functor and its
arguments, or a list cell.  `Term.application` is the constructor for text: an
application to nothing is the atom of that name, so compounds built by it have at
least one argument.  Lists are cells that end in the atom `[]`, or in any other
term.

`Term.same` compares terms as values: reals by `Binary64.same`, all else exactly.
-/
import OperatorGrammar.Binary64.Basic

namespace OperatorGrammar

set_option autoImplicit false

inductive Term where
  | int (value : Int64)
  | real (value : Binary64)
  | str (text : String)
  | var (name : String)
  | atom (name : String)
  | compound (functor : String) (args : List Term)
  | cons (head tail : Term)
deriving Inhabited

namespace Term

/-- The name of the empty list. -/
def nilName : String := "[]"

/-- The empty list. -/
def nil : Term := .atom nilName

/-- A functor applied to arguments; applied to none it is an atom. -/
def application (functor : String) : List Term → Term
  | [] => .atom functor
  | args => .compound functor args

/-- The cells of `items` in front of `tail`. -/
def listEndingIn (items : List Term) (tail : Term) : Term := items.foldr .cons tail

/-- The items of the cells a term starts with. -/
def items : Term → List Term
  | .cons head tail => head :: items tail
  | _ => []

/-- What follows the cells a term starts with. -/
def rest : Term → Term
  | .cons _ tail => rest tail
  | t => t

/-- The name of an atom or of a compound's functor. -/
def name? : Term → Option String
  | .atom name => some name
  | .compound functor _ => some functor
  | _ => none

/-- The arguments of a compound; nothing else has any. -/
def args : Term → List Term
  | .compound _ args => args
  | _ => []

/-- The number of arguments of a compound, or 2 for a list cell. -/
def arity : Term → Nat
  | .compound _ args => args.length
  | .cons _ _ => 2
  | _ => 0

def isAtom : Term → Bool
  | .atom _ => true
  | _ => false

mutual

/-- Equality of terms as values. -/
def same : Term → Term → Bool
  | .int a, .int b => a = b
  | .real a, .real b => a.same b
  | .str a, .str b => a = b
  | .var a, .var b => a = b
  | .atom a, .atom b => a = b
  | .compound f as, .compound g bs => f = g && sameAll as bs
  | .cons a s, .cons b t => same a b && same s t
  | _, _ => false

/-- Equality of lists of terms, member by member. -/
def sameAll : List Term → List Term → Bool
  | [], [] => true
  | a :: as, b :: bs => same a b && sameAll as bs
  | _, _ => false

end

theorem listEndingIn_items_rest (t : Term) : listEndingIn t.items t.rest = t := by
  induction t using items.induct with
  | case1 head tail ih => simpa [items, rest, listEndingIn] using ih
  | case2 t h =>
      cases t <;> simp [items, rest, listEndingIn] at h ⊢

end Term

end OperatorGrammar
