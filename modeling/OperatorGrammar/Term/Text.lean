/-
# Term.Text -- the canonical text of a term

Compounds are written as a functor with its arguments in parentheses, whatever
operators exist: `'+'(1, 2)`.  The cells of a list share one pair of brackets, and
what follows the last cell stands behind a bar unless it is the empty list:
`[1, 2 | T]`.

Every term therefore has two texts, one by itself and one as the rest of a list
whose items are already written; `Written` holds both, so that the text of a term
follows its structure.
-/
import OperatorGrammar.Term.Atom
import OperatorGrammar.Term.Basic
import OperatorGrammar.Binary64.Text
import OperatorGrammar.Text.Quoted

namespace OperatorGrammar

set_option autoImplicit false

/-- The texts of a term by itself and as the rest of a list. -/
structure Written where
  alone : String
  rest : String

namespace Written

/-- A term that is no list cell: as a rest it stands behind a bar. -/
def ending (text : String) : Written := ⟨text, " | " ++ text⟩

/-- The empty list: as a rest it leaves no text. -/
def nil (text : String) : Written := ⟨text, ""⟩

/-- A list cell, given the text of its head and the rest of its tail. -/
def cell (head rest : String) : Written := ⟨"[" ++ head ++ rest ++ "]", ", " ++ head ++ rest⟩

end Written

namespace Term

/-- The text of a functor applied to written arguments. -/
def applicationText (functor : String) (args : List String) : String :=
  Atom.text functor ++ "(" ++ ", ".intercalate args ++ ")"

mutual

/-- Both canonical texts of a term. -/
def written : Term → Written
  | .int n => .ending (Text.signedDecimal n.toInt)
  | .real r => .ending r.text
  | .str s => .ending (Text.quoted s)
  | .var name => .ending name
  | .atom name => if name = nilName then .nil (Atom.text name) else .ending (Atom.text name)
  | .compound functor args => .ending (applicationText functor (texts args))
  | .cons head tail => .cell (written head).alone (written tail).rest

/-- The canonical texts of the terms of a list. -/
def texts : List Term → List String
  | [] => []
  | t :: ts => (written t).alone :: texts ts

end

/-- The canonical text of a term. -/
def text (t : Term) : String := t.written.alone

theorem texts_eq_map (ts : List Term) : texts ts = ts.map text := by
  induction ts with
  | nil => simp [texts]
  | cons t ts ih => simp [texts, ih, text]

theorem text_atom (name : String) : text (.atom name) = Atom.text name := by
  rw [text, written]
  split <;> rfl

theorem text_cons (head tail : Term) :
    text (.cons head tail) = "[" ++ head.text ++ tail.written.rest ++ "]" := by
  simp [text, written, Written.cell]

theorem rest_nil : nil.written.rest = "" := by
  simp [nil, written, Written.nil]

theorem rest_cons (head tail : Term) :
    (cons head tail).written.rest = ", " ++ head.text ++ tail.written.rest := by
  simp [text, written, Written.cell]

theorem rest_of_ending {t : Term} (notNil : t ≠ nil)
    (notCell : ∀ head tail, t ≠ cons head tail) : t.written.rest = " | " ++ t.text := by
  cases t with
  | atom name =>
      have other : name ≠ nilName := fun same => notNil (congrArg Term.atom same)
      simp [text, written, other, Written.ending]
  | cons head tail => exact absurd rfl (notCell head tail)
  | _ => simp [text, written, Written.ending]

theorem text_compound (functor : String) (args : List Term) :
    text (.compound functor args) = applicationText functor (args.map text) := by
  simp [text, written, Written.ending, texts_eq_map]

end Term

end OperatorGrammar
