/-
# Table.Reachable -- the tables that definitions lead to

A table is reachable if it is the empty or the standard table, or if a definition
turned a reachable one into it.  A refused definition leads nowhere, and a text of
definitions leads to the table of the lines in front of the one it was refused for.
-/
import OperatorGrammar.Table.Source
import OperatorGrammar.Table.Standard

namespace OperatorGrammar.Table

set_option autoImplicit false

inductive Reachable : Table → Prop where
  | empty : Reachable .empty
  | standard : Reachable .standard
  | define {t u : Table} (op : Operator) (before : Reachable t) (defined : t.define op = .ok u) :
      Reachable u
  | defineAs {t u : Table} (name spec : String) (prec : Nat) (before : Reachable t)
      (defined : t.defineAs name spec prec = .ok u) : Reachable u
  | load {t : Table} (text : String) (before : Reachable t) : Reachable (t.load text).table

/-- What every reachable table keeps: names are not empty and occur once, an entry
has at least one operator and not both a prefix and a postfix one, and every
operator stands under its own name and fixity with a precedence in range. -/
structure WellFormed (t : Table) : Prop where
  distinct : (t.entries.map Entry.name).Nodup
  named : ∀ e ∈ t.entries, e.name ≠ ""
  inhabited : ∀ e ∈ t.entries, ∃ f, (e.form? f).isSome = true
  oneUnary : ∀ e ∈ t.entries, e.prefixForm = none ∨ e.postfixForm = none
  placed : ∀ e ∈ t.entries, ∀ f op, e.form? f = some op →
    op.name = e.name ∧ op.fixity = f ∧ op.prec ≤ maxPrec

end OperatorGrammar.Table
