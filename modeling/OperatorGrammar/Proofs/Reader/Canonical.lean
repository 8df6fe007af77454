/-
# Proofs.Reader.Canonical -- canonical texts read back

A term is textual if its text says all about it that a reader can find out: variables are
named like variables, strings are printable, compounds have arguments and no two-argument
one has the functor of list cells, and there are no reals and no list cells
(`Term.Textual`).

In a table whose operators neither rename nor embed, a call of any name is the compound of
that name (`callTerm_eq`), and the text of an atom tells it even if it names an operator
(`tells_atom`).  So the canonical text of a textual term is read as that term
(`read_canonical`), whatever names the table knows.
-/
import OperatorGrammar.Proofs.Layout.Rebuilding
import OperatorGrammar.Proofs.Reader.Writing

namespace OperatorGrammar

set_option autoImplicit false

/-- A term that its texts can be read back to. -/
inductive Term.Textual : Term → Prop
  | int (n : Int64) : Textual (.int n)
  | str {text : String} (printable : Text.Printable text) : Textual (.str text)
  | var {name : String} (capital : isVariableName name = true) (unbroken : Unbroken name) :
      Textual (.var name)
  | atom (name : String) : Textual (.atom name)
  | compound {functor : String} {args : List Term} (some_arg : args ≠ [])
      (noCell : args.length = 2 → functor ∉ Builder.cellFunctors)
      (textual : ∀ arg ∈ args, Textual arg) : Textual (.compound functor args)

namespace Reader

open Builder

variable {table : Table} {call : Bool} {name functor : String} {args : List Term} {t : Term}

/-! ## Words, numbers and strings -/

theorem writes_word (named : name ≠ "") (unbroken : Unbroken name) :
    Writes table call name [.ofWord table name] :=
  ⟨[.word name], (spellsName_word named unbroken).spells, presents_item rfl⟩

/-- A readable word is the operator of that name, or else the atom. -/
theorem writes_readable (named : name ≠ "") (readable : IsReadable name) :
    Writes table call name
      [if (table.find? name).isSome then .operator name else .operand (.atom name)] := by
  rw [← readable.ofWord table]
  exact writes_word named readable.unbroken

theorem writes_int (n : Int64) :
    Writes table call (Text.signedDecimal n.toInt) [.operand (.int n)] := by
  rw [← ofWord_int table n]
  exact writes_word (signedDecimal_ne_empty n.toInt) (unbroken_int n.toInt)

theorem writes_var (capital : isVariableName name = true) (unbroken : Unbroken name) :
    Writes table call name [.operand (.var name)] := by
  rw [← ofWord_var table capital]
  exact writes_word (ne_empty_of_isVariableName capital) unbroken

theorem writes_str {text : String} (legible : ∀ c ∈ text.toList, Text.isLegible c = true) :
    Writes table call (Text.quoted text) [.operand (.str text)] :=
  ⟨[.str text], spells_str legible, presents_item rfl⟩

theorem writes_quoted (name : String) :
    Writes table call (Atom.quoted name) [.operand (.atom name)] :=
  ⟨[.quoted name], (spellsName_quoted name).spells, presents_item rfl⟩

/-! ## Atoms -/

/-- An operator by itself is an atom. -/
theorem build_operator (wf : table.WellFormed) (known : (table.find? name).isSome = true) :
    Item.build table [.operator name] = .ok (.atom name) := by
  rcases build_of_tight wf (Layout.isParse_atom known) not_false with built | ⟨e, -, refused⟩
  · exact built
  · obtain ⟨before, first, second, after, -, -, -, -, -, -, -, items_eq, -⟩ := refused
    have length_eq := congrArg List.length items_eq
    simp at length_eq
    omega

/-- The text of an atom tells it, also if it is the word of an operator. -/
theorem tells_atom (wf : table.WellFormed) (name : String) :
    Tells table call (Atom.text name) (.atom name) := by
  unfold Atom.text
  split
  · rename_i plain
    refine ⟨_, writes_readable (ne_empty_of_isPlain plain) (isReadable_of_isPlain plain), ?_⟩
    split
    · rename_i known
      exact build_operator wf known
    · exact build_operand table _
  · exact (writes_quoted name).tells

/-! ## Compounds -/

theorem apply_of_form? {op : Operator} (wf : table.WellFormed) (plain : table.Plain)
    (form : Layout.form? table functor args = some op) :
    op.apply args = .compound functor args := by
  obtain ⟨rfl, unembedded, hasForm⟩ := Layout.hasForm_of_form? wf form
  cases hasForm with
  | prefixOp _ isDefined | postfixOp _ isDefined | infixOp _ isDefined =>
      have unchanged := (plain op (Table.mem_operators_of_isDefined isDefined)).1
      simp [Operator.apply, unembedded, unchanged, Term.application]

theorem application_of_ne_nil (some_arg : args ≠ []) :
    Term.application functor args = .compound functor args := by
  cases args with
  | nil => exact absurd rfl some_arg
  | cons arg args => rfl

/-- A call of any name is the compound of that name. -/
theorem callTerm_eq (wf : table.WellFormed) (plain : table.Plain) (some_arg : args ≠ [])
    (noCell : args.length = 2 → functor ∉ cellFunctors) :
    callTerm table functor args = .compound functor args := by
  have makes := callTerm_eq_iff.1 (Eq.refl (callTerm table functor args))
  generalize callTerm table functor args = t at makes ⊢
  cases makes with
  | operator known form =>
      refine apply_of_form? wf plain ?_
      rw [Layout.form?_of_plain plain, known]
      exact form
  | formless known form => exact application_of_ne_nil some_arg
  | cell unknown isCell => exact absurd isCell (noCell rfl)
  | functor unknown _ => exact application_of_ne_nil some_arg

theorem tells_text (wf : table.WellFormed) (plain : table.Plain) (textual : t.Textual) :
    ∀ call, Tells table call t.text t := by
  induction textual with
  | int n => exact fun _ => (writes_int n).tells
  | str printable =>
      have legible := fun c listed => Text.isLegible_of_isPrintable (printable c listed)
      exact fun _ => (writes_str legible).tells
  | var capital unbroken => exact fun _ => (writes_var capital unbroken).tells
  | atom name =>
      intro call
      rw [Term.text_atom]
      exact tells_atom wf name
  | @compound functor args some_arg noCell _ ih =>
      intro call
      have writes : Writes table call (Term.applicationText functor (args.map Term.text))
          [.operand (callTerm table functor args)] :=
        writes_application functor Term.text some_arg fun arg listed => ih arg listed true
      rw [callTerm_eq wf plain some_arg noCell] at writes
      rw [Term.text_compound]
      exact writes.tells

/-- The canonical text of a textual term is read as that term. -/
theorem read_canonical (reachable : table.Reachable) (plain : table.Plain) (textual : t.Textual) :
    Term.read table t.text = .ok t :=
  (tells_text reachable.wellFormed plain textual false).read

/-- A call of an operator, with names of operators and a quoted name among its arguments. -/
def minusCall : Term :=
  .compound "-" [.atom "dynamic", .int (-7), .compound "it's" [.str "a\n", .var "X"], .atom "is"]

theorem read_minusCall :
    Term.read .standard "'-'(dynamic, -7, 'it\\'s'(\"a\\n\", X), is)" = .ok minusCall := by
  have text_eq : minusCall.text = "'-'(dynamic, -7, 'it\\'s'(\"a\\n\", X), is)" := by
    decide +kernel
  have inner : Term.Textual (.compound "it's" [.str "a\n", .var "X"]) := by
    refine .compound (by simp) (by decide) ?_
    simp only [List.forall_mem_cons]
    exact ⟨.str (by decide), .var (by decide +kernel) (by decide), by simp⟩
  have textual : minusCall.Textual := by
    refine .compound (by simp) (by decide) ?_
    simp only [List.forall_mem_cons]
    exact ⟨.atom _, .int _, inner, .atom _, by simp⟩
  rw [← text_eq]
  exact read_canonical .standard Table.plain_standard textual

end Reader

end OperatorGrammar
