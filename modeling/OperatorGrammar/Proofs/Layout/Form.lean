/-
# Proofs.Layout.Form -- the operator that a compound is laid out with

In a well-formed table a form of a compound comes from the entry of its functor and has
as many arguments as the compound (`HasForm`, `hasForm_of_form?`).  So the items of a
compound are known for each fixity (`flatten_prefixOp`, `flatten_postfixOp`,
`flatten_infixOp`); a term without a form is a single operand (`flatten_of_head?`).

In a table whose operators neither rename nor embed (`Table.Plain`), a compound has a form
exactly if its functor names an operator of as many arguments (`Names`,
`isSome_form?_iff_names`).
-/
import OperatorGrammar.Layout.Items
import OperatorGrammar.Proofs.Table.Invariant
import OperatorGrammar.Tree.Basic

namespace OperatorGrammar

set_option autoImplicit false

/-- An induction over terms that goes through the arguments of compounds. -/
@[elab_as_elim]
theorem Term.induct {motive : Term → Prop}
    (leaf : ∀ t : Term, (∀ functor args, t ≠ .compound functor args) → motive t)
    (compound : ∀ functor args, (∀ arg ∈ args, motive arg) → motive (.compound functor args)) :
    ∀ t, motive t
  | .compound functor args => compound functor args fun arg _ => Term.induct leaf compound arg
  | .int _ | .real _ | .str _ | .var _ | .atom _ | .cons _ _ => leaf _ (by simp)

namespace Table

/-- No operator of the table renames or embeds anything. -/
def Plain (table : Table) : Prop := ∀ op ∈ table.operators, op.rename = none ∧ op.embed = false

instance (table : Table) : Decidable table.Plain :=
  inferInstanceAs (Decidable (∀ op ∈ table.operators, op.rename = none ∧ op.embed = false))

theorem plain_standard : standard.Plain := by decide

variable {table : Table} {name : String} {e : Entry} {f : Fixity} {op : Operator}

theorem mem_operators (found : table.find? name = some e) (form : e.form? f = some op) :
    op ∈ table.operators := by
  have listed : op ∈ e.forms := by
    refine List.mem_filterMap.2 ⟨f, ?_, form⟩
    cases f <;> simp [Fixity.all]
  exact List.mem_flatMap.2 ⟨e, (mem_of_find? found).1, listed⟩

theorem mem_operators_of_isDefined (isDefined : (Part.operator f op).IsDefined table) :
    op ∈ table.operators := by
  obtain ⟨e, found, form⟩ := isDefined
  exact mem_operators found form

end Table

namespace Layout

variable {table : Table} {functor : String} {args : List Term} {op : Operator}

theorem form?_eq_some_iff :
    form? table functor args = some op ↔
      ∃ e, table.find? functor = some e ∧ startsEmbedded e args = false ∧
        e.formOfArity? args.length = some op ∧ op.embed = false := by
  simp only [form?, Option.bind_eq_bind, Option.bind_eq_some_iff]
  refine exists_congr fun e => and_congr_right fun _ => ?_
  cases startsEmbedded e args with
  | true => simp
  | false =>
      simp only [Bool.false_eq_true, if_false, Option.bind_eq_some_iff, true_and]
      constructor
      · rintro ⟨other, form, kept⟩
        cases embed : other.embed with
        | true => simp [embed] at kept
        | false =>
            obtain rfl : other = op := by simpa [embed] using kept
            exact ⟨form, embed⟩
      · rintro ⟨form, embed⟩
        exact ⟨op, form, by simp [embed]⟩

/-! ## Forms of a well-formed table -/

/-- A compound and the operator of its functor that it is laid out with. -/
inductive HasForm (table : Table) (functor : String) (op : Operator) : List Term → Prop
  | prefixOp {arg : Term} (fixity : op.fixity = .prefixOp)
      (isDefined : (Part.operator .prefixOp op).IsDefined table) : HasForm table functor op [arg]
  | postfixOp {arg : Term} (fixity : op.fixity = .postfixOp)
      (isDefined : (Part.operator .postfixOp op).IsDefined table) : HasForm table functor op [arg]
  | infixOp {left right : Term} (fixity : op.fixity = .infixOp)
      (isDefined : (Part.operator .infixOp op).IsDefined table) :
      HasForm table functor op [left, right]

/-- An entry's operator of a number of arguments takes that number by its fixity. -/
theorem form?_of_formOfArity? {e : Entry} {count : Nat} (form : e.formOfArity? count = some op) :
    (count = 1 ∧ (e.form? .prefixOp = some op ∨ e.form? .postfixOp = some op)) ∨
      count = 2 ∧ e.form? .infixOp = some op := by
  unfold Entry.formOfArity? at form
  split at form
  · refine Or.inl ⟨rfl, ?_⟩
    unfold Entry.unaryForm? at form
    rcases Option.or_eq_some_iff.1 form with first | ⟨-, second⟩
    · exact Or.inl first
    · exact Or.inr second
  · exact Or.inr ⟨rfl, form⟩
  · cases form

theorem hasForm_of_form? (wf : table.WellFormed) (form : form? table functor args = some op) :
    op.name = functor ∧ op.embed = false ∧ HasForm table functor op args := by
  obtain ⟨e, found, -, form, plain⟩ := form?_eq_some_iff.1 form
  have placed : ∀ {f}, e.form? f = some op →
      op.name = functor ∧ op.fixity = f ∧ (Part.operator f op).IsDefined table := by
    intro f form
    obtain ⟨name, fixity⟩ := Table.form_placed wf found form
    exact ⟨name, fixity, e, by rw [name]; exact found, form⟩
  match args, form?_of_formOfArity? form with
  | [arg], Or.inl ⟨_, Or.inl form⟩ =>
      obtain ⟨name, fixity, isDefined⟩ := placed form
      exact ⟨name, plain, .prefixOp fixity isDefined⟩
  | [arg], Or.inl ⟨_, Or.inr form⟩ =>
      obtain ⟨name, fixity, isDefined⟩ := placed form
      exact ⟨name, plain, .postfixOp fixity isDefined⟩
  | [left, right], Or.inr ⟨_, form⟩ =>
      obtain ⟨name, fixity, isDefined⟩ := placed form
      exact ⟨name, plain, .infixOp fixity isDefined⟩

/-! ## Items, one fixity at a time -/

section Items

variable {arg left right : Term}

/-- A term without a form is a single operand. -/
theorem flatten_of_head? {t : Term} (noForm : head? table t = none) :
    flatten table t = [.operand t] := by
  cases t with
  | compound functor args =>
      have noForm : form? table functor args = none := noForm
      simp [flatten, compoundItems, noForm]
  | _ => rfl

theorem flatten_prefixOp (form : form? table functor [arg] = some op)
    (fixity : op.fixity = .prefixOp) :
    flatten table (.compound functor [arg]) =
      .operator op.name :: argumentItems table op .right arg (flatten table arg) := by
  simp [flatten, flattenAll, compoundItems, form, fixity]

theorem flatten_postfixOp (form : form? table functor [arg] = some op)
    (fixity : op.fixity = .postfixOp) :
    flatten table (.compound functor [arg]) =
      argumentItems table op .left arg (flatten table arg) ++ [.operator op.name] := by
  simp [flatten, flattenAll, compoundItems, form, fixity]

theorem flatten_infixOp (form : form? table functor [left, right] = some op) :
    flatten table (.compound functor [left, right]) =
      argumentItems table op .left left (flatten table left) ++
        .operator op.name :: argumentItems table op .right right (flatten table right) := by
  simp [flatten, flattenAll, compoundItems, form]

/-- The operator of a compound is one of its items. -/
theorem operator_mem_flatten (wf : table.WellFormed) (form : form? table functor args = some op) :
    .operator op.name ∈ flatten table (.compound functor args) := by
  obtain ⟨-, -, hasForm⟩ := hasForm_of_form? wf form
  cases hasForm with
  | prefixOp fixity _ => rw [flatten_prefixOp form fixity]; exact List.mem_cons_self
  | postfixOp fixity _ =>
      rw [flatten_postfixOp form fixity]
      exact List.mem_append_right _ List.mem_cons_self
  | infixOp _ _ =>
      rw [flatten_infixOp form]
      exact List.mem_append_right _ List.mem_cons_self

theorem items_compound (table : Table) (functor : String) (args : List Term) :
    items table (.compound functor args) = flatten table (.compound functor args) := rfl

end Items

/-! ## Tables without renaming and embedding -/

/-- The number of arguments of an operator. -/
def arity : Fixity → Nat
  | .infixOp => 2
  | .prefixOp | .postfixOp => 1

/-- A well-formed entry has one operator at most for each number of arguments. -/
theorem formOfArity?_of_form? {e : Entry} {f : Fixity} (sound : e.Sound)
    (form : e.form? f = some op) : e.formOfArity? (arity f) = some op := by
  cases f with
  | prefixOp =>
      have first : e.prefixForm = some op := form
      simp [arity, Entry.formOfArity?, Entry.unaryForm?, first]
  | infixOp => exact form
  | postfixOp =>
      have second : e.postfixForm = some op := form
      have alone : e.prefixForm = none := by simpa [second] using sound.oneUnary
      simp [arity, Entry.formOfArity?, Entry.unaryForm?, alone, second]

/-- The functor names an operator of as many arguments. -/
def Names (table : Table) (functor : String) (args : List Term) : Prop :=
  ∃ e, table.find? functor = some e ∧
    (args.length = 1 ∧ (e.prefixForm.isSome = true ∨ e.postfixForm.isSome = true) ∨
      args.length = 2 ∧ e.infixForm.isSome = true)

theorem names_of_form? (form : form? table functor args = some op) :
    Names table functor args := by
  obtain ⟨e, found, -, form, -⟩ := form?_eq_some_iff.1 form
  refine ⟨e, found, ?_⟩
  rcases form?_of_formOfArity? form with ⟨count, form | form⟩ | ⟨count, form⟩
  · exact Or.inl ⟨count, Or.inl (Option.isSome_iff_exists.2 ⟨op, form⟩)⟩
  · exact Or.inl ⟨count, Or.inr (Option.isSome_iff_exists.2 ⟨op, form⟩)⟩
  · exact Or.inr ⟨count, Option.isSome_iff_exists.2 ⟨op, form⟩⟩

/-- An operator that does not embed its fixity lays out all its applications. -/
theorem form?_of_plain (plain : table.Plain) (functor : String) (args : List Term) :
    form? table functor args = (table.find? functor).bind (·.formOfArity? args.length) := by
  cases found : table.find? functor with
  | none => simp [form?, found]
  | some e =>
      have free : ∀ op ∈ e.forms, op.embed = false := fun op listed =>
        (plain op (List.mem_flatMap.2 ⟨e, (Table.mem_of_find? found).1, listed⟩)).2
      have apart : startsEmbedded e args = false := by
        unfold startsEmbedded
        split
        · simp only [List.any_eq_false]
          intro op listed
          simp [free op listed]
        · rfl
      cases form : e.formOfArity? args.length with
      | none => simp [form?, found, apart, form]
      | some op =>
          obtain ⟨f, listed⟩ : ∃ f, e.form? f = some op := by
            rcases form?_of_formOfArity? form with ⟨-, form | form⟩ | ⟨-, form⟩ <;>
              exact ⟨_, form⟩
          rw [Option.bind_some, form]
          exact form?_eq_some_iff.2
            ⟨e, found, apart, form, (plain op (Table.mem_operators found listed)).2⟩

theorem isSome_form?_iff_names (plain : table.Plain) :
    (form? table functor args).isSome = true ↔ Names table functor args := by
  constructor
  · intro laid
    obtain ⟨op, form⟩ := Option.isSome_iff_exists.1 laid
    exact names_of_form? form
  · rintro ⟨e, found, ⟨count, unary⟩ | ⟨count, infixed⟩⟩
    · rw [form?_of_plain plain, found, Option.bind_some, count]
      simpa [Entry.formOfArity?, Entry.unaryForm?] using unary
    · rw [form?_of_plain plain, found, Option.bind_some, count]
      exact infixed

/-- So every application of a decided operator is laid out with it. -/
theorem form?_of_isDefined {f : Fixity} (wf : table.WellFormed) (plain : table.Plain)
    (isDefined : (Part.operator f op).IsDefined table) (count : args.length = arity f) :
    form? table op.name args = some op := by
  obtain ⟨e, found, form⟩ := isDefined
  have sound := Table.sound_of_mem wf (Table.mem_of_find? found).1
  rw [form?_of_plain plain, found, Option.bind_some, count, formOfArity?_of_form? sound form]

end Layout

end OperatorGrammar
