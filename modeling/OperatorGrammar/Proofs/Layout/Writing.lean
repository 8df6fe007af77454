/-
# Proofs.Layout.Writing -- operator notation is read as the items of the layout

A term reads back if its items build it and its text is read as its items (`ReadsBack`).
Inside a call this holds only as long as no comma is one of the items, for there a comma
separates arguments.  An argument of a call shows a comma (`ShowsComma`) if one of its items
is a comma and it is not put in parentheses.

A compound reads back if its arguments do, if its operator can be read as a name, and if, in
a call, none of its arguments shows a comma (`writes_compound`).
-/
import OperatorGrammar.Proofs.Reader.Canonical
import OperatorGrammar.Layout.Text

namespace OperatorGrammar.Layout

set_option autoImplicit false

open Builder Reader

variable {table : Table} {call : Bool} {name functor : String} {args : List Term}
  {t arg left right : Term} {op : Operator}

/-! ## Texts, one fixity at a time -/

theorem text_of_form? (noForm : form? table functor args = none) :
    text table (.compound functor args) =
      Term.applicationText functor
        (args.map fun arg => argumentText table arg (text table arg)) := by
  rw [text, written]
  simp only [compoundText, noForm, texts_eq_map, List.zipWith_map_right, List.zipWith_self]

theorem text_prefixOp (form : form? table functor [arg] = some op)
    (fixity : op.fixity = .prefixOp) :
    text table (.compound functor [arg]) =
      op.name ++ " " ++ operandText table op .right arg (text table arg) := by
  simp [text, written, texts, compoundText, form, fixity]

theorem text_postfixOp (form : form? table functor [arg] = some op)
    (fixity : op.fixity = .postfixOp) :
    text table (.compound functor [arg]) =
      operandText table op .left arg (text table arg) ++ " " ++ op.name := by
  simp [text, written, texts, compoundText, form, fixity]

theorem text_infixOp (form : form? table functor [left, right] = some op) :
    text table (.compound functor [left, right]) =
      operandText table op .left left (text table left) ++ " " ++ op.name ++ " " ++
        operandText table op .right right (text table right) := by
  simp [text, written, texts, compoundText, form]

theorem text_atom (table : Table) (name : String) :
    text table (.atom name) = atomText table name := by
  rw [text, written]
  split <;> rfl

/-! ## Terms that read back -/

/-- Inside a call, no item is a comma. -/
def Unseparated (call : Bool) (items : List Item) : Prop := call = true → .operator "," ∉ items

/-- The items of the term build it, and its text is read as its items. -/
structure ReadsBack (table : Table) (t : Term) : Prop where
  builds : Item.build table (items table t) = .ok t
  writes : ∀ call, Unseparated call (items table t) →
    Writes table call (text table t) (items table t)

/-- As an argument of a call, the term has a comma among its items and no parentheses. -/
def ShowsComma (table : Table) (t : Term) : Prop :=
  .operator "," ∈ items table t ∧ ∀ op ∈ head? table t, op.prec ≤ argumentPrec

theorem ReadsBack.tells (reads : ReadsBack table t) (inside : Unseparated call (items table t)) :
    Tells table call (text table t) t :=
  ⟨_, reads.writes call inside, reads.builds⟩

theorem ReadsBack.parenthesized (reads : ReadsBack table t) :
    Writes table call (parenthesized (text table t)) [.operand t] := by
  have alone : Tells table false (text table t) t := reads.tells (by simp [Unseparated])
  exact alone.parenthesized

theorem ReadsBack.read (reads : ReadsBack table t) : Term.read table (text table t) = .ok t := by
  have alone : Tells table false (text table t) t := reads.tells (by simp [Unseparated])
  exact alone.read

theorem isOperatorAtom_of_head? (headed : head? table t = some op) :
    isOperatorAtom table t = false := by
  cases t with
  | compound functor args => rfl
  | _ => cases headed

/-- Beside an operator stands an argument with its own items, or one operand. -/
theorem writes_operand (reads : ReadsBack table arg) (parent : Operator) (side : Side)
    (inside : Unseparated call (argumentItems table parent side arg (flatten table arg))) :
    Writes table call (operandText table parent side arg (text table arg))
      (argumentItems table parent side arg (flatten table arg)) := by
  cases headed : head? table arg with
  | some child =>
      have noAtom := isOperatorAtom_of_head? headed
      cases fitting : fits parent side child with
      | true =>
          simp only [operandText, argumentItems, headed, fitting, if_true,
            ← items_eq_flatten noAtom] at inside ⊢
          exact reads.writes call inside
      | false =>
          simpa only [operandText, argumentItems, headed, fitting, Bool.false_eq_true, if_false]
            using reads.parenthesized
  | none =>
      cases lone : isOperatorAtom table arg with
      | true =>
          simpa only [operandText, argumentItems, headed, lone, if_true]
            using reads.parenthesized
      | false =>
          have items_eq : items table arg = [.operand arg] := by
            rw [items_eq_flatten lone, flatten_of_head? headed]
          simp only [operandText, argumentItems, headed, lone, Bool.false_eq_true, if_false,
            ← items_eq] at inside ⊢
          exact reads.writes call inside

/-- Between the commas of a call stands the text of an argument, in parentheses if an
operator above precedence 999 heads it. -/
theorem tells_argument (reads : ReadsBack table arg) (hidden : ¬ ShowsComma table arg) :
    Tells table true (argumentText table arg (text table arg)) arg := by
  cases headed : head? table arg with
  | some op =>
      by_cases loose : argumentPrec < op.prec
      · simpa only [argumentText, headed, if_pos loose] using reads.parenthesized.tells
      · have inside : Unseparated true (items table arg) := by
          intro _ listed
          apply hidden
          refine ⟨listed, ?_⟩
          rw [headed]
          rintro op ⟨⟩
          exact Nat.not_lt.1 loose
        simpa only [argumentText, headed, if_neg loose] using reads.tells inside
  | none =>
      have inside : Unseparated true (items table arg) := by
        intro _ listed
        apply hidden
        exact ⟨listed, by simp [headed]⟩
      simpa only [argumentText, headed] using reads.tells inside

/-! ## Names, atoms and compounds -/

theorem writes_name (wf : table.WellFormed) (known : (table.find? name).isSome = true)
    (readable : name ≠ "," → IsReadable name) (inside : call = true → name ≠ ",") :
    Writes table call name [.operator name] := by
  by_cases comma : name = ","
  · have outside : call = false := by
      simpa using fun called => inside called comma
    rw [comma, outside]
    exact ⟨[.comma], spells_comma, presents_comma⟩
  · obtain ⟨e, found⟩ := Option.isSome_iff_exists.1 known
    obtain ⟨listed, rfl⟩ := Table.mem_of_find? found
    have writes : Writes table call e.name
        [if (table.find? e.name).isSome then .operator e.name else .operand (.atom e.name)] :=
      writes_readable (wf.named e listed) (readable comma)
    rwa [if_pos known] at writes

theorem writes_atom (wf : table.WellFormed)
    (readable : (table.find? name).isSome = true → name ≠ "," → IsReadable name)
    (inside : Unseparated call (items table (.atom name))) :
    Writes table call (text table (.atom name)) (items table (.atom name)) := by
  rw [text_atom, items, atomText]
  split
  · rename_i known
    refine writes_name wf known (readable known) ?_
    rintro called rfl
    apply inside called
    rw [items, if_pos known]
    exact List.mem_singleton_self _
  · rename_i unknown
    rw [Atom.text]
    split
    · rename_i plain
      have writes : Writes table call name
          [if (table.find? name).isSome then .operator name else .operand (.atom name)] :=
        writes_readable (ne_empty_of_isPlain plain) (isReadable_of_isPlain plain)
      rwa [if_neg unknown] at writes
    · exact writes_quoted name

section Compound

variable (wf : table.WellFormed)
include wf

/-- A compound with an operator has the name of the operator beside its arguments. -/
theorem writes_form (form : form? table functor args = some op)
    (readable : op.name ≠ "," → IsReadable op.name) (inner : ∀ arg ∈ args, ReadsBack table arg)
    (inside : Unseparated call (items table (.compound functor args))) :
    Writes table call (text table (.compound functor args))
      (items table (.compound functor args)) := by
  obtain ⟨rfl, -, hasForm⟩ := hasForm_of_form? wf form
  have named : ∀ {f : Fixity}, (Part.operator f op).IsDefined table →
      (call = true → op.name ≠ ",") → Writes table call op.name [.operator op.name] := by
    rintro f ⟨e, found, -⟩ apart
    exact writes_name wf (by rw [found]; rfl) readable apart
  rw [items_compound] at inside ⊢
  cases hasForm with
  | @prefixOp arg fixity isDefined =>
      rw [flatten_prefixOp form fixity] at inside ⊢
      have operand := writes_operand (inner arg (by simp)) op .right fun called listed =>
        inside called (List.mem_cons_of_mem _ listed)
      rw [text_prefixOp form fixity]
      refine (named isDefined fun called comma => inside called ?_).beside operand
      rw [comma]
      exact List.mem_cons_self
  | @postfixOp arg fixity isDefined =>
      rw [flatten_postfixOp form fixity] at inside ⊢
      have operand := writes_operand (inner arg (by simp)) op .left fun called listed =>
        inside called (List.mem_append_left _ listed)
      rw [text_postfixOp form fixity]
      refine operand.beside (named isDefined fun called comma => inside called ?_)
      rw [comma]
      exact List.mem_append_right _ List.mem_cons_self
  | @infixOp left right fixity isDefined =>
      rw [flatten_infixOp form] at inside ⊢
      have before := writes_operand (inner left (by simp)) op .left fun called listed =>
        inside called (List.mem_append_left _ listed)
      have behind := writes_operand (inner right (by simp)) op .right fun called listed =>
        inside called (List.mem_append_right _ (List.mem_cons_of_mem _ listed))
      have middle := named isDefined fun called comma => inside called (by
        rw [comma]
        exact List.mem_append_right _ List.mem_cons_self)
      have whole := (before.beside middle).beside behind
      rw [text_infixOp form]
      simpa using whole

/-- The text of a compound is read as its items if those of its arguments are, and if a call
shows no comma between its own. -/
theorem writes_compound (plain : table.Plain) (some_arg : args ≠ [])
    (noCell : args.length = 2 → functor ∉ cellFunctors)
    (readable : ∀ op ∈ form? table functor args, op.name ≠ "," → IsReadable op.name)
    (hidden : form? table functor args = none → ∀ arg ∈ args, ¬ ShowsComma table arg)
    (inner : ∀ arg ∈ args, ReadsBack table arg)
    (inside : Unseparated call (items table (.compound functor args))) :
    Writes table call (text table (.compound functor args))
      (items table (.compound functor args)) := by
  cases form : form? table functor args with
  | some op => exact writes_form wf form (readable op form) inner inside
  | none =>
      rw [text_of_form? form, items_compound, flatten_of_head? (t := .compound functor args) form,
        ← callTerm_eq wf plain some_arg noCell]
      apply writes_application functor _ some_arg
      intro arg listed
      exact tells_argument (inner arg listed) (hidden form arg listed)

end Compound

end OperatorGrammar.Layout
