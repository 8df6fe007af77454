/-
# Proofs.Layout.Notation -- operator notation reads back

A table is legible if its operators neither rename nor embed anything, if no name is infix
and postfix at once, if a comma binds more loosely than an argument may, and if all other
names are read as names (`Table.Legible`).  The items of a term then build the term
(`build_items`).

Of the commas in an argument of a call none shows but the atom `,` itself
(`eq_comma_of_showsComma`): as an operator the comma stands in parentheses, with all that
binds as loosely.  So a textual term reads back (`readsBack`), and its text is read as the
term (`read_notation`), if no call has that atom as an argument (`NoLoneComma`).
-/
import OperatorGrammar.Proofs.Layout.Writing

namespace OperatorGrammar

set_option autoImplicit false

/-- Operator notation over the table can be read back. -/
structure Table.Legible (table : Table) : Prop where
  plain : table.Plain
  postfixApart : table.PostfixApart
  comma : ∀ op ∈ table.operators, op.name = "," → Layout.argumentPrec < op.prec
  readable : ∀ e ∈ table.entries, e.name ≠ "," → IsReadable e.name

theorem Table.legible_standard : Table.standard.Legible where
  plain := Table.plain_standard
  postfixApart := by decide
  comma := by decide
  readable := by
    have unbroken : ∀ e ∈ Table.standard.entries, e.name ≠ "," → Unbroken e.name := by
      decide +kernel
    have numberless : ∀ e ∈ Table.standard.entries, Term.number? e.name = none := by
      decide +kernel
    have starts : ∀ e ∈ Table.standard.entries, e.name.toList.head?.all isUncapital = true := by
      decide +kernel
    exact fun e listed apart =>
      ⟨unbroken e listed apart, numberless e listed, not_isVariableName (starts e listed)⟩

theorem Table.Legible.isReadable {table : Table} {name : String} (legible : table.Legible)
    (known : (table.find? name).isSome = true) (apart : name ≠ ",") : IsReadable name := by
  obtain ⟨e, found⟩ := Option.isSome_iff_exists.1 known
  obtain ⟨listed, rfl⟩ := Table.mem_of_find? found
  exact legible.readable e listed apart

namespace Layout

open Builder Reader

variable {table : Table} {t : Term}

/-- No compound without an operator form has the atom `,` among its arguments. -/
inductive NoLoneComma (table : Table) : Term → Prop
  | leaf {t : Term} (simple : ∀ functor args, t ≠ .compound functor args) : NoLoneComma table t
  | compound {functor : String} {args : List Term}
      (guarded : ¬ Names table functor args → .atom "," ∉ args)
      (inner : ∀ arg ∈ args, NoLoneComma table arg) : NoLoneComma table (.compound functor args)

/-! ## Items build their term -/

theorem build_items (wf : table.WellFormed) (legible : table.Legible) (t : Term) :
    Item.build table (items table t) = .ok t :=
  build_items_of_plain wf legible.plain t (not_refusesPair legible.postfixApart _)

/-! ## Commas of arguments -/

/-- No comma shows in an argument but the atom itself: as an operator it binds more loosely
than what stands without parentheses between the commas of a call. -/
theorem eq_comma_of_showsComma (wf : table.WellFormed) (legible : table.Legible)
    (shows : ShowsComma table t) : t = .atom "," := by
  obtain ⟨listed, tight⟩ := shows
  cases lone : isOperatorAtom table t with
  | true =>
      cases t with
      | atom name =>
          have known : (table.find? name).isSome = true := lone
          rw [items, if_pos known, List.mem_singleton] at listed
          cases listed
          rfl
      | _ => cases lone
  | false =>
      obtain ⟨T, layout⟩ := exists_isLayout wf t
      rw [items_eq_flatten lone, ← layout.items_eq, Tree.items, List.mem_map] at listed
      obtain ⟨p, member, item_eq⟩ := listed
      have laid := layout.isLaid p member
      cases p with
      | operand term => cases item_eq
      | atom name => exact laid.elim
      | operator f op =>
          obtain ⟨d, heads, le⟩ := Tree.exists_head_of_mem_parts layout.accepted member
          rw [layout.head_eq] at heads
          have narrow := tight d heads
          have wide := legible.comma op (Table.mem_operators_of_isDefined laid.1)
            (Item.operator.inj item_eq)
          omega

/-! ## Terms -/

theorem readsBack (wf : table.WellFormed) (legible : table.Legible) (textual : t.Textual)
    (guarded : NoLoneComma table t) : ReadsBack table t := by
  induction textual with
  | int n => exact ⟨build_items wf legible _, fun _ _ => writes_int n⟩
  | str printable =>
      have shown := fun c listed => Text.isLegible_of_isPrintable (printable c listed)
      exact ⟨build_items wf legible _, fun _ _ => writes_str shown⟩
  | var capital unbroken => exact ⟨build_items wf legible _, fun _ _ => writes_var capital unbroken⟩
  | atom name => exact ⟨build_items wf legible _, fun _ => writes_atom wf legible.isReadable⟩
  | @compound functor args some_arg noCell _ ih =>
      cases guarded with
      | leaf simple => exact absurd rfl (simple _ _)
      | compound noComma inner =>
          refine ⟨build_items wf legible _, fun _ => ?_⟩
          apply writes_compound wf legible.plain some_arg noCell
          · intro op form
            obtain ⟨e, found, -⟩ := form?_eq_some_iff.1 form
            rw [(hasForm_of_form? wf form).1]
            exact legible.isReadable (by rw [found]; rfl)
          · intro noForm arg listed shows
            have nameless : ¬ Names table functor args := by
              rw [← isSome_form?_iff_names legible.plain, noForm]
              simp
            rw [eq_comma_of_showsComma wf legible shows] at listed
            exact noComma nameless listed
          · exact fun arg listed => ih arg listed (inner arg listed)

/-- The text of a textual term in operator notation over a legible table is read as that term,
unless the atom `,` is an argument of a call in it.  The standard table is legible. -/
theorem read_notation :
    (∀ table : Table, table.Reachable → table.Legible → ∀ t : Term, t.Textual →
      NoLoneComma table t → Term.read table (text table t) = .ok t) ∧
    Table.standard.Reachable ∧ Table.standard.Legible := by
  refine ⟨fun table reachable legible t textual guarded => ?_, .standard, Table.legible_standard⟩
  exact (readsBack reachable.wellFormed legible textual guarded).read

/-- An operator above precedence 999 in a call, with the atom `,` as its argument. -/
def ruleCall : Term :=
  .compound "f" [.compound ":-" [.var "X", .atom ","], .compound "-" [.int 1]]

theorem read_ruleCall : Term.read .standard "f((X :- (,)), - 1)" = .ok ruleCall := by
  have text_eq : text .standard ruleCall = "f((X :- (,)), - 1)" := by decide +kernel
  have textual : ruleCall.Textual := by
    refine .compound (by simp) (by decide) ?_
    simp only [List.forall_mem_cons]
    refine ⟨.compound (by simp) (by decide) ?_, .compound (by simp) (by decide) ?_, by simp⟩
    · simp only [List.forall_mem_cons]
      exact ⟨.var (by decide +kernel) (by decide), .atom ",", by simp⟩
    · simpa using .int 1
  have guarded : NoLoneComma .standard ruleCall := by
    refine .compound (by simp) ?_
    simp only [List.forall_mem_cons]
    refine ⟨.compound (fun nameless => ?_) ?_, .compound (by simp) ?_, by simp⟩
    · refine absurd ?_ nameless
      rw [← isSome_form?_iff_names Table.plain_standard]
      decide
    · simp only [List.forall_mem_cons]
      exact ⟨.leaf (by simp), .leaf (by simp), by simp⟩
    · simpa using .leaf (by simp)
  rw [← text_eq]
  exact read_notation.1 .standard .standard Table.legible_standard ruleCall textual guarded

end Layout

end OperatorGrammar
