/-
# Proofs.Layout.Commas -- commas inside arguments

A comma term is made of plain names that are no operators and of the name `,`, as atoms and as
functors (`CommaTerm`).  Its items hold no operator but the comma (`CommaTerm.eq_comma`), and
no name is prefix and postfix at once, so the items build the term in any table without
renaming and embedding (`CommaTerm.builds`).

Its text is read as the term exactly if no call shows a comma in an argument (`KeepsCommas`,
`read_commas_iff`).  What shows one is the atom `,` as an operator and a term headed by the
operator `,` at precedence 999 or below (`showsComma_iff`): neither is put in parentheses, and
the reader takes the comma for a separator (`read_loneComma`, `read_tightComma`).  The term
that it then reads, if any, is smaller by that comma (`CommaTerm.fallsShort`).
-/
import OperatorGrammar.Proofs.Layout.Writing
import OperatorGrammar.Proofs.Reader.Size

namespace OperatorGrammar.Layout

set_option autoImplicit false

open Builder Reader

variable {table : Table} {call : Bool} {name functor : String} {args : List Term}
  {t arg left right : Term} {op : Operator}

/-- The comma, or a plain name that is no operator. -/
def CommaName (table : Table) (name : String) : Prop :=
  name = "," ∨ Atom.isPlain name = true ∧ table.find? name = none

/-- A term in which all names are commas or plain names that are no operators. -/
inductive CommaTerm (table : Table) : Term → Prop
  | atom {name : String} (named : CommaName table name) : CommaTerm table (.atom name)
  | compound {functor : String} {args : List Term} (some_arg : args ≠ [])
      (named : CommaName table functor) (inner : ∀ arg ∈ args, CommaTerm table arg) :
      CommaTerm table (.compound functor args)

/-- No compound without an operator form shows a comma in an argument. -/
inductive KeepsCommas (table : Table) : Term → Prop
  | leaf {t : Term} (simple : ∀ functor args, t ≠ .compound functor args) : KeepsCommas table t
  | compound {functor : String} {args : List Term}
      (hidden : form? table functor args = none → ∀ arg ∈ args, ¬ ShowsComma table arg)
      (inner : ∀ arg ∈ args, KeepsCommas table arg) : KeepsCommas table (.compound functor args)

/-! ## Operators of comma terms -/

theorem CommaName.eq_comma (named : CommaName table name)
    (known : (table.find? name).isSome = true) : name = "," := by
  rcases named with comma | ⟨-, unknown⟩
  · exact comma
  · rw [unknown] at known
    cases known

theorem CommaName.name_eq (wf : table.WellFormed) (named : CommaName table functor)
    (form : form? table functor args = some op) : op.name = "," := by
  obtain ⟨e, found, -⟩ := form?_eq_some_iff.1 form
  rw [(hasForm_of_form? wf form).1]
  exact named.eq_comma (by rw [found]; rfl)

theorem mem_of_mem_argumentItems {parent : Operator} {side : Side} {items : List Item}
    (listed : .operator name ∈ argumentItems table parent side arg items) :
    .operator name ∈ items := by
  unfold argumentItems at listed
  split at listed
  · split at listed
    · exact listed
    · simp at listed
  · simp at listed

/-- No item of a comma term is an operator but the comma. -/
theorem CommaTerm.eq_comma_of_flatten (wf : table.WellFormed) (commas : CommaTerm table t)
    (listed : .operator name ∈ flatten table t) : name = "," := by
  induction commas with
  | atom named => simp [flatten] at listed
  | @compound functor args some_arg named inner ih =>
      cases form : form? table functor args with
      | none => simp [flatten_of_head? (t := .compound functor args) form] at listed
      | some op =>
          have comma := named.name_eq wf form
          obtain ⟨-, -, hasForm⟩ := hasForm_of_form? wf form
          cases hasForm with
          | @prefixOp arg fixity isDefined =>
              rw [flatten_prefixOp form fixity] at listed
              rcases List.mem_cons.1 listed with same | listed
              · exact (Item.operator.inj same).trans comma
              · exact ih arg (by simp) (mem_of_mem_argumentItems listed)
          | @postfixOp arg fixity isDefined =>
              rw [flatten_postfixOp form fixity] at listed
              rcases List.mem_append.1 listed with listed | listed
              · exact ih arg (by simp) (mem_of_mem_argumentItems listed)
              · exact (Item.operator.inj (List.mem_singleton.1 listed)).trans comma
          | @infixOp left right fixity isDefined =>
              rw [flatten_infixOp form] at listed
              rcases List.mem_append.1 listed with listed | listed
              · exact ih left (by simp) (mem_of_mem_argumentItems listed)
              · rcases List.mem_cons.1 listed with same | listed
                · exact (Item.operator.inj same).trans comma
                · exact ih right (by simp) (mem_of_mem_argumentItems listed)

theorem CommaTerm.eq_comma (wf : table.WellFormed) (commas : CommaTerm table t)
    (listed : .operator name ∈ items table t) : name = "," := by
  cases commas with
  | @atom other named =>
      by_cases known : (table.find? other).isSome = true
      · rw [items, if_pos known, List.mem_singleton] at listed
        cases listed
        exact named.eq_comma known
      · simp [items, if_neg known] at listed
  | compound some_arg named inner =>
      exact (CommaTerm.compound some_arg named inner).eq_comma_of_flatten wf listed

/-- A refused pair has a postfix name and a prefix name in it, and the comma is not both. -/
theorem CommaTerm.not_refusesPair (wf : table.WellFormed) (commas : CommaTerm table t)
    (e : Failure) : ¬ RefusesPair table (items table t) e := by
  rintro ⟨before, first, second, after, _, _, _, i, x, p, y, items_eq, -, -, -, ways⟩
  have firstComma : first = "," := commas.eq_comma wf (by rw [items_eq]; simp)
  have secondComma : second = "," := commas.eq_comma wf (by rw [items_eq]; simp)
  obtain ⟨⟨e, found, postfixed⟩, postfixName⟩ := ways.asPostfix
  obtain ⟨⟨e', found', prefixed⟩, prefixName⟩ := ways.thenPrefix
  rw [postfixName, firstComma] at found
  rw [prefixName, secondComma, found] at found'
  cases found'
  rcases wf.oneUnary e (Table.mem_of_find? found).1 with none | none
  · exact absurd (prefixed.symm.trans none) (by simp)
  · exact absurd (postfixed.symm.trans none) (by simp)

theorem CommaTerm.builds (wf : table.WellFormed) (plain : table.Plain)
    (commas : CommaTerm table t) : Item.build table (items table t) = .ok t :=
  build_items_of_plain wf plain t (commas.not_refusesPair wf)

/-! ## Reading -/

theorem CommaName.not_mem_cellFunctors (named : CommaName table name) :
    name ∉ cellFunctors := by
  intro cell
  rcases named with rfl | ⟨plain, -⟩
  · exact absurd cell (by decide)
  · rcases List.mem_cons.1 cell with rfl | cell
    · exact absurd plain (by decide)
    · cases List.mem_singleton.1 cell
      exact absurd plain (by decide)

theorem CommaTerm.readsBack (wf : table.WellFormed) (plain : table.Plain)
    (commas : CommaTerm table t) (kept : KeepsCommas table t) : ReadsBack table t := by
  induction commas with
  | atom named =>
      refine ⟨(CommaTerm.atom named).builds wf plain, fun _ => writes_atom wf ?_⟩
      exact fun known apart => absurd (named.eq_comma known) apart
  | compound some_arg named inner ih =>
      cases kept with
      | leaf simple => exact absurd rfl (simple _ _)
      | compound hidden keptInner =>
          refine ⟨(CommaTerm.compound some_arg named inner).builds wf plain, fun _ => ?_⟩
          apply writes_compound wf plain some_arg fun _ => named.not_mem_cellFunctors
          · intro op form apart
            exact absurd (named.name_eq wf form) apart
          · exact hidden
          · exact fun arg listed => ih arg listed (keptInner arg listed)

/-! ## Commas that show -/

/-- What shows a comma is the atom, or what an operator comma heads that binds tightly. -/
theorem CommaTerm.showsComma_iff (wf : table.WellFormed) (commas : CommaTerm table t) :
    ShowsComma table t ↔
      t = .atom "," ∧ (table.find? ",").isSome = true ∨
        ∃ op ∈ head? table t, op.prec ≤ argumentPrec := by
  cases commas with
  | @atom name named =>
      by_cases known : (table.find? name).isSome = true
      · obtain rfl := named.eq_comma known
        simp [ShowsComma, items, known, head?]
      · have apart : ¬ ((Term.atom name) = .atom "," ∧ (table.find? ",").isSome = true) := by
          rintro ⟨same, comma⟩
          cases same
          exact known comma
        simpa [ShowsComma, items, if_neg known, head?] using apart
  | @compound functor args some_arg named inner =>
      rw [ShowsComma, items_compound]
      cases form : form? table functor args with
      | none =>
          have headless : head? table (.compound functor args) = none := form
          simp [flatten_of_head? headless, headless]
      | some op =>
          have headed : head? table (.compound functor args) = some op := form
          have listed : .operator op.name ∈ flatten table (.compound functor args) :=
            operator_mem_flatten wf form
          rw [named.name_eq wf form] at listed
          simp [listed, headed]

/-! ## Commas that are lost -/

/-- The text falls short of the size of the term if a call in it shows a comma, and inside a
call also if one of its own items is a comma. -/
def FallsShort (table : Table) (t : Term) : Prop :=
  ∀ call, Accounts call (text table t) t.size
    (KeepsCommas table t ∧ Unseparated call (items table t))

theorem FallsShort.operand (short : FallsShort table arg) (call : Bool) (parent : Operator)
    (side : Side) :
    Accounts call (operandText table parent side arg (text table arg)) arg.size
      (KeepsCommas table arg) := by
  have bare : Accounts call (text table arg) arg.size (KeepsCommas table arg) :=
    (short call).imp And.left
  have inside : Accounts call (parenthesized (text table arg)) arg.size (KeepsCommas table arg) :=
    ((short false).imp And.left).parenthesized
  unfold operandText
  split
  · split
    · exact bare
    · exact inside
  · split
    · exact inside
    · exact bare

theorem FallsShort.argument (short : FallsShort table arg) :
    Accounts true (argumentText table arg (text table arg)) arg.size
      (¬ ShowsComma table arg ∧ KeepsCommas table arg) := by
  have bare : Accounts true (text table arg) arg.size
      (¬ ShowsComma table arg ∧ KeepsCommas table arg) :=
    (short true).imp fun both => ⟨fun shown => both.2 rfl shown.1, both.1⟩
  unfold argumentText
  split
  · rename_i op headed
    split
    · rename_i loose
      refine ((short false).imp fun both => ⟨fun shown => ?_, both.1⟩).parenthesized
      exact absurd (shown.2 op headed) (Nat.not_le.2 loose)
    · exact bare
  · exact bare

/-- The text of an operator comma and its arguments. -/
theorem accounts_form (wf : table.WellFormed) (form : form? table functor args = some op)
    (comma : op.name = ",") (inner : ∀ arg ∈ args, FallsShort table arg) :
    Accounts call (text table (.compound functor args)) (Term.compound functor args).size
      (call = false ∧ ∀ arg ∈ args, KeepsCommas table arg) := by
  obtain ⟨-, -, hasForm⟩ := hasForm_of_form? wf form
  cases hasForm with
  | @prefixOp arg fixity _ =>
      have operand := (inner arg (by simp)).operand call op .right
      have size_eq : (Term.compound functor [arg]).size = 1 + arg.size := by
        simp [Term.size, Term.sizes, Nat.add_comm]
      rw [text_prefixOp form fixity, comma, size_eq]
      refine (accounts_comma.beside operand).imp ?_
      rintro ⟨outside, kept⟩
      exact ⟨outside, by simpa using kept⟩
  | @postfixOp arg fixity _ =>
      have operand := (inner arg (by simp)).operand call op .left
      have size_eq : (Term.compound functor [arg]).size = arg.size + 1 := by
        simp [Term.size, Term.sizes]
      rw [text_postfixOp form fixity, comma, size_eq]
      refine (operand.beside accounts_comma).imp ?_
      rintro ⟨kept, outside⟩
      exact ⟨outside, by simpa using kept⟩
  | @infixOp left right _ _ =>
      have before := (inner left (by simp)).operand call op .left
      have behind := (inner right (by simp)).operand call op .right
      have size_eq : (Term.compound functor [left, right]).size =
          left.size + 1 + right.size := by
        simp [Term.size, Term.sizes]
        omega
      rw [text_infixOp form, comma, size_eq]
      refine ((before.beside accounts_comma).beside behind).imp ?_
      rintro ⟨⟨keptLeft, outside⟩, keptRight⟩
      exact ⟨outside, by simpa using ⟨keptLeft, keptRight⟩⟩

theorem CommaTerm.fallsShort (wf : table.WellFormed) (commas : CommaTerm table t) :
    FallsShort table t := by
  induction commas with
  | @atom name named =>
      intro call
      rw [text_atom, atomText, items]
      split
      · rename_i known
        obtain rfl := named.eq_comma known
        refine accounts_comma.imp fun outside => ⟨.leaf (by simp), ?_⟩
        simp [Unseparated, outside]
      · obtain ⟨lexeme, name?, spells⟩ := exists_name name
        refine (accounts_name spells name?).imp fun _ => ⟨.leaf (by simp), ?_⟩
        simp [Unseparated]
  | @compound functor args some_arg named inner ih =>
      intro call
      rw [items_compound]
      cases form : form? table functor args with
      | none =>
          have told := accounts_application call functor _ _ some_arg
            fun arg listed => (ih arg listed).argument
          rw [text_of_form? form, flatten_of_head? (t := .compound functor args) form]
          refine told.imp fun kept => ⟨.compound ?_ ?_, by simp [Unseparated]⟩
          · exact fun _ arg listed => (kept arg listed).1
          · exact fun arg listed => (kept arg listed).2
      | some op =>
          refine (accounts_form wf form (named.name_eq wf form) ih).imp ?_
          rintro ⟨outside, kept⟩
          refine ⟨.compound (fun noForm => ?_) kept, by simp [Unseparated, outside]⟩
          cases form.symm.trans noForm

/-- The text of a comma term is read as that term exactly if no call in it shows a comma. -/
theorem read_commas_iff (reachable : table.Reachable) (plain : table.Plain)
    (commas : CommaTerm table t) :
    Term.read table (text table t) = .ok t ↔ KeepsCommas table t := by
  have wf := reachable.wellFormed
  constructor
  · intro read
    exact ((commas.fallsShort wf false).kept_of_read wf plain read).1
  · intro kept
    exact (commas.readsBack wf plain kept).read

/-- A call with a comma of each kind: an operator, its atom, and a name of one argument. -/
def commaCall : Term :=
  .compound "f" [.compound "," [.atom "a", .atom ","], .compound "," [.atom "b"]]

theorem read_commaCall : Term.read .standard "f((a , (,)), ','(b))" = .ok commaCall := by
  have wf := Table.Reachable.standard.wellFormed
  have text_eq : text .standard commaCall = "f((a , (,)), ','(b))" := by decide +kernel
  have plainName : ∀ name ∈ ["f", "a", "b"], CommaName .standard name := by
    unfold CommaName
    decide +kernel
  have pair : CommaTerm .standard (.compound "," [.atom "a", .atom ","]) := by
    refine .compound (by simp) (Or.inl rfl) ?_
    simp only [List.forall_mem_cons]
    exact ⟨.atom (plainName "a" (by simp)), .atom (Or.inl rfl), by simp⟩
  have single : CommaTerm .standard (.compound "," [.atom "b"]) := by
    refine .compound (by simp) (Or.inl rfl) ?_
    simpa using CommaTerm.atom (plainName "b" (by simp))
  have commas : CommaTerm .standard commaCall := by
    refine .compound (by simp) (plainName "f" (by simp)) ?_
    simp only [List.forall_mem_cons]
    exact ⟨pair, single, by simp⟩
  have pairHead : head? .standard (.compound "," [.atom "a", .atom ","]) =
      some ⟨",", .xfy, 1000, none, false⟩ := rfl
  have singleHead : head? .standard (.compound "," [.atom "b"]) = none := rfl
  have kept : KeepsCommas .standard commaCall := by
    refine .compound (fun _ => ?_) ?_
    · simp only [List.forall_mem_cons, pair.showsComma_iff wf, single.showsComma_iff wf]
      simp [pairHead, singleHead, argumentPrec]
    · simp only [List.forall_mem_cons]
      refine ⟨.compound (fun noForm => ?_) ?_, .compound (fun _ => ?_) ?_, by simp⟩
      · cases pairHead.symm.trans noForm
      · simp only [List.forall_mem_cons]
        exact ⟨.leaf (by simp), .leaf (by simp), by simp⟩
      · simp [(CommaTerm.atom (plainName "b" (by simp))).showsComma_iff wf, head?]
      · simpa using .leaf (by simp)
  rw [← text_eq]
  exact (read_commas_iff .standard Table.plain_standard commas).2 kept

/-- The atom `,` is an empty argument to the reader. -/
theorem read_loneComma :
    text .standard (.compound "f" [.atom ","]) = "f(,)" ∧
      Term.read .standard "f(,)" = .error (.failed (.rejected .emptyTerm)) :=
  ⟨by decide +kernel, rfl⟩

/-- A table in which the comma binds tightly enough for an argument. -/
def commaTable : Table := Table.empty.insert ⟨",", .xfy, 900, none, false⟩

/-- The comma between the two atoms is a separator to the reader. -/
theorem read_tightComma :
    commaTable.Reachable ∧ commaTable.Plain ∧
      text commaTable (.compound "f" [.compound "," [.atom "a", .atom "b"]]) = "f(a , b)" ∧
      Term.read commaTable "f(a , b)" = .ok (.compound "f" [.atom "a", .atom "b"]) := by
  have lexed : Lexeme.ofLine "f(a , b)" =
      .ok [.word "f", .opening true, .word "a", .comma, .word "b", .closing] := by decide +kernel
  refine ⟨.define ⟨",", .xfy, 900, none, false⟩ .empty rfl, by decide, by decide +kernel, ?_⟩
  rw [Term.read, Reading.ofLine, lexed]
  set_option maxRecDepth 2000 in rfl

end OperatorGrammar.Layout
