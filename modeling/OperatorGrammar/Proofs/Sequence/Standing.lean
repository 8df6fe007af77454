/-
# Proofs.Sequence.Standing -- tokens and the parts they stand for

A decided token `Stands` for a part: for an operand, for an atom if its role is
`zerofix`, and else for the operator of its role.  What a token reports of itself then
follows from the part: its form, its symbol, the role `Part.role`.

A token `Arrives` for an item with the role that the entry of its name begins with.
`choices` lists what it may become behind another part, by whether it takes a left
argument there (`mem_choices_iff`).  It may take on the role of each choice
(`exists_resolve_of_mem_choices`).
-/
import Mathlib.Data.List.Forall2
import OperatorGrammar.Builder.Basic
import OperatorGrammar.Proofs.Sequence.Reading
import OperatorGrammar.Proofs.Table.Invariant
import OperatorGrammar.Proofs.Tree.Spine

namespace OperatorGrammar

set_option autoImplicit false

/-- The role of a decided operator. -/
def Fixity.role : Fixity → Role
  | .prefixOp => .prefixOp
  | .infixOp => .infixOp
  | .postfixOp => .postfixOp

@[simp] theorem Fixity.fixity?_role (f : Fixity) : f.role.fixity? = some f := by
  cases f <;> rfl

namespace Part

/-- The role of a token that stands for the part. -/
def role : Part → Role
  | .operand _ => .operand
  | .atom _ => .zerofix
  | .operator f _ => f.role

def operator? : Part → Option Operator
  | .operator _ op => some op
  | _ => none

theorem takesLeft_eq_false_iff {f : Fixity} {op : Operator} :
    (Part.operator f op).takesLeft = false ↔ f = .prefixOp := by
  cases f <;> simp [takesLeft]

end Part

namespace Token

open OperatorGrammar.Part

/-- A decided token and what it stands for in a reading. -/
inductive Stands (table : Table) : Token → Part → Prop
  | operand (term : Term) : Stands table (.operand term) (.operand term)
  | atom {o : Occurrence} (found : table.find? o.entry.name = some o.entry)
      (role : o.role = .zerofix) : Stands table (.operator o) (.atom o.entry.name)
  | operator {o : Occurrence} {f : Fixity} {op : Operator}
      (found : table.find? o.entry.name = some o.entry) (role : o.role = f.role)
      (form : o.entry.form? f = some op) : Stands table (.operator o) (.operator f op)

variable {table : Table} {t top : Token} {p q : Part} {item : Item}

theorem Stands.role_eq (stands : t.Stands table p) : t.role = p.role := by
  cases stands with
  | operand term => rfl
  | atom found role => exact role
  | operator found role form => exact role

theorem Stands.form?_eq (stands : t.Stands table p) : t.form? = p.operator? := by
  cases stands with
  | operand term => rfl
  | atom found role => simp [form?, Occurrence.form?, Entry.formFor?, role, Role.fixity?, operator?]
  | operator found role form =>
      simp [form?, Occurrence.form?, Entry.formFor?, role, form, operator?]

theorem Stands.symbol_eq (stands : t.Stands table p) : t.symbol = .ok p.symbol := by
  cases stands with
  | operand term => rfl
  | atom found role => simp [symbol, role, Part.symbol]
  | @operator o f op found role form =>
      have decided : o.role ≠ .zerofix := by rw [role]; cases f <;> simp [Fixity.role]
      have works : o.form? = some op := by simp [Occurrence.form?, Entry.formFor?, role, form]
      simp [symbol, decided, works, Part.symbol]

theorem Stands.follow (stands : t.Stands table p) (top : Token) :
    (t.follow top).Stands table p := by
  cases stands with
  | operand term => exact .operand term
  | atom found role => exact .atom found role
  | operator found role form => exact .operator found role form

theorem Stands.placed (wf : table.WellFormed) (stands : t.Stands table p) : p.Placed := by
  cases stands with
  | operand term => trivial
  | atom found role => trivial
  | operator found role form => exact (Table.form_placed wf found form).2

theorem placed_of_isDefined (wf : table.WellFormed) (isDefined : p.IsDefined table) :
    p.Placed := by
  cases p with
  | operand term => trivial
  | atom name => trivial
  | operator f op =>
      obtain ⟨e, found, form⟩ := isDefined
      exact (Table.form_placed wf found form).2

/-- The symbols of a stack of decided tokens. -/
theorem mapM_symbol {ts : List Token} {ps : List Part}
    (stand : List.Forall₂ (Stands table) ts ps) : ts.mapM symbol = .ok (ps.map Part.symbol) := by
  induction stand with
  | nil => rfl
  | cons stands _ ih =>
      simp [List.mapM_cons, stands.symbol_eq, ih, bind, Except.bind, pure, Except.pure]

/-! ## Arrivals -/

/-- A token as it is offered to a builder for an item. -/
inductive Arrives (table : Table) : Item → Token → Prop
  | operand (term : Term) : Arrives table (.operand term) (.operand term)
  | operator {o : Occurrence} (found : table.find? o.entry.name = some o.entry)
      (plays : o.entry.Plays o.role) : Arrives table (.operator o.entry.name) (.operator o)

theorem Arrives.found {o : Occurrence} (arrives : Arrives table item (.operator o)) :
    table.find? o.entry.name = some o.entry := by
  cases arrives with
  | operator found plays => exact found

theorem Arrives.plays {o : Occurrence} (arrives : Arrives table item (.operator o)) :
    o.entry.Plays o.role := by
  cases arrives with
  | operator found plays => exact plays

/-- What an arriving token may become behind another part, by whether it takes a left
argument there. -/
def choices : Token → Bool → List Part
  | .operand term, false => [.operand term]
  | .operator o, false => ((o.entry.form? .prefixOp).map (Part.operator .prefixOp)).toList
  | .operator o, true =>
      ((o.entry.form? .infixOp).map (Part.operator .infixOp)).toList ++
        ((o.entry.form? .postfixOp).map (Part.operator .postfixOp)).toList
  | _, _ => []

theorem mem_choices_of_operator {o : Occurrence} {side : Bool} :
    p ∈ (Token.operator o).choices side ↔
      ∃ f op, p = .operator f op ∧ o.entry.form? f = some op ∧ p.takesLeft = side := by
  constructor
  · intro member
    cases side with
    | false =>
        simp only [choices, Option.mem_toList, Option.map_eq_some_iff] at member
        obtain ⟨op, form, rfl⟩ := member
        exact ⟨_, op, rfl, form, rfl⟩
    | true =>
        simp only [choices, List.mem_append, Option.mem_toList, Option.map_eq_some_iff] at member
        rcases member with ⟨op, form, rfl⟩ | ⟨op, form, rfl⟩
        · exact ⟨_, op, rfl, form, rfl⟩
        · exact ⟨_, op, rfl, form, rfl⟩
  · rintro ⟨f, op, rfl, form, rfl⟩
    cases f <;> simp [choices, takesLeft, form]

/-- The choices are the forms of the item other than the atom. -/
theorem mem_choices_iff (wf : table.WellFormed) (arrives : Arrives table item t) (side : Bool) :
    p ∈ t.choices side ↔
      p.item = item ∧ p.IsDefined table ∧ (∀ name, p ≠ .atom name) ∧ p.takesLeft = side := by
  cases arrives with
  | operand term =>
      cases p <;> cases side <;> simp [choices, Part.item, IsDefined, takesLeft]
  | @operator o found plays =>
      rw [mem_choices_of_operator]
      constructor
      · rintro ⟨f, op, rfl, form, sides⟩
        have name := (Table.form_placed wf found form).1
        exact ⟨by rw [Part.item, name], ⟨_, by rw [name]; exact found, form⟩, by simp, sides⟩
      · rintro ⟨same, isDefined, notAtom, sides⟩
        cases p with
        | operand term => simp [Part.item] at same
        | atom name => exact absurd rfl (notAtom name)
        | operator f op =>
            obtain ⟨e', found', form⟩ := isDefined
            simp only [Part.item, Item.operator.injEq] at same
            rw [same, found] at found'
            cases found'
            exact ⟨f, op, rfl, form, sides⟩

/-- A role that an entry begins with may become the role of each of its forms. -/
theorem mayBecome_of_plays {e : Entry} {role : Role} {f : Fixity} {op : Operator}
    (plays : e.Plays role) (form : e.form? f = some op) :
    role = f.role ∨ role.mayBecome f.role = true := by
  cases plays <;> cases f <;> simp_all [Fixity.role, Role.mayBecome]

theorem exists_resolve_of_mem_choices (arrives : Arrives table item t) {side : Bool}
    (member : p ∈ t.choices side) : ∃ u, t.resolve p.role = .ok u ∧ u.Stands table p := by
  cases arrives with
  | operand term =>
      cases side with
      | false =>
          rw [List.mem_singleton.1 member]
          exact ⟨_, rfl, .operand term⟩
      | true => cases member
  | @operator o found plays =>
      obtain ⟨f, op, rfl, form, -⟩ := mem_choices_of_operator.1 member
      refine ⟨.operator { o with role := f.role }, ?_, .operator found rfl form⟩
      unfold resolve
      split
      · rename_i same
        change o.role = f.role at same
        rw [← same]
      · rename_i other
        rcases mayBecome_of_plays plays form with same | may
        · exact absurd same other
        · simp [Part.role, may]

end Token

end OperatorGrammar
