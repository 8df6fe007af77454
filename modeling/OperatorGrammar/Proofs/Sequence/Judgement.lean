/-
# Proofs.Sequence.Judgement -- what the judgement says of a reading

The comparisons that a judgement makes are those of the parts: an objection to a token
is the objection of one part to its neighbour (`Part.objection?`), and there is none
exactly if the two may meet (`Part.meets_iff`).

The front of a sequence is the start mark, a decided token, or a token that may still
be infix or postfix.  There is one theorem for each: `judge_start`, `judge_decided` and
`judge_open` for an arriving token, and their counterparts for the stop mark.  An
arriving token joins in the one way that fits the side of the front, if its neighbours
do not object; if no way fits it is refused, and if two ways do it stays open.
-/
import OperatorGrammar.Proofs.Sequence.Standing

namespace OperatorGrammar

set_option autoImplicit false

namespace Part

/-- The objection to `r` directly behind `l`, where these two are compared. -/
def objection? : Part → Part → Option Rejection
  | .operator .postfixOp inner, .operator .infixOp outer => outer.leftObjection? inner
  | .operator .postfixOp inner, .operator .postfixOp outer => inner.postfixObjection? outer
  | .operator .infixOp outer, .operator .prefixOp inner => outer.rightObjection? inner
  | .operator .prefixOp outer, .operator .prefixOp inner => outer.prefixObjection? inner
  | _, _ => none

theorem objection?_eq_none_iff {l r : Part} (placed : l.Placed) (placed' : r.Placed)
    (sides : r.takesLeft = !l.opens) : l.objection? r = none ↔ l.Accords r := by
  cases l with
  | operand term => simp [objection?, Accords]
  | atom name => simp [objection?, Accords]
  | operator f outer =>
      cases r with
      | operand term => cases f <;> simp [objection?, Accords]
      | atom name => cases f <;> simp [objection?, Accords]
      | operator g inner =>
          simp only [Placed] at placed placed'
          cases f <;> cases g <;>
            simp_all [objection?, Accords, takesLeft, opens, Operator.leftObjection?,
              Operator.rightObjection?, Operator.prefixObjection?, Operator.postfixObjection?,
              Operator.accepts]

theorem meets_iff {l r : Part} (placed : l.Placed) (placed' : r.Placed) :
    Meets l r ↔ r.takesLeft = !l.opens ∧ l.objection? r = none := by
  constructor
  · rintro ⟨sides, accords⟩
    exact ⟨sides, (objection?_eq_none_iff placed placed' sides).2 accords⟩
  · rintro ⟨sides, none⟩
    exact ⟨sides, (objection?_eq_none_iff placed placed' sides).1 none⟩

end Part

/-- A token in one role joins a sequence in another one. -/
def Verdict.joining (role wanted : Role) : Verdict :=
  if role = wanted then .accept else .acceptAs wanted

namespace Adjacency

open OperatorGrammar.Part Token

/-! ## Comparisons -/

section Comparisons

variable {a : Adjacency} {l r : Operator}

theorem postfixThenInfix_eq (top : a.top.formFor? .postfixOp = some l)
    (new : a.new.formFor? .infixOp = some r) :
    a.postfixThenInfix =
      .ok ((Part.operator .postfixOp l).objection? (.operator .infixOp r)) := by
  simp [postfixThenInfix, newForm, topForm, formFor, top, new, objection?, bind, Except.bind,
    pure, Except.pure]

theorem postfixThenPostfix_eq (top : a.top.formFor? .postfixOp = some l)
    (new : a.new.formFor? .postfixOp = some r) :
    a.postfixThenPostfix =
      .ok ((Part.operator .postfixOp l).objection? (.operator .postfixOp r)) := by
  simp [postfixThenPostfix, newForm, topForm, formFor, top, new, objection?, bind, Except.bind,
    pure, Except.pure]

theorem infixThenPrefix_eq (top : a.top.formFor? .infixOp = some l)
    (new : a.new.formFor? .prefixOp = some r) :
    a.infixThenPrefix =
      .ok ((Part.operator .infixOp l).objection? (.operator .prefixOp r)) := by
  simp [infixThenPrefix, newForm, topForm, formFor, top, new, objection?, bind, Except.bind,
    pure, Except.pure]

theorem prefixThenPrefix_eq (top : a.top.formFor? .prefixOp = some l)
    (new : a.new.formFor? .prefixOp = some r) :
    a.prefixThenPrefix =
      .ok ((Part.operator .prefixOp l).objection? (.operator .prefixOp r)) := by
  simp [prefixThenPrefix, newForm, topForm, formFor, top, new, objection?, bind, Except.bind,
    pure, Except.pure]

end Comparisons

/-- The token in front, decided for a form that takes a left argument, and the token
before it. -/
theorem prevObjection_eq {a : Adjacency} {q : Part} {f : Fixity} {op : Operator}
    (prev : a.top.prev? = q.operator?) (placed : q.Placed) (closed : q.opens = false)
    (form : a.top.formFor? f.role = some op) (takes : (Part.operator f op).takesLeft = true) :
    a.prevObjection f.role = .ok (q.objection? (.operator f op)) := by
  have topForm : a.topForm f.role = .ok op := by
    simp [Adjacency.topForm, formFor, form]
  have before : a.prevPostfix? = q.operator?.filter (·.fixity = .postfixOp) := by
    rw [prevPostfix?, prev]
  cases q with
  | operand term => simp [prevObjection, before, operator?, objection?]
  | atom name => simp [prevObjection, before, operator?, objection?]
  | operator g inner =>
      have postfixed : g = .postfixOp := by
        cases g <;> simp [opens] at closed ⊢
      subst postfixed
      simp only [Placed] at placed
      cases f with
      | prefixOp => cases takes
      | infixOp =>
          rw [Fixity.role] at topForm ⊢
          simp [prevObjection, before, operator?, Option.filter, placed, topForm, objection?, bind,
            Except.bind, pure, Except.pure]
      | postfixOp =>
          rw [Fixity.role] at topForm ⊢
          simp [prevObjection, before, operator?, Option.filter, placed, topForm, objection?, bind,
            Except.bind, pure, Except.pure]

end Adjacency

/-! ## Both sides of a judgement -/

namespace Token

open OperatorGrammar.Part

/-- What an arriving token has to offer, by the side it would stand on. -/
inductive Offers (t : Token) : Prop
  | operand {term : Term} (role : t.role = .operand) (free : t.choices false = [.operand term])
      (taking : t.choices true = [])
  | infixOp {i : Operator} (role : t.role = .infixOp) (form : t.formFor? .infixOp = some i)
      (free : t.choices false = []) (taking : t.choices true = [.operator .infixOp i])
  | prefixOp {p : Operator} (role : t.role = .prefixOp) (form : t.formFor? .prefixOp = some p)
      (free : t.choices false = [.operator .prefixOp p]) (taking : t.choices true = [])
  | postfixOp {p : Operator} (role : t.role = .postfixOp) (form : t.formFor? .postfixOp = some p)
      (free : t.choices false = []) (taking : t.choices true = [.operator .postfixOp p])
  | infixOrPrefix {i p : Operator} (role : t.role = .infixOrPrefix)
      (infixForm : t.formFor? .infixOp = some i) (form : t.formFor? .prefixOp = some p)
      (free : t.choices false = [.operator .prefixOp p])
      (taking : t.choices true = [.operator .infixOp i])
  | infixOrPostfix {i p : Operator} (role : t.role = .infixOrPostfix)
      (infixForm : t.formFor? .infixOp = some i) (form : t.formFor? .postfixOp = some p)
      (free : t.choices false = [])
      (taking : t.choices true = [.operator .infixOp i, .operator .postfixOp p])

variable {table : Table} {item : Item} {t : Token} {q : Part}

theorem Arrives.offers (arrives : Arrives table item t) : t.Offers := by
  cases arrives with
  | operand term => exact .operand rfl rfl rfl
  | @operator o found plays =>
      have formFor : ∀ f : Fixity, (Token.operator o).formFor? f.role = o.entry.form? f := by
        intro f
        simp [formFor?, Entry.formFor?]
      generalize plays_role : o.role = role at plays
      cases plays with
      | infixOp noPrefix form noPostfix =>
          exact .infixOp plays_role ((formFor .infixOp).trans form) (by simp [choices, noPrefix])
            (by simp [choices, form, noPostfix])
      | prefixOp form noInfix noPostfix =>
          exact .prefixOp plays_role ((formFor .prefixOp).trans form) (by simp [choices, form])
            (by simp [choices, noInfix, noPostfix])
      | postfixOp noPrefix noInfix form =>
          exact .postfixOp plays_role ((formFor .postfixOp).trans form)
            (by simp [choices, noPrefix]) (by simp [choices, noInfix, form])
      | infixOrPrefix form infixForm noPostfix =>
          exact .infixOrPrefix plays_role ((formFor .infixOp).trans infixForm)
            ((formFor .prefixOp).trans form) (by simp [choices, form])
            (by simp [choices, infixForm, noPostfix])
      | infixOrPostfix noPrefix infixForm form =>
          exact .infixOrPostfix plays_role ((formFor .infixOp).trans infixForm)
            ((formFor .postfixOp).trans form) (by simp [choices, noPrefix])
            (by simp [choices, infixForm, form])

theorem Offers.of_infixOrPostfix (offers : t.Offers) (open_role : t.role = .infixOrPostfix) :
    ∃ i p, t.formFor? .infixOp = some i ∧ t.formFor? .postfixOp = some p ∧
      t.choices false = [] ∧
      t.choices true = [.operator .infixOp i, .operator .postfixOp p] := by
  cases offers with
  | infixOrPostfix role infixForm form free taking => exact ⟨_, _, infixForm, form, free, taking⟩
  | operand role => rw [role] at open_role; cases open_role
  | infixOp role => rw [role] at open_role; cases open_role
  | prefixOp role => rw [role] at open_role; cases open_role
  | postfixOp role => rw [role] at open_role; cases open_role
  | infixOrPrefix role => rw [role] at open_role; cases open_role

/-- What a decided token is in front of another one. -/
inductive Leads (t : Token) (q : Part) : Prop
  | leaf (role : t.role.asFront? = some .operand) (closed : q.opens = false)
      (silent : ∀ p, q.objection? p = none)
  | infixOp {op : Operator} (role : t.role = .infixOp) (form : t.formFor? .infixOp = some op)
      (part_eq : q = .operator .infixOp op)
  | prefixOp {op : Operator} (role : t.role = .prefixOp) (form : t.formFor? .prefixOp = some op)
      (part_eq : q = .operator .prefixOp op)
  | postfixOp {op : Operator} (role : t.role = .postfixOp)
      (form : t.formFor? .postfixOp = some op) (part_eq : q = .operator .postfixOp op)

theorem Stands.leads (stands : t.Stands table q) : t.Leads q := by
  cases stands with
  | operand term => exact .leaf rfl rfl fun p => rfl
  | atom found role => exact .leaf (by rw [Token.role, role]; rfl) rfl fun p => rfl
  | @operator o f op found role form =>
      cases f with
      | infixOp => exact .infixOp role form rfl
      | prefixOp => exact .prefixOp role form rfl
      | postfixOp => exact .postfixOp role form rfl

end Token

namespace Adjacency

open OperatorGrammar.Part Token

variable {table : Table} {item : Item} {top new : Token} {q : Part} {n : Nat}

theorem judge_eq_rule {front : Front} {arrival : Arrival}
    (onTop : top.role.asFront? = some front) (onNew : new.role.asArrival? = some arrival) :
    judge ⟨top, new, n, false⟩ = rule ⟨top, new, n, false⟩ front arrival := by
  simp [judge, onTop, onNew]

/-! ## Behind the start mark -/

/-- An operator item starts a sequence as a prefix operator, or as an atom if its name
has a postfix form. -/
theorem joins_nil_iff {e : Entry} {p : Part} (found : table.find? e.name = some e) :
    p.item = .operator e.name ∧ p.IsDefined table ∧ Joins table [] p ↔
      (p = .atom e.name ∧ ∃ op, e.form? .postfixOp = some op) ∨
        ∃ op, p = .operator .prefixOp op ∧ op.name = e.name ∧ e.form? .prefixOp = some op := by
  constructor
  · rintro ⟨same, isDefined, sides, postfixed⟩
    cases p with
    | operand term => simp [Part.item] at same
    | atom name =>
        simp only [Part.item, Item.operator.injEq] at same
        subst same
        obtain ⟨e', found', form⟩ := postfixed e.name rfl
        rw [found] at found'
        cases found'
        exact Or.inl ⟨rfl, Option.isSome_iff_exists.1 form⟩
    | operator f op =>
        obtain ⟨e', found', form⟩ := isDefined
        simp only [Part.item, Item.operator.injEq] at same
        rw [same, found] at found'
        cases found'
        cases takesLeft_eq_false_iff.1 sides
        exact Or.inr ⟨op, rfl, same, form⟩
  · rintro (⟨rfl, op, form⟩ | ⟨op, rfl, same, form⟩)
    · refine ⟨rfl, by simp [IsDefined, found], rfl, ?_⟩
      rintro name ⟨⟩
      exact ⟨e, found, Option.isSome_iff_exists.2 ⟨op, form⟩⟩
    · exact ⟨by rw [Part.item, same], ⟨e, by rw [same]; exact found, form⟩, rfl, by simp⟩

/-- What starts a sequence joins in the one form that it has there.  A name that is only
an infix operator has none, but it may turn out to be alone. -/
theorem judge_start (wf : table.WellFormed) (arrives : Arrives table item new) :
    (∃ p u, judge ⟨.start, new, n, false⟩ = .ok (Verdict.joining new.role p.role) ∧
      new.resolve p.role = .ok u ∧ u.Stands table p ∧
      ∀ p' : Part, p'.item = item ∧ p'.IsDefined table ∧ Joins table [] p' ↔ p' = p) ∨
    ∃ o, new = .operator o ∧ o.role = .infixOp ∧
      judge ⟨.start, new, n, false⟩ = .ok .acceptFlagged ∧
      ∀ p' : Part, ¬ (p'.item = item ∧ p'.IsDefined table ∧ Joins table [] p') := by
  cases arrives with
  | operand term =>
      refine Or.inl ⟨.operand term, .operand term, rfl, rfl, .operand term, fun p' => ?_⟩
      constructor
      · rintro ⟨same, -, -⟩
        cases p' <;> simp_all [Part.item]
      · rintro rfl
        exact ⟨rfl, trivial, rfl, by simp⟩
  | @operator o found plays =>
      simp only [joins_nil_iff found]
      have name : ∀ {f op}, o.entry.form? f = some op → op.name = o.entry.name :=
        fun form => (Table.form_placed wf found form).1
      obtain ⟨e, role, prev⟩ := o
      cases plays with
      | infixOp noPrefix form noPostfix =>
          exact Or.inr ⟨_, rfl, rfl, rfl, by simp [noPrefix, noPostfix]⟩
      | @prefixOp p form noInfix noPostfix =>
          refine Or.inl ⟨.operator .prefixOp p, _, rfl, rfl, .operator found rfl form, ?_⟩
          simp [form, noPostfix, name form]
      | postfixOp noPrefix noInfix form =>
          refine Or.inl ⟨.atom e.name, _, rfl, rfl, .atom found rfl, ?_⟩
          simp [form, noPrefix]
      | @infixOrPrefix p i form infixForm noPostfix =>
          refine Or.inl ⟨.operator .prefixOp p, _, rfl, rfl, .operator found rfl form, ?_⟩
          simp [form, noPostfix, name form]
      | infixOrPostfix noPrefix infixForm form =>
          refine Or.inl ⟨.atom e.name, _, rfl, rfl, .atom found rfl, ?_⟩
          simp [form, noPrefix]

/-! ## Behind a decided token -/

/-- The token is refused. -/
def Refuses (a : Adjacency) : Prop := ∃ cause, a.judge = .ok (.reject cause)

/-- The token joins as `p`, if the part in front does not object. -/
def Admits (a : Adjacency) (q p : Part) : Prop :=
  a.judge = .ok ((Verdict.joining a.new.role p.role).unless (q.objection? p))

theorem judge_closed (leads : top.Leads q) (closed : q.opens = false) (offers : new.Offers) :
    (new.choices true = [] ∧ Refuses ⟨top, new, n, false⟩) ∨
    (∃ p, new.choices true = [p] ∧ Admits ⟨top, new, n, false⟩ q p) ∨
    (new.role = .infixOrPostfix ∧ judge ⟨top, new, n, false⟩ = .ok .accept) := by
  have fronts : (top.role.asFront? = some .operand ∧ ∀ p, q.objection? p = none) ∨
      ∃ op, top.role.asFront? = some .postfixOp ∧ top.formFor? .postfixOp = some op ∧
        q = .operator .postfixOp op := by
    cases leads with
    | leaf role _ silent => exact Or.inl ⟨role, silent⟩
    | infixOp role form part_eq => rw [part_eq] at closed; cases closed
    | prefixOp role form part_eq => rw [part_eq] at closed; cases closed
    | postfixOp role form part_eq => exact Or.inr ⟨_, by rw [role]; rfl, form, part_eq⟩
  cases offers with
  | operand role free taking | prefixOp role form free taking =>
      refine Or.inl ⟨taking, ?_⟩
      rcases fronts with ⟨onTop, -⟩ | ⟨op, onTop, -, -⟩
      · exact ⟨_, by rw [judge_eq_rule onTop (by rw [role]; rfl)]; rfl⟩
      · exact ⟨_, by rw [judge_eq_rule onTop (by rw [role]; rfl)]; rfl⟩
  | infixOp role form free taking | infixOrPrefix role form prefixForm free taking =>
      refine Or.inr (Or.inl ⟨_, taking, ?_⟩)
      unfold Admits
      rcases fronts with ⟨onTop, silent⟩ | ⟨op, onTop, topForm, rfl⟩
      · rw [judge_eq_rule onTop (by rw [role]; rfl), silent, role]
        rfl
      · rw [judge_eq_rule onTop (by rw [role]; rfl), role, rule, postfixThenInfix_eq topForm form]
        rfl
  | postfixOp role form free taking =>
      refine Or.inr (Or.inl ⟨_, taking, ?_⟩)
      unfold Admits
      rcases fronts with ⟨onTop, silent⟩ | ⟨op, onTop, topForm, rfl⟩
      · rw [judge_eq_rule onTop (by rw [role]; rfl), silent, role]
        rfl
      · rw [judge_eq_rule onTop (by rw [role]; rfl), role, rule,
          postfixThenPostfix_eq topForm form]
        rfl
  | infixOrPostfix role infixForm form free taking =>
      refine Or.inr (Or.inr ⟨role, ?_⟩)
      rcases fronts with ⟨onTop, -⟩ | ⟨op, onTop, -, -⟩
      · rw [judge_eq_rule onTop (by rw [role]; rfl)]; rfl
      · rw [judge_eq_rule onTop (by rw [role]; rfl)]; rfl

theorem judge_opening (leads : top.Leads q) (opening : q.opens = true) (offers : new.Offers) :
    (new.choices false = [] ∧ Refuses ⟨top, new, n, false⟩) ∨
    ∃ p, new.choices false = [p] ∧ Admits ⟨top, new, n, false⟩ q p := by
  have fronts :
      (∃ op, top.role.asFront? = some .infixOp ∧ top.formFor? .infixOp = some op ∧
        q = .operator .infixOp op) ∨
      ∃ op, top.role.asFront? = some .prefixOp ∧ top.formFor? .prefixOp = some op ∧
        q = .operator .prefixOp op := by
    cases leads with
    | leaf role closed silent => rw [closed] at opening; cases opening
    | infixOp role form part_eq => exact Or.inl ⟨_, by rw [role]; rfl, form, part_eq⟩
    | prefixOp role form part_eq => exact Or.inr ⟨_, by rw [role]; rfl, form, part_eq⟩
    | postfixOp role form part_eq => rw [part_eq] at opening; cases opening
  cases offers with
  | operand role free taking =>
      refine Or.inr ⟨_, free, ?_⟩
      unfold Admits
      rcases fronts with ⟨op, onTop, -, rfl⟩ | ⟨op, onTop, -, rfl⟩
      · rw [judge_eq_rule onTop (by rw [role]; rfl), role]; rfl
      · rw [judge_eq_rule onTop (by rw [role]; rfl), role]; rfl
  | prefixOp role form free taking | infixOrPrefix role infixForm form free taking =>
      refine Or.inr ⟨_, free, ?_⟩
      unfold Admits
      rcases fronts with ⟨op, onTop, topForm, rfl⟩ | ⟨op, onTop, topForm, rfl⟩
      · rw [judge_eq_rule onTop (by rw [role]; rfl), role, rule, infixThenPrefix_eq topForm form]
        rfl
      · rw [judge_eq_rule onTop (by rw [role]; rfl), role, rule, prefixThenPrefix_eq topForm form]
        rfl
  | infixOp role form free taking | postfixOp role form free taking
  | infixOrPostfix role infixForm form free taking =>
      refine Or.inl ⟨free, ?_⟩
      rcases fronts with ⟨op, onTop, -, -⟩ | ⟨op, onTop, -, -⟩
      · exact ⟨_, by rw [judge_eq_rule onTop (by rw [role]; rfl)]; rfl⟩
      · exact ⟨_, by rw [judge_eq_rule onTop (by rw [role]; rfl)]; rfl⟩

/-! ## Behind an open token -/

/-- The token may be infix or postfix, behind one that stands for `q`. -/
structure IsOpen (top : Token) (q : Part) (i p : Operator) : Prop where
  role : top.role = .infixOrPostfix
  infixForm : top.formFor? .infixOp = some i
  postfixForm : top.formFor? .postfixOp = some p
  prev : top.prev? = q.operator?
  placed : q.Placed
  closed : q.opens = false

/-- The token joins as `r`, and the one in front of it is decided for `l`, if neither
this one nor the part before it objects. -/
def Decides (a : Adjacency) (q l r : Part) : Prop :=
  a.judge = .ok ((Verdict.resolve l.role r.role).unless ((q.objection? l).or (l.objection? r)))

variable {i p : Operator}

theorem IsOpen.prevObjection_infixOp (opens : IsOpen top q i p) :
    prevObjection ⟨top, new, n, false⟩ .infixOp =
      .ok (q.objection? (.operator .infixOp i)) :=
  prevObjection_eq (f := .infixOp) opens.prev opens.placed opens.closed opens.infixForm rfl

theorem IsOpen.prevObjection_postfixOp (opens : IsOpen top q i p) :
    prevObjection ⟨top, new, n, false⟩ .postfixOp =
      .ok (q.objection? (.operator .postfixOp p)) :=
  prevObjection_eq (f := .postfixOp) opens.prev opens.placed opens.closed opens.postfixForm rfl

theorem judge_open (opens : IsOpen top q i p) (offers : new.Offers) :
    (∃ r, new.choices true = [] ∧ new.choices false = [r] ∧
      Decides ⟨top, new, n, false⟩ q (.operator .infixOp i) r) ∨
    (∃ r, new.choices false = [] ∧ new.choices true = [r] ∧
      Decides ⟨top, new, n, false⟩ q (.operator .postfixOp p) r) ∨
    (new.choices false = [] ∧ new.role = .infixOrPostfix ∧
      judge ⟨top, new, n, false⟩ =
        .ok ((Verdict.resolve .postfixOp .infixOrPostfix).unless
          (q.objection? (.operator .postfixOp p)))) ∨
    ∃ x y, new.role = .infixOrPrefix ∧ new.choices false = [.operator .prefixOp x] ∧
      new.choices true = [.operator .infixOp y] ∧
      judge ⟨top, new, n, false⟩ = .ok (
        match (q.objection? (.operator .infixOp i)).or
            ((Part.operator .infixOp i).objection? (.operator .prefixOp x)),
          (q.objection? (.operator .postfixOp p)).or
            ((Part.operator .postfixOp p).objection? (.operator .infixOp y)) with
        | none, none => .reject (.ambiguous top.describe new.describe)
        | none, some _ => .resolve .infixOp .prefixOp
        | some _, none => .resolve .postfixOp .infixOp
        | some _, some cause => .reject cause) := by
  have onTop : top.role.asFront? = some .infixOrPostfix := by rw [opens.role]; rfl
  cases offers with
  | operand role free taking =>
      refine Or.inl ⟨_, taking, free, ?_⟩
      rw [Decides, judge_eq_rule onTop (by rw [role]; rfl), rule, resolveTop,
        opens.prevObjection_infixOp]
      rfl
  | prefixOp role form free taking =>
      refine Or.inl ⟨_, taking, free, ?_⟩
      rw [Decides, judge_eq_rule onTop (by rw [role]; rfl), rule,
        infixThenPrefix_eq opens.infixForm form]
      change resolveTop _ _ _ _ = _
      rw [resolveTop, opens.prevObjection_infixOp]
      rfl
  | infixOp role form free taking =>
      refine Or.inr (Or.inl ⟨_, free, taking, ?_⟩)
      rw [Decides, judge_eq_rule onTop (by rw [role]; rfl), rule,
        postfixThenInfix_eq opens.postfixForm form]
      change resolveTop _ _ _ _ = _
      rw [resolveTop, opens.prevObjection_postfixOp]
      rfl
  | postfixOp role form free taking =>
      refine Or.inr (Or.inl ⟨_, free, taking, ?_⟩)
      rw [Decides, judge_eq_rule onTop (by rw [role]; rfl), rule,
        postfixThenPostfix_eq opens.postfixForm form]
      change resolveTop _ _ _ _ = _
      rw [resolveTop, opens.prevObjection_postfixOp]
      rfl
  | infixOrPostfix role infixForm form free taking =>
      refine Or.inr (Or.inr (Or.inl ⟨free, role, ?_⟩))
      rw [judge_eq_rule onTop (by rw [role]; rfl), rule, resolveTop, opens.prevObjection_postfixOp]
      simp [bind, Except.bind, pure, Except.pure]
  | infixOrPrefix role infixForm form free taking =>
      refine Or.inr (Or.inr (Or.inr ⟨_, _, role, free, taking, ?_⟩))
      rw [judge_eq_rule onTop (by rw [role]; rfl), rule, openPair, opens.prevObjection_infixOp,
        opens.prevObjection_postfixOp, infixThenPrefix_eq opens.infixForm form,
        postfixThenInfix_eq opens.postfixForm infixForm]
      rfl

/-! ## Behind an infix operator at the start -/

theorem judge_flagged (role : top.role = .infixOp) (offers : new.Offers) :
    judge ⟨top, new, n, true⟩ = .ok (.reject (.infixAtStart top.describe)) := by
  have onTop : top.role.asFront? = some .infixOp := by rw [role]; rfl
  obtain ⟨arrival, onNew, notStop⟩ :
      ∃ arrival, new.role.asArrival? = some arrival ∧ arrival ≠ .stop := by
    cases offers with
    | operand role => exact ⟨.operand, by rw [role]; rfl, by decide⟩
    | infixOp role => exact ⟨.infixOp, by rw [role]; rfl, by decide⟩
    | prefixOp role => exact ⟨.prefixOp, by rw [role]; rfl, by decide⟩
    | postfixOp role => exact ⟨.postfixOp, by rw [role]; rfl, by decide⟩
    | infixOrPrefix role => exact ⟨.infixOrPrefix, by rw [role]; rfl, by decide⟩
    | infixOrPostfix role => exact ⟨.infixOrPostfix, by rw [role]; rfl, by decide⟩
  simp [judge, onTop, onNew, notStop]

/-! ## In front of the stop mark -/

variable {f : Bool}

theorem judge_stop_eq_rule {front : Front} (onTop : top.role.asFront? = some front) :
    judge ⟨top, .stop, n, f⟩ = rule ⟨top, .stop, n, f⟩ front .stop := by
  have onNew : Token.stop.role.asArrival? = some .stop := rfl
  simp [judge, onTop, onNew]

theorem judge_stop_closed (leads : top.Leads q) (closed : q.opens = false)
    (several : n = 2 → ∀ op, q ≠ .operator .postfixOp op) :
    judge ⟨top, .stop, n, f⟩ = .ok .accept := by
  cases leads with
  | leaf role _ silent => rw [judge_stop_eq_rule role]; rfl
  | infixOp role form part_eq => rw [part_eq] at closed; cases closed
  | prefixOp role form part_eq => rw [part_eq] at closed; cases closed
  | postfixOp role form part_eq =>
      have notSole : n ≠ 2 := fun sole => several sole _ part_eq
      rw [judge_stop_eq_rule (by rw [role]; rfl)]
      simp [rule, sole, notSole]

/-- A sequence may not end where an operand is due, except that a single operator is an
atom. -/
theorem judge_stop_opening (role : top.role = .infixOp ∨ top.role = .prefixOp) :
    judge ⟨top, .stop, n, f⟩ =
      .ok (if n = 2 then .resolve .zerofix .stop
        else .reject (.unexpectedEnd top.describe)) := by
  rcases role with role | role
  · rw [judge_stop_eq_rule (by rw [role]; rfl)]
    simp [rule, atStop, sole]
  · rw [judge_stop_eq_rule (by rw [role]; rfl)]
    simp [rule, atStop, sole]

theorem judge_stop_open (opens : IsOpen top q i p) (several : n ≠ 2) :
    judge ⟨top, .stop, n, false⟩ =
      .ok ((Verdict.resolve .postfixOp .stop).unless (q.objection? (.operator .postfixOp p))) := by
  rw [judge_stop_eq_rule (by rw [opens.role]; rfl)]
  simp [rule, sole, several, resolveTop, opens.prevObjection_postfixOp, bind, Except.bind, pure,
    Except.pure]

end Adjacency

end OperatorGrammar
