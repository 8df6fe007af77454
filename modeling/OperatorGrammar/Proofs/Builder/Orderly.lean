/-
# Proofs.Builder.Orderly -- the state behind any calls

Whatever was asked of a builder, and however much of it was refused, its tokens are in order
(`Orderly`): their roles are the front of an expression, apart from an infix operator alone, and
adjacent operators accept each other.  This is what the readings of the items say of the tokens
(`Builder.Keeps`): decided tokens stand for the parts of a reading (`orderly_of_stand`), and one
that may still be infix or postfix lies on top of such tokens (`Orderly.open`).

With the places and the references of the tokens, `Workspace.orderly_attemptAll` states it for
every history of calls.
-/
import OperatorGrammar.Proofs.Builder.References
import OperatorGrammar.Proofs.Sequence.Shape

namespace OperatorGrammar

set_option autoImplicit false

/-- The role that a token plays in an expression: an atom is an operand, and a token that may
still be infix or postfix completes its argument. -/
def Role.inExpression : Role → Role
  | .zerofix => .operand
  | .infixOrPostfix => .postfixOp
  | role => role

/-- Where two operators touch, the one whose argument starts or ends there accepts the other. -/
def Token.Fits (l r : Token) : Prop :=
  ∀ left right, l.form? = some left → r.form? = some right →
    match l.role, r.role with
    | .infixOp, .prefixOp => left.rightAccepts right = true
    | .prefixOp, .prefixOp => left.accepts right = true
    | .postfixOp, .infixOp => right.leftAccepts left = true
    | .postfixOp, .postfixOp => right.accepts left = true
    | _, _ => True

/-- The tokens above the start mark, the latest first, and whether an infix operator is flagged as
the start of the sequence. -/
structure Orderly (table : Table) (flag : Bool) (tokens : Stack Token) : Prop where
  roles : ∀ t ∈ tokens, t.role ≠ .start ∧ t.role ≠ .stop ∧ t.role ≠ .infixOrPrefix
  /-- Only the latest token may be undecided. -/
  undecided : ∀ t ∈ tokens.tail, t.role ≠ .infixOrPostfix
  /-- Only the first token may be an atom. -/
  atom : ∀ t ∈ tokens.dropLast, t.role ≠ .zerofix
  begins : flag = false → Role.Begins (tokens.map fun t => t.role.inExpression).reverse
  flagged : flag = true ↔ ∃ t, tokens = [t] ∧ t.role = .infixOp
  /-- An operator comes from the table and has the form of its role. -/
  forms : ∀ o, .operator o ∈ tokens → table.find? o.entry.name = some o.entry ∧
    ∀ f, o.role.fixity? = some f → (o.entry.form? f).isSome = true
  fits : tokens.IsChain fun r l => l.Fits r

variable {table : Table} {ts : Stack Token} {ps : List Part}

/-! ## Decided tokens -/

namespace Token

open OperatorGrammar.Part

variable {t l r : Token} {p q : Part}

theorem Stands.inExpression_eq (stands : t.Stands table p) :
    t.role.inExpression = p.grammarRole := by
  rw [stands.role_eq]
  cases p with
  | operator f op => cases f <;> rfl
  | _ => rfl

/-- Tokens fit as their parts accord. -/
theorem fits_of_meets (standsLeft : l.Stands table p) (standsRight : r.Stands table q)
    (placed : p.Placed) (placed' : q.Placed) (meets : Meets p q) : l.Fits r := by
  intro left right form form'
  rw [standsLeft.form?_eq] at form
  rw [standsRight.form?_eq] at form'
  rw [standsLeft.role_eq, standsRight.role_eq]
  have accords := meets.accords
  cases p with
  | operator f outer =>
      cases q with
      | operator g inner =>
          cases form
          cases form'
          simp only [Placed] at placed placed'
          cases f <;> cases g <;>
            simp_all [Part.role, Fixity.role, Accords, Operator.accepts]
      | _ => cases form'
  | _ => cases form

end Token

section Decided

open Token OperatorGrammar.Part

theorem exists_part_of_mem (stand : List.Forall₂ (Stands table) ts ps) :
    ∀ t ∈ ts, ∃ p ∈ ps, t.Stands table p := by
  induction stand with
  | nil => simp
  | cons stands _ ih =>
      refine List.forall_mem_cons.2 ⟨⟨_, List.mem_cons_self, stands⟩, fun t member => ?_⟩
      obtain ⟨p, inside, stands'⟩ := ih t member
      exact ⟨p, List.mem_cons_of_mem _ inside, stands'⟩

theorem isChain_fits (stand : List.Forall₂ (Stands table) ts ps) (wf : table.WellFormed)
    (chain : ps.IsChain fun r l => Meets l r) : ts.IsChain fun r l => l.Fits r := by
  induction stand with
  | nil => exact List.isChain_nil
  | @cons t p ts ps stands stand ih =>
      cases stand with
      | nil => exact List.isChain_singleton _
      | cons stands' _ =>
          rw [List.isChain_cons_cons] at chain ⊢
          exact ⟨fits_of_meets stands' stands (stands'.placed wf) (stands.placed wf) chain.1,
            ih chain.2⟩

theorem map_inExpression (stand : List.Forall₂ (Stands table) ts ps) :
    ts.map (fun t => t.role.inExpression) = ps.map grammarRole := by
  induction stand with
  | nil => rfl
  | cons stands _ ih => rw [List.map_cons, List.map_cons, stands.inExpression_eq, ih]

theorem Part.role_decided (p : Part) : p.role ≠ .start ∧ p.role ≠ .stop ∧
    p.role ≠ .infixOrPrefix ∧ p.role ≠ .infixOrPostfix := by
  cases p with
  | operator f op => cases f <;> simp [Part.role, Fixity.role]
  | _ => simp [Part.role]

theorem forms_of_stands {o : Occurrence} {p : Part} (stands : (Token.operator o).Stands table p) :
    table.find? o.entry.name = some o.entry ∧
      ∀ f, o.role.fixity? = some f → (o.entry.form? f).isSome = true := by
  cases stands with
  | atom found role =>
      refine ⟨found, fun f decided => ?_⟩
      rw [role] at decided
      cases decided
  | operator found role form =>
      refine ⟨found, fun f decided => ?_⟩
      rw [role, Fixity.fixity?_role] at decided
      cases decided
      rw [form]
      rfl

theorem decided_of_stand (stand : List.Forall₂ (Stands table) ts ps) : ∀ t ∈ ts,
    t.role ≠ .start ∧ t.role ≠ .stop ∧ t.role ≠ .infixOrPrefix ∧ t.role ≠ .infixOrPostfix := by
  intro t member
  obtain ⟨p, -, stands⟩ := exists_part_of_mem stand t member
  rw [stands.role_eq]
  exact p.role_decided

theorem not_zerofix_of_stand (stand : List.Forall₂ (Stands table) ts ps)
    (atoms : ∀ name, .atom name ∉ ps) : ∀ t ∈ ts, t.role ≠ .zerofix := by
  intro t member atom
  obtain ⟨p, inside, stands⟩ := exists_part_of_mem stand t member
  cases stands with
  | operand term => cases atom
  | atom found role => exact atoms _ inside
  | @operator o f op found role form =>
      have same : f.role = .zerofix := role.symm.trans atom
      cases f <;> cases same

/-- An infix operator has no reading at the start. -/
theorem not_infixOp_of_viable {p : Part} (viable : Viable table [p]) : p.role ≠ .infixOp := by
  intro role
  have takesLeft : p.takesLeft = false := viable.2.2.1
  cases p with
  | operator f op =>
      cases takesLeft_eq_false_iff.1 takesLeft
      cases role
  | _ => cases role

/-- Tokens that stand for the parts of a reading. -/
theorem orderly_of_stand (wf : table.WellFormed) (stand : List.Forall₂ (Stands table) ts ps)
    (viable : Viable table ps) : Orderly table false ts := by
  obtain ⟨chain, -, -, atoms⟩ := viable_iff.1 viable
  have decided := decided_of_stand stand
  constructor
  case roles =>
    intro t member
    obtain ⟨start, stop, isOpen, -⟩ := decided t member
    exact ⟨start, stop, isOpen⟩
  case undecided =>
    exact fun t member => (decided t (List.mem_of_mem_tail member)).2.2.2
  case atom =>
    have before := List.forall₂_take (ts.length - 1) stand
    rw [← List.dropLast_eq_take, stand.length_eq, ← List.dropLast_eq_take] at before
    exact not_zerofix_of_stand before atoms
  case begins =>
    intro _
    rw [map_inExpression stand]
    exact viable.continues.begins
  case flagged =>
    refine ⟨by simp, ?_⟩
    rintro ⟨t, rfl, role⟩
    obtain ⟨p, rest, stands, behind, rfl⟩ := List.forall₂_cons_left_iff.1 stand
    cases behind
    rw [stands.role_eq] at role
    exact absurd role (not_infixOp_of_viable viable)
  case forms =>
    intro o member
    obtain ⟨p, -, stands⟩ := exists_part_of_mem stand _ member
    exact forms_of_stands stands
  case fits => exact isChain_fits stand wf chain

/-- An operator that may still be infix or postfix, behind tokens that stand for a reading. -/
theorem orderly_of_open {o : Occurrence} {q : Part} (wf : table.WellFormed)
    (role : o.role = .infixOrPostfix) (found : table.find? o.entry.name = some o.entry)
    (stand : List.Forall₂ (Stands table) ts (q :: ps)) (viable : Viable table (q :: ps))
    (closed : q.opens = false) : Orderly table false (.operator o :: ts) := by
  have before := orderly_of_stand wf stand viable
  obtain ⟨t, rest, rfl⟩ : ∃ t rest, ts = t :: rest := by
    cases stand
    exact ⟨_, _, rfl⟩
  constructor
  case roles => exact List.forall_mem_cons.2 ⟨by simp [Token.role, role], before.roles⟩
  case undecided => exact fun u member => (decided_of_stand stand u member).2.2.2
  case atom =>
    rw [List.dropLast_cons_cons, List.forall_mem_cons]
    exact ⟨by simp [Token.role, role], before.atom⟩
  case begins =>
    intro _
    have continues := viable.continues
    rw [show due (q :: ps) = false from closed] at continues
    have postfixed : (Token.operator o).role.inExpression = .postfixOp := by
      simp [Token.role, role, Role.inExpression]
    refine ⟨[], ?_⟩
    rw [List.append_nil, List.map_cons, List.reverse_cons, map_inExpression stand, postfixed]
    exact continues.postfixOp
  case flagged => simp
  case forms =>
    intro o' member
    rcases List.mem_cons.1 member with same | member
    · cases same
      refine ⟨found, fun f decided => ?_⟩
      rw [role] at decided
      cases decided
    · exact before.forms o' member
  case fits =>
    rw [List.isChain_cons_cons]
    refine ⟨fun left right _ form => ?_, before.fits⟩
    rw [Token.form?, Occurrence.form?, Entry.formFor?, role] at form
    cases form

end Decided

/-! ## Any calls -/

open Token

theorem orderly_of_lone {o : Occurrence} {item : Item}
    (arrived : Arrives table item (.operator o)) (role : o.role = .infixOp) :
    Orderly table true [.operator o] where
  roles := by simp [Token.role, role]
  undecided := by simp
  atom := by simp
  begins := by simp
  flagged := ⟨fun _ => ⟨_, rfl, role⟩, fun _ => rfl⟩
  forms := by
    intro o' member
    cases List.mem_singleton.1 member
    refine ⟨arrived.found, fun f decided => ?_⟩
    have plays := arrived.plays
    rw [role] at plays decided
    cases decided
    cases plays with
    | infixOp _ form _ =>
        rw [form]
        rfl
  fits := List.isChain_singleton _

/-- The tokens of a builder that keeps the readings of its items. -/
theorem Builder.Keeps.orderly {b : Builder} {items : List Item} (wf : table.WellFormed)
    (keeps : Builder.Keeps table items b) :
    ∃ tokens, b.tokens = tokens ++ [.start] ∧ Orderly table b.infixAtStart tokens := by
  cases keeps with
  | @settled ts ps settled =>
      refine ⟨ts, settled.tokens, ?_⟩
      rw [settled.flag]
      exact orderly_of_stand wf settled.stand settled.reads.viable
  | @opened o i p ts q ps before items_eq waits =>
      refine ⟨.operator o :: ts, waits.tokens, ?_⟩
      rw [waits.flag]
      exact orderly_of_open wf waits.opens.role waits.arrived.found waits.stand waits.reads.viable
        waits.opens.closed
  | @lone o items_eq tokens flag arrived role hopeless =>
      refine ⟨[.operator o], tokens, ?_⟩
      rw [flag]
      exact orderly_of_lone arrived role

namespace Workspace

/-- Whatever was asked of a builder, accepted or refused: its stack has the start mark at the base
and nowhere else and holds distinct places of the arena; the tokens there are in order; every
operator keeps the reference to the operator of the token below it. -/
theorem orderly_attemptAll (reachable : table.Reachable) (calls : List Call) :
    ∃ tokens, Leads (attemptAll table fresh calls).arena (attemptAll table fresh calls).stack
        (tokens ++ [.start]) ∧
      (attemptAll table fresh calls).stack.Nodup ∧
      Orderly table (attemptAll table fresh calls).infixAtStart tokens ∧
      (IndexedBuilder.attemptAll table .empty calls).lookUp table =
        { tokens := tokens ++ [.start]
          infixAtStart := (attemptAll table fresh calls).infixAtStart
          stats := (attemptAll table fresh calls).stats
          trace := (attemptAll table fresh calls).trace } ∧
      (IndexedBuilder.attemptAll table .empty calls).tokens.IsChain IndexedToken.Follows := by
  have wf := reachable.wellFormed
  have holds := holds_fresh.attemptAll table calls
  obtain ⟨items, keeps⟩ := Builder.sound_empty.attemptAll wf calls
  obtain ⟨tokens, tokens_eq, orderly⟩ := keeps.orderly wf
  have linked : IndexedBuilder.empty.tokens.IsChain IndexedToken.Follows :=
    List.isChain_singleton _
  refine ⟨tokens, ?_, (falling_fresh.attemptAll table calls).nodup, ?_, ?_,
    IndexedBuilder.follows_attemptAll linked calls⟩
  · rw [← tokens_eq]
    exact holds.tokens
  · rw [holds.flag]
    exact orderly
  · rw [IndexedBuilder.lookUp_attemptAll, holds.flag, holds.stats, holds.trace, ← tokens_eq]
    rfl

/-- After `- a - -` and a refused operand, each `-` has the role of its place. -/
theorem orderly_attemptAll_minus :
    let calls : List Call := [.operator "-", .operand (.atom "a"), .operand (.atom "b"),
      .operator "-", .operator "-"]
    ∃ tokens, (attemptAll .standard fresh calls).stack = [4, 3, 2, 1, 0] ∧
      Leads (attemptAll .standard fresh calls).arena [4, 3, 2, 1, 0] (tokens ++ [.start]) ∧
      tokens.map Token.role = [.prefixOp, .infixOp, .operand, .prefixOp] ∧
      Orderly .standard false tokens := by
  intro calls
  obtain ⟨tokens, leads, -, orderly, same, -⟩ := orderly_attemptAll .standard calls
  have above := congrArg (fun b : Builder => b.tokens.dropLast) same
  simp only [List.dropLast_concat] at above
  subst above
  exact ⟨_, rfl, leads, rfl, orderly⟩

end Workspace

end OperatorGrammar
