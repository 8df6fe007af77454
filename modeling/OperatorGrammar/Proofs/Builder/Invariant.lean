/-
# Proofs.Builder.Invariant -- a builder knows all readings of its items

Between two items the tokens of a builder stand for the only reading of the items that
were added (`Keeps.settled`), unless the latest token may still be infix or postfix; then
all readings agree on what stands below it (`Keeps.opened`).  A sequence that starts
with an infix operator has no reading, and the builder is flagged (`Keeps.lone`).

An item is added if the sequence still has a reading, or is an infix operator alone, and
`Keeps` holds again (`Keeps.add`).  It is refused if there is no reading with it, and
also if there are two that the next item can no longer tell apart: an infix before a
prefix operator, or a postfix before an infix operator (`Part.OpenPair`).
-/
import OperatorGrammar.Proofs.Builder.Receipt

namespace OperatorGrammar

set_option autoImplicit false

namespace Part

open Token

variable {table : Table} {items : List Item} {item : Item} {new : Token} {rs : List Part}

/-- The last two items read as an infix before a prefix operator, and as a postfix before
an infix operator. -/
def OpenPair (table : Table) (items : List Item) : Prop :=
  ∃ i x p y ps, Reads table items (.operator .prefixOp x :: .operator .infixOp i :: ps) ∧
    Reads table items (.operator .infixOp y :: .operator .postfixOp p :: ps)

/-- Behind another item, a reading goes on with a choice to which its last part does not
object. -/
theorem reads_concat_choices (wf : table.WellFormed) (arrives : Arrives table item new)
    (nonempty : items ≠ []) :
    Reads table (items ++ [item]) rs ↔
      ∃ p q ps, rs = p :: q :: ps ∧ Reads table items (q :: ps) ∧ p ∈ new.choices (!q.opens) ∧
        q.objection? p = none := by
  have meets : ∀ {p q : Part} {ps : List Part}, p.IsDefined table → Reads table items (q :: ps) →
      (Meets q p ↔ p.takesLeft = !q.opens ∧ q.objection? p = none) := fun isDefined reads =>
    meets_iff (placed_of_isDefined wf (reads.viable.isDefined _ List.mem_cons_self))
      (placed_of_isDefined wf isDefined)
  rw [reads_concat]
  constructor
  · rintro ⟨p, rest, rfl, reads, same, isDefined, joins⟩
    cases rest with
    | nil => exact absurd reads.items_eq.symm nonempty
    | cons q ps =>
        obtain ⟨sides, silent⟩ := (meets isDefined reads).1 joins.1
        exact ⟨p, q, ps, rfl, reads,
          (mem_choices_iff wf arrives _).2 ⟨same, isDefined, joins.2, sides⟩, silent⟩
  · rintro ⟨p, q, ps, rfl, reads, member, silent⟩
    obtain ⟨same, isDefined, notAtom, sides⟩ := (mem_choices_iff wf arrives _).1 member
    exact ⟨p, q :: ps, rfl, reads, same, isDefined,
      (meets isDefined reads).2 ⟨sides, silent⟩, notAtom⟩

end Part

namespace Builder

open OperatorGrammar.Part Token Adjacency

/-- Above the start mark, the tokens of a builder stand for the only reading of the items. -/
structure Settled (table : Table) (items : List Item) (b : Builder) (ts : List Token)
    (ps : List Part) : Prop where
  tokens : b.tokens = ts ++ [.start]
  flag : b.infixAtStart = false
  stand : List.Forall₂ (Stands table) ts ps
  reads : Reads table items ps
  only : ∀ rs, Reads table items rs → rs = ps

/-- The latest token of a builder is open behind the part `q`, for the infix operator `i` or
the postfix operator `p`; what stands below it is the same in every reading. -/
structure Waits (table : Table) (before : List Item) (b : Builder) (o : Occurrence)
    (i p : Operator) (ts : List Token) (q : Part) (ps : List Part) : Prop where
  tokens : b.tokens = .operator o :: (ts ++ [.start])
  flag : b.infixAtStart = false
  stand : List.Forall₂ (Stands table) ts (q :: ps)
  arrived : Arrives table (.operator o.entry.name) (.operator o)
  opens : IsOpen (.operator o) q i p
  reads : Reads table before (q :: ps)
  only : ∀ r rs, Reads table (before ++ [.operator o.entry.name]) (r :: rs) → rs = q :: ps

/-- The tokens of a builder and the readings of the items that were added to it. -/
inductive Keeps (table : Table) (items : List Item) (b : Builder) : Prop
  /-- The tokens stand for the only reading. -/
  | settled {ts : List Token} {ps : List Part} (settled : Settled table items b ts ps)
  /-- The latest token is open; those below it are the same in every reading. -/
  | opened {o : Occurrence} {i p : Operator} {ts : List Token} {q : Part} {ps : List Part}
      {before : List Item} (items_eq : items = before ++ [.operator o.entry.name])
      (waits : Waits table before b o i p ts q ps)
  /-- An infix operator starts the sequence. -/
  | lone {o : Occurrence} (items_eq : items = [.operator o.entry.name])
      (tokens : b.tokens = [.operator o, .start]) (flag : b.infixAtStart = true)
      (arrived : Arrives table (.operator o.entry.name) (.operator o)) (role : o.role = .infixOp)
      (hopeless : ∀ rs, ¬ Reads table items rs)

variable {table : Table} {items before : List Item} {item : Item} {b : Builder} {new : Token}

theorem keeps_empty : Keeps table [] .empty :=
  .settled ⟨rfl, rfl, .nil, reads_nil_iff.2 rfl, fun _ => reads_nil_iff.1⟩

/-- Why an item was refused: there is no reading with it, or an undecidable pair. -/
def Refused (table : Table) (items : List Item) (cause : Rejection) : Prop :=
  (2 ≤ items.length ∧ ∀ rs, ¬ Reads table items rs) ∨
    (∃ l r, cause = .ambiguous l r) ∧ OpenPair table items

/-- The outcome of adding a token for an item. -/
def Takes (table : Table) (items : List Item) (item : Item) (b : Builder) (new : Token) : Prop :=
  (∃ b', b.add new = .ok b' ∧ Keeps table (items ++ [item]) b') ∨
    ∃ cause, b.add new = .error (.rejected cause) ∧ Refused table (items ++ [item]) cause

theorem takes_of_reject {top : Token} {below : Stack Token} {cause : Rejection}
    (tokens : b.tokens = top :: below)
    (judged : judge ⟨top, new, b.tokens.length, b.infixAtStart⟩ = .ok (.reject cause))
    (nonempty : items ≠ []) (hopeless : ∀ rs, ¬ Reads table (items ++ [item]) rs) :
    Takes table items item b new := by
  refine Or.inr ⟨cause, add_of_receive_error (receive_reject tokens judged), Or.inl ⟨?_, hopeless⟩⟩
  have size := List.length_pos_iff.2 nonempty
  rw [List.length_append, List.length_singleton]
  omega

/-- The new token and its part join what is settled. -/
theorem keeps_of_receives {u : Token} {p : Part} {ps : List Part} (ts : List Token)
    (receives : b.Receives new u (ts ++ [.start]) false) (stands : u.Stands table p)
    (stand : List.Forall₂ (Stands table) ts ps) (reads : Reads table (items ++ [item]) (p :: ps))
    (only : ∀ rs, Reads table (items ++ [item]) rs → rs = p :: ps) :
    Takes table items item b new := by
  obtain ⟨b', added, tokens, flag⟩ := receives.add
  exact Or.inl ⟨b', added, .settled ⟨tokens, flag, .cons stands stand, reads, only⟩⟩

/-! ## Behind the start mark -/

theorem takes_start (wf : table.WellFormed) (arrives : Arrives table item new)
    (tokens : b.tokens = [.start]) (flag : b.infixAtStart = false) :
    Takes table [] item b new := by
  have first : ∀ rs, Reads table ([] ++ [item]) rs ↔
      ∃ p : Part, rs = [p] ∧ p.item = item ∧ p.IsDefined table ∧ Joins table [] p := by
    intro rs
    rw [reads_concat]
    simp [reads_nil_iff]
  rcases judge_start (n := b.tokens.length) wf arrives with
    ⟨p, u, judged, resolved, stands, forms⟩ | ⟨o, rfl, role, judged, noForm⟩
  · rw [← flag] at judged
    have receives := receives_joining tokens judged resolved
    refine keeps_of_receives [] receives (stands.follow _) .nil ?_ ?_
    · exact (first _).2 ⟨p, rfl, (forms p).2 rfl⟩
    · intro rs reads
      obtain ⟨p', rfl, form⟩ := (first rs).1 reads
      rw [(forms p').1 form]
  · rw [← flag] at judged
    obtain ⟨b', added, tokens', flag'⟩ := (receives_acceptFlagged tokens judged).add
    cases arrives with
    | operator found plays =>
        refine Or.inl ⟨b', added, .lone (o := { o with prev := none }) rfl tokens' flag'
          (.operator found plays) role ?_⟩
        intro rs reads
        obtain ⟨p', -, form⟩ := (first rs).1 reads
        exact noForm p' form

/-! ## Behind a decided token -/

section Decided

variable {t : Token} {ts : List Token} {q : Part} {ps : List Part}

theorem ne_nil_of_reads (reads : Reads table items (q :: ps)) : items ≠ [] := by
  rintro rfl
  cases reads_nil_iff.1 reads

theorem Settled.tokens_eq (settled : Settled table items b (t :: ts) ps) :
    b.tokens = t :: (ts ++ [.start]) := settled.tokens

theorem Settled.takes_of_admits {p : Part} (wf : table.WellFormed)
    (settled : Settled table items b (t :: ts) (q :: ps)) (arrives : Arrives table item new)
    (choices : new.choices (!q.opens) = [p])
    (admits : Admits ⟨t, new, b.tokens.length, false⟩ q p) :
    Takes table items item b new := by
  have nonempty := ne_nil_of_reads settled.reads
  rw [Admits, ← settled.flag] at admits
  cases objects : q.objection? p with
  | some cause =>
      rw [objects] at admits
      refine takes_of_reject settled.tokens_eq admits nonempty fun rs reads' => ?_
      obtain ⟨p', q', ps', rfl, reads', member, silent⟩ :=
        (reads_concat_choices wf arrives nonempty).1 reads'
      cases settled.only _ reads'
      rw [choices, List.mem_singleton] at member
      rw [member, objects] at silent
      cases silent
  | none =>
      rw [objects] at admits
      obtain ⟨u, resolved, stands⟩ := exists_resolve_of_mem_choices arrives
        (show p ∈ new.choices (!q.opens) by rw [choices]; exact List.mem_singleton_self p)
      refine keeps_of_receives (t :: ts) (receives_joining settled.tokens_eq admits resolved)
        (stands.follow _) settled.stand ?_ ?_
      · exact (reads_concat_choices wf arrives nonempty).2
          ⟨p, q, ps, rfl, settled.reads, by rw [choices]; exact List.mem_singleton_self p, objects⟩
      · intro rs reads'
        obtain ⟨p', q', ps', rfl, reads', member, -⟩ :=
          (reads_concat_choices wf arrives nonempty).1 reads'
        cases settled.only _ reads'
        rw [choices, List.mem_singleton] at member
        rw [member]

theorem Settled.takes_of_refuses (wf : table.WellFormed)
    (settled : Settled table items b (t :: ts) (q :: ps)) (arrives : Arrives table item new)
    (choices : new.choices (!q.opens) = [])
    (refuses : Refuses ⟨t, new, b.tokens.length, false⟩) : Takes table items item b new := by
  have nonempty := ne_nil_of_reads settled.reads
  obtain ⟨cause, judged⟩ := refuses
  rw [← settled.flag] at judged
  refine takes_of_reject settled.tokens_eq judged nonempty fun rs reads' => ?_
  obtain ⟨p', q', ps', rfl, reads', member, -⟩ :=
    (reads_concat_choices wf arrives nonempty).1 reads'
  cases settled.only _ reads'
  rw [choices] at member
  cases member

/-- Behind a token that closes an operand, a name that is infix or postfix stays open. -/
theorem takes_of_open (wf : table.WellFormed) (arrives : Arrives table item new)
    (role : new.role = .infixOrPostfix)
    (receives : b.Receives new (new.follow t) (t :: (ts ++ [.start])) false)
    (stand : List.Forall₂ (Stands table) (t :: ts) (q :: ps)) (closed : q.opens = false)
    (reads : Reads table items (q :: ps))
    (only : ∀ r rs, Reads table (items ++ [item]) (r :: rs) → rs = q :: ps) :
    Takes table items item b new := by
  obtain ⟨b', added, tokens, flag⟩ := receives.add
  cases stand with
  | cons stands below =>
      obtain ⟨i, p, infixForm, postfixForm, -, -⟩ := arrives.offers.of_infixOrPostfix role
      cases arrives with
      | operand term => cases role
      | @operator o found plays =>
          have tokens' : b'.tokens =
              .operator { o with prev := t.form? } :: ((t :: ts) ++ [.start]) := tokens
          refine Or.inl ⟨b', added, .opened (o := { o with prev := t.form? }) rfl
            ⟨tokens', flag, .cons stands below, .operator found plays,
              ⟨role, infixForm, postfixForm, ?_, ?_, closed⟩, reads, only⟩⟩
          · exact stands.form?_eq
          · exact stands.placed wf

theorem Settled.takes (wf : table.WellFormed)
    (settled : Settled table items b (t :: ts) (q :: ps)) (arrives : Arrives table item new) :
    Takes table items item b new := by
  have leads := (List.forall₂_cons.1 settled.stand).1.leads
  cases side : q.opens with
  | true =>
      rcases judge_opening (n := b.tokens.length) leads side arrives.offers with
        ⟨choices, refuses⟩ | ⟨p, choices, admits⟩
      · exact settled.takes_of_refuses wf arrives (by rw [side]; exact choices) refuses
      · exact settled.takes_of_admits wf arrives (by rw [side]; exact choices) admits
  | false =>
      rcases judge_closed (n := b.tokens.length) leads side arrives.offers with
        ⟨choices, refuses⟩ | ⟨p, choices, admits⟩ | ⟨role, judged⟩
      · exact settled.takes_of_refuses wf arrives (by rw [side]; exact choices) refuses
      · exact settled.takes_of_admits wf arrives (by rw [side]; exact choices) admits
      · rw [← settled.flag] at judged
        refine takes_of_open wf arrives role (receives_accept settled.tokens_eq judged)
          settled.stand side settled.reads ?_
        intro r rs reads'
        obtain ⟨p', q', ps', same, inner, -⟩ :=
          (reads_concat_choices wf arrives (ne_nil_of_reads settled.reads)).1 reads'
        cases same
        exact settled.only _ inner

end Decided

/-! ## Behind an open token -/

section Opened

variable {o : Occurrence} {i p : Operator} {ts : List Token} {q : Part} {ps : List Part}

theorem Waits.mem_choices (waits : Waits table before b o i p ts q ps) {l : Part} :
    l ∈ (Token.operator o).choices true ↔
      l = .operator .infixOp i ∨ l = .operator .postfixOp p := by
  obtain ⟨i', p', infixForm, postfixForm, -, taking⟩ :=
    waits.arrived.offers.of_infixOrPostfix waits.opens.role
  rw [waits.opens.infixForm] at infixForm
  rw [waits.opens.postfixForm] at postfixForm
  cases infixForm
  cases postfixForm
  rw [taking]
  simp

/-- One item further the open token is decided one way or the other, and then no two
neighbours object. -/
theorem Waits.reads_concat (wf : table.WellFormed) (waits : Waits table before b o i p ts q ps)
    (arrives : Arrives table item new) {rs : List Part} :
    Reads table ((before ++ [.operator o.entry.name]) ++ [item]) rs ↔
      ∃ l r, rs = r :: l :: q :: ps ∧ (l = .operator .infixOp i ∨ l = .operator .postfixOp p) ∧
        r ∈ new.choices (!l.opens) ∧ (q.objection? l).or (l.objection? r) = none := by
  have behind := ne_nil_of_reads waits.reads
  have closed := waits.opens.closed
  rw [reads_concat_choices wf arrives (by simp)]
  constructor
  · rintro ⟨r, l, rest, rfl, reads', member, silent⟩
    cases waits.only _ _ reads'
    obtain ⟨l', q', ps', same, -, form, own⟩ :=
      (reads_concat_choices wf waits.arrived behind).1 reads'
    cases same
    rw [closed] at form
    exact ⟨l, r, rfl, waits.mem_choices.1 form, member, by rw [own, silent]; rfl⟩
  · rintro ⟨l, r, rfl, form, member, silent⟩
    obtain ⟨own, silent⟩ := Option.or_eq_none_iff.1 silent
    refine ⟨r, l, _, rfl, ?_, member, silent⟩
    have form := waits.mem_choices.2 form
    exact (reads_concat_choices wf waits.arrived behind).2
      ⟨l, q, ps, rfl, waits.reads, by rw [closed]; exact form, own⟩

/-- The open token is decided for `l` and the new one joins as `r`, if that is the only
way to go on. -/
theorem Waits.takes_of_resolve {l r : Part} (waits : Waits table before b o i p ts q ps)
    (arrives : Arrives table item new)
    (form : l = .operator .infixOp i ∨ l = .operator .postfixOp p)
    (member : r ∈ new.choices (!l.opens))
    (judged : judge ⟨.operator o, new, b.tokens.length, b.infixAtStart⟩ =
      .ok (.resolve l.role r.role))
    (reads : Reads table (items ++ [item]) (r :: l :: q :: ps))
    (only : ∀ rs, Reads table (items ++ [item]) rs → rs = r :: l :: q :: ps) :
    Takes table items item b new := by
  obtain ⟨top, resolvedTop, standsTop⟩ :=
    exists_resolve_of_mem_choices waits.arrived (waits.mem_choices.2 form)
  obtain ⟨u, resolved, stands⟩ := exists_resolve_of_mem_choices arrives member
  exact keeps_of_receives (top :: ts) (receives_resolve waits.tokens judged resolvedTop resolved)
    (stands.follow _) (.cons standsTop waits.stand) reads only

theorem Waits.takes_of_decides {l r : Part} (wf : table.WellFormed)
    (waits : Waits table before b o i p ts q ps) (arrives : Arrives table item new)
    (form : l = .operator .infixOp i ∨ l = .operator .postfixOp p)
    (member : r ∈ new.choices (!l.opens))
    (sole : ∀ l' r', l' = .operator .infixOp i ∨ l' = .operator .postfixOp p →
      r' ∈ new.choices (!l'.opens) → l' = l ∧ r' = r)
    (decides : Decides ⟨.operator o, new, b.tokens.length, false⟩ q l r) :
    Takes table (before ++ [.operator o.entry.name]) item b new := by
  rw [Decides, ← waits.flag] at decides
  cases objects : (q.objection? l).or (l.objection? r) with
  | some cause =>
      rw [objects] at decides
      refine takes_of_reject waits.tokens decides (by simp) fun rs reads => ?_
      obtain ⟨l', r', -, form', member', silent⟩ := (waits.reads_concat wf arrives).1 reads
      obtain ⟨rfl, rfl⟩ := sole l' r' form' member'
      rw [objects] at silent
      cases silent
  | none =>
      rw [objects] at decides
      refine waits.takes_of_resolve arrives form member decides ?_ fun rs reads => ?_
      · exact (waits.reads_concat wf arrives).2 ⟨l, r, rfl, form, member, objects⟩
      · obtain ⟨l', r', rfl, form', member', -⟩ := (waits.reads_concat wf arrives).1 reads
        obtain ⟨rfl, rfl⟩ := sole l' r' form' member'
        rfl

/-- If the new token stays open, the one in front of it is a postfix operator. -/
theorem Waits.takes_of_open (wf : table.WellFormed) (waits : Waits table before b o i p ts q ps)
    (arrives : Arrives table item new)
    (role : new.role = .infixOrPostfix) (free : new.choices false = [])
    (judged : judge ⟨.operator o, new, b.tokens.length, false⟩ =
      .ok ((Verdict.resolve .postfixOp .infixOrPostfix).unless
        (q.objection? (.operator .postfixOp p)))) :
    Takes table (before ++ [.operator o.entry.name]) item b new := by
  have only : ∀ rs, Reads table ((before ++ [.operator o.entry.name]) ++ [item]) rs →
      ∃ r, rs = r :: .operator .postfixOp p :: q :: ps ∧
        q.objection? (.operator .postfixOp p) = none := by
    intro rs reads
    obtain ⟨l, r, rfl, rfl | rfl, member, silent⟩ := (waits.reads_concat wf arrives).1 reads
    · rw [show (!(Part.operator .infixOp i).opens) = false from rfl, free] at member
      cases member
    · exact ⟨r, rfl, (Option.or_eq_none_iff.1 silent).1⟩
  rw [← waits.flag] at judged
  cases objects : q.objection? (.operator .postfixOp p) with
  | some cause =>
      rw [objects] at judged
      refine takes_of_reject waits.tokens judged (by simp) fun rs reads => ?_
      obtain ⟨-, -, silent⟩ := only rs reads
      rw [objects] at silent
      cases silent
  | none =>
      rw [objects] at judged
      have form : Part.operator .postfixOp p ∈ (Token.operator o).choices true :=
        waits.mem_choices.2 (Or.inr rfl)
      obtain ⟨top, resolvedTop, standsTop⟩ := exists_resolve_of_mem_choices waits.arrived form
      have stays : new.resolve .infixOrPostfix = .ok new := by
        unfold resolve
        rw [if_pos role]
      refine Builder.takes_of_open wf arrives role
        (receives_resolve waits.tokens judged resolvedTop stays) (.cons standsTop waits.stand) rfl
        ?_ ?_
      · exact (reads_concat_choices wf waits.arrived (ne_nil_of_reads waits.reads)).2
          ⟨_, q, ps, rfl, waits.reads, by rw [waits.opens.closed]; exact form, objects⟩
      · intro r rs reads
        obtain ⟨r', same, -⟩ := only _ reads
        cases same
        rfl

/-- If both tokens are open, the objections tell the two ways apart, unless there is
none to either. -/
theorem Waits.takes_pair {x y : Operator} (wf : table.WellFormed)
    (waits : Waits table before b o i p ts q ps) (arrives : Arrives table item new)
    (free : new.choices false = [.operator .prefixOp x])
    (taking : new.choices true = [.operator .infixOp y])
    (judged : judge ⟨.operator o, new, b.tokens.length, false⟩ = .ok (
      match (q.objection? (.operator .infixOp i)).or
          ((Part.operator .infixOp i).objection? (.operator .prefixOp x)),
        (q.objection? (.operator .postfixOp p)).or
          ((Part.operator .postfixOp p).objection? (.operator .infixOp y)) with
      | none, none => .reject (.ambiguous (Token.operator o).describe new.describe)
      | none, some _ => .resolve .infixOp .prefixOp
      | some _, none => .resolve .postfixOp .infixOp
      | some _, some cause => .reject cause)) :
    Takes table (before ++ [.operator o.entry.name]) item b new := by
  have ways : ∀ rs, Reads table ((before ++ [.operator o.entry.name]) ++ [item]) rs ↔
      (rs = .operator .prefixOp x :: .operator .infixOp i :: q :: ps ∧
        (q.objection? (.operator .infixOp i)).or
          ((Part.operator .infixOp i).objection? (.operator .prefixOp x)) = none) ∨
      (rs = .operator .infixOp y :: .operator .postfixOp p :: q :: ps ∧
        (q.objection? (.operator .postfixOp p)).or
          ((Part.operator .postfixOp p).objection? (.operator .infixOp y)) = none) := by
    intro rs
    rw [waits.reads_concat wf arrives]
    constructor
    · rintro ⟨l, r, rfl, rfl | rfl, member, silent⟩
      · rw [show (!(Part.operator .infixOp i).opens) = false from rfl, free,
          List.mem_singleton] at member
        subst member
        exact Or.inl ⟨rfl, silent⟩
      · rw [show (!(Part.operator .postfixOp p).opens) = true from rfl, taking,
          List.mem_singleton] at member
        subst member
        exact Or.inr ⟨rfl, silent⟩
    · rintro (⟨rfl, silent⟩ | ⟨rfl, silent⟩)
      · exact ⟨_, _, rfl, Or.inl rfl, by simp [Part.opens, free], silent⟩
      · exact ⟨_, _, rfl, Or.inr rfl, by simp [Part.opens, taking], silent⟩
  rw [← waits.flag] at judged
  generalize asInfix : (q.objection? (.operator .infixOp i)).or
    ((Part.operator .infixOp i).objection? (.operator .prefixOp x)) = first at judged ways
  generalize asPostfix : (q.objection? (.operator .postfixOp p)).or
    ((Part.operator .postfixOp p).objection? (.operator .infixOp y)) = second at judged ways
  cases first with
  | none =>
      cases second with
      | none =>
          refine Or.inr ⟨_, add_of_receive_error (receive_reject waits.tokens judged),
            Or.inr ⟨⟨_, _, rfl⟩, i, x, p, y, q :: ps, ?_, ?_⟩⟩
          · exact (ways _).2 (Or.inl ⟨rfl, rfl⟩)
          · exact (ways _).2 (Or.inr ⟨rfl, rfl⟩)
      | some cause =>
          refine waits.takes_of_resolve (r := .operator .prefixOp x) arrives
            (Or.inl rfl) (by simp [Part.opens, free]) judged ((ways _).2 (Or.inl ⟨rfl, rfl⟩)) ?_
          intro rs reads
          rcases (ways rs).1 reads with ⟨same, -⟩ | ⟨-, silent⟩
          · exact same
          · cases silent
  | some cause =>
      cases second with
      | none =>
          refine waits.takes_of_resolve (r := .operator .infixOp y) arrives
            (Or.inr rfl) (by simp [Part.opens, taking]) judged ((ways _).2 (Or.inr ⟨rfl, rfl⟩)) ?_
          intro rs reads
          rcases (ways rs).1 reads with ⟨-, silent⟩ | ⟨same, -⟩
          · cases silent
          · exact same
      | some cause' =>
          refine takes_of_reject waits.tokens judged (by simp) fun rs reads => ?_
          rcases (ways rs).1 reads with ⟨-, silent⟩ | ⟨-, silent⟩
          · cases silent
          · cases silent

theorem Waits.takes (wf : table.WellFormed) (waits : Waits table before b o i p ts q ps)
    (arrives : Arrives table item new) :
    Takes table (before ++ [.operator o.entry.name]) item b new := by
  rcases judge_open (n := b.tokens.length) waits.opens arrives.offers with
    ⟨r, taking, free, decides⟩ | ⟨r, free, taking, decides⟩ | ⟨free, role, judged⟩ |
    ⟨x, y, -, free, taking, judged⟩
  · refine waits.takes_of_decides wf arrives (Or.inl rfl)
      (by simp [Part.opens, free]) ?_ decides
    rintro l' r' (rfl | rfl) member
    · exact ⟨rfl, by simpa [Part.opens, free] using member⟩
    · simp [Part.opens, taking] at member
  · refine waits.takes_of_decides wf arrives (Or.inr rfl)
      (by simp [Part.opens, taking]) ?_ decides
    rintro l' r' (rfl | rfl) member
    · simp [Part.opens, free] at member
    · exact ⟨rfl, by simpa [Part.opens, taking] using member⟩
  · exact waits.takes_of_open wf arrives role free judged
  · exact waits.takes_pair wf arrives free taking judged

end Opened

/-! ## Runs -/

/-- One token: it is added and the builder knows the readings again, or it is refused for
good reason. -/
theorem Keeps.add (wf : table.WellFormed) (keeps : Keeps table items b)
    (arrives : Arrives table item new) : Takes table items item b new := by
  cases keeps with
  | @settled ts ps settled =>
      match ts, ps, settled.stand with
      | [], [], .nil =>
          obtain rfl : [] = items := settled.reads.items_eq
          exact takes_start wf arrives settled.tokens settled.flag
      | t :: ts, q :: ps, .cons _ _ => exact settled.takes wf arrives
  | opened items_eq waits =>
      subst items_eq
      exact waits.takes wf arrives
  | lone items_eq tokens flag arrived role hopeless =>
      have judged := judge_flagged (n := b.tokens.length)
        (show (Token.operator _).role = _ from role) arrives.offers
      rw [← flag] at judged
      exact takes_of_reject tokens judged (by simp [items_eq])
        (not_reads_append hopeless [item])

theorem arrives_addOperator {name : String} {e : Entry} {role : Role}
    (found : table.find? name = some e) (plays : e.role? = some role) :
    Arrives table (.operator name) (.operator { entry := e, role }) := by
  obtain rfl := (Table.mem_of_find? found).2
  exact .operator (o := { entry := e, role }) found (Entry.plays_of_role? plays)

/-- Why an item was not added to a sequence. -/
def RefusedItem (table : Table) (items : List Item) (item : Item) (cause : Rejection) : Prop :=
  (∃ name, item = .operator name ∧ table.find? name = none) ∨
    Refused table (items ++ [item]) cause

theorem Keeps.addItem (wf : table.WellFormed) (keeps : Keeps table items b) (item : Item) :
    (∃ b', Builder.addItem table b item = .ok b' ∧ Keeps table (items ++ [item]) b') ∨
      ∃ cause, Builder.addItem table b item = .error (.rejected cause) ∧
        RefusedItem table items item cause := by
  cases item with
  | operand term =>
      rcases keeps.add wf (.operand term) with added | ⟨cause, refused, why⟩
      · exact Or.inl added
      · exact Or.inr ⟨cause, refused, Or.inr why⟩
  | operator name =>
      rw [Builder.addItem, addOperator]
      cases found : table.find? name with
      | none => exact Or.inr ⟨_, rfl, Or.inl ⟨name, rfl, found⟩⟩
      | some e =>
          obtain ⟨role, plays⟩ := Table.exists_role? wf found
          simp only [plays]
          rcases keeps.add wf (arrives_addOperator found plays) with added | ⟨cause, refused, why⟩
          · exact Or.inl added
          · exact Or.inr ⟨cause, refused, Or.inr why⟩

/-- A builder that took the items keeps their readings. -/
theorem keeps_of_addItems (wf : table.WellFormed) {more : List Item} {b' : Builder}
    (keeps : Keeps table items b) (added : addItems table b more = .ok b') :
    Keeps table (items ++ more) b' := by
  induction more generalizing items b with
  | nil =>
      cases added
      rw [List.append_nil]
      exact keeps
  | cons item more ih =>
      rw [addItems, List.foldlM_cons] at added
      rcases keeps.addItem wf item with ⟨b₁, first, keeps₁⟩ | ⟨cause, refused, -⟩
      · rw [first] at added
        rw [List.append_cons]
        exact ih keeps₁ added
      · rw [refused] at added
        cases added

/-- A new builder that took the items keeps their readings. -/
theorem keeps_of_added {b' : Builder} (wf : table.WellFormed)
    (added : addItems table .empty items = .ok b') : Keeps table items b' :=
  keeps_of_addItems wf keeps_empty added

theorem addItems_concat (table : Table) (b : Builder) (items : List Item) (item : Item) :
    addItems table b (items ++ [item]) =
      addItems table b items >>= fun b => Builder.addItem table b item := by
  simp [addItems]

/-- A sequence is taken as a whole, or up to the first item that is refused. -/
theorem addItems_or_refused (wf : table.WellFormed) (items : List Item) :
    (∃ b, addItems table .empty items = .ok b ∧ Keeps table items b) ∨
      ∃ before item after b cause, items = before ++ item :: after ∧
        addItems table .empty before = .ok b ∧
        Builder.addItem table b item = .error (.rejected cause) ∧
        RefusedItem table before item cause := by
  induction items using List.reverseRecOn with
  | nil => exact Or.inl ⟨.empty, rfl, keeps_empty⟩
  | append_singleton items item ih =>
      rcases ih with ⟨b, added, keeps⟩ | ⟨before, first, after, b, cause, rfl, added, refused, why⟩
      · rcases keeps.addItem wf item with ⟨b', added', keeps'⟩ | ⟨cause, refused, why⟩
        · refine Or.inl ⟨b', ?_, keeps'⟩
          rw [addItems_concat, added]
          exact added'
        · exact Or.inr ⟨items, item, [], b, cause, rfl, added, refused, why⟩
      · exact Or.inr ⟨before, first, after ++ [item], b, cause, by simp, added, refused, why⟩

/-- A sequence whose item was refused has no parse, however it goes on, unless the item
makes an undecidable pair. -/
theorem RefusedItem.final_or_pair {cause : Rejection}
    (refused : RefusedItem table items item cause) :
    (∀ after, ∀ t : Tree, ¬ t.IsParse table (items ++ item :: after)) ∨
      (∃ l r, cause = .ambiguous l r) ∧ OpenPair table (items ++ [item]) := by
  rcases refused with ⟨name, rfl, absent⟩ | ⟨several, hopeless⟩ | pair
  · refine Or.inl fun after t parse => ?_
    obtain ⟨p, member, same⟩ : ∃ p ∈ t.parts, p.item = .operator name := by
      rw [← List.mem_map]
      change Item.operator name ∈ t.items
      rw [parse.items_eq]
      simp
    have isDefined := parse.isDefined p member
    cases p with
    | operand term => simp [Part.item] at same
    | atom other =>
        simp only [Part.item, Item.operator.injEq] at same
        rw [IsDefined, same, absent] at isDefined
        cases isDefined
    | operator f op =>
        simp only [Part.item, Item.operator.injEq] at same
        obtain ⟨e, found, -⟩ := isDefined
        rw [same, absent] at found
        cases found
  · refine Or.inl fun after t => ?_
    rw [List.append_cons]
    exact not_isParse_of_not_reads hopeless several after t
  · exact Or.inr pair

end Builder

end OperatorGrammar
