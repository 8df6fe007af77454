/-
# Proofs.Builder.Conclusion -- what a conclusion makes of the readings

At the stop mark every open role is decided, and the tokens stand for a sentence that
holds the parts of every parse of the items (`Decided`).  A stop mark is refused only if
the items have no parse (`Keeps.stop`).

A decided builder has all that the reduction needs, so its end is a term or a tie
between operators.  A term is the value of the only parse (`Decided.exists_tree`); a clash
means that there is no parse, and an ambiguity that there is not just one
(`Decided.of_stuck`).
-/
import Mathlib.Logic.ExistsUnique
import OperatorGrammar.Proofs.Builder.Invariant
import OperatorGrammar.Proofs.Shunting.Exact

namespace OperatorGrammar

set_option autoImplicit false

namespace Builder

open OperatorGrammar.Part Token Adjacency

variable {table : Table} {items : List Item} {b : Builder} {q : Part} {ps : List Part}

/-- The tokens stand for a sentence of the items, and every parse has its parts. -/
structure Decided (table : Table) (items : List Item) (b : Builder) (ps : List Part) :
    Prop where
  stand : ∃ ts, b.tokens = ts ++ [.start] ∧ List.Forall₂ (Stands table) ts ps.reverse
  sentence : IsSentence ps
  isDefined : ∀ p ∈ ps, p.IsDefined table
  atomsAllowed : AtomsAllowed table ps
  items_eq : ps.map Part.item = items
  only : ∀ t : Tree, t.IsParse table items → t.parts = ps

/-! ## The stop mark -/

/-- How a builder takes the stop mark. -/
def Stops (table : Table) (items : List Item) (b : Builder) : Prop :=
  (∃ token b' ps, b.receive .stop = .ok (token, b') ∧ Decided table items b' ps) ∨
    ∃ cause, b.receive .stop = .error (.rejected cause) ∧ ∀ t : Tree, ¬ t.IsParse table items

/-- A single operator that waits for an operand becomes an atom. -/
theorem stops_alone {o : Occurrence} (tokens : b.tokens = [.operator o, .start])
    (role : o.role = .infixOp ∨ o.role = .prefixOp)
    (found : table.find? o.entry.name = some o.entry)
    (items_eq : items = [.operator o.entry.name])
    (due : ∀ p ps, Reads table items (p :: ps) → p.opens = true) : Stops table items b := by
  have judged : judge ⟨.operator o, .stop, b.tokens.length, b.infixAtStart⟩ =
      .ok (.resolve .zerofix .stop) := by
    rw [judge_stop_opening (show (Token.operator o).role = _ ∨ _ from role), tokens]
    rfl
  have resolved : (Token.operator o).resolve .zerofix =
      .ok (.operator { o with role := .zerofix }) := by
    rcases role with role | role <;> simp [resolve, Token.role, role, Role.mayBecome]
  obtain ⟨b', received, tokens', -⟩ :=
    receives_resolve (b := b) tokens judged resolved (u := .stop) rfl
  refine Or.inl ⟨_, b', [.atom o.entry.name], received, ?_⟩
  refine ⟨⟨[_], tokens', .cons (.atom (o := { o with role := .zerofix }) found rfl) .nil⟩,
    isSentence_singleton rfl rfl, ?_, trivial, items_eq.symm, ?_⟩
  · intro p member
    rw [List.mem_singleton.1 member, IsDefined, found]
    rfl
  · intro t parse
    rcases reads_of_isParse parse with ⟨name, alone⟩ | ⟨p, ps, -, reads, closed⟩
    · have same := parse.items_eq
      rw [Tree.items, alone, items_eq] at same
      simp only [List.map_singleton, Part.item, List.cons.injEq, Item.operator.injEq,
        and_true] at same
      rw [alone, same]
    · rw [due p ps reads] at closed
      cases closed

/-- What reads a single name and does not wait for an operand is the atom. -/
theorem eq_atom_of_reads {name : String} (reads : Reads table [.operator name] (q :: ps))
    (closed : q.opens = false) : q :: ps = [.atom name] := by
  rw [← List.nil_append [Item.operator name]] at reads
  obtain ⟨p, rest, same, before, item_eq, -, joins⟩ := reads_concat.1 reads
  cases same
  obtain rfl := reads_nil_iff.1 before
  cases q with
  | operand term => simp [Part.item] at item_eq
  | atom other => simpa [Part.item] using item_eq
  | operator f op =>
      cases takesLeft_eq_false_iff.1 joins.1
      cases closed

/-- The only reading that does not wait for an operand is the sentence. -/
theorem decided_of_reads (ts : List Token) (tokens : b.tokens = ts ++ [.start])
    (stand : List.Forall₂ (Stands table) ts (q :: ps)) (reads : Reads table items (q :: ps))
    (closed : q.opens = false)
    (only : ∀ p rs, Reads table items (p :: rs) → p.opens = false → p :: rs = q :: ps) :
    Decided table items b (q :: ps).reverse := by
  refine ⟨⟨ts, tokens, by rw [List.reverse_reverse]; exact stand⟩,
    isSentence_reverse reads.viable closed, ?_, atomsAllowed_reverse reads.viable, ?_, ?_⟩
  · exact fun p member => reads.viable.isDefined p (List.mem_reverse.1 member)
  · rw [List.map_reverse, reads.items_eq]
  · intro t parse
    rcases reads_of_isParse parse with ⟨name, alone⟩ | ⟨p, rs, reversed, reads', closed'⟩
    · have single : items = [.operator name] := by
        rw [← parse.items_eq, Tree.items, alone]
        rfl
      subst single
      rw [eq_atom_of_reads reads closed, alone]
      rfl
    · rw [only p rs reads' closed'] at reversed
      rw [← reversed, List.reverse_reverse]

theorem not_isParse_of_due (several : 2 ≤ items.length)
    (due : ∀ p ps, Reads table items (p :: ps) → p.opens = true) (t : Tree) :
    ¬ t.IsParse table items := by
  intro parse
  rcases reads_of_isParse parse with ⟨name, alone⟩ | ⟨p, ps, -, reads, closed⟩
  · rw [← parse.items_eq, Tree.items, alone] at several
    simp at several
  · rw [due p ps reads] at closed
    cases closed

theorem length_of_reads {rs : List Part} (reads : Reads table items rs) :
    items.length = rs.length := by
  rw [← reads.items_eq, List.length_reverse, List.length_map]

theorem Settled.stop {t : Token} {ts : List Token} (wf : table.WellFormed)
    (settled : Settled table items b (t :: ts) (q :: ps)) : Stops table items b := by
  obtain ⟨stands, stand⟩ := List.forall₂_cons.1 settled.stand
  have tokens := settled.tokens_eq
  have reads := settled.reads
  have count : ts.length = ps.length := stand.length_eq
  have height : b.tokens.length = ps.length + 2 := by simp [tokens, count]
  cases side : q.opens with
  | false =>
      have several : b.tokens.length = 2 → ∀ op, q ≠ .operator .postfixOp op := by
        rintro alone op rfl
        obtain rfl : ps = [] := List.length_eq_zero_iff.1 (by omega)
        have first := reads.viable.2.2.1
        cases first
      have judged : judge ⟨t, .stop, b.tokens.length, b.infixAtStart⟩ = .ok .accept :=
        judge_stop_closed stands.leads side several
      obtain ⟨b', received, tokens', -⟩ := receives_accept tokens judged
      exact Or.inl ⟨_, b', _, received, decided_of_reads (t :: ts) tokens'
        settled.stand reads side fun p rs reads' _ => settled.only _ reads'⟩
  | true =>
      have due : ∀ p rs, Reads table items (p :: rs) → p.opens = true := by
        intro p rs reads'
        cases settled.only _ reads'
        exact side
      have role : t.role = .infixOp ∨ t.role = .prefixOp := by
        cases stands.leads with
        | leaf _ closed _ => rw [side] at closed; cases closed
        | infixOp role _ _ => exact Or.inl role
        | prefixOp role _ _ => exact Or.inr role
        | postfixOp _ _ part_eq => rw [part_eq] at side; cases side
      by_cases alone : ps = []
      · subst alone
        obtain rfl : ts = [] := List.length_eq_zero_iff.1 count
        cases stands with
        | operand term => cases side
        | atom found _ => cases side
        | @operator o f op found _ form =>
            refine stops_alone tokens role found ?_ due
            rw [← reads.items_eq, ← (Table.form_placed wf found form).1]
            rfl
      · have judged := judge_stop_opening (n := b.tokens.length) (f := b.infixAtStart) role
        have size := List.length_pos_iff.2 alone
        rw [if_neg (by omega)] at judged
        refine Or.inr ⟨_, receive_reject tokens judged, not_isParse_of_due ?_ due⟩
        rw [length_of_reads reads, List.length_cons]
        omega

/-- An open token in front of the stop mark is a postfix operator. -/
theorem Waits.stop {o : Occurrence} {i p : Operator} {ts : List Token} {before : List Item}
    (wf : table.WellFormed) (waits : Waits table before b o i p ts q ps) :
    Stops table (before ++ [.operator o.entry.name]) b := by
  have behind := ne_nil_of_reads waits.reads
  have form : Part.operator .postfixOp p ∈ (Token.operator o).choices true :=
    waits.mem_choices.2 (Or.inr rfl)
  have closed : ∀ r rs, Reads table (before ++ [.operator o.entry.name]) (r :: rs) →
      r.opens = false → r :: rs = .operator .postfixOp p :: q :: ps ∧
        q.objection? (.operator .postfixOp p) = none := by
    intro r rs reads closed
    obtain ⟨r', q', ps', same, -, member, silent⟩ :=
      (reads_concat_choices wf waits.arrived behind).1 reads
    cases waits.only r rs reads
    cases same
    rw [waits.opens.closed] at member
    rcases waits.mem_choices.1 member with rfl | rfl
    · cases closed
    · exact ⟨rfl, silent⟩
  have count : ts.length = ps.length + 1 := waits.stand.length_eq
  have judged := judge_stop_open (n := b.tokens.length) waits.opens
    (by rw [waits.tokens]; simp [count])
  rw [← waits.flag] at judged
  cases objects : q.objection? (.operator .postfixOp p) with
  | some cause =>
      rw [objects] at judged
      refine Or.inr ⟨cause, receive_reject waits.tokens judged, not_isParse_of_due ?_ ?_⟩
      · have size := List.length_pos_iff.2 behind
        rw [List.length_append, List.length_singleton]
        omega
      · intro r rs reads
        cases side : r.opens with
        | true => rfl
        | false =>
            obtain ⟨-, silent⟩ := closed r rs reads side
            rw [objects] at silent
            cases silent
  | none =>
      rw [objects] at judged
      obtain ⟨u, resolved, stands⟩ := exists_resolve_of_mem_choices waits.arrived form
      obtain ⟨b', received, tokens', -⟩ :=
        receives_resolve (b := b) waits.tokens judged resolved (u := .stop) rfl
      refine Or.inl ⟨_, b', _, received, decided_of_reads (u :: ts) tokens'
        (.cons stands waits.stand) ?_ rfl fun r rs reads side => (closed r rs reads side).1⟩
      exact (reads_concat_choices wf waits.arrived behind).2
        ⟨_, q, ps, rfl, waits.reads, by rw [waits.opens.closed]; exact form, objects⟩

theorem Keeps.stop (wf : table.WellFormed) (keeps : Keeps table items b) :
    Stops table items b := by
  cases keeps with
  | @settled ts ps settled =>
      match ts, ps, settled.stand with
      | [], [], .nil =>
          obtain rfl : [] = items := settled.reads.items_eq
          have judged : judge ⟨.start, .stop, b.tokens.length, b.infixAtStart⟩ =
              .ok (.reject .emptyTerm) := by
            rw [settled.flag]
            rfl
          have tokens : b.tokens = .start :: [] := settled.tokens
          refine Or.inr ⟨_, receive_reject tokens judged, fun t parse => ?_⟩
          exact t.parts_ne_nil (List.map_eq_nil_iff.1 parse.items_eq)
      | t :: ts, q :: ps, .cons _ _ => exact settled.stop wf
  | opened items_eq waits =>
      rw [items_eq]
      exact waits.stop wf
  | lone items_eq tokens flag arrived role hopeless =>
      exact stops_alone tokens (Or.inl role) arrived.found items_eq
        fun p ps reads => absurd reads (hopeless _)

/-! ## The reduction -/

theorem Decided.placed (wf : table.WellFormed) (decided : Decided table items b ps) :
    ∀ p ∈ ps, p.Placed :=
  fun p member => placed_of_isDefined wf (decided.isDefined p member)

theorem Decided.symbols_eq (decided : Decided table items b ps) :
    b.symbols = .ok (ps.map Part.symbol).reverse := by
  obtain ⟨ts, tokens, stand⟩ := decided.stand
  rw [symbols, tokens, List.dropLast_concat, mapM_symbol stand, List.map_reverse]

/-- A tree with the parts of the sentence is a parse if it is accepted. -/
theorem Decided.isParse {t : Tree} (decided : Decided table items b ps) (parts_eq : t.parts = ps)
    (accepted : t.Accepted) : t.IsParse table items := by
  subst parts_eq
  exact ⟨decided.items_eq, decided.isDefined, decided.atomsAllowed, accepted⟩

/-- The reduction finds the only parse. -/
theorem Decided.exists_tree {s : Shunting} (wf : table.WellFormed)
    (decided : Decided table items b ps) (ran : Shunting.runParts {} ps = .ok s) :
    ∃ t : Tree, b.reduce.result = .ok t.eval ∧ t.IsParse table items ∧
      ∀ u : Tree, u.IsParse table items → u = t := by
  have placed := decided.placed wf
  obtain ⟨t, accepted, parts_eq, finish⟩ :=
    Shunting.exists_tree_of_runParts decided.sentence placed ran
  have assembled : Symbol.assemble s.finish = .ok t.eval := by
    rw [finish]
    exact Tree.assemble_prefixOrder (t.placed_iff.2 (by rw [parts_eq]; exact placed))
  refine ⟨t, ?_, decided.isParse parts_eq accepted, fun u parse => ?_⟩
  · rw [Shunting.runParts] at ran
    simp [reduce, decided.symbols_eq, ran, assembled]
  · exact Shunting.eq_of_runParts placed ran parse.accepted (decided.only u parse) accepted parts_eq

/-- A reduction that fails reports a clash if there is no parse, and an ambiguity if there
is not just one. -/
theorem Decided.of_stuck {stuck : Shunting.Stuck} (wf : table.WellFormed)
    (decided : Decided table items b ps) (fails : Shunting.runParts {} ps = .error stuck) :
    b.reduce.result = .error (.rejected stuck.cause) ∧
      (((∃ l r, stuck.cause = .clash l r) ∧ ∀ t : Tree, ¬ t.IsParse table items) ∨
        (∃ l r, stuck.cause = .ambiguous l r) ∧ ¬ ∃! t : Tree, t.IsParse table items) := by
  have other : ∀ {t : Tree}, t.IsParse table items →
      stuck.IsAmbiguous ∧ ∃ u : Tree, u ≠ t ∧ u.parts = ps ∧ u.Accepted := fun {t} parse =>
    Shunting.exists_other_of_stuck (decided.placed wf) fails parse.accepted (decided.only t parse)
  constructor
  · rw [Shunting.runParts] at fails
    simp [reduce, decided.symbols_eq, fails]
  · rcases Shunting.isTie_of_runParts fails with ⟨l, r, clash⟩ | ambiguous
    · refine Or.inl ⟨⟨l, r, clash⟩, fun t parse => ?_⟩
      obtain ⟨l', r', ambiguous⟩ := (other parse).1
      rw [clash] at ambiguous
      cases ambiguous
    · refine Or.inr ⟨ambiguous, ?_⟩
      rintro ⟨t, parse, only⟩
      obtain ⟨-, u, ne, parts_eq, accepted⟩ := other parse
      exact ne (only u (decided.isParse parts_eq accepted))

/-- The end of a builder whose stop mark is accepted. -/
theorem finish_eq_of_receive {token : Token} {b' : Builder}
    (received : b.receive .stop = .ok (token, b')) : b.finish = b'.reduce.result := by
  rw [finish, conclude, received]

theorem finish_eq_of_receive_error {e : Failure} (fails : b.receive .stop = .error e) :
    b.finish = .error e := by
  rw [finish, conclude, fails]

/-- The end of a builder is the value of the only parse, or a rejection. -/
theorem Keeps.finish (wf : table.WellFormed) (keeps : Keeps table items b) :
    (∃ t : Tree, b.finish = .ok t.eval ∧ t.IsParse table items) ∨
      ∃ cause, b.finish = .error (.rejected cause) := by
  rcases keeps.stop wf with ⟨token, b', ps, received, decided⟩ | ⟨cause, refused, -⟩
  · rw [finish_eq_of_receive received]
    cases ran : Shunting.runParts {} ps with
    | ok s =>
        obtain ⟨t, result, parse, -⟩ := decided.exists_tree wf ran
        exact Or.inl ⟨t, result, parse⟩
    | error stuck => exact Or.inr ⟨_, (decided.of_stuck wf ran).1⟩
  · exact Or.inr ⟨cause, finish_eq_of_receive_error refused⟩

end Builder

end OperatorGrammar
