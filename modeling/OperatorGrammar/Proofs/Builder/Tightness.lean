/-
# Proofs.Builder.Tightness -- sequences whose parse is tight

A parse is tight if it is not loose: no operator and head of one of its arguments are
interchangeable.  A tight parse is what a builder makes of its items (`build_of_tight`),
and a builder makes nothing of them but a tight parse (`exists_tight_of_build`), which is
then the only one (`eq_of_isParse_of_build`).  The only thing in the way of a tight parse
is a pair of neighbours that can be read in two ways; its second item is then refused
(`RefusesPair`).  There is no such pair if no name is infix and postfix at once
(`not_refusesPair`).
-/
import OperatorGrammar.Proofs.Parsing

namespace OperatorGrammar

set_option autoImplicit false

/-- No name has an infix and a postfix operator. -/
def Table.PostfixApart (table : Table) : Prop :=
  ∀ e ∈ table.entries, e.infixForm = none ∨ e.postfixForm = none

instance (table : Table) : Decidable table.PostfixApart :=
  inferInstanceAs (Decidable (∀ e ∈ table.entries, e.infixForm = none ∨ e.postfixForm = none))

namespace Builder

open OperatorGrammar.Part

variable {table : Table} {items : List Item} {t : Tree} {term : Term}

/-- Of two neighbours that can be read in two ways the second one is refused. -/
def RefusesPair (table : Table) (items : List Item) (e : Failure) : Prop :=
  ∃ before first second after b left right i x p y,
    items = before ++ .operator first :: .operator second :: after ∧
    addItems table .empty (before ++ [.operator first]) = .ok b ∧
    addItem table b (.operator second) = .error e ∧
    e = .rejected (.ambiguous left right) ∧ TwoWays table before first second i x p y

theorem not_refusesPair (apart : table.PostfixApart) (items : List Item) (e : Failure) :
    ¬ RefusesPair table items e := by
  rintro ⟨_, first, _, _, _, _, _, i, x, p, y, -, -, -, -, ways⟩
  obtain ⟨⟨e, found, infixed⟩, rfl⟩ := ways.asInfix
  obtain ⟨⟨e', found', postfixed⟩, same⟩ := ways.asPostfix
  rw [same, found] at found'
  cases found'
  rcases apart e (Table.mem_of_find? found).1 with none | none
  · exact absurd (infixed.symm.trans none) (by simp)
  · exact absurd (postfixed.symm.trans none) (by simp)

/-- Once the end of the items is accepted, no operator is taken for an atom. -/
def ReadsNoAtom (table : Table) (items : List Item) : Prop :=
  ∀ b token b', addItems table .empty items = .ok b → b.receive .stop = .ok (token, b') →
    ∀ token ∈ b'.tokens, token.role ≠ .zerofix

theorem exists_stands_of_mem {ts : List Token} {ps : List Part} {p : Part}
    (stand : List.Forall₂ (Token.Stands table) ts ps) (member : p ∈ ps) :
    ∃ token ∈ ts, token.Stands table p := by
  induction stand with
  | nil => cases member
  | cons stands _ ih =>
      rcases List.mem_cons.1 member with rfl | member
      · exact ⟨_, List.mem_cons_self, stands⟩
      · obtain ⟨token, listed, stands⟩ := ih member
        exact ⟨token, List.mem_cons_of_mem _ listed, stands⟩

theorem Decided.atom_not_mem {b : Builder} {ps : List Part} (decided : Decided table items b ps)
    (working : ∀ token ∈ b.tokens, token.role ≠ .zerofix) (name : String) :
    .atom name ∉ ps := by
  intro member
  obtain ⟨ts, tokens, stand⟩ := decided.stand
  obtain ⟨token, listed, stands⟩ := exists_stands_of_mem stand (List.mem_reverse.2 member)
  have role : token.role = .zerofix := by
    cases stands with
    | atom found role => exact role
  exact working token (by rw [tokens]; exact List.mem_append_left _ listed) role

theorem addItems_append (table : Table) (b : Builder) (items more : List Item) :
    addItems table b (items ++ more) =
      addItems table b items >>= fun b => addItems table b more := by
  simp [addItems]

theorem build_of_addItems {b : Builder} (added : addItems table .empty items = .ok b) :
    Item.build table items = b.finish := by
  rw [Item.build, added]
  rfl

/-- A sequence with a parse is accepted to its end, or it has a pair that is refused. -/
theorem decided_or_refusesPair (wf : table.WellFormed) (parse : t.IsParse table items) :
    (∃ b token b' ps, addItems table .empty items = .ok b ∧
      b.receive .stop = .ok (token, b') ∧ Decided table items b' ps) ∨
    ∃ e, Item.build table items = .error e ∧ RefusesPair table items e := by
  rcases addItems_or_refused wf items with
    ⟨b, added, keeps⟩ | ⟨before, item, after, b, cause, rfl, added, refused, why⟩
  · rcases keeps.stop wf with ⟨token, b', ps, received, decided⟩ | ⟨cause, -, none⟩
    · exact Or.inl ⟨b, token, b', ps, added, received, decided⟩
    · exact absurd parse (none t)
  · rcases why.final_or_pair with none | ⟨⟨left, right, rfl⟩, pair⟩
    · exact absurd parse (none after t)
    · obtain ⟨front, first, second, i, x, p, y, split, ways⟩ := pair.exists_twoWays
      have split : before ++ [item] = (front ++ [.operator first]) ++ [.operator second] := by
        simpa using split
      obtain ⟨rfl, last⟩ := List.append_inj' split rfl
      cases last
      have fails : Item.build table (front ++ [.operator first] ++ .operator second :: after) =
          .error (.rejected (.ambiguous left right)) := by
        rw [Item.build, addItems_append, added]
        simp only [addItems, List.foldlM_cons, bind, Except.bind, refused]
      exact Or.inr ⟨_, fails, front, first, second, after, b, left, right, i, x, p, y, by simp,
        added, refused, rfl, ways⟩

/-- A tight parse is found, unless a pair is refused. -/
theorem build_of_tight (wf : table.WellFormed) (parse : t.IsParse table items)
    (tight : ¬ t.Loose) :
    Item.build table items = .ok t.eval ∨
      ∃ e, Item.build table items = .error e ∧ RefusesPair table items e := by
  rcases decided_or_refusesPair wf parse with
    ⟨b, token, b', ps, added, received, decided⟩ | refused
  · left
    have parts_eq : t.parts = ps := decided.only t parse
    have placed : t.Placed := t.placed_iff.2 (by rw [parts_eq]; exact decided.placed wf)
    rcases Shunting.runParts_of_accepted parse.accepted placed with ⟨s, ran, -⟩ | ⟨-, -, -, loose⟩
    · rw [parts_eq] at ran
      obtain ⟨u, result, -, only⟩ := decided.exists_tree wf ran
      rw [build_of_addItems added, finish_eq_of_receive received, result, ← only t parse]
    · exact absurd loose tight
  · exact Or.inr refused

/-- Behind a term stands a reduction of the parts of the only parse. -/
theorem exists_run_of_build (wf : table.WellFormed) (built : Item.build table items = .ok term) :
    ∃ b token b' ps s, addItems table .empty items = .ok b ∧
      b.receive .stop = .ok (token, b') ∧ Decided table items b' ps ∧
      Shunting.runParts {} ps = .ok s ∧ b'.reduce.result = .ok term := by
  rcases addItems_or_refused wf items with
    ⟨b, added, keeps⟩ | ⟨before, item, after, b, cause, rfl, added, refused, -⟩
  · rw [build_of_addItems added] at built
    rcases keeps.stop wf with ⟨token, b', ps, received, decided⟩ | ⟨cause, refused, -⟩
    · rw [finish_eq_of_receive received] at built
      cases ran : Shunting.runParts {} ps with
      | error stuck => simp [(decided.of_stuck wf ran).1] at built
      | ok s => exact ⟨b, token, b', ps, s, added, received, decided, ran, built⟩
    · simp [finish_eq_of_receive_error refused] at built
  · rw [Item.build, addItems_append, added] at built
    simp [addItems, bind, Except.bind, refused] at built

/-- A builder makes tight parses only. -/
theorem exists_tight_of_build (wf : table.WellFormed) (built : Item.build table items = .ok term) :
    ∃ t : Tree, t.IsParse table items ∧ t.eval = term ∧ ¬ t.Loose ∧
      (ReadsNoAtom table items → ∀ name, .atom name ∉ t.parts) := by
  obtain ⟨b, token, b', ps, s, added, received, decided, ran, reduced⟩ :=
    exists_run_of_build wf built
  obtain ⟨t, result, parse, only⟩ := decided.exists_tree wf ran
  have parts_eq : t.parts = ps := decided.only t parse
  have eval_eq : t.eval = term := by simpa [result] using reduced
  refine ⟨t, parse, eval_eq, fun loose => ?_, fun none name member => ?_⟩
  · have placed : t.Placed := t.placed_iff.2 (by rw [parts_eq]; exact decided.placed wf)
    obtain ⟨u, twin⟩ := Tree.exists_twin parse.accepted placed loose
    exact twin.ne (only u (decided.isParse (twin.parts_eq.trans parts_eq) twin.accepted))
  · rw [parts_eq] at member
    exact decided.atom_not_mem (none b token b' added received) name member

/-- A sequence that is built has no other parse. -/
theorem eq_of_isParse_of_build {u : Tree} (wf : table.WellFormed)
    (built : Item.build table items = .ok term) (parse : t.IsParse table items)
    (parse' : u.IsParse table items) : u = t := by
  obtain ⟨b, token, b', ps, s, -, -, decided, ran, -⟩ := exists_run_of_build wf built
  obtain ⟨v, -, -, only⟩ := decided.exists_tree wf ran
  rw [only u parse', only t parse]

end Builder

end OperatorGrammar
