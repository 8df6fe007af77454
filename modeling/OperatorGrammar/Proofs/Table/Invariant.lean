/-
# Proofs.Table.Invariant -- what every table keeps

`Table.WellFormed` holds of the empty and of the standard table, and `insert` keeps
it unless the entry of the name has the opposite unary form.  A definition is
refused in that case, so every reachable table is well-formed
(`Reachable.wellFormed`).

An entry is `Sound` if it keeps what a table asks of its entries, apart from having
an operator at all: so a blank entry is sound, and `put` preserves soundness.

For the sequences of tokens a well-formed table promises two things: the operators
of an entry found by a name stand under that name and their fixity (`form_placed`),
and every entry has one of five roles, which says exactly which forms it has
(`Entry.Plays`).
-/
import OperatorGrammar.Table.Reachable

namespace OperatorGrammar

set_option autoImplicit false

namespace Entry

/-- What a table asks of an entry that may have no operator yet. -/
structure Sound (e : Entry) : Prop where
  named : e.name ≠ ""
  oneUnary : e.prefixForm = none ∨ e.postfixForm = none
  placed : ∀ f op, e.form? f = some op →
    op.name = e.name ∧ op.fixity = f ∧ op.prec ≤ Table.maxPrec

theorem sound_blank {name : String} (named : name ≠ "") : (blank name).Sound where
  named := named
  oneUnary := Or.inl rfl
  placed := by intro f op placed; cases f <;> simp [blank, form?] at placed

theorem isSome_form?_put (e : Entry) (op : Operator) : ∃ f, ((e.put op).form? f).isSome = true :=
  ⟨op.fixity, by rw [form?_put_self]; rfl⟩

theorem sound_put {e : Entry} {op : Operator} (sound : e.Sound) (sameName : op.name = e.name)
    (inRange : op.prec ≤ Table.maxPrec) (free : Table.hasOpposite e op.fixity = false) :
    (e.put op).Sound where
  named := by rw [name_put]; exact sound.named
  oneUnary := by
    cases fixity : op.fixity with
    | prefixOp =>
        have absent : e.postfixForm = none := by
          simpa [fixity, Table.hasOpposite, has, form?] using free
        exact Or.inr (by simpa [put, fixity] using absent)
    | infixOp => simpa [put, fixity] using sound.oneUnary
    | postfixOp =>
        have absent : e.prefixForm = none := by
          simpa [fixity, Table.hasOpposite, has, form?] using free
        exact Or.inl (by simpa [put, fixity] using absent)
  placed := by
    intro f other found
    rw [name_put]
    by_cases same : f = op.fixity
    · rw [same, form?_put_self] at found
      cases found
      exact ⟨sameName, same.symm, inRange⟩
    · rw [form?_put_of_ne e op same] at found
      exact sound.placed f other found

/-- The forms of an entry, by the role in which it enters a sequence. -/
inductive Plays (e : Entry) : Role → Prop where
  | infixOp {op : Operator} (noPrefix : e.form? .prefixOp = none)
      (form : e.form? .infixOp = some op) (noPostfix : e.form? .postfixOp = none) :
      Plays e .infixOp
  | prefixOp {op : Operator} (form : e.form? .prefixOp = some op)
      (noInfix : e.form? .infixOp = none) (noPostfix : e.form? .postfixOp = none) :
      Plays e .prefixOp
  | postfixOp {op : Operator} (noPrefix : e.form? .prefixOp = none)
      (noInfix : e.form? .infixOp = none) (form : e.form? .postfixOp = some op) :
      Plays e .postfixOp
  | infixOrPrefix {op other : Operator} (form : e.form? .prefixOp = some op)
      (infixForm : e.form? .infixOp = some other) (noPostfix : e.form? .postfixOp = none) :
      Plays e .infixOrPrefix
  | infixOrPostfix {op other : Operator} (noPrefix : e.form? .prefixOp = none)
      (infixForm : e.form? .infixOp = some op) (form : e.form? .postfixOp = some other) :
      Plays e .infixOrPostfix

theorem plays_of_role? {e : Entry} {role : Role} (plays : e.role? = some role) :
    e.Plays role := by
  unfold role? has at plays
  cases before : e.form? .prefixOp <;> cases between : e.form? .infixOp <;>
    cases behind : e.form? .postfixOp <;>
    simp only [before, between, behind, Option.isSome, reduceCtorEq, Option.some.injEq] at plays <;>
    subst plays
  · exact .postfixOp before between behind
  · exact .infixOp before between behind
  · exact .infixOrPostfix before between behind
  · exact .prefixOp before between behind
  · exact .infixOrPrefix before between behind

end Entry

namespace Table

theorem sound_of_mem {t : Table} {e : Entry} (wf : t.WellFormed) (member : e ∈ t.entries) :
    e.Sound :=
  ⟨wf.named e member, wf.oneUnary e member, wf.placed e member⟩

theorem wellFormed_of_sound {t : Table} (distinct : (t.entries.map Entry.name).Nodup)
    (sound : ∀ e ∈ t.entries, e.Sound ∧ ∃ f, (e.form? f).isSome = true) : t.WellFormed where
  distinct := distinct
  named := fun e member => (sound e member).1.named
  inhabited := fun e member => (sound e member).2
  oneUnary := fun e member => (sound e member).1.oneUnary
  placed := fun e member => (sound e member).1.placed

theorem mem_of_find? {t : Table} {name : String} {e : Entry} (found : t.find? name = some e) :
    e ∈ t.entries ∧ e.name = name :=
  ⟨List.mem_of_find?_eq_some found, by simpa using List.find?_some found⟩

/-! ## Insertion -/

/-- An entry after an insertion is an old one, or holds the new operator. -/
theorem mem_insertInto {op : Operator} {es : List Entry} {e : Entry}
    (member : e ∈ insertInto op es) :
    e ∈ es ∨ e = ((es.find? (·.name = op.name)).getD (Entry.blank op.name)).put op := by
  induction es with
  | nil => exact Or.inr (by simpa [insertInto] using member)
  | cons first es ih =>
      by_cases same : first.name = op.name
      · simp only [insertInto, same, if_true, List.mem_cons] at member
        rcases member with rfl | member
        · exact Or.inr (by simp [same])
        · exact Or.inl (List.mem_cons_of_mem _ member)
      · simp only [insertInto, same, if_false, List.mem_cons] at member
        rcases member with rfl | member
        · exact Or.inl List.mem_cons_self
        · rcases ih member with old | new
          · exact Or.inl (List.mem_cons_of_mem _ old)
          · exact Or.inr (by simpa [same] using new)

theorem names_insertInto (op : Operator) (es : List Entry) :
    (insertInto op es).map Entry.name =
      if op.name ∈ es.map Entry.name then es.map Entry.name
      else es.map Entry.name ++ [op.name] := by
  induction es with
  | nil => simp [insertInto, Entry.name_put, Entry.blank]
  | cons first es ih =>
      by_cases same : first.name = op.name
      · simp [insertInto, same, Entry.name_put]
      · have other : op.name ≠ first.name := Ne.symm same
        simp only [insertInto, same, if_false, List.map_cons, ih, List.mem_cons, other, false_or]
        split <;> rfl

theorem nodup_names_insertInto {op : Operator} {es : List Entry}
    (distinct : (es.map Entry.name).Nodup) : ((insertInto op es).map Entry.name).Nodup := by
  rw [names_insertInto]
  split
  · exact distinct
  · rename_i absent
    refine List.nodup_append.2 ⟨distinct, List.pairwise_singleton _ _, fun name old other new => ?_⟩
    rw [List.mem_singleton] at new
    rintro rfl
    exact absent (new ▸ old)

theorem wellFormed_insert {t : Table} {op : Operator} (wf : t.WellFormed) (named : op.name ≠ "")
    (inRange : op.prec ≤ maxPrec)
    (free : ∀ e, t.find? op.name = some e → hasOpposite e op.fixity = false) :
    (t.insert op).WellFormed := by
  refine wellFormed_of_sound (nodup_names_insertInto wf.distinct) fun e member => ?_
  rcases mem_insertInto member with old | rfl
  · exact ⟨sound_of_mem wf old, wf.inhabited e old⟩
  · refine ⟨?_, Entry.isSome_form?_put _ op⟩
    change (((t.find? op.name).getD (Entry.blank op.name)).put op).Sound
    cases found : t.find? op.name with
    | none =>
        refine Entry.sound_put (Entry.sound_blank named) rfl inRange ?_
        cases op.fixity <;> rfl
    | some e =>
        obtain ⟨member, name⟩ := mem_of_find? found
        exact Entry.sound_put (sound_of_mem wf member) name.symm inRange (free e found)

/-! ## Reachable tables -/

theorem wellFormed_empty : Table.empty.WellFormed :=
  wellFormed_of_sound List.nodup_nil (by simp [Table.empty])

theorem eq_insert_of_define {t u : Table} {op : Operator} (defined : t.define op = .ok u) :
    t.refusal? op = none ∧ u = t.insert op := by
  unfold define at defined
  split at defined
  · cases defined
  · rename_i accepted
    exact ⟨accepted, by cases defined; rfl⟩

theorem wellFormed_define {t u : Table} {op : Operator} (wf : t.WellFormed)
    (defined : t.define op = .ok u) : u.WellFormed := by
  obtain ⟨accepted, rfl⟩ := eq_insert_of_define defined
  simp only [refusal?] at accepted
  split at accepted
  · cases accepted
  · rename_i inRange
    split at accepted
    · cases accepted
    · rename_i named
      refine wellFormed_insert wf (by simpa using named) (Nat.not_lt.1 inRange) fun e found => ?_
      simp only [found, Option.bind_some, conflict?] at accepted
      split at accepted
      · cases accepted
      · split at accepted
        · cases accepted
        · rename_i opposite; simpa using opposite

theorem wellFormed_defineAs {t u : Table} {name spec : String} {prec : Nat} (wf : t.WellFormed)
    (defined : t.defineAs name spec prec = .ok u) : u.WellFormed := by
  unfold defineAs at defined
  cases read : Specifier.read spec with
  | error e => rw [read] at defined; cases defined
  | ok spec => rw [read] at defined; exact wellFormed_define wf defined

theorem wellFormed_defineLine {t u : Table} {line : String} (wf : t.WellFormed)
    (defined : t.defineLine line = .ok u) : u.WellFormed := by
  unfold defineLine at defined
  split at defined
  · cases defined; exact wf
  · cases read : readOperator line with
    | error e => rw [read] at defined; cases defined
    | ok op => rw [read] at defined; exact wellFormed_define wf defined

theorem wellFormed_loadLines {t : Table} (wf : t.WellFormed) (number : Nat)
    (lines : List String) : (t.loadLines number lines).table.WellFormed := by
  induction lines generalizing t number with
  | nil => exact wf
  | cons line rest ih =>
      unfold loadLines
      split
      · rename_i u defined
        exact ih (wellFormed_defineLine wf defined) (number + 1)
      · exact wf

/-- No name has a postfix form. -/
def WithoutPostfix (t : Table) : Prop := ∀ e ∈ t.entries, e.postfixForm = none

theorem withoutPostfix_insert {t : Table} {op : Operator} (absent : t.WithoutPostfix)
    (notPostfix : op.fixity ≠ .postfixOp) : (t.insert op).WithoutPostfix := by
  intro e member
  have kept : ∀ e : Entry, e.postfixForm = none → (e.put op).postfixForm = none := by
    intro e none
    exact (Entry.form?_put_of_ne e op (Ne.symm notPostfix)).trans none
  rcases mem_insertInto member with old | rfl
  · exact absent e old
  · apply kept
    cases found : t.entries.find? (·.name = op.name) with
    | none => rfl
    | some e => exact absent e (List.mem_of_find?_eq_some found)

/-- The standard operators enter a table without being asked for conflicts.  None of
them is a postfix operator, so there is no opposite form to be had. -/
theorem wellFormed_insert_all {t : Table} (wf : t.WellFormed) (absent : t.WithoutPostfix)
    (operators : List (Nat × Specifier × String))
    (suitable : ∀ x ∈ operators, x.1 ≤ maxPrec ∧ x.2.2 ≠ "" ∧ x.2.1.fixity ≠ .postfixOp) :
    (operators.foldl (fun t (prec, spec, name) => t.insert { name, spec, prec }) t).WellFormed := by
  induction operators generalizing t with
  | nil => exact wf
  | cons first operators ih =>
      obtain ⟨prec, spec, name⟩ := first
      obtain ⟨inRange, named, notPostfix⟩ := suitable _ List.mem_cons_self
      refine ih (wellFormed_insert wf named inRange fun e found => ?_)
        (withoutPostfix_insert absent notPostfix)
        fun x member => suitable x (List.mem_cons_of_mem _ member)
      have lacking : e.postfixForm = none := absent e (mem_of_find? found).1
      cases fixity : spec.fixity with
      | prefixOp => simp [Operator.fixity, fixity, hasOpposite, Entry.has, Entry.form?, lacking]
      | infixOp => simp [Operator.fixity, fixity, hasOpposite]
      | postfixOp => exact absurd fixity notPostfix

theorem wellFormed_standard : Table.standard.WellFormed :=
  wellFormed_insert_all wellFormed_empty (by simp [WithoutPostfix, Table.empty]) standardOperators
    (by decide)

/-- Every table that definitions lead to is well-formed. -/
theorem Reachable.wellFormed {t : Table} (reachable : t.Reachable) : t.WellFormed := by
  induction reachable with
  | empty => exact wellFormed_empty
  | standard => exact wellFormed_standard
  | define op _ defined ih => exact wellFormed_define ih defined
  | defineAs name spec prec _ defined ih => exact wellFormed_defineAs ih defined
  | load text _ ih => exact wellFormed_loadLines ih 1 _

/-! ## What a look-up promises -/

/-- An operator found by its name and fixity has both. -/
theorem form_placed {t : Table} (wf : t.WellFormed) {name : String} {e : Entry} {f : Fixity}
    {op : Operator} (found : t.find? name = some e) (form : e.form? f = some op) :
    op.name = name ∧ op.fixity = f := by
  obtain ⟨member, rfl⟩ := mem_of_find? found
  exact ⟨(wf.placed e member f op form).1, (wf.placed e member f op form).2.1⟩

/-- Every name of a well-formed table has a role to start with. -/
theorem exists_role? {t : Table} (wf : t.WellFormed) {name : String} {e : Entry}
    (found : t.find? name = some e) : ∃ role, e.role? = some role := by
  obtain ⟨member, -⟩ := mem_of_find? found
  obtain ⟨f, form⟩ := wf.inhabited e member
  rcases wf.oneUnary e member with absent | absent <;>
    cases f <;> cases between : e.infixForm <;>
    simp_all [Entry.role?, Entry.has, Entry.form?] <;>
    cases e.prefixForm <;> cases e.postfixForm <;> simp_all

end Table

end OperatorGrammar
