/-
# Proofs.Table.Registry -- what a registry keeps

A registry holds a table if it keeps the entries of the table, each under its name (`Holds`).
A definition then ends on both in the same way (`holds_attempt`), so every registry that
definitions lead to holds a reachable table (`exists_reachable`), and what such a table keeps,
the registry keeps.

What a definition leaves alone is said of tables: operators stay where they are, and so do
names (`Table.Keeps`).
-/
import OperatorGrammar.Proofs.Table.Places
import OperatorGrammar.Table.Registry

namespace OperatorGrammar

set_option autoImplicit false

/-! ## Tables -/

namespace Table

variable {t u v : Table} {op : Operator}

/-- No operator of `t` is another one in `u` or gone, and no name of `t` has another place. -/
structure Keeps (t u : Table) : Prop where
  forms : ∀ {name e f op}, t.find? name = some e → e.form? f = some op →
    ∃ e', u.find? name = some e' ∧ e'.form? f = some op
  places : ∀ {name index}, t.index? name = some index → u.index? name = some index

theorem Keeps.refl (t : Table) : Keeps t t := ⟨fun found form => ⟨_, found, form⟩, id⟩

theorem Keeps.trans (first : Keeps t u) (second : Keeps u v) : Keeps t v where
  forms := fun found form =>
    have ⟨_, found, form⟩ := first.forms found form
    second.forms found form
  places := fun place => second.places (first.places place)

/-- An insertion keeps what is there unless it takes the place of an operator. -/
theorem keeps_insert (free : ∀ e, t.find? op.name = some e → e.form? op.fixity = none) :
    Keeps t (t.insert op) where
  forms := by
    intro name e f other found form
    rw [find?_insert]
    split
    · rename_i same
      subst same
      rw [found]
      refine ⟨e.put op, rfl, ?_⟩
      have apart : f ≠ op.fixity := by
        rintro rfl
        rw [free e found] at form
        cases form
      rw [Entry.form?_put_of_ne e op apart, form]
    · exact ⟨e, found, form⟩
  places := index?_insert

theorem keeps_define (defined : t.define op = .ok u) : Keeps t u := by
  obtain ⟨accepted, rfl⟩ := eq_insert_of_define defined
  refine keeps_insert fun e found => ?_
  simp only [refusal?, found, Option.bind_some, conflict?] at accepted
  split at accepted
  · cases accepted
  · split at accepted
    · cases accepted
    · split at accepted
      · cases accepted
      · rename_i absent
        simpa [Entry.has] using absent

theorem keeps_defineAs {name spec : String} {prec : Nat}
    (defined : t.defineAs name spec prec = .ok u) :
    Keeps t u := by
  unfold defineAs at defined
  cases read : Specifier.read spec with
  | error e => rw [read] at defined; cases defined
  | ok spec => rw [read] at defined; exact keeps_define defined

theorem keeps_defineLine {line : String} (defined : t.defineLine line = .ok u) : Keeps t u := by
  unfold defineLine at defined
  split at defined
  · cases defined
    exact .refl t
  · cases read : readOperator line with
    | error e => rw [read] at defined; cases defined
    | ok op => rw [read] at defined; exact keeps_define defined

theorem keeps_loadLines (t : Table) (number : Nat) (lines : List String) :
    Keeps t (t.loadLines number lines).table := by
  induction lines generalizing t number with
  | nil => exact .refl t
  | cons line rest ih =>
      unfold loadLines
      split
      · rename_i u defined
        exact (keeps_defineLine defined).trans (ih u (number + 1))
      · exact .refl t

/-- The table behind a definition that may be refused. -/
def settle (t : Table) : Except DefinitionError Table → Loaded
  | .ok u => ⟨u, none⟩
  | .error e => ⟨t, some e⟩

/-- The table behind a definition, and its refusal, if any. -/
def outcome (t : Table) : Definition → Loaded
  | .operator op => t.settle (t.define op)
  | .named name spec prec => t.settle (t.defineAs name spec prec)
  | .lines text => t.load text

theorem settle_cases {P : Table → Prop} {defined : Except DefinitionError Table} (old : P t)
    (new : ∀ u, defined = .ok u → P u) : P (t.settle defined).table := by
  cases defined with
  | ok u => exact new u rfl
  | error e => exact old

theorem settle_eq_of_refusal {defined : Except DefinitionError Table} {e : DefinitionError}
    (refused : (t.settle defined).refusal = some e) : (t.settle defined).table = t := by
  cases defined with
  | ok u => cases refused
  | error cause => rfl

theorem reachable_outcome (reachable : t.Reachable) (definition : Definition) :
    (t.outcome definition).table.Reachable := by
  cases definition with
  | operator op => exact settle_cases reachable fun _ => .define op reachable
  | named name spec prec => exact settle_cases reachable fun _ => .defineAs name spec prec reachable
  | lines text => exact .load text reachable

theorem keeps_outcome (t : Table) (definition : Definition) :
    Keeps t (t.outcome definition).table := by
  cases definition with
  | operator op => exact settle_cases (.refl t) fun _ => keeps_define
  | named name spec prec => exact settle_cases (.refl t) fun _ => keeps_defineAs
  | lines text => exact keeps_loadLines t 1 _

/-- A single definition that is refused leaves the table as it was. -/
theorem outcome_eq_of_refusal {definition : Definition} {e : DefinitionError}
    (refused : (t.outcome definition).refusal = some e)
    (single : ∀ text, definition ≠ .lines text) :
    (t.outcome definition).table = t := by
  cases definition with
  | operator op => exact settle_eq_of_refusal refused
  | named name spec prec => exact settle_eq_of_refusal refused
  | lines text => exact absurd rfl (single text)

/-- The place of an insertion: the first entry of the name, or else the end. -/
theorem insertInto_eq (op : Operator) (es : List Entry) :
    insertInto op es =
      match es.findIdx? (·.name = op.name) with
      | some index => es.modify index (·.put op)
      | none => es ++ [(Entry.blank op.name).put op] := by
  induction es with
  | nil => rfl
  | cons e es ih =>
      by_cases same : e.name = op.name
      · simp [insertInto, List.findIdx?_cons, same]
      · rw [insertInto, if_neg same, ih, List.findIdx?_cons, if_neg (by simpa using same)]
        cases es.findIdx? (·.name = op.name) <;> rfl

end Table

/-! ## Registries -/

namespace Registry

variable {r : Registry} {t : Table}

/-- The registry keeps the entries of the table, each under its name. -/
def Holds (r : Registry) (t : Table) : Prop := r.slots = t.entries.map fun e => (e.name, e)

theorem Holds.find?_eq (holds : Holds r t) (key : String) : r.find? key = t.find? key := by
  rw [find?, holds, List.find?_map, Option.map_map, Table.find?]
  exact Option.map_id'

theorem Holds.index?_eq (holds : Holds r t) (key : String) : r.index? key = t.index? key := by
  rw [index?, holds, List.findIdx?_map]
  rfl

theorem Holds.get?_eq (holds : Holds r t) (index : Nat) : r.get? index = t.get? index := by
  rw [get?, holds, List.getElem?_map, Option.map_map, Table.get?]
  exact Option.map_id'

/-- A table determines the registry that holds it. -/
theorem Holds.unique {r' : Registry} (holds : Holds r t) (holds' : Holds r' t) : r = r' := by
  cases r
  cases r'
  exact congrArg Registry.mk (holds.trans holds'.symm)

theorem holds_empty : Holds empty .empty := rfl

theorem run_enter (r : Registry) (key : String) :
    (enter key).run r =
      match r.index? key with
      | some index => .ok index r
      | none => .ok r.slots.length ⟨r.slots ++ [(key, .blank key)]⟩ := by
  show EStateM.Result.ok _ _ = _
  cases r.index? key <;> rfl

/-- The two writes of an insertion lead to the table with the operator. -/
theorem Holds.run_insert (holds : Holds r t) (op : Operator) :
    ∃ r', (insert op).run r = .ok () r' ∧ Holds r' (t.insert op) := by
  have place := holds.index?_eq op.name
  rw [Table.index?] at place
  unfold Registry.insert Table.insert Holds
  rw [EStateM.run_bind, run_enter, place, Table.insertInto_eq]
  cases t.entries.findIdx? (·.name = op.name) with
  | some index =>
      refine ⟨_, rfl, List.ext_getElem? fun place => ?_⟩
      show (r.slots.modify index _)[place]? = ((t.entries.modify index _).map _)[place]?
      rw [holds]
      simp only [List.getElem?_modify, List.getElem?_map]
      cases t.entries[place]? <;> split <;> simp [Entry.name_put]
  | none =>
      refine ⟨_, rfl, ?_⟩
      show (r.slots ++ _).modify _ _ = (t.entries ++ _).map _
      rw [List.map_append, ← show r.slots = _ from holds]
      simp [List.modify_eq_take_cons_drop, Entry.name_put, Entry.blank]

/-- A run that ends as on a table: with the table behind it, or with the table at its refusal. -/
inductive Ends : EStateM.Result DefinitionError Registry Unit → Table.Loaded → Prop where
  | ok {r : Registry} {t : Table} (holds : Holds r t) : Ends (.ok () r) ⟨t, none⟩
  | error {r : Registry} {t : Table} (holds : Holds r t) (e : DefinitionError) :
      Ends (.error e r) ⟨t, some e⟩

theorem Holds.ends_insert (holds : Holds r t) (op : Operator) :
    Ends ((insert op).run r) ⟨t.insert op, none⟩ := by
  obtain ⟨r', ran, holds'⟩ := holds.run_insert op
  rw [ran]
  exact .ok holds'

theorem Holds.ends_defineOperator (holds : Holds r t) (op : Operator) :
    Ends ((defineOperator op).run r) (t.settle (t.define op)) := by
  unfold defineOperator Table.define Table.refusal?
  split
  · exact .error holds _
  · split
    · exact .error holds _
    · simp only [EStateM.run_bind, EStateM.run_get, holds.find?_eq]
      cases (t.find? op.name).bind (Table.conflict? · op) with
      | none => exact holds.ends_insert op
      | some e => exact .error holds e

theorem Holds.ends_defineLine (holds : Holds r t) (line : String) :
    Ends ((defineLine line).run r) (t.settle (t.defineLine line)) := by
  unfold defineLine Table.defineLine
  split
  · exact .ok holds
  · cases Table.readOperator line with
    | error e => exact .error holds e
    | ok op => exact holds.ends_defineOperator op

theorem run_adaptExcept {α : Type} (f : DefinitionError → DefinitionError) (step : Step α)
    (r : Registry) :
    (EStateM.adaptExcept f step).run r =
      match step.run r with
      | .ok x r => .ok x r
      | .error e r => .error (f e) r := by
  simp only [EStateM.run, EStateM.adaptExcept]
  cases step r <;> rfl

theorem Holds.ends_defineLines (holds : Holds r t) (number : Nat) (lines : List String) :
    Ends ((defineLines (lines.zipIdx number)).run r) (t.loadLines number lines) := by
  induction lines generalizing r t number with
  | nil => exact .ok holds
  | cons line rest ih =>
      have first := holds.ends_defineLine (Text.trim line)
      show Ends ((EStateM.adaptExcept (DefinitionError.onLine number)
        (defineLine (Text.trim line)) >>= fun _ => defineLines (rest.zipIdx (number + 1))).run r) _
      rw [EStateM.run_bind, run_adaptExcept, Table.loadLines]
      generalize (defineLine (Text.trim line)).run r = ran at first
      cases defined : t.defineLine (Text.trim line) with
      | error e =>
          rw [defined] at first
          cases first with
          | error holds => exact .error holds _
      | ok u =>
          rw [defined] at first
          cases first with
          | ok holds => exact ih holds (number + 1)

theorem Holds.ends_perform (holds : Holds r t) (definition : Definition) :
    Ends ((perform definition).run r) (t.outcome definition) := by
  cases definition with
  | operator op => exact holds.ends_defineOperator op
  | named name spec prec =>
      show Ends ((demand (Specifier.read spec) >>= fun spec =>
        defineOperator { name, spec, prec }).run r) (t.settle (t.defineAs name spec prec))
      unfold Table.defineAs
      cases Specifier.read spec with
      | error e => exact .error holds e
      | ok spec => exact holds.ends_defineOperator { name, spec, prec }
  | lines text => exact holds.ends_defineLines 1 _

/-! ## Sequences of definitions -/

theorem Holds.run_insertAll (holds : Holds r t) (operators : List (Nat × Specifier × String)) :
    ∃ r', (operators.forM fun (prec, spec, name) => insert { name, spec, prec }).run r = .ok () r' ∧
      Holds r' (operators.foldl (fun t (prec, spec, name) => t.insert { name, spec, prec }) t) := by
  induction operators generalizing r t with
  | nil => exact ⟨r, rfl, holds⟩
  | cons first operators ih =>
      obtain ⟨prec, spec, name⟩ := first
      obtain ⟨_, inserted, holds'⟩ := holds.run_insert { name, spec, prec }
      obtain ⟨r', ran, holds''⟩ := ih holds'
      refine ⟨r', ?_, holds''⟩
      rw [← ran]
      show (insert { name, spec, prec } >>= fun _ => operators.forM _).run r = _
      rw [EStateM.run_bind, inserted]

theorem holds_standard : Holds standard .standard := by
  obtain ⟨r, ran, holds⟩ := holds_empty.run_insertAll Table.standardOperators
  unfold standard
  rw [ran]
  exact holds

/-- A definition ends on a registry as on the table it holds. -/
theorem Holds.attempt (holds : Holds r t) (definition : Definition) :
    Holds (attempt r definition).1 (t.outcome definition).table ∧
      (attempt r definition).2 = (t.outcome definition).refusal := by
  have ends := holds.ends_perform definition
  unfold Registry.attempt
  generalize (perform definition).run r = ran at ends
  generalize t.outcome definition = loaded at ends
  cases ends with
  | ok holds => exact ⟨holds, rfl⟩
  | error holds e => exact ⟨holds, rfl⟩

theorem Holds.attemptAll (holds : Holds r t) (reachable : t.Reachable)
    (definitions : List Definition) :
    ∃ u : Table, u.Reachable ∧ Holds (attemptAll r definitions) u := by
  induction definitions generalizing r t with
  | nil => exact ⟨t, reachable, holds⟩
  | cons definition rest ih =>
      exact ih (holds.attempt definition).1 (Table.reachable_outcome reachable definition)

/-- Whatever was defined, and whatever was refused, a registry holds a reachable table. -/
theorem exists_reachable (withStandard : Bool) (definitions : List Definition) :
    ∃ t : Table, t.Reachable ∧ Holds (attemptAll (start withStandard) definitions) t := by
  unfold start
  split
  · exact holds_standard.attemptAll .standard definitions
  · exact holds_empty.attemptAll .empty definitions

/-! ## The invariant -/

/-- What a registry keeps.  Keys are not empty and are the names of their entries and of all
operators there; an operator stands in the slot of its fixity, with a precedence in range; an
entry has an operator, not both a prefix and a postfix one, and so a role; and the place of a
name is where its entry is. -/
structure Consistent (r : Registry) : Prop where
  keyed : ∀ key e, (key, e) ∈ r.slots → key ≠ "" ∧ e.name = key
  placed : ∀ key e f op, (key, e) ∈ r.slots → e.form? f = some op →
    op.name = key ∧ op.fixity = f ∧ op.prec ≤ Table.maxPrec
  oneUnary : ∀ key e, (key, e) ∈ r.slots →
    ¬(e.has .prefixOp = true ∧ e.has .postfixOp = true)
  inhabited : ∀ key e, (key, e) ∈ r.slots → ∃ f, e.has f = true
  playing : ∀ key e, (key, e) ∈ r.slots → e.role?.isSome = true
  indexed : ∀ name index, r.index? name = some index ↔ ∃ e, r.get? index = some e ∧ e.name = name

theorem Holds.mem_slots (holds : Holds r t) {key : String} {e : Entry} :
    (key, e) ∈ r.slots ↔ e ∈ t.entries ∧ e.name = key := by
  rw [show r.slots = _ from holds, List.mem_map]
  grind

theorem Holds.consistent (holds : Holds r t) (wf : t.WellFormed) : r.Consistent where
  keyed := by
    intro key e kept
    obtain ⟨member, rfl⟩ := holds.mem_slots.1 kept
    exact ⟨wf.named e member, rfl⟩
  placed := by
    intro key e f op kept form
    obtain ⟨member, rfl⟩ := holds.mem_slots.1 kept
    exact wf.placed e member f op form
  oneUnary := by
    rintro key e kept ⟨before, behind⟩
    rcases wf.oneUnary e (holds.mem_slots.1 kept).1 with absent | absent
    · simp [Entry.has, Entry.form?, absent] at before
    · simp [Entry.has, Entry.form?, absent] at behind
  inhabited := fun key e kept => wf.inhabited e (holds.mem_slots.1 kept).1
  playing := by
    intro key e kept
    obtain ⟨role, plays⟩ := Table.exists_role? wf
      (Table.find?_of_mem wf.distinct (holds.mem_slots.1 kept).1)
    rw [plays]
    rfl
  indexed := by
    intro name index
    rw [holds.index?_eq, holds.get?_eq]
    exact Table.index?_eq_some_iff wf.distinct

/-- No operator of `r` is another one in `r'` or gone, and no key of `r` has another place. -/
structure Keeps (r r' : Registry) : Prop where
  forms : ∀ name e f op, r.find? name = some e → e.form? f = some op →
    ∃ e', r'.find? name = some e' ∧ e'.form? f = some op
  places : ∀ name index, r.index? name = some index → r'.index? name = some index

theorem Holds.keeps {r' : Registry} {u : Table} (holds : Holds r t) (holds' : Holds r' u)
    (keeps : t.Keeps u) : r.Keeps r' where
  forms := by
    intro name e f op found form
    rw [holds.find?_eq] at found
    rw [holds'.find?_eq]
    exact keeps.forms found form
  places := by
    intro name index place
    rw [holds.index?_eq] at place
    rw [holds'.index?_eq]
    exact keeps.places place

/-- From the empty or from the standard registry, by whatever definitions, refused ones among
them: what is left is consistent; one more definition keeps all operators and all places; and
if it is refused, it leaves everything as it was, unless it is a text of several. -/
theorem consistent_attemptAll (withStandard : Bool) (definitions : List Definition) :
    let r := attemptAll (start withStandard) definitions
    r.Consistent ∧ ∀ definition,
      r.Keeps (attempt r definition).1 ∧
      ∀ e, (attempt r definition).2 = some e → (∀ text, definition ≠ .lines text) →
        (attempt r definition).1 = r := by
  intro r
  obtain ⟨t, reachable, holds⟩ := exists_reachable withStandard definitions
  refine ⟨holds.consistent reachable.wellFormed, fun definition => ?_⟩
  obtain ⟨holds', answer⟩ := holds.attempt definition
  refine ⟨holds.keeps holds' (t.keeps_outcome definition), fun e refused single => ?_⟩
  rw [answer] at refused
  rw [Table.outcome_eq_of_refusal refused single] at holds'
  exact holds'.unique holds

end Registry

end OperatorGrammar
