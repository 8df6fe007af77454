/-
# Proofs.Table.Loading -- texts of definitions, line by line

On a table, a line is skipped or defines the operator that it describes (`Takes`), or else it
fails, for what it describes or for what the table has already (`Fails`).  A line that fails
leads to no table.  Neither needs the reader of definitions: the words of a line say which
operator it describes, or what is wrong with it (`takes_iff`, `fails_iff`).

A text is loaded line by line (`TakesAll`), up to the first one that fails.  What is left is
the table of the lines in front of that one, and the refusal has its number, counted from one
among all lines (`loadLines_ok_iff`, `loadLines_error_iff`).

So a text may be cut at any line feed: the second part is loaded on the table of the first
one, if all of that is taken, and its lines count on from there (`load_append`).  A registry,
which is written in place, ends with the same table and the same refusal (`load_in_order`).
-/
import OperatorGrammar.Proofs.Table.Registry
import OperatorGrammar.Proofs.Table.Description

namespace OperatorGrammar

set_option autoImplicit false

/-! ## Lines of a text -/

namespace Text

variable {α : Type} {cut : α → Bool}

theorem pieces_ne_nil (cut : α → Bool) (xs : List α) : pieces cut xs ≠ [] := by
  cases xs with
  | nil => simp [pieces]
  | cons x xs =>
      rw [pieces, List.foldr_cons]
      split
      · simp
      · split <;> simp

/-- The pieces on the two sides of a marked member are those of the whole. -/
theorem pieces_append {x : α} (marked : cut x = true) (xs ys : List α) :
    pieces cut (xs ++ x :: ys) = pieces cut xs ++ pieces cut ys := by
  induction xs with
  | nil => simp [pieces, marked]
  | cons y xs ih =>
      obtain ⟨first, rest, split⟩ := List.exists_cons_of_ne_nil (pieces_ne_nil cut xs)
      unfold pieces at ih split ⊢
      rw [List.cons_append, List.foldr_cons, List.foldr_cons, ih, split]
      by_cases ends : cut y = true <;> simp [ends]

theorem length_pieces (cut : α → Bool) (xs : List α) :
    (pieces cut xs).length = xs.countP cut + 1 := by
  induction xs with
  | nil => rfl
  | cons x xs ih =>
      obtain ⟨first, rest, split⟩ := List.exists_cons_of_ne_nil (pieces_ne_nil cut xs)
      unfold pieces at ih split ⊢
      rw [List.foldr_cons, List.countP_cons, split]
      rw [split] at ih
      by_cases ends : cut x = true
      · simp [ends, ← ih]
      · simpa [ends] using ih

theorem lines_append (text more : String) :
    lines (text ++ "\n" ++ more) = lines text ++ lines more := by
  have split : (text ++ "\n" ++ more).toList = text.toList ++ '\n' :: more.toList := by simp
  rw [lines, split, pieces_append rfl, List.map_append]
  rfl

/-- The line feeds of a text. -/
def lineFeeds (text : String) : Nat := text.toList.count '\n'

theorem length_lines (text : String) : (lines text).length = lineFeeds text + 1 := by
  rw [lines, List.length_map, length_pieces]
  rfl

end Text

namespace DefinitionError

/-- The same refusal behind `count` further lines. -/
def behind (count : Nat) : DefinitionError → DefinitionError
  | .onLine number cause => .onLine (count + number) cause
  | cause => cause

end DefinitionError

namespace Table

variable {t u v : Table} {line : String} {lines : List String} {op : Operator}
  {e : DefinitionError}

/-! ## One line -/

/-- A line that defines nothing: blank, or a comment, without the blanks at its ends. -/
def Silent (line : String) : Prop :=
  Text.trim line = "" ∨ (Text.trim line).toList.head? = some '%'

instance (line : String) : Decidable (Silent line) :=
  inferInstanceAs (Decidable (Text.trim line = "" ∨ (Text.trim line).toList.head? = some '%'))

/-- The line takes one table to another. -/
inductive Takes : Table → String → Table → Prop where
  | skip {t : Table} {line : String} (silent : Silent line) : Takes t line t
  | define {t : Table} {line : String} {op : Operator} (loud : ¬ Silent line)
      (described : readOperator (Text.trim line) = .ok op) (free : t.refusal? op = none) :
      Takes t line (t.insert op)

/-- The line fails on the table, for a cause. -/
inductive Fails : Table → String → DefinitionError → Prop where
  /-- It describes no operator. -/
  | malformed {t : Table} {line : String} {e : DefinitionError} (loud : ¬ Silent line)
      (undescribed : readOperator (Text.trim line) = .error e) : Fails t line e
  /-- The table refuses the operator that it describes. -/
  | refused {t : Table} {line : String} {op : Operator} {e : DefinitionError}
      (loud : ¬ Silent line) (described : readOperator (Text.trim line) = .ok op)
      (refused : t.refusal? op = some e) : Fails t line e

theorem takes_iff :
    Takes t line u ↔ (Silent line ∧ u = t) ∨
      ∃ op, ¬ Silent line ∧ Describes (Text.trim line) op ∧ t.refusal? op = none ∧
        u = t.insert op := by
  constructor
  · rintro (silent | ⟨loud, described, free⟩)
    · exact Or.inl ⟨silent, rfl⟩
    · exact Or.inr ⟨_, loud, readOperator_eq_ok_iff.1 described, free, rfl⟩
  · rintro (⟨silent, rfl⟩ | ⟨op, loud, describes, free, rfl⟩)
    · exact .skip silent
    · exact .define loud (readOperator_eq_ok_iff.2 describes) free

theorem fails_iff :
    Fails t line e ↔ ¬ Silent line ∧
      (Garbles (Text.trim line) e ∨
        ∃ op, Describes (Text.trim line) op ∧ t.refusal? op = some e) := by
  constructor
  · rintro (⟨loud, undescribed⟩ | ⟨loud, described, refused⟩)
    · exact ⟨loud, Or.inl (readOperator_eq_error_iff.1 undescribed)⟩
    · exact ⟨loud, Or.inr ⟨_, readOperator_eq_ok_iff.1 described, refused⟩⟩
  · rintro ⟨loud, garbles | ⟨op, describes, refused⟩⟩
    · exact .malformed loud (readOperator_eq_error_iff.2 garbles)
    · exact .refused loud (readOperator_eq_ok_iff.2 describes) refused

theorem isSkipped_iff : isSkipped line = true ↔ line = "" ∨ line.toList.head? = some '%' := by
  unfold isSkipped
  rw [← String.toList_eq_nil_iff]
  cases line.toList with
  | nil => simp
  | cons c rest => simp

theorem define_eq_ok_iff : t.define op = .ok u ↔ t.refusal? op = none ∧ u = t.insert op := by
  unfold define
  cases t.refusal? op with
  | none => simp [eq_comm]
  | some e => simp

theorem define_eq_error_iff : t.define op = .error e ↔ t.refusal? op = some e := by
  unfold define
  cases t.refusal? op <;> simp

theorem defineLine_of_silent (silent : Silent line) : t.defineLine (Text.trim line) = .ok t := by
  rw [defineLine, if_pos (isSkipped_iff.2 silent)]

theorem defineLine_of_loud (loud : ¬ Silent line) :
    t.defineLine (Text.trim line) = (readOperator (Text.trim line)).bind t.define := by
  rw [defineLine, if_neg (mt isSkipped_iff.1 loud)]

theorem defineLine_eq_ok_iff : t.defineLine (Text.trim line) = .ok u ↔ Takes t line u := by
  constructor
  · intro defined
    by_cases silent : Silent line
    · rw [defineLine_of_silent silent] at defined
      cases defined
      exact .skip silent
    · rw [defineLine_of_loud silent] at defined
      cases described : readOperator (Text.trim line) with
      | error e =>
          rw [described] at defined
          cases defined
      | ok op =>
          rw [described] at defined
          obtain ⟨free, rfl⟩ := define_eq_ok_iff.1 defined
          exact .define silent described free
  · rintro (silent | ⟨loud, described, free⟩)
    · exact defineLine_of_silent silent
    · rw [defineLine_of_loud loud, described]
      exact define_eq_ok_iff.2 ⟨free, rfl⟩

theorem defineLine_eq_error_iff : t.defineLine (Text.trim line) = .error e ↔ Fails t line e := by
  constructor
  · intro failed
    by_cases silent : Silent line
    · rw [defineLine_of_silent silent] at failed
      cases failed
    · rw [defineLine_of_loud silent] at failed
      cases described : readOperator (Text.trim line) with
      | error cause =>
          rw [described] at failed
          cases failed
          exact .malformed silent described
      | ok op =>
          rw [described] at failed
          exact .refused silent described (define_eq_error_iff.1 failed)
  · rintro (⟨loud, undescribed⟩ | ⟨loud, described, refused⟩)
    · rw [defineLine_of_loud loud, undescribed]
      rfl
    · rw [defineLine_of_loud loud, described]
      exact define_eq_error_iff.2 refused

/-! ## Lines in order -/

/-- The lines, one after the other, take one table to another. -/
inductive TakesAll : Table → List String → Table → Prop where
  | nil {t : Table} : TakesAll t [] t
  | cons {t u v : Table} {line : String} {lines : List String} (first : Takes t line u)
      (others : TakesAll u lines v) : TakesAll t (line :: lines) v

theorem loadLines_cons_of_takes (first : Takes t line u) (number : Nat) (rest : List String) :
    t.loadLines number (line :: rest) = u.loadLines (number + 1) rest := by
  rw [loadLines, defineLine_eq_ok_iff.2 first]

theorem loadLines_cons_of_fails (first : Fails t line e) (number : Nat) (rest : List String) :
    t.loadLines number (line :: rest) = ⟨t, some (.onLine number e)⟩ := by
  rw [loadLines, defineLine_eq_error_iff.2 first]

/-- Every line is taken or fails. -/
theorem takes_or_fails (t : Table) (line : String) :
    (∃ u, Takes t line u) ∨ ∃ e, Fails t line e := by
  cases defined : t.defineLine (Text.trim line) with
  | ok u => exact Or.inl ⟨u, defineLine_eq_ok_iff.1 defined⟩
  | error e => exact Or.inr ⟨e, defineLine_eq_error_iff.1 defined⟩

/-- Lines that are taken leave the others to the table behind them. -/
theorem TakesAll.loadLines_append {before : List String} (takes : TakesAll t before u)
    (number : Nat) (rest : List String) :
    t.loadLines number (before ++ rest) = u.loadLines (number + before.length) rest := by
  induction takes generalizing number with
  | nil => rfl
  | cons first _ ih =>
      rw [List.cons_append, loadLines_cons_of_takes first, ih, List.length_cons, Nat.add_assoc,
        Nat.add_comm 1]

theorem TakesAll.loadLines_eq (takes : TakesAll t lines u) (number : Nat) :
    t.loadLines number lines = ⟨u, none⟩ := by
  have whole := takes.loadLines_append number []
  rwa [List.append_nil] at whole

/-- All lines are taken, or there is a first one that fails. -/
theorem takesAll_or_fails (t : Table) (lines : List String) :
    (∃ u, TakesAll t lines u) ∨
      ∃ before line after u e, lines = before ++ line :: after ∧ TakesAll t before u ∧
        Fails u line e := by
  induction lines generalizing t with
  | nil => exact Or.inl ⟨t, .nil⟩
  | cons line rest ih =>
      rcases takes_or_fails t line with ⟨u, first⟩ | ⟨e, first⟩
      · rcases ih u with ⟨v, others⟩ | ⟨before, bad, after, v, e, rfl, others, fails⟩
        · exact Or.inl ⟨v, .cons first others⟩
        · exact Or.inr ⟨line :: before, bad, after, v, e, rfl, .cons first others, fails⟩
      · exact Or.inr ⟨[], line, rest, t, e, rfl, .nil, first⟩

theorem loadLines_of_fails {before after : List String} (takes : TakesAll t before u)
    (fails : Fails u line e) (number : Nat) :
    t.loadLines number (before ++ line :: after) =
      ⟨u, some (.onLine (number + before.length) e)⟩ := by
  rw [takes.loadLines_append, loadLines_cons_of_fails fails]

theorem loadLines_ok_iff {number : Nat} :
    t.loadLines number lines = ⟨u, none⟩ ↔ TakesAll t lines u := by
  constructor
  · intro loads
    rcases takesAll_or_fails t lines with
      ⟨v, takes⟩ | ⟨before, line, after, v, e, rfl, takes, fails⟩
    · rw [takes.loadLines_eq] at loads
      cases loads
      exact takes
    · rw [loadLines_of_fails takes fails] at loads
      cases loads
  · exact fun takes => takes.loadLines_eq number

theorem loadLines_error_iff {number : Nat} :
    t.loadLines number lines = ⟨u, some e⟩ ↔
      ∃ before line after cause, lines = before ++ line :: after ∧ TakesAll t before u ∧
        Fails u line cause ∧ e = .onLine (number + before.length) cause := by
  constructor
  · intro loads
    rcases takesAll_or_fails t lines with
      ⟨v, takes⟩ | ⟨before, line, after, v, cause, rfl, takes, fails⟩
    · rw [takes.loadLines_eq] at loads
      cases loads
    · rw [loadLines_of_fails takes fails] at loads
      cases loads
      exact ⟨before, line, after, cause, rfl, takes, fails, rfl⟩
  · rintro ⟨before, line, after, cause, rfl, takes, fails, rfl⟩
    exact loadLines_of_fails takes fails number

/-! ## Texts one behind the other -/

/-- The same outcome behind `count` further lines. -/
def Loaded.behind (count : Nat) (loaded : Loaded) : Loaded :=
  ⟨loaded.table, loaded.refusal.map (.behind count)⟩

theorem loadLines_add (t : Table) (count number : Nat) (lines : List String) :
    t.loadLines (count + number) lines = (t.loadLines number lines).behind count := by
  rcases takesAll_or_fails t lines with
    ⟨u, takes⟩ | ⟨before, line, after, u, e, rfl, takes, fails⟩
  · rw [takes.loadLines_eq, takes.loadLines_eq]
    rfl
  · rw [loadLines_of_fails takes fails, loadLines_of_fails takes fails, Nat.add_assoc]
    rfl

/-- What is left of one text is what the other one is loaded on. -/
def Loaded.followedBy (loaded : Loaded) (count : Nat) (more : String) : Loaded :=
  match loaded with
  | ⟨u, none⟩ => (u.load more).behind count
  | ⟨u, some e⟩ => ⟨u, some e⟩

theorem load_append (t : Table) (text more : String) :
    t.load (text ++ "\n" ++ more) =
      (t.load text).followedBy (Text.lineFeeds text + 1) more := by
  unfold load
  rw [Text.lines_append]
  rcases takesAll_or_fails t (Text.lines text) with
    ⟨u, takes⟩ | ⟨before, line, after, u, e, lines_eq, takes, fails⟩
  · rw [takes.loadLines_append, takes.loadLines_eq, Text.length_lines, Nat.add_comm 1,
      loadLines_add]
    rfl
  · rw [lines_eq, List.append_assoc, List.cons_append, loadLines_of_fails takes fails,
      loadLines_of_fails takes fails]
    rfl

/-! ## Texts in place -/

/-- The registry that keeps the entries of the table. -/
def registry (t : Table) : Registry := ⟨t.entries.map fun e => (e.name, e)⟩

theorem attempt_registry (t : Table) (definition : Definition) :
    t.registry.attempt definition =
      ((t.outcome definition).table.registry, (t.outcome definition).refusal) := by
  have holds : t.registry.Holds t := rfl
  obtain ⟨after, refusal⟩ := holds.attempt definition
  exact Prod.ext (after.unique rfl) refusal

/-- On every table every text is loaded in the order of its lines.  Nothing is refused exactly
if each line that is not silent describes an operator that the table of the lines in front of
it takes.  Otherwise the table is that of the lines in front of the first line that fails, and
the refusal has the number of this line.  A text behind another one goes on where that one
ends, with its own lines numbered behind those.  The same is left where the entries are
written in place. -/
theorem load_in_order (t : Table) (text : String) :
    (∀ u, t.load text = ⟨u, none⟩ ↔ TakesAll t (Text.lines text) u) ∧
    (∀ u e, t.load text = ⟨u, some e⟩ ↔
      ∃ before line after cause, Text.lines text = before ++ line :: after ∧
        TakesAll t before u ∧ Fails u line cause ∧ e = .onLine (1 + before.length) cause) ∧
    (∀ more, t.load (text ++ "\n" ++ more) =
      (t.load text).followedBy (Text.lineFeeds text + 1) more) ∧
    t.registry.attempt (.lines text) = ((t.load text).table.registry, (t.load text).refusal) :=
  ⟨fun _ => loadLines_ok_iff, fun _ _ => loadLines_error_iff, load_append t text,
    attempt_registry t (.lines text)⟩

/-- The fifth line defines a postfix form of the prefix operator of the fourth one. -/
def conflictingText : String :=
  "500 yfx -\n\n% signs\n200 fy - rename=neg\n100 yf -\n700 xfx ="

/-- The two forms of the lines in front of the fifth one. -/
def signs : Table :=
  (empty.insert ⟨"-", .yfx, 500, none, false⟩).insert ⟨"-", .fy, 200, some "neg", false⟩

theorem load_in_order_conflict :
    empty.load conflictingText = ⟨signs, some (.onLine 5 (.oppositeUnary "-" .postfixOp))⟩ ∧
      empty.registry.attempt (.lines conflictingText) =
        (signs.registry, some (.onLine 5 (.oppositeUnary "-" .postfixOp))) := by
  obtain ⟨-, failing, -, inPlace⟩ := load_in_order empty conflictingText
  have difference : Takes empty "500 yfx -" (empty.insert ⟨"-", .yfx, 500, none, false⟩) :=
    .define (by decide +kernel) rfl rfl
  have sign : Takes (empty.insert ⟨"-", .yfx, 500, none, false⟩) "200 fy - rename=neg" signs :=
    .define (by decide +kernel) rfl rfl
  have conflict : Fails signs "100 yf -" (.oppositeUnary "-" .postfixOp) :=
    .refused (by decide +kernel) rfl rfl
  have takes : TakesAll empty ["500 yfx -", "", "% signs", "200 fy - rename=neg"] signs :=
    .cons difference (.cons (.skip (Or.inl rfl)) (.cons (.skip (Or.inr rfl)) (.cons sign .nil)))
  have loads := (failing signs _).2 ⟨_, "100 yf -", ["700 xfx ="], _, rfl, takes, conflict, rfl⟩
  rw [loads] at inPlace
  exact ⟨loads, inPlace⟩

end Table

end OperatorGrammar
