/-
# Proofs.Reader.Writing -- texts of items and texts of terms

Lexemes present items if an expression may start with them and go on from the builder that
the items lead to (`Presents`).  A text writes items if it spells lexemes that present them
(`Writes`), and it tells the term that they build (`Tells`); inside the parentheses of a call
no comma may be one of the items.

Texts of items stay texts of items side by side (`Writes.beside`).  The text of a term may
stand in parentheses (`Tells.parenthesized`) and among the arguments of a call
(`writes_application`), where it is one operand.  A whole line that tells a term is read as
that term (`Tells.read`).
-/
import OperatorGrammar.Proofs.Builder.Tightness
import OperatorGrammar.Proofs.Layout.Form
import OperatorGrammar.Proofs.Reader.Completeness
import OperatorGrammar.Proofs.Reader.Words

namespace OperatorGrammar.Reader

set_option autoImplicit false

open Builder

variable {table : Table} {call : Bool} {lexeme : Lexeme} {lexemes others : List Lexeme}
  {items more : List Item} {s text : String} {t : Term} {functor : String} {args : List Term}

/-! ## Lexemes -/

/-- The lexemes add the items, in front of the rest of an expression. -/
structure Presents (table : Table) (call : Bool) (lexemes : List Lexeme) (items : List Item) :
    Prop where
  apart : lexemes.head? ≠ some (.opening true)
  takes : ∀ b c d rest, addItems table b items = .ok c → rest.head? ≠ some (.opening true) →
    Items table call c rest d → Items table call b (lexemes ++ rest) d

theorem addItems_singleton (table : Table) (b : Builder) (item : Item) :
    addItems table b [item] = addItem table b item := by
  simp [addItems]

theorem presents_item {item : Item} (item? : itemOf? table lexeme = some item) :
    Presents table call [lexeme] [item] where
  apart := by
    rintro ⟨⟩
    cases item?
  takes := by
    intro b c d rest added apart goesOn
    rw [addItems_singleton] at added
    exact .item item? (fun _ => apart) added goesOn

theorem presents_comma : Presents table false [.comma] [.operator ","] where
  apart := by simp
  takes := by
    intro b c d rest added _ goesOn
    rw [addItems_singleton] at added
    exact .comma added goesOn

theorem Presents.append (first : Presents table call lexemes items)
    (second : Presents table call others more) :
    Presents table call (lexemes ++ others) (items ++ more) where
  apart := head?_append_ne first.apart second.apart
  takes := by
    intro b c d rest added apart goesOn
    rw [addItems_append] at added
    obtain ⟨middle, before, behind⟩ := exists_of_bind added
    rw [List.append_assoc]
    exact first.takes b middle d _ before (head?_append_ne second.apart apart)
      (second.takes middle c d rest behind apart goesOn)

theorem Presents.expression (presents : Presents table call lexemes items)
    (built : Item.build table items = .ok t) : Expression table call lexemes t := by
  obtain ⟨b, added, finished⟩ := exists_of_bind built
  have all := presents.takes .empty b b [] added (by simp) .nil
  rw [List.append_nil] at all
  exact .mk all finished

theorem presents_group (inner : Expression table false lexemes t) :
    Presents table call (.opening false :: lexemes ++ [.closing]) [.operand t] where
  apart := by simp
  takes := by
    intro b c d rest added _ goesOn
    rw [addItems_singleton] at added
    have whole : Items table call b (.opening false :: lexemes ++ .closing :: rest) d :=
      .group inner added goesOn
    simpa using whole

theorem presents_call (name? : nameOf? lexeme = some functor)
    (arguments : Arguments table lexemes args) :
    Presents table call (lexeme :: .opening true :: lexemes ++ [.closing])
      [.operand (callTerm table functor args)] where
  apart := by
    rintro ⟨⟩
    cases name?
  takes := by
    intro b c d rest added _ goesOn
    rw [addItems_singleton] at added
    have addedCall : addCall table b functor args = .ok c := by
      rw [addCall_eq]
      exact added
    have whole := Items.call name? arguments addedCall goesOn
    simpa using whole

/-! ## Texts -/

/-- The text is read as the items. -/
def Writes (table : Table) (call : Bool) (text : String) (items : List Item) : Prop :=
  ∃ lexemes, Spells text lexemes ∧ Presents table call lexemes items

/-- The text is read as the term. -/
def Tells (table : Table) (call : Bool) (text : String) (t : Term) : Prop :=
  ∃ items, Writes table call text items ∧ Item.build table items = .ok t

theorem Writes.beside (first : Writes table call s items) (second : Writes table call text more) :
    Writes table call (s ++ " " ++ text) (items ++ more) := by
  obtain ⟨lexemes, spells, presents⟩ := first
  obtain ⟨others, spells', presents'⟩ := second
  exact ⟨lexemes ++ others, spells.beside spells', presents.append presents'⟩

theorem Tells.exists_expression (tells : Tells table call text t) :
    ∃ lexemes, Spells text lexemes ∧ Expression table call lexemes t := by
  obtain ⟨items, ⟨lexemes, spells, presents⟩, built⟩ := tells
  exact ⟨lexemes, spells, presents.expression built⟩

theorem Tells.parenthesized (tells : Tells table false text t) :
    Writes table call ("(" ++ text ++ ")") [.operand t] := by
  obtain ⟨lexemes, spells, expression⟩ := tells.exists_expression
  exact ⟨_, spells.parenthesized, presents_group expression⟩

theorem Tells.read (tells : Tells table false text t) : Term.read table text = .ok t := by
  obtain ⟨lexemes, spells, expression⟩ := tells.exists_expression
  rw [Term.read, Reading.ofLine, spells.ofLine]
  exact run_of_expression expression

theorem build_operand (table : Table) (t : Term) : Item.build table [.operand t] = .ok t := rfl

/-- The text of one operand is the text of its term. -/
theorem Writes.tells (writes : Writes table call text [.operand t]) : Tells table call text t :=
  ⟨_, writes, build_operand table t⟩

/-- Texts of the arguments with commas between them. -/
theorem exists_arguments (written : Term → String) (some_arg : args ≠ [])
    (told : ∀ arg ∈ args, Tells table true (written arg) arg) :
    ∃ lexemes, Spells (", ".intercalate (args.map written)) lexemes ∧
      Arguments table lexemes args := by
  induction args with
  | nil => exact absurd rfl some_arg
  | cons arg args ih =>
      obtain ⟨first, others⟩ := List.forall_mem_cons.1 told
      obtain ⟨lexemes, spells, expression⟩ := first.exists_expression
      cases args with
      | nil => exact ⟨lexemes, by simpa using spells, .one expression⟩
      | cons second args =>
          obtain ⟨rest, spellsRest, arguments⟩ := ih (by simp) others
          refine ⟨_, ?_, .more expression arguments⟩
          have whole := spells.separatedBy spellsRest
          simpa [String.intercalate_cons_cons] using whole

theorem exists_name (name : String) :
    ∃ lexeme, nameOf? lexeme = some name ∧ SpellsName (Atom.text name) lexeme := by
  unfold Atom.text
  split
  · rename_i plain
    exact ⟨.word name, rfl,
      spellsName_word (ne_empty_of_isPlain plain) (isReadable_of_isPlain plain).unbroken⟩
  · exact ⟨.quoted name, rfl, spellsName_quoted name⟩

theorem writes_application (functor : String) (written : Term → String) (some_arg : args ≠ [])
    (told : ∀ arg ∈ args, Tells table true (written arg) arg) :
    Writes table call (Term.applicationText functor (args.map written))
      [.operand (callTerm table functor args)] := by
  obtain ⟨lexemes, spells, arguments⟩ := exists_arguments written some_arg told
  obtain ⟨lexeme, name?, spellsName⟩ := exists_name functor
  exact ⟨_, spellsName.application spells, presents_call name? arguments⟩

end OperatorGrammar.Reader
