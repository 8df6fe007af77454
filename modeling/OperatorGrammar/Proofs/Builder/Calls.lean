/-
# Proofs.Builder.Calls -- builders under any sequence of calls

Every call either offers an item to the builder or is refused for an empty argument
list (`perform_eq`).  So whatever is asked of a builder, and however much of it is
refused, it knows the readings of the items that it took (`Sound`), and no call finds a
defect (`Sound.perform`).
-/
import OperatorGrammar.Builder.Call
import OperatorGrammar.Proofs.Builder.Conclusion

namespace OperatorGrammar

set_option autoImplicit false

namespace Builder

variable {table : Table} {b b' : Builder}

/-- The builder took some items and keeps their readings. -/
def Sound (table : Table) (b : Builder) : Prop := ∃ items, Keeps table items b

theorem sound_empty : Sound table .empty := ⟨[], keeps_empty⟩

/-- Counters and trace do not matter. -/
theorem Keeps.congr {items : List Item} (keeps : Keeps table items b)
    (tokens_eq : b'.tokens = b.tokens) (flag_eq : b'.infixAtStart = b.infixAtStart) :
    Keeps table items b' := by
  cases keeps with
  | settled settled =>
      exact .settled { settled with
        tokens := tokens_eq.trans settled.tokens, flag := flag_eq.trans settled.flag }
  | opened items_eq waits =>
      exact .opened items_eq { waits with
        tokens := tokens_eq.trans waits.tokens, flag := flag_eq.trans waits.flag }
  | lone items_eq tokens flag arrived role hopeless =>
      exact .lone items_eq (tokens_eq.trans tokens) (flag_eq.trans flag) arrived role hopeless

theorem Sound.congr (sound : Sound table b) (tokens_eq : b'.tokens = b.tokens)
    (flag_eq : b'.infixAtStart = b.infixAtStart) : Sound table b' := by
  obtain ⟨items, keeps⟩ := sound
  exact ⟨items, keeps.congr tokens_eq flag_eq⟩

/-- An addition leaves a sound builder, or refuses the item. -/
def Adds (table : Table) (added : Except Failure Builder) : Prop :=
  (∃ b, added = .ok b ∧ Sound table b) ∨ ∃ cause, added = .error (.rejected cause)

theorem Sound.addItem (wf : table.WellFormed) (sound : Sound table b) (item : Item) :
    Adds table (Builder.addItem table b item) := by
  obtain ⟨items, keeps⟩ := sound
  rcases keeps.addItem wf item with ⟨b', added, keeps'⟩ | ⟨cause, refused, -⟩
  · exact Or.inl ⟨b', added, items ++ [item], keeps'⟩
  · exact Or.inr ⟨cause, refused⟩

theorem perform_eq (table : Table) (b : Builder) (call : Call) :
    (∃ item, perform table b call = Builder.addItem table b item) ∨
      perform table b call = .error (.rejected .emptyArgumentList) := by
  cases call with
  | operand term => exact Or.inl ⟨.operand term, rfl⟩
  | operator name => exact Or.inl ⟨.operator name, rfl⟩
  | application functor args => exact Or.inl ⟨.operand (applicationTerm functor args), rfl⟩
  | operatorApplication name args => exact Or.inl ⟨.operand (operatorTerm table name args), rfl⟩
  | group terms =>
      match terms with
      | [] => exact Or.inr rfl
      | [term] => exact Or.inl ⟨.operand term, rfl⟩
      | first :: second :: rest =>
          exact Or.inl ⟨.operand (.application "," (first :: second :: rest)), rfl⟩

theorem Sound.perform (wf : table.WellFormed) (sound : Sound table b) (call : Call) :
    Adds table (Builder.perform table b call) := by
  rcases perform_eq table b call with ⟨item, same⟩ | refused
  · rw [same]
    exact sound.addItem wf item
  · exact Or.inr ⟨_, refused⟩

theorem Sound.attempt (wf : table.WellFormed) (sound : Sound table b) (call : Call) :
    Sound table (Builder.attempt table b call).1 := by
  rcases sound.perform wf call with ⟨b', performed, sound'⟩ | ⟨cause, refused⟩
  · rw [Builder.attempt, performed]
    exact sound'
  · rw [Builder.attempt, refused]
    exact sound

/-- A refused call changes nothing, so a builder stays sound whatever is asked of it. -/
theorem Sound.attemptAll (wf : table.WellFormed) (sound : Sound table b) (calls : List Call) :
    Sound table (Builder.attemptAll table b calls) := by
  induction calls generalizing b with
  | nil => exact sound
  | cons call calls ih => exact ih (sound.attempt wf call)

theorem Sound.attempt_ne_internal (wf : table.WellFormed) (sound : Sound table b) (call : Call)
    (defect : Defect) : (Builder.attempt table b call).2 ≠ some (.internal defect) := by
  rcases sound.perform wf call with ⟨b', performed, -⟩ | ⟨cause, refused⟩
  · rw [Builder.attempt, performed]
    simp
  · rw [Builder.attempt, refused]
    simp

theorem Sound.finish_ne_internal (wf : table.WellFormed) (sound : Sound table b)
    (defect : Defect) : b.finish ≠ .error (.internal defect) := by
  obtain ⟨items, keeps⟩ := sound
  rcases keeps.finish wf with ⟨t, built, -⟩ | ⟨cause, refused⟩
  · rw [built]
    simp
  · rw [refused]
    simp

end Builder

end OperatorGrammar
