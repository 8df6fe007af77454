/-
# Proofs.Reader.Agreement -- counters and traces do not decide what a line is read as

Readers agree if their builders, the innermost and those that wait, are alike one by one.  Each
step takes readers that agree to readers that agree, or stops both for one cause
(`Agree.step`), so they read the rest of a line to the same result (`Agree.run_eq`).

A builder that went on after an inner expression has a longer trace than the one that had come
to wait.  So the end of a group or an argument does what it would do to the builder that had
waited (`close_group_agrees`, `close_call_agrees`, `comma_agrees`).
-/
import OperatorGrammar.Proofs.Reader.Soundness
import Mathlib.Data.List.Forall2

namespace OperatorGrammar

set_option autoImplicit false

/-- Frames of one kind, with builders that are alike. -/
inductive Frame.Agree : Frame → Frame → Prop
  | group {outer outer' : Builder} (alike : Builder.Alike outer outer') :
      Frame.Agree (.group outer) (.group outer')
  | call {outer outer' : Builder} (alike : Builder.Alike outer outer') (name : String)
      (args : List Term) : Frame.Agree (.call outer name args) (.call outer' name args)

theorem Frame.Agree.refl : (f : Frame) → f.Agree f
  | .group outer => .group (.refl outer)
  | .call outer name args => .call (.refl outer) name args

namespace Reader

open Builder

/-- Readers whose builders are alike. -/
structure Agree (r s : Reader) : Prop where
  current_alike : Alike r.current s.current
  frames_agree : List.Forall₂ Frame.Agree r.frames s.frames

/-- Both stop for one cause, or both go on and agree. -/
inductive StepsAgree : Except Stopped Reader → Except Stopped Reader → Prop
  | ok {r s : Reader} (agree : r.Agree s) : StepsAgree (.ok r) (.ok s)
  | error {stopped other : Stopped} (cause_eq : stopped.cause = other.cause) :
      StepsAgree (.error stopped) (.error other)

variable {table : Table} {r s : Reader} {c d outer outer' : Builder} {frames frames' : List Frame}
  {lexeme : Lexeme} {rest : List Lexeme} {name : String} {done : List Term} {t : Term}
  {stepped stepped' : Except Stopped Reader}

theorem frames_agree_refl (frames : List Frame) : List.Forall₂ Frame.Agree frames frames :=
  List.forall₂_same.mpr fun f _ => .refl f

theorem agree_resume (outer : Builder) (trace : List Event) (frames : List Frame) :
    Agree ⟨resume outer trace, frames⟩ ⟨outer, frames⟩ :=
  ⟨⟨rfl, rfl⟩, frames_agree_refl frames⟩

/-- Builders go on alike after inner expressions, whatever those did. -/
theorem resume_alike (alike : Alike outer outer') (trace trace' : List Event) :
    Alike (resume outer trace) (resume outer' trace') :=
  ⟨alike.tokens_eq, alike.flag_eq⟩

/-! ## Steps -/

theorem Agree.carry (agree : r.Agree s) {added added' : Except Failure Builder}
    (both : Matches Alike added added') : StepsAgree (r.carry added) (s.carry added') := by
  cases both with
  | ok alike => exact .ok ⟨alike, agree.frames_agree⟩
  | error e => exact .error rfl

theorem Agree.carry_operand (agree : r.Agree s) (t : Term) :
    StepsAgree (r.carry (r.current.addOperand t)) (s.carry (s.current.addOperand t)) :=
  agree.carry (agree.current_alike.add (.operand t))

theorem Agree.carry_call (agree : r.Agree s) (name : String) (args : List Term) :
    StepsAgree (r.carry (addCall table r.current name args))
      (s.carry (addCall table s.current name args)) := by
  rw [addCall_eq, addCall_eq]
  exact agree.carry_operand _

/-- A step that concludes the innermost builder stops with its failure or goes on with its
term. -/
theorem StepsAgree.conclude {f g : Term × List Event → Except Stopped Reader}
    (agree : r.Agree s) (goesOn : ∀ t trace trace', StepsAgree (f (t, trace)) (g (t, trace'))) :
    StepsAgree (r.concludeCurrent >>= f) (s.concludeCurrent >>= g) := by
  have finish_eq : r.current.conclude.result = s.current.conclude.result :=
    agree.current_alike.finish_eq
  simp only [concludeCurrent, finish_eq]
  cases s.current.conclude.result with
  | ok t => exact goesOn t _ _
  | error e => exact .error rfl

theorem Agree.comma (agree : r.Agree s) : StepsAgree (comma table r) (comma table s) := by
  obtain ⟨current, frames⟩ := r
  obtain ⟨current', frames'⟩ := s
  have operator : StepsAgree (Reader.carry ⟨current, frames⟩ (addOperator table current ","))
      (Reader.carry ⟨current', frames'⟩ (addOperator table current' ",")) :=
    agree.carry (agree.current_alike.addItem table (.operator ","))
  cases agree.frames_agree with
  | nil => exact operator
  | cons first others =>
      cases first with
      | group => exact operator
      | call alike name args =>
          refine .conclude agree fun t trace trace' => .ok ⟨.refl _, .cons ?_ others⟩
          exact .call (resume_alike alike trace trace') name (t :: args)

theorem Agree.close (agree : r.Agree s) (place : Nat) :
    StepsAgree (close table r place) (close table s place) := by
  obtain ⟨current, frames⟩ := r
  obtain ⟨current', frames'⟩ := s
  refine .conclude agree fun t trace trace' => ?_
  cases agree.frames_agree with
  | nil => exact .error rfl
  | cons first others =>
      cases first with
      | @group outer outer' alike =>
          have resumed : Agree ⟨resume outer trace, _⟩ ⟨resume outer' trace', _⟩ :=
            ⟨resume_alike alike trace trace', others⟩
          exact resumed.carry_operand t
      | @call outer outer' alike name args =>
          have resumed : Agree ⟨resume outer trace, _⟩ ⟨resume outer' trace', _⟩ :=
            ⟨resume_alike alike trace trace', others⟩
          exact resumed.carry_call name _

theorem Agree.step (agree : r.Agree s) (place : Nat) (lexeme : Lexeme) :
    StepsAgree (step table r place lexeme) (step table s place lexeme) := by
  cases lexeme with
  | opening => exact .ok ⟨.refl _, .cons (.group agree.current_alike) agree.frames_agree⟩
  | closing => exact agree.close place
  | comma => exact agree.comma
  | word text => exact agree.carry (agree.current_alike.addItem table (.ofWord table text))
  | quoted text => exact agree.carry_operand (.atom text)
  | str text => exact agree.carry_operand (.str text)

theorem Agree.startCall (agree : r.Agree s) (name : String) (rest : List Lexeme) :
    StepsAgree (r.startCall name rest) (s.startCall name rest) := by
  unfold Reader.startCall
  split
  · exact .error rfl
  · exact .ok ⟨.refl _, .cons (.call agree.current_alike name []) agree.frames_agree⟩

theorem Agree.finish_eq (agree : r.Agree s) : r.finish.result = s.finish.result := by
  obtain ⟨current, frames⟩ := r
  obtain ⟨current', frames'⟩ := s
  have finish_eq : current.conclude.result = current'.conclude.result :=
    agree.current_alike.finish_eq
  unfold Reader.finish concludeCurrent
  simp only [finish_eq]
  cases current'.conclude.result with
  | error e => rfl
  | ok t =>
      cases agree.frames_agree with
      | nil => rfl
      | cons first others => cases first <;> rfl

/-! ## Runs -/

theorem StepsAgree.next_eq (agree : StepsAgree stepped stepped') {go : Reader → Reading}
    (goesOn : ∀ r s, r.Agree s → (go r).result = (go s).result) :
    (next stepped go).result = (next stepped' go).result := by
  cases agree with
  | ok agree => exact goesOn _ _ agree
  | error cause_eq => exact congrArg Except.error cause_eq

/-- Readers that agree read the rest of a line to the same result. -/
theorem Agree.run_eq (agree : r.Agree s) (place : Nat) (lexemes : List Lexeme) :
    (run table place r lexemes).result = (run table place s lexemes).result := by
  fun_induction run table place r lexemes generalizing s with
  | case1 place r name rest ih | case2 place r name rest ih =>
      rw [run]
      exact (agree.startCall name rest).next_eq ih
  | case3 place r lexeme rest noWord noQuoted ih =>
      rw [run]
      · exact (agree.step place lexeme).next_eq ih
      all_goals assumption
  | case4 place r =>
      rw [run]
      exact agree.finish_eq

/-! ## Ends -/

theorem close_group_agrees (frames : List Frame) (place : Nat) (finished : d.finish = .ok t) :
    StepsAgree (close table ⟨d, .group outer :: frames⟩ place)
      (carry ⟨outer, frames⟩ (outer.addOperand t)) := by
  obtain ⟨trace, closed⟩ := close_group_eq outer frames place finished
  rw [closed]
  exact (agree_resume outer trace frames).carry_operand t

theorem close_call_agrees (frames : List Frame) (place : Nat) (finished : d.finish = .ok t) :
    StepsAgree (close table ⟨d, .call outer name done :: frames⟩ place)
      (carry ⟨outer, frames⟩ (addCall table outer name (t :: done).reverse)) := by
  obtain ⟨trace, closed⟩ := close_call_eq outer name done frames place finished
  rw [closed]
  exact (agree_resume outer trace frames).carry_call name _

theorem comma_agrees (frames : List Frame) (finished : d.finish = .ok t) :
    StepsAgree (comma table ⟨d, .call outer name done :: frames⟩)
      (.ok ⟨.empty, .call outer name (t :: done) :: frames⟩) := by
  obtain ⟨outer', alike, separated⟩ := comma_of_finish table outer name done frames finished
  rw [separated]
  exact .ok ⟨.refl _, .cons (.call ⟨alike.tokens_eq.symm, alike.flag_eq.symm⟩ name _)
    (frames_agree_refl frames)⟩

end Reader

end OperatorGrammar
