/-
# Proofs.Reader.Defects -- no text leads to a defect

The builders of a reader, the current one and those that wait in frames, are all sound,
and no step of the reader changes that (`Steady`).  A step that stops the reader does so
for a rejection of one of these builders or for a parenthesis, never for a defect
(`Proceeds`).

Together with what holds of a single builder this is `never_internal`: neither a sequence
of calls nor a text ever ends in an internal failure, and the calls do not either where the
builder keeps the places of operators in place of their entries.
-/
import OperatorGrammar.Proofs.Builder.Indexed
import OperatorGrammar.Reader.Basic

namespace OperatorGrammar

set_option autoImplicit false

/-- The builder that waits in a frame. -/
def Frame.outer : Frame → Builder
  | .group outer => outer
  | .call outer _ _ => outer

namespace Reader

open Builder

variable {table : Table} {r : Reader}

/-- All builders of the reader are sound. -/
structure Steady (table : Table) (r : Reader) : Prop where
  current : Sound table r.current
  frames : ∀ f ∈ r.frames, Sound table f.outer

/-- A cause that is no defect of a builder. -/
def Excused (cause : ReadError) : Prop := ∀ defect, cause ≠ .failed (.internal defect)

/-- The reader goes on with sound builders, or stops for an excused cause. -/
def Proceeds (table : Table) (stepped : Except Stopped Reader) : Prop :=
  (∃ r, stepped = .ok r ∧ Steady table r) ∨
    ∃ stopped, stepped = .error stopped ∧ Excused stopped.cause

theorem steady_empty : Steady table .empty := ⟨sound_empty, by simp [Reader.empty]⟩

theorem Steady.outer {frames : List Frame} {f : Frame} (steady : Steady table r)
    (frames_eq : r.frames = f :: frames) :
    Sound table f.outer ∧ ∀ g ∈ frames, Sound table g.outer := by
  have all := steady.frames
  rw [frames_eq] at all
  exact List.forall_mem_cons.1 all

theorem sound_resume {outer : Builder} (sound : Sound table outer) (trace : List Event) :
    Sound table (resume outer trace) :=
  sound.congr rfl rfl

theorem proceeds_carry {added : Except Failure Builder}
    (frames : ∀ f ∈ r.frames, Sound table f.outer) (adds : Adds table added) :
    Proceeds table (r.carry added) := by
  rcases adds with ⟨b, rfl, sound⟩ | ⟨cause, rfl⟩
  · exact Or.inl ⟨_, rfl, sound, frames⟩
  · exact Or.inr ⟨_, rfl, by simp [Excused]⟩

theorem concludeCurrent_cases (wf : table.WellFormed) (steady : Steady table r) :
    (∃ term trace, r.concludeCurrent = .ok (term, trace)) ∨
      ∃ stopped, r.concludeCurrent = .error stopped ∧ Excused stopped.cause := by
  have clean := steady.current.finish_ne_internal wf
  unfold Builder.finish at clean
  cases result : r.current.conclude.result with
  | ok term => exact Or.inl ⟨term, r.current.conclude.trace, by simp [concludeCurrent, result]⟩
  | error e =>
      refine Or.inr ⟨⟨.failed e, r.current.conclude.trace ++ r.outerTrace⟩,
        by simp [concludeCurrent, result], ?_⟩
      rintro defect ⟨⟩
      exact clean defect result

theorem proceeds_concludeCurrent {f : Term × List Event → Except Stopped Reader}
    (wf : table.WellFormed) (steady : Steady table r)
    (goesOn : ∀ term trace, Proceeds table (f (term, trace))) :
    Proceeds table (r.concludeCurrent >>= f) := by
  rcases concludeCurrent_cases wf steady with ⟨term, trace, concluded⟩ | ⟨stopped, fails, excused⟩
  · rw [concluded]
    exact goesOn term trace
  · rw [fails]
    exact Or.inr ⟨stopped, rfl, excused⟩

/-- The builder behind a call of `name`. -/
theorem adds_addCall (wf : table.WellFormed) {b : Builder} (sound : Sound table b)
    (name : String) (args : List Term) : Adds table (addCall table b name args) := by
  unfold addCall
  split
  · exact sound.addItem wf (.operand (operatorTerm table name args))
  · exact sound.addItem wf (.operand (applicationTerm name args))

theorem proceeds_comma (wf : table.WellFormed) (steady : Steady table r) :
    Proceeds table (comma table r) := by
  unfold comma
  split
  · rename_i outer name args frames frames_eq
    obtain ⟨sound, others⟩ := steady.outer frames_eq
    refine proceeds_concludeCurrent wf steady fun term trace => ?_
    exact Or.inl ⟨_, rfl, sound_empty, List.forall_mem_cons.2 ⟨sound_resume sound trace, others⟩⟩
  · exact proceeds_carry steady.frames (steady.current.addItem wf (.operator ","))

theorem proceeds_close (wf : table.WellFormed) (steady : Steady table r) (place : Nat) :
    Proceeds table (close table r place) := by
  refine proceeds_concludeCurrent wf steady fun term trace => ?_
  cases frames_eq : r.frames with
  | nil => exact Or.inr ⟨_, rfl, by simp [Excused]⟩
  | cons f frames =>
      obtain ⟨sound, others⟩ := steady.outer frames_eq
      have resumed := sound_resume sound trace
      cases f with
      | group outer => exact proceeds_carry others (resumed.addItem wf (.operand term))
      | call outer name args => exact proceeds_carry others (adds_addCall wf resumed name _)

theorem proceeds_step (wf : table.WellFormed) (steady : Steady table r) (place : Nat)
    (lexeme : Lexeme) : Proceeds table (step table r place lexeme) := by
  cases lexeme with
  | opening call =>
      exact Or.inl ⟨_, rfl, sound_empty,
        List.forall_mem_cons.2 ⟨steady.current, steady.frames⟩⟩
  | closing => exact proceeds_close wf steady place
  | comma => exact proceeds_comma wf steady
  | word text =>
      exact proceeds_carry steady.frames (steady.current.addItem wf (.ofWord table text))
  | quoted text =>
      exact proceeds_carry steady.frames (steady.current.addItem wf (.operand (.atom text)))
  | str text =>
      exact proceeds_carry steady.frames (steady.current.addItem wf (.operand (.str text)))

theorem proceeds_startCall (steady : Steady table r) (name : String) (rest : List Lexeme) :
    Proceeds table (r.startCall name rest) := by
  unfold startCall
  split
  · exact Or.inr ⟨_, rfl, by simp [Excused]⟩
  · exact Or.inl ⟨_, rfl, sound_empty, List.forall_mem_cons.2 ⟨steady.current, steady.frames⟩⟩

theorem finish_ne_internal (wf : table.WellFormed) (steady : Steady table r) (defect : Defect) :
    r.finish.result ≠ .error (.failed (.internal defect)) := by
  unfold finish
  rcases concludeCurrent_cases wf steady with ⟨term, trace, concluded⟩ | ⟨stopped, fails, excused⟩
  · rw [concluded]
    cases r.frames with
    | nil => simp
    | cons f frames => cases f <;> simp
  · rw [fails]
    simpa using excused defect

theorem next_ne_internal {stepped : Except Stopped Reader} {go : Reader → Reading}
    (proceeds : Proceeds table stepped) {defect : Defect}
    (goesOn : ∀ r, Steady table r → (go r).result ≠ .error (.failed (.internal defect))) :
    (next stepped go).result ≠ .error (.failed (.internal defect)) := by
  rcases proceeds with ⟨r, rfl, steady⟩ | ⟨stopped, rfl, excused⟩
  · exact goesOn r steady
  · simpa [next] using excused defect

/-- However a line goes on, reading it finds no defect. -/
theorem run_ne_internal (wf : table.WellFormed) (steady : Steady table r) (place : Nat)
    (lexemes : List Lexeme) (defect : Defect) :
    (run table place r lexemes).result ≠ .error (.failed (.internal defect)) := by
  fun_induction run table place r lexemes with
  | case1 place r name rest ih =>
      exact next_ne_internal (proceeds_startCall steady name rest) fun r steady => ih r steady
  | case2 place r name rest ih =>
      exact next_ne_internal (proceeds_startCall steady name rest) fun r steady => ih r steady
  | case3 place r lexeme rest _ _ ih =>
      exact next_ne_internal (proceeds_step wf steady place lexeme) fun r steady => ih r steady
  | case4 place r => exact finish_ne_internal wf steady defect

end Reader

/-- No sequence of calls makes a builder fail for a defect, whichever of them are refused,
and neither does its conclusion or any text.  The same holds of a builder that knows
operators by their places. -/
theorem never_internal {table : Table} (reachable : table.Reachable) :
    (∀ calls call defect,
      (Builder.attempt table (Builder.attemptAll table .empty calls) call).2 ≠
        some (.internal defect)) ∧
    (∀ calls defect,
      (Builder.attemptAll table .empty calls).finish ≠ .error (.internal defect)) ∧
    (∀ calls call defect,
      (IndexedBuilder.attempt table (IndexedBuilder.attemptAll table .empty calls) call).2 ≠
        some (.internal defect)) ∧
    (∀ calls defect,
      ((IndexedBuilder.attemptAll table .empty calls).conclude table).result ≠
        .error (.internal defect)) ∧
    ∀ text defect, Term.read table text ≠ .error (.failed (.internal defect)) := by
  have wf := reachable.wellFormed
  have sound : ∀ calls, Builder.Sound table (Builder.attemptAll table .empty calls) :=
    Builder.sound_empty.attemptAll wf
  refine ⟨fun calls call => (sound calls).attempt_ne_internal wf call,
    fun calls => (sound calls).finish_ne_internal wf,
    IndexedBuilder.attempt_ne_internal reachable,
    IndexedBuilder.conclude_ne_internal reachable, fun text defect => ?_⟩
  unfold Term.read Reading.ofLine
  cases Lexeme.ofLine text with
  | error cause => simp
  | ok lexemes => exact Reader.run_ne_internal wf Reader.steady_empty 1 lexemes defect

theorem never_unbalanced_call :
    Term.read .standard "f(a, - b) - (c" ≠ .error (.failed (.internal (.unbalanced 2))) :=
  (never_internal .standard).2.2.2.2 _ _

end OperatorGrammar
