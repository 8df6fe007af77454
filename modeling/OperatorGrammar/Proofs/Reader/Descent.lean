/-
# Proofs.Reader.Descent -- the descent and the reader read alike

A procedure of the descent that starts at some place does to one builder what the reader does
to its innermost one from there.  Either it fails, and then with the error of the reader, or it
comes to a place where the reader has come to the same builder (`Meets`).  A procedure stops at
what ends its expression and leaves it there (`Ends`); so the reader that stands at that place
has its parenthesis or its argument to end, and what the caller does next is what the reader
does with its frames.

The items that start at a place need only items that start behind it, and the arguments of a
call only items that start no earlier than they do.  So the induction is on what is left of the
line (`itemsMeet`), and the descent reads every line as the reader does (`ofLine_eq_read`).
-/
import OperatorGrammar.Proofs.Reader.Agreement
import OperatorGrammar.Reader.Descent

namespace OperatorGrammar.Descent

set_option autoImplicit false

open Reader (Stopped StepsAgree addCall nameOf? itemOf? inCall)

/-! ## Outcomes of procedures -/

section Outcomes

variable {α β : Type} {whole : Except ReadError Term} {stated : α → Prop}

/-- The outcome is the error that the whole reading ends with, or a result that is as stated. -/
inductive Meets (whole : Except ReadError Term) (stated : α → Prop) : Except ReadError α → Prop
  | error {e : ReadError} (whole_eq : whole = .error e) : Meets whole stated (.error e)
  | ok {x : α} (holds : stated x) : Meets whole stated (.ok x)

theorem Meets.bind {first : Except ReadError α} {go : α → Except ReadError β} {reached : β → Prop}
    (meets : Meets whole stated first) (goesOn : ∀ x, stated x → Meets whole reached (go x)) :
    Meets whole reached (first >>= go) := by
  cases meets with
  | error whole_eq => exact .error whole_eq
  | ok holds => exact goesOn _ holds

/-- A failure is handed on as the error of the whole reading. -/
theorem meets_demand {made : Except Failure α}
    (fails : ∀ e, made = .error e → whole = .error (.failed e)) :
    Meets whole (fun x => made = .ok x) (demand made) := by
  cases made with
  | error e => exact .error (fails e rfl)
  | ok x => exact .ok rfl

end Outcomes

/-! ## Readers on the way -/

variable {table : Table} {lexemes : List Lexeme} {inArguments : Bool} {b c outer : Builder}
  {frames : List Frame} {lexeme : Lexeme} {name : String} {done : List Term} {t : Term}
  {r : Reader} {stepped stepped' : Except Stopped Reader} {place : Nat}

/-- What the reader reads from a place on. -/
def readFrom (table : Table) (lexemes : List Lexeme) (r : Reader) (place : Nat) :
    Except ReadError Term :=
  (Reader.run table (place + 1) r (lexemes.drop place)).result

/-- What the reader reads from a place on, unless it has stopped before. -/
def goesOn (table : Table) (lexemes : List Lexeme) (stepped : Except Stopped Reader)
    (place : Nat) : Except ReadError Term :=
  match stepped with
  | .ok r => readFrom table lexemes r place
  | .error stopped => .error stopped.cause

theorem goesOn_eq_of_agree (agree : StepsAgree stepped stepped') :
    goesOn table lexemes stepped place = goesOn table lexemes stepped' place := by
  cases agree with
  | ok agree => exact agree.run_eq _ _
  | error cause_eq => exact congrArg Except.error cause_eq

theorem next_result (stepped : Except Stopped Reader) (place : Nat) :
    (Reader.next stepped fun r => Reader.run table (place + 1) r (lexemes.drop place)).result =
      goesOn table lexemes stepped place := by
  cases stepped <;> rfl

theorem place_lt_length (found : lexemes[place]? = some lexeme) : place < lexemes.length :=
  (List.getElem?_eq_some_iff.mp found).1

theorem drop_eq_cons (found : lexemes[place]? = some lexeme) :
    lexemes.drop place = lexeme :: lexemes.drop (place + 1) := by
  obtain ⟨inside, rfl⟩ := List.getElem?_eq_some_iff.mp found
  exact List.drop_eq_getElem_cons inside

theorem readFrom_step (r : Reader) (found : lexemes[place]? = some lexeme)
    (notCalled : (nameOf? lexeme).isSome = true → lexemes[place + 1]? ≠ some (.opening true)) :
    readFrom table lexemes r place =
      goesOn table lexemes (Reader.step table r (place + 1) lexeme) (place + 1) := by
  rw [readFrom, drop_eq_cons found, Reader.run_of_not_called, next_result]
  simpa only [List.head?_drop] using notCalled

theorem readFrom_startCall (r : Reader) (found : lexemes[place]? = some lexeme)
    (name? : nameOf? lexeme = some name) (called : lexemes[place + 1]? = some (.opening true)) :
    readFrom table lexemes r place =
      goesOn table lexemes (r.startCall name (lexemes.drop (place + 2))) (place + 2) := by
  rw [readFrom, drop_eq_cons found, drop_eq_cons called, Reader.run_of_nameOf? _ name?]
  exact next_result _ (place + 2)

theorem readFrom_end (r : Reader) (ended : lexemes[place]? = none) :
    readFrom table lexemes r place = r.finish.result := by
  rw [readFrom, List.drop_eq_nil_of_le (List.getElem?_eq_none_iff.mp ended), Reader.run]

/-! ## Ends of an expression -/

/-- What an expression ends at: the end of the line, a closing parenthesis and, among
arguments, a comma. -/
def Ends (inArguments : Bool) : Option Lexeme → Prop
  | none | some .closing => True
  | some .comma => inArguments = true
  | some _ => False

theorem concludeCurrent_of_failed {e : Failure} (frames : List Frame)
    (failed : c.finish = .error e) :
    ∃ trace, Reader.concludeCurrent ⟨c, frames⟩ = .error ⟨.failed e, trace⟩ := by
  have result : c.conclude.result = .error e := failed
  exact ⟨c.conclude.trace ++ Reader.outerTrace ⟨c, frames⟩, by
    simp only [Reader.concludeCurrent, result]⟩

/-- At the end of an expression the reader fails if the builder of the expression does. -/
theorem readFrom_of_failed {e : Failure} (inside : inCall frames = inArguments)
    (ends : Ends inArguments lexemes[place]?) (failed : c.finish = .error e) :
    readFrom table lexemes ⟨c, frames⟩ place = .error (.failed e) := by
  obtain ⟨trace, stopped⟩ := concludeCurrent_of_failed frames failed
  cases found : lexemes[place]? with
  | none => rw [readFrom_end _ found, Reader.finish, stopped]
  | some lexeme =>
      rw [found] at ends
      cases lexeme with
      | closing =>
          rw [readFrom_step _ found (by simp [nameOf?]), Reader.step, Reader.close, stopped]
          rfl
      | comma =>
          subst ends
          obtain ⟨outer, name, done, others, rfl⟩ := Reader.exists_call_of_inCall inside
          rw [readFrom_step _ found (by simp [nameOf?]), Reader.step, Reader.comma, stopped]
          rfl
      | _ => exact ends.elim

theorem readFrom_group (found : lexemes[place]? = some .closing) (finished : c.finish = .ok t) :
    readFrom table lexemes ⟨c, .group outer :: frames⟩ place =
      goesOn table lexemes (Reader.carry ⟨outer, frames⟩ (outer.addOperand t)) (place + 1) := by
  rw [readFrom_step _ found (by simp [nameOf?]), Reader.step]
  exact goesOn_eq_of_agree (Reader.close_group_agrees frames _ finished)

theorem readFrom_last (found : lexemes[place]? = some .closing) (finished : c.finish = .ok t) :
    readFrom table lexemes ⟨c, .call outer name done :: frames⟩ place =
      goesOn table lexemes
        (Reader.carry ⟨outer, frames⟩ (addCall table outer name (t :: done).reverse))
        (place + 1) := by
  rw [readFrom_step _ found (by simp [nameOf?]), Reader.step]
  exact goesOn_eq_of_agree (Reader.close_call_agrees frames _ finished)

theorem readFrom_argument (found : lexemes[place]? = some .comma) (finished : c.finish = .ok t) :
    readFrom table lexemes ⟨c, .call outer name done :: frames⟩ place =
      readFrom table lexemes ⟨.empty, .call outer name (t :: done) :: frames⟩ (place + 1) := by
  rw [readFrom_step _ found (by simp [nameOf?]), Reader.step]
  exact goesOn_eq_of_agree (Reader.comma_agrees frames finished)

/-- At the end of a line a builder with a term leaves what its frame was waiting for. -/
theorem readFrom_missing (ended : lexemes[place]? = none) (finished : c.finish = .ok t) :
    readFrom table lexemes ⟨c, frames⟩ place =
      match frames with
      | [] => .ok t
      | .group _ :: _ => .error .missingClosing
      | .call _ name _ :: _ => .error (.missingClosingOf name) := by
  obtain ⟨trace, concluded⟩ := Reader.concludeCurrent_of_finish frames finished
  rw [readFrom_end _ ended, Reader.finish, concluded]
  rcases frames with _ | ⟨_ | _, _⟩ <;> rfl

/-! ## Procedures -/

/-- The reading has come to the end of the innermost expression with this builder. -/
structure Reaches (table : Table) (lexemes : List Lexeme) (inArguments : Bool)
    (frames : List Frame) (whole : Except ReadError Term) {start : Nat} (c : Behind start Builder) :
    Prop where
  ends : Ends inArguments lexemes[c.place]?
  whole_eq : whole = readFrom table lexemes ⟨c.result, frames⟩ c.place

/-- Adding items from a place on does what the reader does. -/
def ItemsMeet (table : Table) (lexemes : List Lexeme) (place : Nat) : Prop :=
  ∀ inArguments b frames, inCall frames = inArguments →
    Meets (readFrom table lexemes ⟨b, frames⟩ place)
      (Reaches table lexemes inArguments frames (readFrom table lexemes ⟨b, frames⟩ place))
      (items table lexemes inArguments b place)

variable {whole : Except ReadError Term} {start : Nat} {added : Except Failure Builder}

/-- Once the reading has come to a builder, adding the items behind it goes on as the
reading does. -/
theorem ItemsMeet.goOn (itemsMeet : ItemsMeet table lexemes place)
    (inside : inCall frames = inArguments) (start_le : start ≤ place)
    (whole_eq : whole = readFrom table lexemes ⟨b, frames⟩ place) :
    Meets whole (Reaches table lexemes inArguments frames whole)
      (do return (← items table lexemes inArguments b place).since start_le) := by
  subst whole_eq
  apply (itemsMeet inArguments b frames inside).bind
  intro c reaches
  exact .ok ⟨reaches.ends, reaches.whole_eq⟩

/-- Where an addition fails the reading stops, and else it goes on with the builder made. -/
theorem meets_added (whole_eq : whole = goesOn table lexemes (Reader.carry r added) place) :
    Meets whole (fun c => whole = readFrom table lexemes ⟨c, r.frames⟩ place) (demand added) := by
  cases added with
  | error e => exact .error whole_eq
  | ok c => exact .ok whole_eq

theorem ItemsMeet.add (itemsMeet : ItemsMeet table lexemes place)
    (inside : inCall frames = inArguments) (start_le : start ≤ place)
    (whole_eq : whole = goesOn table lexemes (Reader.carry ⟨b, frames⟩ added) place) :
    Meets whole (Reaches table lexemes inArguments frames whole)
      (do
        let b ← demand added
        return (← items table lexemes inArguments b place).since start_le) := by
  apply (meets_added whole_eq).bind
  intro c came
  exact itemsMeet.goOn inside start_le came

theorem ItemsMeet.expression (itemsMeet : ItemsMeet table lexemes place)
    (inside : inCall frames = inArguments)
    (whole_eq : whole = readFrom table lexemes ⟨.empty, frames⟩ place) :
    Meets whole (fun t => ∃ c, c.finish = .ok t.result ∧ Ends inArguments lexemes[t.place]? ∧
        whole = readFrom table lexemes ⟨c, frames⟩ t.place)
      (expression table lexemes inArguments place) := by
  subst whole_eq
  rw [Descent.expression]
  apply (itemsMeet inArguments .empty frames inside).bind
  intro c reaches
  have fails (e : Failure) (failed : c.result.finish = .error e) :
      readFrom table lexemes ⟨.empty, frames⟩ place = .error (.failed e) :=
    reaches.whole_eq.trans (readFrom_of_failed inside reaches.ends failed)
  apply (meets_demand fails).bind
  intro t finished
  exact .ok ⟨c.result, finished, reaches.ends, reaches.whole_eq⟩

/-- Behind the expression of a group its parenthesis is due. -/
theorem meets_close (ends : Ends false lexemes[place]?) (finished : c.finish = .ok t)
    (whole_eq : whole = readFrom table lexemes ⟨c, .group b :: frames⟩ place) :
    Meets whole (fun _ => whole =
        goesOn table lexemes (Reader.carry ⟨b, frames⟩ (b.addOperand t)) (place + 1))
      (close lexemes place) := by
  unfold close
  cases found : lexemes[place]? with
  | none => exact .error (whole_eq.trans (readFrom_missing found finished))
  | some lexeme =>
      rw [found] at ends
      cases lexeme with
      | closing => exact .ok (whole_eq.trans (readFrom_group found finished))
      | comma => cases ends
      | _ => exact ends.elim

/-- Reading the other arguments of a call does what the reader does. -/
theorem meets_arguments (behind : ∀ q, place ≤ q → ItemsMeet table lexemes q) (outer : Builder)
    (name : String) (done : List Term) (frames : List Frame)
    (whole_eq : whole =
      readFrom table lexemes ⟨.empty, .call outer name done.reverse :: frames⟩ place) :
    Meets whole (fun args => whole = goesOn table lexemes
        (Reader.carry ⟨outer, frames⟩ (addCall table outer name args.result)) args.place)
      (arguments table lexemes name done place) := by
  -- what is behind the comma of an argument is shorter than what the argument starts
  induction left : lexemes.length - place using Nat.strong_induction_on
    generalizing place done with
  | _ left' ih =>
      subst left
      rw [arguments]
      apply ((behind place le_rfl).expression rfl whole_eq).bind
      rintro arg ⟨c, finished, ends, came⟩
      have place_le := arg.start_le
      split
      · next found =>
          have separated := came.trans (readFrom_argument found finished)
          have inside := place_lt_length found
          have later : ∀ q, arg.place + 1 ≤ q → ItemsMeet table lexemes q :=
            fun q q_lt => behind q (by omega)
          apply (ih _ (by omega) later (done ++ [arg.result]) (by simpa using separated) rfl).bind
          intro args reached
          exact .ok reached
      · next found =>
          have ended := came.trans (readFrom_last found finished)
          rw [List.reverse_cons, List.reverse_reverse] at ended
          exact .ok ended
      · next apart noClosing =>
          cases found : lexemes[arg.place]? with
          | none => exact .error (came.trans (readFrom_missing found finished))
          | some lexeme =>
              rw [found] at ends
              cases lexeme with
              | comma => exact absurd found apart
              | closing => exact absurd found noClosing
              | _ => exact ends.elim

theorem startCall_of_closing (r : Reader) (name : String)
    (found : lexemes[place]? = some .closing) :
    r.startCall name (lexemes.drop place) = .error ⟨.failed (.rejected .emptyArgumentList),
      r.current.trace ++ r.outerTrace⟩ := by
  rw [drop_eq_cons found, Reader.startCall]

theorem startCall_of_ne_closing (r : Reader) (name : String)
    (apart : lexemes[place]? ≠ some .closing) :
    r.startCall name (lexemes.drop place) = .ok (r.openCall name) := by
  unfold Reader.startCall
  split
  · rename_i rest drop_eq
    refine absurd ?_ apart
    rw [← List.head?_drop, drop_eq]
    rfl
  · rfl

/-- Adding a call behind its name does what the reader does from the name on. -/
theorem meets_call (behind : ∀ q, place < q → ItemsMeet table lexemes q)
    (found : lexemes[place]? = some lexeme) (name? : nameOf? lexeme = some name)
    (called : lexemes[place + 1]? = some (.opening true)) (b : Builder) (frames : List Frame) :
    Meets (readFrom table lexemes ⟨b, frames⟩ place)
      (fun c => readFrom table lexemes ⟨b, frames⟩ place =
        readFrom table lexemes ⟨c.result, frames⟩ c.place)
      (call table lexemes b name (place + 1)) := by
  have started : readFrom table lexemes ⟨b, frames⟩ place =
      goesOn table lexemes (Reader.startCall ⟨b, frames⟩ name (lexemes.drop (place + 2)))
        (place + 2) := readFrom_startCall _ found name? called
  rw [call]
  split
  · next closed =>
      rw [startCall_of_closing _ name closed] at started
      exact .error started
  · next apart =>
      rw [startCall_of_ne_closing _ name apart] at started
      have later : ∀ q, place + 2 ≤ q → ItemsMeet table lexemes q :=
        fun q place_le => behind q (by omega)
      apply (meets_arguments later b name [] frames started).bind
      intro args reached
      apply (meets_added reached).bind
      intro c came
      exact .ok came

/-- A name is added as a call if the parenthesis of its arguments follows, and else by
itself. -/
theorem meets_name {item : Item} (behind : ∀ q, place < q → ItemsMeet table lexemes q)
    (inside : inCall frames = inArguments) (found : lexemes[place]? = some lexeme)
    (name? : nameOf? lexeme = some name) (item? : itemOf? table lexeme = some item)
    (b : Builder) :
    Meets (readFrom table lexemes ⟨b, frames⟩ place)
      (Reaches table lexemes inArguments frames (readFrom table lexemes ⟨b, frames⟩ place))
      (if callStarts lexemes (place + 1) then do
        let called ← call table lexemes b name (place + 1)
        return (← items table lexemes inArguments called.result called.place).since
          (Nat.le_of_succ_le called.start_le)
      else do
        let b ← demand (Builder.addItem table b item)
        return (← items table lexemes inArguments b (place + 1)).since (Nat.le_succ place)) := by
  by_cases called : lexemes[place + 1]? = some (.opening true)
  · rw [if_pos (by simpa [callStarts] using called)]
    apply (meets_call behind found name? called b frames).bind
    intro c reached
    exact (behind c.place c.start_le).goOn inside _ reached
  · rw [if_neg (by simpa [callStarts] using called)]
    apply (behind _ place.lt_succ_self).add inside
    rw [readFrom_step _ found fun _ => called, Reader.step_of_itemOf? _ item?]

/-- A group is added as one operand. -/
theorem meets_group (behind : ∀ q, place < q → ItemsMeet table lexemes q)
    (inside : inCall frames = inArguments) {opened : Bool}
    (found : lexemes[place]? = some (.opening opened)) (b : Builder) :
    Meets (readFrom table lexemes ⟨b, frames⟩ place)
      (Reaches table lexemes inArguments frames (readFrom table lexemes ⟨b, frames⟩ place))
      (do
        let group ← expression table lexemes false (place + 1)
        close lexemes group.place
        let b ← demand (b.addOperand group.result)
        return (← items table lexemes inArguments b (group.place + 1)).since
          (Nat.le_succ_of_le (Nat.le_of_succ_le group.start_le))) := by
  have entered : readFrom table lexemes ⟨b, frames⟩ place =
      readFrom table lexemes ⟨.empty, .group b :: frames⟩ (place + 1) :=
    readFrom_step _ found (by simp [nameOf?])
  apply ((behind _ place.lt_succ_self).expression rfl entered).bind
  rintro group ⟨c, finished, ends, reached⟩
  apply (meets_close ends finished reached).bind
  intro _ closed
  exact (behind _ (Nat.lt_succ_of_lt group.start_le)).add inside _ closed

/-- Items that start at a place are added as by the reader, if that is so behind it. -/
theorem itemsMeet_of_behind
    (behind : place < lexemes.length → ∀ q, place < q → ItemsMeet table lexemes q) :
    ItemsMeet table lexemes place := by
  intro inArguments b frames inside
  have stays (ends : Ends inArguments lexemes[place]?) :
      Reaches table lexemes inArguments frames (readFrom table lexemes ⟨b, frames⟩ place)
        ⟨b, place, le_rfl⟩ := ⟨ends, rfl⟩
  rw [items]
  split
  · next found => exact .ok (stays (found ▸ trivial))
  · next found => exact .ok (stays (found ▸ trivial))
  · next found =>
      split
      · next args => exact .ok (stays (found ▸ args))
      · next noArgs =>
          have outside : inCall frames = false := by simpa [inside] using noArgs
          apply (behind (place_lt_length found) _ place.lt_succ_self).add inside
          rw [readFrom_step _ found (by simp [nameOf?]), Reader.step,
            Reader.comma_of_inCall outside]
  · next found => exact meets_group (behind (place_lt_length found)) inside found b
  · next found => exact meets_name (behind (place_lt_length found)) inside found rfl rfl b
  · next found => exact meets_name (behind (place_lt_length found)) inside found rfl rfl b
  · next found =>
      apply (behind (place_lt_length found) _ place.lt_succ_self).add inside
      rw [readFrom_step _ found (by simp [nameOf?]), Reader.step]

theorem itemsMeet (table : Table) (lexemes : List Lexeme) (place : Nat) :
    ItemsMeet table lexemes place := by
  induction left : lexemes.length - place using Nat.strong_induction_on generalizing place with
  | _ left' ih =>
      apply itemsMeet_of_behind
      intro inside q place_lt
      exact ih _ (by omega) q rfl

/-! ## Lines -/

/-- A parenthesis that closes nothing is reported with its place. -/
theorem readFrom_unexpected (found : lexemes[place]? = some .closing)
    (finished : c.finish = .ok t) :
    readFrom table lexemes ⟨c, []⟩ place = .error (.unexpectedClosing (place + 1)) := by
  obtain ⟨trace, concluded⟩ := Reader.concludeCurrent_of_finish [] finished
  rw [readFrom_step _ found (by simp [nameOf?]), Reader.step, Reader.close, concluded]
  rfl

theorem meets_line (table : Table) (lexemes : List Lexeme) :
    Meets (readFrom table lexemes .empty 0) (fun t => readFrom table lexemes .empty 0 = .ok t)
      (line table lexemes) := by
  apply ((itemsMeet table lexemes 0).expression rfl rfl).bind
  rintro whole ⟨c, finished, ends, reached⟩
  cases found : lexemes[whole.place]? with
  | none =>
      rw [if_neg (by simpa using found)]
      exact .ok (reached.trans (readFrom_missing found finished))
  | some lexeme =>
      rw [found] at ends
      rw [if_pos (place_lt_length found)]
      cases lexeme with
      | closing => exact .error (reached.trans (readFrom_unexpected found finished))
      | comma => cases ends
      | _ => exact ends.elim

/-- The descent into a line reads what the reader reads. -/
theorem ofLine_eq_read (table : Table) (text : String) :
    ofLine table text = Term.read table text := by
  unfold ofLine Term.read Reading.ofLine
  cases Lexeme.ofLine text with
  | error cause => rfl
  | ok lexemes =>
      have met := meets_line table lexemes
      change line table lexemes = readFrom table lexemes .empty 0
      generalize line table lexemes = outcome at met ⊢
      cases met with
      | error whole_eq => exact whole_eq.symm
      | ok holds => exact holds.symm

/-- The descent has an outcome for every line, the one of the reader; and that is a term
exactly if the lexemes of the line form an expression with the term. -/
theorem read_iff_expression (table : Table) (text : String) :
    ofLine table text = Term.read table text ∧
      ∀ t, Term.read table text = .ok t ↔
        ∃ lexemes, Lexeme.ofLine text = .ok lexemes ∧
          Reader.Expression table false lexemes t := by
  refine ⟨ofLine_eq_read table text, fun t => ?_⟩
  unfold Term.read Reading.ofLine
  cases Lexeme.ofLine text with
  | error cause => simp
  | ok lexemes =>
      calc (Reader.run table 1 .empty lexemes).result = .ok t
          ↔ Reader.Expression table false lexemes t := Reader.run_eq_ok_iff
        _ ↔ ∃ others, Except.ok lexemes = .ok others ∧
              Reader.Expression table false others t := by simp

end OperatorGrammar.Descent
