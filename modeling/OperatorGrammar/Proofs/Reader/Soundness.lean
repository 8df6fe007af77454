/-
# Proofs.Reader.Soundness -- what the reader takes is an expression of the grammar

A reader that has come to some builder and frames and reads the rest of a line to a term has
a derivation before it: the rest starts with lexemes that the grammar lets the innermost
builder take, what follows them ends the innermost parentheses, and so on outwards
(`Closes`).  Reading a lexeme puts it in front of such a derivation, or opens or closes
parentheses in it, so every run that makes a term has one (`closes_of_run`).  Within the
parentheses of a call it divides into arguments (`Closes.exists_arguments`).

With completeness the reader makes a term of a line exactly if the lexemes of the line form
an expression with that term (`run_eq_ok_iff`).
-/
import OperatorGrammar.Proofs.Reader.Completeness
import OperatorGrammar.Proofs.Reader.Defects

namespace OperatorGrammar.Reader

set_option autoImplicit false

open Builder

variable {table : Table} {call : Bool} {b b' c : Builder} {frames : List Frame} {r r' : Reader}
  {lexeme : Lexeme} {lexemes rest : List Lexeme} {name : String} {done : List Term} {t term : Term}
  {place : Nat}

/-! ## Steps that go on -/

theorem exists_of_next {stepped : Except Stopped Reader} {go : Reader → Reading}
    (went : (next stepped go).result = .ok t) :
    ∃ r, stepped = .ok r ∧ (go r).result = .ok t := by
  cases stepped with
  | ok r => exact ⟨r, rfl, went⟩
  | error stopped => cases went

theorem exists_of_carry {added : Except Failure Builder} (carried : r.carry added = .ok r') :
    ∃ b, added = .ok b ∧ r' = { r with current := b } := by
  cases added with
  | ok b =>
      cases carried
      exact ⟨b, rfl, rfl⟩
  | error e => cases carried

theorem finish_of_concludeCurrent {trace : List Event}
    (concluded : r.concludeCurrent = .ok (term, trace)) : r.current.finish = .ok term := by
  unfold concludeCurrent at concluded
  cases result : r.current.conclude.result with
  | ok term =>
      simp only [result] at concluded
      cases concluded
      exact result
  | error e =>
      simp only [result] at concluded
      cases concluded

/-- A step that concludes the innermost builder goes on with its term. -/
theorem exists_of_concludeCurrent {f : Term × List Event → Except Stopped Reader}
    (went : r.concludeCurrent >>= f = .ok r') :
    ∃ term trace, r.current.finish = .ok term ∧ f (term, trace) = .ok r' := by
  cases concluded : r.concludeCurrent with
  | ok made =>
      rw [concluded] at went
      exact ⟨made.1, made.2, finish_of_concludeCurrent concluded, went⟩
  | error stopped =>
      rw [concluded] at went
      cases went

theorem eq_openCall_of_startCall (started : r.startCall name rest = .ok r') :
    r' = r.openCall name := by
  unfold startCall at started
  split at started
  · cases started
  · cases started
    rfl

/-! ## Alike builders -/

/-- Alike builders take the same lexemes. -/
theorem Items.exists_of_alike {call : Bool} {b c : Builder} {lexemes : List Lexeme} :
    Items table call b lexemes c → ∀ {b' : Builder}, Alike b b' →
      ∃ c', Items table call b' lexemes c' ∧ Alike c c'
  | .nil, b', alike => ⟨b', .nil, alike⟩
  | .item item? notCalled added others, _, alike => by
      obtain ⟨d, added', alike'⟩ := (alike.addItem table _).exists_of_ok added
      obtain ⟨c', items, alike''⟩ := others.exists_of_alike alike'
      exact ⟨c', .item item? notCalled added' items, alike''⟩
  | .comma added others, _, alike => by
      obtain ⟨d, added', alike'⟩ := (alike.addItem table (.operator ",")).exists_of_ok added
      obtain ⟨c', items, alike''⟩ := others.exists_of_alike alike'
      exact ⟨c', .comma added' items, alike''⟩
  | .group inside added others, _, alike => by
      obtain ⟨d, added', alike'⟩ := (alike.add (.operand _)).exists_of_ok added
      obtain ⟨c', items, alike''⟩ := others.exists_of_alike alike'
      exact ⟨c', .group inside added' items, alike''⟩
  | .call name? arguments added others, _, alike => by
      rw [addCall_eq] at added
      obtain ⟨d, added', alike'⟩ := (alike.add (.operand _)).exists_of_ok added
      obtain ⟨c', items, alike''⟩ := others.exists_of_alike alike'
      exact ⟨c', .call name? arguments (by rw [addCall_eq]; exact added') items, alike''⟩

/-! ## Derivations of the rest of a line -/

/-- The rest of a line, in front of which the innermost builder is `b` and the parentheses of
the frames are open, has the term. -/
inductive Closes (table : Table) : Builder → List Frame → List Lexeme → Term → Prop
  /-- The line ends the outermost expression. -/
  | line {b c : Builder} {inner : List Lexeme} {t : Term}
      (items : Items table false b inner c) (finished : c.finish = .ok t) :
      Closes table b [] inner t
  | group {b c outer next : Builder} {frames : List Frame} {inner rest : List Lexeme}
      {term t : Term} (items : Items table false b inner c) (finished : c.finish = .ok term)
      (added : outer.addOperand term = .ok next) (others : Closes table next frames rest t) :
      Closes table b (.group outer :: frames) (inner ++ .closing :: rest) t
  /-- A parenthesis ends the last argument of a call. -/
  | last {b c outer next : Builder} {name : String} {done : List Term} {frames : List Frame}
      {inner rest : List Lexeme} {term t : Term} (items : Items table true b inner c)
      (finished : c.finish = .ok term)
      (added : addCall table outer name (term :: done).reverse = .ok next)
      (others : Closes table next frames rest t) :
      Closes table b (.call outer name done :: frames) (inner ++ .closing :: rest) t
  /-- A comma ends an argument of a call. -/
  | more {b c outer : Builder} {name : String} {done : List Term} {frames : List Frame}
      {inner rest : List Lexeme} {term t : Term} (items : Items table true b inner c)
      (finished : c.finish = .ok term)
      (others : Closes table .empty (.call outer name (term :: done) :: frames) rest t) :
      Closes table b (.call outer name done :: frames) (inner ++ .comma :: rest) t

/-- Lexemes that the innermost builder takes may stand in front. -/
theorem Closes.prepend {front : List Lexeme} (closes : Closes table b' frames rest t)
    (takes : ∀ inner c,
      (rest.head? ≠ some (.opening true) → inner.head? ≠ some (.opening true)) →
      Items table (inCall frames) b' inner c → Items table (inCall frames) b (front ++ inner) c) :
    Closes table b frames (front ++ rest) t := by
  have starts : ∀ {inner behind : List Lexeme}, (inner ++ behind).head? ≠ some (.opening true) →
      inner.head? ≠ some (.opening true) := by
    intro inner behind apart
    cases inner with
    | nil => simp
    | cons first inner => exact apart
  cases closes with
  | line items finished => exact .line (takes _ _ id items) finished
  | group items finished added others =>
      rw [← List.append_assoc]
      exact .group (takes _ _ starts items) finished added others
  | last items finished added others =>
      rw [← List.append_assoc]
      exact .last (takes _ _ starts items) finished added others
  | more items finished others =>
      rw [← List.append_assoc]
      exact .more (takes _ _ starts items) finished others

theorem Closes.congr (closes : Closes table b frames rest t) (alike : Alike b b') :
    Closes table b' frames rest t := by
  cases closes with
  | line items finished =>
      obtain ⟨c', items', alike'⟩ := items.exists_of_alike alike
      exact .line items' (alike'.finish_eq ▸ finished)
  | group items finished added others =>
      obtain ⟨c', items', alike'⟩ := items.exists_of_alike alike
      exact .group items' (alike'.finish_eq ▸ finished) added others
  | last items finished added others =>
      obtain ⟨c', items', alike'⟩ := items.exists_of_alike alike
      exact .last items' (alike'.finish_eq ▸ finished) added others
  | more items finished others =>
      obtain ⟨c', items', alike'⟩ := items.exists_of_alike alike
      exact .more items' (alike'.finish_eq ▸ finished) others

/-- Up to the parenthesis that ends a call stand its arguments. -/
theorem Closes.exists_arguments {outer : Builder}
    (closes : Closes table .empty (.call outer name done :: frames) lexemes t) :
    ∃ inner args next rest, lexemes = inner ++ .closing :: rest ∧ Arguments table inner args ∧
      addCall table outer name (done.reverse ++ args) = .ok next ∧
      Closes table next frames rest t := by
  generalize start : Builder.empty = b at closes
  generalize frames_eq : Frame.call outer name done :: frames = opened at closes
  induction closes generalizing done with
  | line | group => cases frames_eq
  | last items finished added others =>
      cases frames_eq
      subst start
      exact ⟨_, _, _, _, rfl, .one (.mk items finished), by simpa using added, others⟩
  | more items finished others ih =>
      cases frames_eq
      subst start
      obtain ⟨inner, args, next, rest, rfl, arguments, added, closes⟩ := ih rfl rfl
      refine ⟨_, _, next, rest, ?_, .more (.mk items finished) arguments, ?_, closes⟩
      · simp
      · simpa using added

/-! ## Runs -/

theorem Closes.item {item : Item} (item? : itemOf? table lexeme = some item)
    (notCalled : (nameOf? lexeme).isSome = true → rest.head? ≠ some (.opening true))
    (added : addItem table b item = .ok b') (closes : Closes table b' frames rest t) :
    Closes table b frames (lexeme :: rest) t := by
  have whole : Closes table b frames ([lexeme] ++ rest) t := closes.prepend fun _ _ starts items =>
    .item item? (fun named => starts (notCalled named)) added items
  exact whole

theorem Closes.openGroup (opened : Bool)
    (closes : Closes table .empty (.group b :: frames) rest t) :
    Closes table b frames (.opening opened :: rest) t := by
  cases closes with
  | @group _ c _ next _ inner rest term _ items finished added others =>
      have whole : Closes table b frames ((.opening opened :: inner ++ [.closing]) ++ rest) t := by
        refine others.prepend fun tail d _ behind => ?_
        have first :
            Items table (inCall frames) b (.opening opened :: inner ++ .closing :: tail) d :=
          .group (.mk items finished) added behind
        simpa using first
      simpa using whole

theorem Closes.openCall (name? : nameOf? lexeme = some name)
    (closes : Closes table .empty (.call b name [] :: frames) rest t) :
    Closes table b frames (lexeme :: .opening true :: rest) t := by
  obtain ⟨inner, args, next, rest, rfl, arguments, added, others⟩ := closes.exists_arguments
  have whole : Closes table b frames
      ((lexeme :: .opening true :: inner ++ [.closing]) ++ rest) t :=
    others.prepend fun _ _ _ behind => by
      simpa using Items.call name? arguments added behind
  simpa using whole

/-- The builder that waited takes the same operand as when it had come to wait. -/
theorem exists_of_resume {outer next : Builder} {trace : List Event}
    (added : (resume outer trace).addOperand term = .ok next) :
    ∃ next', outer.addOperand term = .ok next' ∧ Alike next next' := by
  have alike : Alike (resume outer trace) outer := ⟨rfl, rfl⟩
  exact (alike.add (.operand term)).exists_of_ok added

theorem Closes.closing (closed : close table r place = .ok r')
    (closes : Closes table r'.current r'.frames rest t) :
    Closes table r.current r.frames (.closing :: rest) t := by
  obtain ⟨term, trace, finished, went⟩ := exists_of_concludeCurrent closed
  cases frames_eq : r.frames with
  | nil =>
      simp only [frames_eq] at went
      cases went
  | cons f frames =>
      simp only [frames_eq] at went
      cases f with
      | group outer =>
          obtain ⟨next, added, rfl⟩ := exists_of_carry went
          obtain ⟨next', added', alike⟩ := exists_of_resume added
          have whole : Closes table r.current (.group outer :: frames) ([] ++ .closing :: rest) t :=
            .group .nil finished added' (closes.congr alike)
          exact whole
      | call outer name done =>
          obtain ⟨next, added, rfl⟩ := exists_of_carry went
          rw [addCall_eq] at added
          obtain ⟨next', added', alike⟩ := exists_of_resume added
          have addedCall : addCall table outer name (term :: done).reverse = .ok next' := by
            rw [addCall_eq]
            exact added'
          have whole :
              Closes table r.current (.call outer name done :: frames) ([] ++ .closing :: rest) t :=
            .last .nil finished addedCall (closes.congr alike)
          exact whole

/-- An argument may be read with another builder behind its call, if that one is alike. -/
theorem Closes.congr_outer {outer outer' : Builder}
    (closes : Closes table b (.call outer name done :: frames) rest t)
    (alike : Alike outer outer') :
    Closes table b (.call outer' name done :: frames) rest t := by
  generalize frames_eq : Frame.call outer name done :: frames = opened at closes
  induction closes generalizing done with
  | line | group => cases frames_eq
  | last items finished added others =>
      cases frames_eq
      rw [addCall_eq] at added
      obtain ⟨next', added', alike'⟩ := (alike.add (.operand _)).exists_of_ok added
      exact .last items finished (by rw [addCall_eq]; exact added') (others.congr alike')
  | more items finished others ih =>
      cases frames_eq
      exact .more items finished (ih rfl)

theorem Closes.comma (separated : comma table r = .ok r')
    (closes : Closes table r'.current r'.frames rest t) :
    Closes table r.current r.frames (.comma :: rest) t := by
  cases inside : inCall r.frames with
  | true =>
      obtain ⟨outer, name, done, frames, frames_eq⟩ := exists_call_of_inCall inside
      simp only [Reader.comma, frames_eq] at separated
      obtain ⟨term, trace, finished, went⟩ := exists_of_concludeCurrent separated
      cases went
      have alike : Alike (resume outer trace) outer := ⟨rfl, rfl⟩
      have whole : Closes table r.current (.call outer name done :: frames)
          ([] ++ .comma :: rest) t := .more .nil finished (closes.congr_outer alike)
      rw [frames_eq]
      exact whole
  | false =>
      have carried : r.carry (addItem table r.current (.operator ",")) = .ok r' :=
        (comma_of_inCall inside).symm.trans separated
      obtain ⟨next, added, rfl⟩ := exists_of_carry carried
      have whole : Closes table r.current r.frames ([.comma] ++ rest) t :=
        closes.prepend fun _ _ _ items => by
          rw [inside] at items ⊢
          exact .comma added items
      exact whole

/-- A lexeme that starts no call. -/
theorem Closes.step
    (notCalled : (nameOf? lexeme).isSome = true → rest.head? ≠ some (.opening true))
    (stepped : step table r place lexeme = .ok r')
    (closes : Closes table r'.current r'.frames rest t) :
    Closes table r.current r.frames (lexeme :: rest) t := by
  cases lexeme with
  | opening opened =>
      cases stepped
      exact closes.openGroup opened
  | closing => exact closes.closing stepped
  | comma => exact closes.comma stepped
  | word text | quoted text | str text =>
      obtain ⟨next, added, rfl⟩ := exists_of_carry stepped
      exact closes.item rfl notCalled added

theorem closes_of_finish (finished : r.finish.result = .ok t) :
    Closes table r.current r.frames [] t := by
  unfold finish at finished
  split at finished
  · cases finished
  · rename_i term trace concluded
    cases frames_eq : r.frames with
    | nil =>
        simp only [frames_eq] at finished
        cases finished
        exact .line .nil (finish_of_concludeCurrent concluded)
    | cons f frames =>
        cases f <;> simp [frames_eq] at finished

/-- A run that makes a term has a derivation of the lexemes that it reads. -/
theorem closes_of_run (ran : (run table place r lexemes).result = .ok t) :
    Closes table r.current r.frames lexemes t := by
  fun_induction run table place r lexemes with
  | case1 place r name rest ih =>
      obtain ⟨r', started, went⟩ := exists_of_next ran
      obtain rfl := eq_openCall_of_startCall started
      exact (ih _ went).openCall rfl
  | case2 place r name rest ih =>
      obtain ⟨r', started, went⟩ := exists_of_next ran
      obtain rfl := eq_openCall_of_startCall started
      exact (ih _ went).openCall rfl
  | case3 place r lexeme rest noWord noQuoted ih =>
      obtain ⟨r', stepped, went⟩ := exists_of_next ran
      refine (ih _ went).step ?_ stepped
      intro named starts
      obtain ⟨behind, rest_eq⟩ : ∃ behind, rest = .opening true :: behind :=
        ⟨rest.tail, (List.cons_head?_tail starts).symm⟩
      cases lexeme with
      | word text => exact noWord text behind rfl rest_eq
      | quoted text => exact noQuoted text behind rfl rest_eq
      | _ => cases named
  | case4 place r => exact closes_of_finish ran

/-- A line is read as a term exactly if its lexemes form an expression with that term. -/
theorem run_eq_ok_iff :
    (run table 1 .empty lexemes).result = .ok t ↔ Expression table false lexemes t := by
  refine ⟨fun ran => ?_, run_of_expression⟩
  cases closes_of_run ran with
  | line items finished => exact .mk items finished

end OperatorGrammar.Reader
