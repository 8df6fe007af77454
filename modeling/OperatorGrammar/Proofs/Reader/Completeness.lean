/-
# Proofs.Reader.Completeness -- the reader takes every expression of the grammar

In front of any lexemes that do not start the arguments of a call, lexemes that take one
builder to another do the same to the innermost builder of a reader (`passes_items`), and
the lexemes of an expression leave a builder that makes its term (`concludes_expression`).
By then the builders that wait in frames may have a longer trace, but they are alike.

So a line whose lexemes form an expression is read as the term of the expression
(`run_of_expression`).

The grammar leaves a call to the builder.  The entry of its name and the number of its arguments
tell whether it makes the term of an operator, a list cell or a compound (`callTerm_eq_iff`).
-/
import OperatorGrammar.Proofs.Builder.Alike
import OperatorGrammar.Reader.Grammar

namespace OperatorGrammar.Reader

set_option autoImplicit false

open Builder

variable {table : Table} {call : Bool} {b c d outer : Builder} {frames : List Frame}
  {lexeme : Lexeme} {lexemes rest : List Lexeme} {name : String} {args done : List Term} {t : Term}
  {place : Nat}

/-! ## Single steps -/

theorem run_of_nameOf? (r : Reader) (name? : nameOf? lexeme = some name) :
    run table place r (lexeme :: .opening true :: rest) =
      next (r.startCall name rest) fun r => run table (place + 2) r rest := by
  cases lexeme with
  | word text | quoted text =>
      cases name?
      rw [run]
  | _ => cases name?

theorem run_of_not_called (r : Reader)
    (notCalled : (nameOf? lexeme).isSome = true → rest.head? ≠ some (.opening true)) :
    run table place r (lexeme :: rest) =
      next (step table r place lexeme) fun r => run table (place + 1) r rest := by
  have noWord : ∀ name others, lexeme = .word name → rest = .opening true :: others → False := by
    rintro name others rfl rfl
    exact notCalled rfl rfl
  have noText : ∀ name others, lexeme = .quoted name → rest = .opening true :: others → False := by
    rintro name others rfl rfl
    exact notCalled rfl rfl
  rw [run]
  · exact noWord
  · exact noText

theorem step_of_itemOf? (r : Reader) {item : Item} (item? : itemOf? table lexeme = some item) :
    step table r place lexeme = r.carry (addItem table r.current item) := by
  cases lexeme with
  | word text | quoted text | str text =>
      cases item?
      rfl
  | _ => cases item?

/-- The term of a call. -/
def callTerm (table : Table) (name : String) (args : List Term) : Term :=
  if (table.find? name).isSome then operatorTerm table name args else applicationTerm name args

theorem addCall_eq (b : Builder) :
    addCall table b name args = b.addOperand (callTerm table name args) := by
  unfold addCall callTerm
  split <;> rfl

/-- What a call makes of its arguments, by the entry of its name. -/
inductive CallMakes (table : Table) (name : String) : List Term → Term → Prop
  /-- An operator of that many arguments makes the term. -/
  | operator {e : Entry} {op : Operator} {args : List Term} (known : table.find? name = some e)
      (form : e.formOfArity? args.length = some op) : CallMakes table name args (op.apply args)
  /-- A name of operators of another number of arguments is a functor, also if it could make a
  list cell. -/
  | formless {e : Entry} {args : List Term} (known : table.find? name = some e)
      (form : e.formOfArity? args.length = none) :
      CallMakes table name args (.application name args)
  | cell {head tail : Term} (unknown : table.find? name = none) (isCell : name ∈ cellFunctors) :
      CallMakes table name [head, tail] (.cons head tail)
  | functor {args : List Term} (unknown : table.find? name = none)
      (noCell : args.length = 2 → name ∉ cellFunctors) :
      CallMakes table name args (.application name args)

theorem applicationTerm_of_noCell (noCell : args.length = 2 → name ∉ cellFunctors) :
    applicationTerm name args = .application name args := by
  unfold applicationTerm
  split
  · rw [if_neg (noCell rfl)]
  · rfl

theorem CallMakes.callTerm_eq (makes : CallMakes table name args t) :
    callTerm table name args = t := by
  unfold callTerm
  cases makes with
  | operator known form | formless known form =>
      simp only [known, operatorTerm, Option.bind_some, form, Option.isSome_some, if_pos]
  | cell unknown isCell => simp [unknown, applicationTerm, isCell]
  | functor unknown noCell =>
      rw [unknown, applicationTerm_of_noCell noCell]
      rfl

/-- A call of a name that the table knows is made by its operators, and any other one by the
name as a functor. -/
theorem callTerm_eq_iff : callTerm table name args = t ↔ CallMakes table name args t := by
  refine ⟨?_, CallMakes.callTerm_eq⟩
  rintro rfl
  unfold callTerm
  cases known : table.find? name with
  | some e =>
      simp only [Option.isSome_some, if_pos, operatorTerm, known, Option.bind_some]
      cases form : e.formOfArity? args.length with
      | some op => exact .operator known form
      | none => exact .formless known form
  | none =>
      by_cases cell : args.length = 2 ∧ name ∈ cellFunctors
      · obtain ⟨head, tail, rfl⟩ := List.length_eq_two.1 cell.1
        simpa [applicationTerm, cell.2] using .cell known cell.2
      · have noCell : args.length = 2 → name ∉ cellFunctors := fun two isCell =>
          cell ⟨two, isCell⟩
        rw [applicationTerm_of_noCell noCell]
        exact .functor known noCell

/-- What a call adds, by the entry of its name. -/
theorem CallMakes.addCall_eq (makes : CallMakes table name args t) (b : Builder) :
    addCall table b name args = b.addOperand t := by
  rw [Reader.addCall_eq, makes.callTerm_eq]

theorem concludeCurrent_of_finish (frames : List Frame) (finished : d.finish = .ok t) :
    ∃ trace, concludeCurrent ⟨d, frames⟩ = .ok (t, trace) := by
  have result : d.conclude.result = .ok t := finished
  exact ⟨d.conclude.trace, by simp [concludeCurrent, result]⟩

theorem alike_resume (outer : Builder) (trace : List Event) : Alike outer (resume outer trace) :=
  ⟨rfl, rfl⟩

/-- The innermost open parenthesis holds the arguments of a call. -/
def inCall : List Frame → Bool
  | .call _ _ _ :: _ => true
  | _ => false

theorem exists_call_of_inCall (inside : inCall frames = true) :
    ∃ outer name done others, frames = .call outer name done :: others := by
  cases frames with
  | nil => cases inside
  | cons first others =>
      cases first with
      | group => cases inside
      | call outer name done => exact ⟨outer, name, done, others, rfl⟩

theorem comma_of_inCall (inside : inCall frames = false) :
    comma table ⟨d, frames⟩ = carry ⟨d, frames⟩ (addOperator table d ",") := by
  unfold comma
  split
  · rename_i frames_eq
    cases frames_eq
    cases inside
  · rfl

theorem comma_of_finish (table : Table) (outer : Builder) (name : String) (done : List Term)
    (frames : List Frame) (finished : d.finish = .ok t) :
    ∃ outer', Alike outer outer' ∧
      comma table ⟨d, .call outer name done :: frames⟩ =
        .ok ⟨.empty, .call outer' name (t :: done) :: frames⟩ := by
  obtain ⟨trace, concluded⟩ :=
    concludeCurrent_of_finish (.call outer name done :: frames) finished
  refine ⟨resume outer trace, alike_resume outer trace, ?_⟩
  rw [comma, concluded]
  rfl

/-- The end of a group adds its term to the builder that had waited. -/
theorem close_group_eq (outer : Builder) (frames : List Frame) (place : Nat)
    (finished : d.finish = .ok t) :
    ∃ trace, close table ⟨d, .group outer :: frames⟩ place =
      carry ⟨resume outer trace, frames⟩ ((resume outer trace).addOperand t) := by
  obtain ⟨trace, concluded⟩ := concludeCurrent_of_finish (.group outer :: frames) finished
  refine ⟨trace, ?_⟩
  rw [close, concluded]
  rfl

/-- The end of a call adds it to the builder that had waited. -/
theorem close_call_eq (outer : Builder) (name : String) (done : List Term) (frames : List Frame)
    (place : Nat) (finished : d.finish = .ok t) :
    ∃ trace, close table ⟨d, .call outer name done :: frames⟩ place =
      carry ⟨resume outer trace, frames⟩
        (addCall table (resume outer trace) name (t :: done).reverse) := by
  obtain ⟨trace, concluded⟩ :=
    concludeCurrent_of_finish (.call outer name done :: frames) finished
  refine ⟨trace, ?_⟩
  rw [close, concluded]
  rfl

theorem close_group (frames : List Frame) (place : Nat) (finished : d.finish = .ok t)
    (added : outer.addOperand t = .ok c) :
    ∃ c', Alike c c' ∧ close table ⟨d, .group outer :: frames⟩ place = .ok ⟨c', frames⟩ := by
  obtain ⟨trace, closed⟩ := close_group_eq outer frames place finished
  obtain ⟨c', added', alike⟩ :=
    ((alike_resume outer trace).add (.operand t)).exists_of_ok added
  refine ⟨c', alike, ?_⟩
  rw [closed, Builder.addOperand, added']
  rfl

theorem close_call (frames : List Frame) (place : Nat) (finished : d.finish = .ok t)
    (added : addCall table outer name (t :: done).reverse = .ok c) :
    ∃ c', Alike c c' ∧
      close table ⟨d, .call outer name done :: frames⟩ place = .ok ⟨c', frames⟩ := by
  obtain ⟨trace, closed⟩ := close_call_eq outer name done frames place finished
  rw [addCall_eq] at added
  obtain ⟨c', added', alike⟩ := ((alike_resume outer trace).add (.operand _)).exists_of_ok added
  refine ⟨c', alike, ?_⟩
  rw [closed, addCall_eq, Builder.addOperand, added']
  rfl

/-! ## Starts -/

theorem Items.head_ne_closing (items : Items table call b lexemes c) :
    lexemes.head? ≠ some .closing := by
  cases items with
  | nil => simp
  | item item? =>
      rintro ⟨⟩
      cases item?
  | comma => simp
  | group => simp
  | call name? =>
      rintro ⟨⟩
      cases name?

/-- An expression is not empty, and no closing parenthesis starts it. -/
theorem Expression.exists_head (expression : Expression table call lexemes t) :
    ∃ first others, lexemes = first :: others ∧ first ≠ .closing := by
  obtain ⟨items, finished⟩ := expression
  have noClosing := items.head_ne_closing
  cases lexemes with
  | nil =>
      cases items
      cases finished
  | cons first others => exact ⟨first, others, rfl, by simpa using noClosing⟩

theorem Arguments.exists_head (arguments : Arguments table lexemes args) :
    ∃ first others, lexemes = first :: others ∧ first ≠ .closing := by
  cases arguments with
  | one argument => exact argument.exists_head
  | more argument =>
      obtain ⟨first, others, rfl, apart⟩ := argument.exists_head
      exact ⟨first, _, rfl, apart⟩

theorem startCall_of_arguments (r : Reader) (arguments : Arguments table lexemes args)
    (rest : List Lexeme) : r.startCall name (lexemes ++ rest) = .ok (r.openCall name) := by
  obtain ⟨first, others, rfl, apart⟩ := arguments.exists_head
  rw [List.cons_append, startCall]
  simpa using apart

/-- No arguments of a call start in front of the rest. -/
theorem head?_append_ne (apart : lexemes.head? ≠ some (.opening true))
    (behind : rest.head? ≠ some (.opening true)) :
    (lexemes ++ rest).head? ≠ some (.opening true) := by
  cases lexemes with
  | nil => exact behind
  | cons first lexemes => exact apart

/-! ## Runs -/

/-- Read in front of other lexemes, these take the innermost builder `b` to `c`. -/
def Passes (table : Table) (call : Bool) (b : Builder) (lexemes : List Lexeme) (c : Builder) :
    Prop :=
  ∀ frames d place rest, inCall frames = call → Alike b d → rest.head? ≠ some (.opening true) →
    ∃ place' e, Alike c e ∧
      run table place ⟨d, frames⟩ (lexemes ++ rest) = run table place' ⟨e, frames⟩ rest

/-- Read in front of other lexemes, these make an empty innermost builder one that makes
the term. -/
def Concludes (table : Table) (call : Bool) (lexemes : List Lexeme) (t : Term) : Prop :=
  ∀ frames place rest, inCall frames = call → rest.head? ≠ some (.opening true) →
    ∃ place' e, e.finish = .ok t ∧
      run table place ⟨.empty, frames⟩ (lexemes ++ rest) = run table place' ⟨e, frames⟩ rest

/-- Read in front of the closing parenthesis of a call, these leave the last argument to be
made and the others done. -/
def Collects (table : Table) (lexemes : List Lexeme) (args : List Term) : Prop :=
  ∀ outer name done frames place rest, ∃ place' outer' e last others,
    Alike outer outer' ∧ e.finish = .ok last ∧ (last :: others).reverse = done.reverse ++ args ∧
      run table place ⟨.empty, .call outer name done :: frames⟩ (lexemes ++ .closing :: rest) =
        run table place' ⟨e, .call outer' name others :: frames⟩ (.closing :: rest)

theorem passes_nil : Passes table call b [] b :=
  fun _ d place _ _ alike _ => ⟨place, d, alike, rfl⟩

theorem Passes.item {item : Item} (item? : itemOf? table lexeme = some item)
    (notCalled : (nameOf? lexeme).isSome = true → lexemes.head? ≠ some (.opening true))
    (added : addItem table b item = .ok c) (others : Passes table call c lexemes d) :
    Passes table call b (lexeme :: lexemes) d := by
  intro frames b' place rest inside alike apart
  obtain ⟨c', added', alike'⟩ := (alike.addItem table item).exists_of_ok added
  obtain ⟨place', e, reached, ran⟩ := others frames c' (place + 1) rest inside alike' apart
  have notCalled : (nameOf? lexeme).isSome = true →
      (lexemes ++ rest).head? ≠ some (.opening true) := fun named =>
    head?_append_ne (notCalled named) apart
  refine ⟨place', e, reached, ?_⟩
  rw [List.cons_append, run_of_not_called _ notCalled, step_of_itemOf? _ item?, added', ← ran]
  rfl

theorem Passes.comma (added : addOperator table b "," = .ok c)
    (others : Passes table false c lexemes d) : Passes table false b (.comma :: lexemes) d := by
  intro frames b' place rest inside alike apart
  obtain ⟨c', added', alike'⟩ := (alike.addItem table (.operator ",")).exists_of_ok added
  obtain ⟨place', e, reached, ran⟩ := others frames c' (place + 1) rest inside alike' apart
  refine ⟨place', e, reached, ?_⟩
  rw [List.cons_append, run_of_not_called _ (by simp [nameOf?]), step, comma_of_inCall inside,
    ← ran]
  change next (carry ⟨b', frames⟩ (addItem table b' (.operator ","))) _ = _
  rw [added']
  rfl

theorem Passes.group {inner : List Lexeme} (opened : Bool)
    (concludes : Concludes table false inner t) (added : b.addOperand t = .ok c)
    (others : Passes table call c lexemes d) :
    Passes table call b (.opening opened :: inner ++ .closing :: lexemes) d := by
  intro frames b' place rest inside alike apart
  obtain ⟨c', added', alike'⟩ := (alike.add (.operand t)).exists_of_ok added
  obtain ⟨middle, made, finished, ranInner⟩ := concludes (.group b' :: frames) (place + 1)
    (.closing :: (lexemes ++ rest)) rfl (by simp)
  obtain ⟨c'', alike'', closed⟩ := close_group frames middle finished added'
  obtain ⟨place', e, reached, ran⟩ :=
    others frames c'' (middle + 1) rest inside (alike'.trans alike'') apart
  refine ⟨place', e, reached, ?_⟩
  have split : .opening opened :: inner ++ .closing :: lexemes ++ rest =
      .opening opened :: (inner ++ .closing :: (lexemes ++ rest)) := by simp
  rw [split, run_of_not_called _ (by simp [nameOf?]), ← ran]
  change run table (place + 1) ⟨.empty, .group b' :: frames⟩ _ = _
  rw [ranInner, run_of_not_called _ (by simp [nameOf?]), step, closed]
  rfl

theorem Passes.application {inner : List Lexeme} (name? : nameOf? lexeme = some name)
    (arguments : Arguments table inner args) (collects : Collects table inner args)
    (added : addCall table b name args = .ok c) (others : Passes table call c lexemes d) :
    Passes table call b (lexeme :: .opening true :: inner ++ .closing :: lexemes) d := by
  intro frames b' place rest inside alike apart
  rw [addCall_eq] at added
  obtain ⟨c', added', alike'⟩ := (alike.add (.operand _)).exists_of_ok added
  obtain ⟨middle, outer, made, last, before, alikeOuter, finished, args_eq, ranInner⟩ :=
    collects b' name [] frames (place + 2) (lexemes ++ rest)
  obtain ⟨c'', addedOuter, alike''⟩ := (alikeOuter.add (.operand _)).exists_of_ok added'
  have addedCall : addCall table outer name (last :: before).reverse = .ok c'' := by
    rw [addCall_eq, args_eq]
    exact addedOuter
  obtain ⟨resumed, alikeResumed, closed⟩ := close_call frames middle finished addedCall
  obtain ⟨place', e, reached, ran⟩ := others frames resumed (middle + 1) rest inside
    ((alike'.trans alike'').trans alikeResumed) apart
  refine ⟨place', e, reached, ?_⟩
  have split : lexeme :: .opening true :: inner ++ .closing :: lexemes ++ rest =
      lexeme :: .opening true :: (inner ++ .closing :: (lexemes ++ rest)) := by simp
  rw [split, run_of_nameOf? _ name?, startCall_of_arguments _ arguments, ← ran]
  change run table (place + 2) ⟨.empty, .call b' name [] :: frames⟩ _ = _
  rw [ranInner, run_of_not_called _ (by simp [nameOf?]), step, closed]
  rfl

theorem Passes.concludes (passes : Passes table call .empty lexemes b)
    (finished : b.finish = .ok t) : Concludes table call lexemes t := by
  intro frames place rest inside apart
  obtain ⟨place', e, alike, ran⟩ := passes frames .empty place rest inside (.refl _) apart
  exact ⟨place', e, by rw [← alike.finish_eq, finished], ran⟩

theorem Concludes.collects (concludes : Concludes table true lexemes t) :
    Collects table lexemes [t] := by
  intro outer name done frames place rest
  obtain ⟨place', e, finished, ran⟩ := concludes (.call outer name done :: frames) place
    (.closing :: rest) rfl (by simp)
  exact ⟨place', outer, e, t, done, .refl _, finished, by simp, ran⟩

theorem Collects.more {others : List Lexeme} (concludes : Concludes table true lexemes t)
    (collects : Collects table others args) :
    Collects table (lexemes ++ .comma :: others) (t :: args) := by
  intro outer name done frames place rest
  obtain ⟨middle, made, finished, ranFirst⟩ := concludes (.call outer name done :: frames) place
    (.comma :: (others ++ .closing :: rest)) rfl (by simp)
  obtain ⟨outer', alike, separated⟩ :=
    comma_of_finish table outer name done frames finished
  obtain ⟨place', outer'', e, last, before, alike', finished', args_eq, ran⟩ :=
    collects outer' name (t :: done) frames (middle + 1) rest
  refine ⟨place', outer'', e, last, before, alike.trans alike', finished', ?_, ?_⟩
  · rw [args_eq]
    simp
  · have split : lexemes ++ .comma :: others ++ .closing :: rest =
        lexemes ++ .comma :: (others ++ .closing :: rest) := by simp
    rw [split, ranFirst, run_of_not_called _ (by simp [nameOf?]), step, separated, ← ran]
    rfl

mutual

theorem concludes_expression {call : Bool} {lexemes : List Lexeme} {t : Term} :
    Expression table call lexemes t → Concludes table call lexemes t
  | .mk items finished => (passes_items items).concludes finished

theorem passes_items {call : Bool} {b c : Builder} {lexemes : List Lexeme} :
    Items table call b lexemes c → Passes table call b lexemes c
  | .nil => passes_nil
  | .item item? notCalled added others => (passes_items others).item item? notCalled added
  | .comma added others => (passes_items others).comma added
  | .group group added others => (passes_items others).group _ (concludes_expression group) added
  | .call name? arguments added others =>
      (passes_items others).application name? arguments (collects_arguments arguments) added

theorem collects_arguments {lexemes : List Lexeme} {args : List Term} :
    Arguments table lexemes args → Collects table lexemes args
  | .one argument => (concludes_expression argument).collects
  | .more argument others => (collects_arguments others).more (concludes_expression argument)

end

/-- A line whose lexemes form an expression is read as the term of the expression. -/
theorem run_of_expression (expression : Expression table false lexemes t) :
    (run table 1 .empty lexemes).result = .ok t := by
  obtain ⟨place, e, finished, ran⟩ := concludes_expression expression [] 1 [] rfl (by simp)
  obtain ⟨trace, concluded⟩ := concludeCurrent_of_finish [] finished
  rw [List.append_nil] at ran
  change (run table 1 ⟨.empty, []⟩ lexemes).result = _
  rw [ran, run, Reader.finish, concluded]

end OperatorGrammar.Reader
