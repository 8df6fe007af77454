/-
# Reader.Descent -- reading by recursive descent

The same lexemes can be read without frames, by procedures that call one another: an
expression adds its items, a group in it is an expression again, and so is every argument of a
call.  All they hand on is the place of the next lexeme.

What ends an expression is left where it is, for the procedure that asked for the expression:
a closing parenthesis, the end of the line and, among arguments, a comma.

A result comes with a place that is not in front of the one where its procedure started
(`Behind`).  So every call leaves less of the line to those that follow, and the descent comes
to an end.
-/
import OperatorGrammar.Reader.Basic

namespace OperatorGrammar.Descent

set_option autoImplicit false

/-- A result and the place behind it, which is not in front of the start. -/
structure Behind (start : Nat) (α : Type) where
  result : α
  place : Nat
  start_le : start ≤ place

/-- The same result for an earlier start. -/
def Behind.since {start later : Nat} {α : Type} (x : Behind later α) (start_le : start ≤ later) :
    Behind start α :=
  ⟨x.result, x.place, Nat.le_trans start_le x.start_le⟩

/-- The result of a builder, or its failure. -/
def demand {α : Type} (made : Except Failure α) : Except ReadError α := made.mapError .failed

/-- Whether the arguments of a call start at a place. -/
def callStarts (lexemes : List Lexeme) (place : Nat) : Bool :=
  lexemes[place]? = some (.opening true)

/-- Closes a group. -/
def close (lexemes : List Lexeme) (place : Nat) : Except ReadError Unit :=
  match lexemes[place]? with
  | some .closing => .ok ()
  | _ => .error .missingClosing

mutual

/-- Adds items to a builder until something ends the expression. -/
def items (table : Table) (lexemes : List Lexeme) (inArguments : Bool) (b : Builder)
    (place : Nat) : Except ReadError (Behind place Builder) :=
  match _found : lexemes[place]? with
  | none => .ok ⟨b, place, Nat.le_refl _⟩
  | some .closing => .ok ⟨b, place, Nat.le_refl _⟩
  | some .comma =>
      if inArguments then .ok ⟨b, place, Nat.le_refl _⟩
      else do
        let b ← demand (Builder.addOperator table b ",")
        return (← items table lexemes inArguments b (place + 1)).since (Nat.le_succ _)
  | some (.opening _) => do
      let group ← expression table lexemes false (place + 1)
      close lexemes group.place
      let b ← demand (b.addOperand group.result)
      return (← items table lexemes inArguments b (group.place + 1)).since
        (Nat.le_succ_of_le (Nat.le_of_succ_le group.start_le))
  | some (.word text) =>
      if callStarts lexemes (place + 1) then do
        let called ← call table lexemes b text (place + 1)
        return (← items table lexemes inArguments called.result called.place).since
          (Nat.le_of_succ_le called.start_le)
      else do
        let b ← demand (Builder.addItem table b (.ofWord table text))
        return (← items table lexemes inArguments b (place + 1)).since (Nat.le_succ _)
  | some (.quoted text) =>
      if callStarts lexemes (place + 1) then do
        let called ← call table lexemes b text (place + 1)
        return (← items table lexemes inArguments called.result called.place).since
          (Nat.le_of_succ_le called.start_le)
      else do
        let b ← demand (b.addOperand (.atom text))
        return (← items table lexemes inArguments b (place + 1)).since (Nat.le_succ _)
  | some (.str text) => do
      let b ← demand (b.addOperand (.str text))
      return (← items table lexemes inArguments b (place + 1)).since (Nat.le_succ _)
termination_by 4 * (lexemes.length - place)
decreasing_by all_goals grind [Behind]

/-- Reads an expression with a fresh builder. -/
def expression (table : Table) (lexemes : List Lexeme) (inArguments : Bool) (place : Nat) :
    Except ReadError (Behind place Term) := do
  let made ← items table lexemes inArguments .empty place
  return ⟨← demand made.result.finish, made.place, made.start_le⟩
termination_by 4 * (lexemes.length - place) + 1

/-- Adds the call of a name, from its opening parenthesis on. -/
def call (table : Table) (lexemes : List Lexeme) (b : Builder) (name : String) (place : Nat) :
    Except ReadError (Behind place Builder) :=
  match lexemes[place + 1]? with
  | some .closing => .error (.failed (.rejected .emptyArgumentList))
  | _ => do
      let args ← arguments table lexemes name [] (place + 1)
      let b ← demand (Reader.addCall table b name args.result)
      return ⟨b, args.place, Nat.le_of_succ_le args.start_le⟩
termination_by 4 * (lexemes.length - place) + 3

/-- Reads the other arguments of a call up to its closing parenthesis. -/
def arguments (table : Table) (lexemes : List Lexeme) (name : String) (done : List Term)
    (place : Nat) : Except ReadError (Behind place (List Term)) := do
  let arg ← expression table lexemes true place
  match _found : lexemes[arg.place]? with
  | some .comma =>
      return (← arguments table lexemes name (done ++ [arg.result]) (arg.place + 1)).since
        (Nat.le_succ_of_le arg.start_le)
  | some .closing => return ⟨done ++ [arg.result], arg.place + 1, Nat.le_succ_of_le arg.start_le⟩
  | _ => .error (.missingClosingOf name)
termination_by 4 * (lexemes.length - place) + 2
decreasing_by all_goals grind [Behind]

end

/-- Reads lexemes as one expression, which no parenthesis closes. -/
def line (table : Table) (lexemes : List Lexeme) : Except ReadError Term := do
  let whole ← expression table lexemes false 0
  if whole.place < lexemes.length then .error (.unexpectedClosing (whole.place + 1))
  else return whole.result

/-- The term of a line, or why it has none. -/
def ofLine (table : Table) (text : String) : Except ReadError Term :=
  match Lexeme.ofLine text with
  | .error cause => .error (.lexical cause)
  | .ok lexemes => line table lexemes

end OperatorGrammar.Descent
