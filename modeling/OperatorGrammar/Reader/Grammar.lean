/-
# Reader.Grammar -- the grammar of lexemes

The relation says which lexemes form an expression, and which term it has, without
a reader: an expression is a sequence of items that a fresh builder takes in order.
A call is a name directly in front of its opening parenthesis, with one or more
expressions between commas; any other pair of parentheses is a group, whose
expression becomes one operand.  Inside the parentheses of a call a comma
separates, and everywhere else it is an operator.
-/
import OperatorGrammar.Reader.Basic

namespace OperatorGrammar.Reader

set_option autoImplicit false

/-- The name that a lexeme gives to a call. -/
def nameOf? : Lexeme → Option String
  | .word text => some text
  | .quoted text => some text
  | _ => none

/-- What a lexeme adds to an expression by itself. -/
def itemOf? (table : Table) : Lexeme → Option Item
  | .word text => some (.ofWord table text)
  | .quoted text => some (.operand (.atom text))
  | .str text => some (.operand (.str text))
  | _ => none

mutual

/-- Lexemes that form an expression with a term; `call` if it is an argument. -/
inductive Expression (table : Table) : Bool → List Lexeme → Term → Prop where
  | mk {call : Bool} {lexemes : List Lexeme} {b : Builder} {t : Term}
      (items : Items table call .empty lexemes b) (finished : b.finish = .ok t) :
      Expression table call lexemes t

/-- Lexemes that take a builder to another one. -/
inductive Items (table : Table) : Bool → Builder → List Lexeme → Builder → Prop where
  | nil {call : Bool} {b : Builder} : Items table call b [] b
  | item {call : Bool} {b b' c : Builder} {lexeme : Lexeme} {rest : List Lexeme} {item : Item}
      (item? : itemOf? table lexeme = some item)
      (notCalled : (nameOf? lexeme).isSome = true → rest.head? ≠ some (.opening true))
      (added : Builder.addItem table b item = .ok b')
      (others : Items table call b' rest c) :
      Items table call b (lexeme :: rest) c
  | comma {b b' c : Builder} {rest : List Lexeme}
      (added : Builder.addOperator table b "," = .ok b')
      (others : Items table false b' rest c) :
      Items table false b (.comma :: rest) c
  | group {call opened : Bool} {b b' c : Builder} {inner rest : List Lexeme} {t : Term}
      (group : Expression table false inner t)
      (added : b.addOperand t = .ok b')
      (others : Items table call b' rest c) :
      Items table call b (.opening opened :: inner ++ .closing :: rest) c
  | call {call : Bool} {b b' c : Builder} {lexeme : Lexeme} {inner rest : List Lexeme}
      {name : String} {args : List Term}
      (name? : nameOf? lexeme = some name)
      (arguments : Arguments table inner args)
      (added : addCall table b name args = .ok b')
      (others : Items table call b' rest c) :
      Items table call b (lexeme :: .opening true :: inner ++ .closing :: rest) c

/-- Lexemes that form one or more arguments. -/
inductive Arguments (table : Table) : List Lexeme → List Term → Prop where
  | one {lexemes : List Lexeme} {t : Term} (argument : Expression table true lexemes t) :
      Arguments table lexemes [t]
  | more {lexemes rest : List Lexeme} {t : Term} {ts : List Term}
      (argument : Expression table true lexemes t) (others : Arguments table rest ts) :
      Arguments table (lexemes ++ .comma :: rest) (t :: ts)

end

end OperatorGrammar.Reader
