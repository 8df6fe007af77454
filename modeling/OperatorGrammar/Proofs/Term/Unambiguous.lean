/-
# Proofs.Term.Unambiguous -- canonical texts of different terms differ

The text of a term shows by its first characters which kind of term it is (`of?_text`):
numbers start with a digit or a minus sign, strings with their quote, variables with a
capital or an underscore, and a bracket starts a list unless it is closed at once, which
makes it a name.

What follows a term inside another one is a comma, a blank or a closing bracket (`Follows`).
In front of it the text of a term can be split off (`Splits`), and so can the rest of a list
in front of the bracket that closes it (`SplitsAsRest`); the induction carries both, since a
list is the text of its head and the rest of its tail.  With nothing behind them, equal texts
belong to equal terms (`text_inj`).

A term is regular if its compounds have arguments, its variables are named by identifiers and
it has no reals.
-/
import OperatorGrammar.Proofs.Reader.Words
import OperatorGrammar.Proofs.Text.Codes

namespace OperatorGrammar.Term

set_option autoImplicit false

open Text

/-- A capital or an underscore in front of letters, digits and underscores, all of them ASCII. -/
def IsIdentifier (name : String) : Prop :=
  ∃ c cs, name.toList = c :: cs ∧ (c.isUpper || c = '_') = true ∧ ∀ d ∈ cs, Atom.isPlainChar d

/-- A term whose text says all about it. -/
inductive Regular : Term → Prop
  | int (n : Int64) : Regular (.int n)
  | str (text : String) : Regular (.str text)
  | var {name : String} (identifier : IsIdentifier name) : Regular (.var name)
  | atom (name : String) : Regular (.atom name)
  | compound {functor : String} {args : List Term} (some_arg : args ≠ [])
      (regular : ∀ arg ∈ args, Regular arg) : Regular (.compound functor args)
  | cons {head tail : Term} (first : Regular head) (others : Regular tail) :
      Regular (.cons head tail)

variable {t u head tail : Term} {args : List Term} {name functor : String} {r s : List Char}

/-! ## Texts by the kind of term -/

/-- Arguments behind the first one, each behind its comma. -/
def further (args : List Term) : List Char := args.flatMap fun arg => ',' :: ' ' :: arg.text.toList

theorem toList_intercalate (arg : Term) (args : List Term) :
    (", ".intercalate ((arg :: args).map text)).toList = arg.text.toList ++ further args := by
  induction args generalizing arg with
  | nil => simp [further]
  | cons second args ih =>
      have behind := ih second
      rw [List.map_cons] at behind
      rw [List.map_cons, List.map_cons, String.intercalate_cons_cons]
      simp only [String.toList_append, behind]
      simp [further]

theorem toList_text_compound (functor : String) (arg : Term) (args : List Term) :
    (text (.compound functor (arg :: args))).toList ++ r =
      (Atom.text functor).toList ++ '(' :: (arg.text.toList ++ (further args ++ ')' :: r)) := by
  rw [text_compound, applicationText]
  simp only [String.toList_append, toList_intercalate]
  simp

theorem toList_text_cons (head tail : Term) :
    (text (.cons head tail)).toList ++ r =
      '[' :: (head.text.toList ++ (tail.written.rest.toList ++ ']' :: r)) := by
  simp [text_cons]

theorem toList_rest_cons (head tail : Term) :
    (cons head tail).written.rest.toList ++ r =
      ',' :: ' ' :: (head.text.toList ++ (tail.written.rest.toList ++ r)) := by
  simp [rest_cons]

/-! ## First characters -/

/-- What the first characters of a text show about a term. -/
inductive Lead where
  | number
  | string
  | variable
  | name
  | cell
deriving DecidableEq

def isNumberChar (c : Char) : Bool := c.isDigit || c = '-'

/-- The lead that a text starts with; a closing bracket starts no term. -/
def Lead.of? : List Char → Option Lead
  | [] => none
  | c :: rest =>
      if c = '[' then if rest.head? = some ']' then some .name else some .cell
      else if c = ']' then none
      else if c = '\x22' then some .string
      else if isNumberChar c then some .number
      else if c.isUpper || c = '_' then some .variable
      else some .name

/-- The lead of a term's text. -/
def lead : Term → Lead
  | .int _ | .real _ => .number
  | .str _ => .string
  | .var _ => .variable
  | .atom _ | .compound _ _ => .name
  | .cons _ _ => .cell

theorem isNumberChar_of_mem {n : Int} {c : Char} (listed : c ∈ (signedDecimal n).toList) :
    isNumberChar c = true := by
  have digits : ∀ m, c ∈ digits m → isNumberChar c = true := by
    intro m listed
    simp [isNumberChar, isDigit_of_mem_digits listed]
  cases n with
  | ofNat m => exact digits m (by simpa [signedDecimal, decimal] using listed)
  | negSucc m =>
      rcases (by simpa [signedDecimal, decimal] using listed : c = '-' ∨ c ∈ Text.digits (m + 1))
        with rfl | listed
      · rfl
      · exact digits (m + 1) listed

theorem plain_cases (plain : Atom.isPlain name = true) :
    name = "[]" ∨ name = "\x7b\x7d" ∨
      ∃ c cs, name.toList = c :: cs ∧ c.isLower = true ∧ ∀ d ∈ cs, Atom.isPlainChar d = true := by
  simp only [Atom.isPlain, Bool.or_eq_true, decide_eq_true_eq] at plain
  rcases plain with (nil | braces) | word
  · exact Or.inl nil
  · exact Or.inr (Or.inl braces)
  · refine Or.inr (Or.inr ?_)
    cases chars : name.toList with
    | nil => simp [chars] at word
    | cons c cs =>
        simp only [chars, Bool.and_eq_true, List.all_eq_true] at word
        exact ⟨c, cs, rfl, word.1, word.2⟩

theorem of?_atomText (name : String) (r : List Char) :
    Lead.of? ((Atom.text name).toList ++ r) = some .name := by
  unfold Atom.text
  split
  · rename_i plain
    rcases plain_cases plain with rfl | rfl | ⟨c, cs, chars, lower, -⟩
    · rfl
    · rfl
    · have range := toNat_of_isLower lower
      have apart : ∀ d : Char, d.toNat < 0x61 → c ≠ d := by
        rintro d below rfl
        omega
      have noUpper : c.isUpper = false := by
        rw [Bool.eq_false_iff]
        intro upper
        have := toNat_of_isUpper upper
        omega
      have noDigit : c.isDigit = false := not_isDigit_of_letter (by omega)
      simp [chars, Lead.of?, isNumberChar, noUpper, noDigit, apart '[' (by decide),
        apart ']' (by decide), apart '\x22' (by decide), apart '-' (by decide),
        apart '_' (by decide)]
  · simp [Atom.quoted, Lead.of?, isNumberChar]

theorem of?_signedDecimal (n : Int) (r : List Char) :
    Lead.of? ((signedDecimal n).toList ++ r) = some .number := by
  cases chars : (signedDecimal n).toList with
  | nil => exact absurd (String.toList_eq_nil_iff.1 chars) (signedDecimal_ne_empty n)
  | cons c cs =>
      have number : isNumberChar c = true := isNumberChar_of_mem (n := n) (by simp [chars])
      have apart : ∀ d, isNumberChar d = false → c ≠ d := by
        rintro d other rfl
        rw [number] at other
        cases other
      simp [Lead.of?, number, apart '[' (by decide), apart ']' (by decide),
        apart '\x22' (by decide)]

theorem of?_identifier (identifier : IsIdentifier name) (r : List Char) :
    Lead.of? (name.toList ++ r) = some .variable := by
  obtain ⟨c, cs, chars, capital, -⟩ := identifier
  have apart : ∀ d : Char, (d.isUpper || d = '_') = false → c ≠ d := by
    rintro d other rfl
    rw [capital] at other
    cases other
  have noNumber : isNumberChar c = false := by
    have letter : 0x41 ≤ c.toNat := by
      rcases (by simpa using capital : c.isUpper = true ∨ c = '_') with upper | rfl
      · exact (toNat_of_isUpper upper).1
      · decide
    simp [isNumberChar, not_isDigit_of_letter letter, apart '-' (by decide)]
  simp only [Bool.or_eq_true, decide_eq_true_eq] at capital
  simp [chars, Lead.of?, noNumber, capital, apart '[' (by decide), apart ']' (by decide),
    apart '\x22' (by decide)]

theorem head?_ne_closing {lead : Lead} {cs : List Char} (shows : Lead.of? cs = some lead) :
    cs.head? ≠ some ']' := by
  cases cs with
  | nil => simp
  | cons c cs =>
      rintro ⟨⟩
      cases shows

/-- A term's text shows its lead. -/
theorem of?_text (regular : t.Regular) (r : List Char) :
    Lead.of? (t.text.toList ++ r) = some t.lead := by
  induction regular generalizing r with
  | int n => exact of?_signedDecimal n.toInt r
  | str text => simp [Term.text, written, Written.ending, quoted, Lead.of?, lead]
  | var identifier => exact of?_identifier identifier r
  | atom name =>
      rw [text_atom]
      exact of?_atomText name r
  | @compound functor args some_arg _ _ =>
      obtain ⟨arg, rest, rfl⟩ := List.exists_cons_of_ne_nil some_arg
      rw [toList_text_compound]
      exact of?_atomText functor _
  | @cons head tail _ _ ih _ =>
      rw [toList_text_cons]
      have notClosed := head?_ne_closing (ih (tail.written.rest.toList ++ ']' :: r))
      rw [Lead.of?, if_pos rfl, if_neg notClosed]
      rfl

theorem lead_eq (regular : t.Regular) (regular' : u.Regular)
    (same : t.text.toList ++ r = u.text.toList ++ s) : t.lead = u.lead := by
  have leads : some t.lead = some u.lead := by
    rw [← of?_text regular r, same, of?_text regular' s]
  exact Option.some.inj leads

/-! ## What follows a term -/

/-- Nothing, or what may stand behind a term inside another one. -/
def Follows (rest : List Char) : Prop := ∀ c ∈ rest.head?, c ∈ [',', ' ', ')', ']']

theorem follows_nil : Follows [] := by simp [Follows]

theorem follows_further (args : List Term) (r : List Char) :
    Follows (further args ++ ')' :: r) := by
  cases args <;> simp [Follows, further]

theorem follows_rest (t : Term) (r : List Char) : Follows (t.written.rest.toList ++ ']' :: r) := by
  by_cases isNil : t = nil
  · simp [isNil, rest_nil, Follows]
  by_cases isCell : ∃ head tail, t = cons head tail
  · obtain ⟨head, tail, rfl⟩ := isCell
    simp [rest_cons, Follows]
  · have ending := rest_of_ending isNil fun head tail same => isCell ⟨head, tail, same⟩
    simp [ending, Follows]

theorem Follows.stops {test : Char → Bool} (follows : Follows r)
    (apart : ∀ c ∈ [',', ' ', ')', ']'], test c = false) : Stops test r :=
  fun c heads => apart c (follows c heads)

theorem Follows.endsNumber (follows : Follows r) : Stops isNumberChar r :=
  follows.stops (by simp [isNumberChar])

theorem Follows.endsName (follows : Follows r) : Stops Atom.isPlainChar r :=
  follows.stops (by simp [Atom.isPlainChar])

theorem Follows.ne_opening (follows : Follows r) : r ≠ '(' :: s := by
  rintro rfl
  exact absurd (follows '(' rfl) (by decide)

/-! ## Names -/

theorem stops_opening (r : List Char) : Stops Atom.isPlainChar ('(' :: r) := by
  rintro c ⟨⟩
  rfl

theorem isPlainChar_of_letter {c : Char} (letter : c.isUpper = true ∨ c.isLower = true) :
    Atom.isPlainChar c = true := by
  have alpha : c.isAlpha = true := Bool.or_eq_true_iff.2 letter
  simp [Atom.isPlainChar, Char.isAlphanum, alpha]

theorem cons_ne_of_isLower {c d : Char} {cs : List Char} (lower : c.isLower = true)
    (other : d.isLower = false) : c :: cs ++ r ≠ d :: s := by
  intro same
  obtain ⟨rfl, -⟩ := List.cons.inj same
  rw [lower] at other
  cases other

theorem plain_append_inj {other : String} (plain : Atom.isPlain name = true)
    (plain' : Atom.isPlain other = true) (stops : Stops Atom.isPlainChar r)
    (stops' : Stops Atom.isPlainChar s) (same : name.toList ++ r = other.toList ++ s) :
    name = other ∧ r = s := by
  rcases plain_cases plain with rfl | rfl | ⟨c, cs, chars, lower, more⟩ <;>
    rcases plain_cases plain' with rfl | rfl | ⟨d, ds, chars', lower', more'⟩
  · exact ⟨rfl, List.append_cancel_left same⟩
  · cases same
  · rw [chars'] at same
    exact absurd same.symm (cons_ne_of_isLower lower' rfl)
  · cases same
  · exact ⟨rfl, List.append_cancel_left same⟩
  · rw [chars'] at same
    exact absurd same.symm (cons_ne_of_isLower lower' rfl)
  · rw [chars] at same
    exact absurd same (cons_ne_of_isLower lower rfl)
  · rw [chars] at same
    exact absurd same (cons_ne_of_isLower lower rfl)
  · have runs : ∀ x ∈ name.toList, Atom.isPlainChar x = true := by
      rw [chars]
      exact List.forall_mem_cons.2 ⟨isPlainChar_of_letter (.inr lower), more⟩
    have runs' : ∀ x ∈ other.toList, Atom.isPlainChar x = true := by
      rw [chars']
      exact List.forall_mem_cons.2 ⟨isPlainChar_of_letter (.inr lower'), more'⟩
    obtain ⟨names, rest⟩ := append_inj_of_stops _ runs runs' stops stops' same
    exact ⟨String.toList_inj.1 names, rest⟩

theorem head?_ne_quote (plain : Atom.isPlain name = true) :
    (name.toList ++ r) ≠ '\x27' :: s := by
  rcases plain_cases plain with rfl | rfl | ⟨c, cs, chars, lower, -⟩
  · simp
  · simp
  · rw [chars]
    exact cons_ne_of_isLower lower rfl

/-- A name can be split off in front of what is no part of a plain name. -/
theorem atomText_append_inj {other : String} (stops : Stops Atom.isPlainChar r)
    (stops' : Stops Atom.isPlainChar s)
    (same : (Atom.text name).toList ++ r = (Atom.text other).toList ++ s) :
    name = other ∧ r = s := by
  unfold Atom.text at same
  split at same <;> split at same
  · rename_i plain plain'
    exact plain_append_inj plain plain' stops stops' same
  · rename_i plain _
    exact absurd same (by simpa [Atom.quoted] using head?_ne_quote plain)
  · rename_i _ plain'
    exact absurd same.symm (by simpa [Atom.quoted] using head?_ne_quote plain')
  · exact prefixFree_atomQuoted name other r s same

/-! ## Terms -/

/-- The text of the term can be split off in front of what follows a term. -/
def Splits (t : Term) : Prop :=
  ∀ u r s, u.Regular → Follows r → Follows s → t.text.toList ++ r = u.text.toList ++ s →
    t = u ∧ r = s

/-- The term as the rest of a list can be split off in front of the bracket. -/
def SplitsAsRest (t : Term) : Prop :=
  ∀ u r s, u.Regular → t.written.rest.toList ++ ']' :: r = u.written.rest.toList ++ ']' :: s →
    t = u ∧ r = s

theorem splits_int (n : Int64) : Splits (.int n) := by
  intro u r s regular follows follows' same
  have lead := lead_eq (.int n) regular same
  cases regular with
  | int m =>
      obtain ⟨digits, rest⟩ := append_inj_of_stops _ (fun c listed => isNumberChar_of_mem listed)
        (fun c listed => isNumberChar_of_mem listed) follows.endsNumber follows'.endsNumber same
      have read := int64?_signedDecimal n
      rw [digits, int64?_signedDecimal m] at read
      cases read
      exact ⟨rfl, rest⟩
  | _ => cases lead

theorem splits_str (text : String) : Splits (.str text) := by
  intro u r s regular follows follows' same
  have lead := lead_eq (.str text) regular same
  cases regular with
  | str other =>
      obtain ⟨rfl, rest⟩ := prefixFree_quoted text other r s same
      exact ⟨rfl, rest⟩
  | _ => cases lead

theorem IsIdentifier.isPlainChar (identifier : IsIdentifier name) :
    ∀ c ∈ name.toList, Atom.isPlainChar c = true := by
  obtain ⟨c, cs, chars, capital, more⟩ := identifier
  rw [chars]
  refine List.forall_mem_cons.2 ⟨?_, more⟩
  rcases (by simpa using capital : c.isUpper = true ∨ c = '_') with upper | rfl
  · exact isPlainChar_of_letter (.inl upper)
  · rfl

theorem splits_var (identifier : IsIdentifier name) : Splits (.var name) := by
  intro u r s regular follows follows' same
  have lead := lead_eq (.var identifier) regular same
  cases regular with
  | @var other identifier' =>
      obtain ⟨names, rest⟩ := append_inj_of_stops _ identifier.isPlainChar identifier'.isPlainChar
        follows.endsName follows'.endsName same
      exact ⟨congrArg Term.var (String.toList_inj.1 names), rest⟩
  | _ => cases lead

theorem splits_atom (name : String) : Splits (.atom name) := by
  intro u r s regular follows follows' same
  have lead := lead_eq (.atom name) regular same
  cases regular with
  | atom other =>
      rw [text_atom, text_atom] at same
      obtain ⟨rfl, rest⟩ := atomText_append_inj follows.endsName follows'.endsName same
      exact ⟨rfl, rest⟩
  | @compound functor args some_arg _ =>
      obtain ⟨arg, args, rfl⟩ := List.exists_cons_of_ne_nil some_arg
      rw [text_atom, toList_text_compound] at same
      obtain ⟨-, rest⟩ := atomText_append_inj follows.endsName (stops_opening _) same
      exact absurd rest follows.ne_opening
  | _ => cases lead

theorem splits_further {us : List Term} (splits : ∀ arg ∈ args, Splits arg)
    (regular : ∀ u ∈ us, u.Regular) (same : further args ++ ')' :: r = further us ++ ')' :: s) :
    args = us ∧ r = s := by
  induction args generalizing us with
  | nil =>
      cases us with
      | nil => exact ⟨rfl, (List.cons.inj same).2⟩
      | cons u us => cases same
  | cons arg args ih =>
      cases us with
      | nil => cases same
      | cons u us =>
          obtain ⟨first, more⟩ := List.forall_mem_cons.1 splits
          obtain ⟨regularFirst, regularMore⟩ := List.forall_mem_cons.1 regular
          have texts : arg.text.toList ++ (further args ++ ')' :: r) =
              u.text.toList ++ (further us ++ ')' :: s) := by
            simpa [further] using same
          obtain ⟨rfl, behind⟩ :=
            first u _ _ regularFirst (follows_further args r) (follows_further us s) texts
          obtain ⟨rfl, rest⟩ := ih more regularMore behind
          exact ⟨rfl, rest⟩

theorem splits_compound (some_arg : args ≠ []) (regular : ∀ arg ∈ args, arg.Regular)
    (splits : ∀ arg ∈ args, Splits arg) : Splits (.compound functor args) := by
  intro u r s regular_u follows follows' same
  have lead := lead_eq (.compound some_arg regular) regular_u same
  obtain ⟨arg, args, rfl⟩ := List.exists_cons_of_ne_nil some_arg
  rw [toList_text_compound] at same
  cases regular_u with
  | atom name =>
      rw [text_atom] at same
      obtain ⟨-, rest⟩ := atomText_append_inj (stops_opening _) follows'.endsName same
      exact absurd rest.symm follows'.ne_opening
  | @compound other us some_arg' regular' =>
      obtain ⟨u, us, rfl⟩ := List.exists_cons_of_ne_nil some_arg'
      obtain ⟨first, more⟩ := List.forall_mem_cons.1 splits
      obtain ⟨regularFirst, regularMore⟩ := List.forall_mem_cons.1 regular'
      rw [toList_text_compound] at same
      obtain ⟨rfl, texts⟩ := atomText_append_inj (stops_opening _) (stops_opening _) same
      obtain ⟨rfl, behind⟩ := first u _ _ regularFirst (follows_further args r)
        (follows_further us s) (List.cons.inj texts).2
      obtain ⟨rfl, rest⟩ := splits_further more regularMore behind
      exact ⟨rfl, rest⟩
  | _ => cases lead

/-! ## Lists -/

/-- What an opening bracket, or the comma between two items, leaves to be read of a list. -/
theorem splits_cell {head' tail' : Term} (splits : Splits head) (splitsRest : SplitsAsRest tail)
    (regular : head'.Regular) (regular' : tail'.Regular)
    (same : head.text.toList ++ (tail.written.rest.toList ++ ']' :: r) =
      head'.text.toList ++ (tail'.written.rest.toList ++ ']' :: s)) :
    cons head tail = cons head' tail' ∧ r = s := by
  obtain ⟨rfl, behind⟩ := splits head' _ _ regular (follows_rest tail r) (follows_rest tail' s) same
  obtain ⟨rfl, rest⟩ := splitsRest tail' r s regular' behind
  exact ⟨rfl, rest⟩

theorem splits_cons (regular : head.Regular) (regular' : tail.Regular) (splits : Splits head)
    (splitsRest : SplitsAsRest tail) : Splits (.cons head tail) := by
  intro u r s regular_u follows follows' same
  have lead := lead_eq (.cons regular regular') regular_u same
  cases regular_u with
  | cons first others =>
      rw [toList_text_cons, toList_text_cons] at same
      exact splits_cell splits splitsRest first others (List.cons.inj same).2
  | _ => cases lead

/-- The rest of a list is empty, or starts with a comma or with a blank. -/
inductive RestOf : Term → List Char → Prop
  | nil : RestOf Term.nil []
  | cons (head tail : Term) :
      RestOf (.cons head tail) (',' :: ' ' :: (head.text.toList ++ tail.written.rest.toList))
  | ending {t : Term} (notNil : t ≠ Term.nil) (notCell : ∀ head tail, t ≠ Term.cons head tail) :
      RestOf t (' ' :: '|' :: ' ' :: t.text.toList)

theorem restOf_rest (t : Term) : RestOf t t.written.rest.toList := by
  by_cases isNil : t = nil
  · rw [isNil, rest_nil]
    exact .nil
  by_cases isCell : ∃ head tail, t = cons head tail
  · obtain ⟨head, tail, rfl⟩ := isCell
    simpa [rest_cons] using RestOf.cons head tail
  · have notCell : ∀ head tail, t ≠ cons head tail := fun head tail same =>
      isCell ⟨head, tail, same⟩
    simpa [rest_of_ending isNil notCell] using RestOf.ending isNil notCell

theorem splitsAsRest_cons (splits : Splits head) (splitsRest : SplitsAsRest tail) :
    SplitsAsRest (.cons head tail) := by
  intro u r s regular same
  have form := restOf_rest u
  rw [toList_rest_cons] at same
  generalize u.written.rest.toList = rest at form same
  cases form with
  | nil => cases same
  | cons head' tail' =>
      cases regular with
      | cons first others =>
          exact splits_cell splits splitsRest first others (by simpa using same)
  | ending _ _ => cases same

theorem splitsAsRest_of_splits (notCell : ∀ head tail, t ≠ cons head tail) (splits : Splits t) :
    SplitsAsRest t := by
  intro u r s regular same
  have form := restOf_rest t
  have form' := restOf_rest u
  generalize t.written.rest.toList = first at form same
  generalize u.written.rest.toList = second at form' same
  cases form with
  | nil =>
      cases form' with
      | nil => exact ⟨rfl, (List.cons.inj same).2⟩
      | cons _ _ => cases same
      | ending _ _ => cases same
  | cons head tail => exact absurd rfl (notCell head tail)
  | ending _ _ =>
      cases form' with
      | nil => cases same
      | cons _ _ => cases same
      | ending _ _ =>
          obtain ⟨rfl, rest⟩ := splits u (']' :: r) (']' :: s) regular (by simp [Follows])
            (by simp [Follows]) (by simpa using same)
          exact ⟨rfl, (List.cons.inj rest).2⟩

/-- By induction on the term: a list needs both statements of its items and of its tail. -/
theorem splits_of_regular (regular : t.Regular) : Splits t ∧ SplitsAsRest t := by
  have both : ∀ {t}, (∀ head tail, t ≠ cons head tail) → Splits t → Splits t ∧ SplitsAsRest t :=
    fun notCell splits => ⟨splits, splitsAsRest_of_splits notCell splits⟩
  induction regular with
  | int n => exact both (by simp) (splits_int n)
  | str text => exact both (by simp) (splits_str text)
  | var identifier => exact both (by simp) (splits_var identifier)
  | atom name => exact both (by simp) (splits_atom name)
  | compound some_arg regular ih =>
      exact both (by simp) (splits_compound some_arg regular fun arg listed => (ih arg listed).1)
  | cons first others ih ih' =>
      exact ⟨splits_cons first others ih.1 ih'.2, splitsAsRest_cons ih.1 ih'.2⟩

/-- Regular terms with one canonical text are one term. -/
theorem text_inj (regular : t.Regular) (regular' : u.Regular) : t.text = u.text ↔ t = u := by
  constructor
  · intro same
    refine ((splits_of_regular regular).1 u [] [] regular' follows_nil follows_nil ?_).1
    rw [same]
  · rintro rfl
    rfl

/-- A quoted text with the separator of arguments in it is still one argument. -/
theorem text_oneString_ne_twoStrings :
    text (.compound "f" [.str "a\", \"b"]) ≠ text (.compound "f" [.str "a", .str "b"]) := by
  rw [Ne, text_inj (.compound (by simp) (by simpa using .str _))
    (.compound (by simp) (by simpa using ⟨.str _, .str _⟩))]
  simp

end OperatorGrammar.Term
