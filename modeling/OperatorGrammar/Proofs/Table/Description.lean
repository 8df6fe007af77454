/-
# Proofs.Table.Description -- which lines describe an operator

A line describes an operator if it has three words at least: a number below 2^64, one of the
seven specifiers, and the name.  Each word behind them is an option, `embed` or `rename=` with a
functor that is not empty.  The options amend the operator one after the other, so that a later
functor replaces an earlier one (`Describes`).

Any other line fails, for missing words or for the first of its words that is not as it should
be, and the failure names the line or that word (`Garbles`).

`readOperator_eq_ok_iff` and `readOperator_eq_error_iff` say that lines are read in this way.
-/
import OperatorGrammar.Proofs.Text.Numerals
import OperatorGrammar.Table.Source
import Mathlib.Data.List.TakeDrop

namespace OperatorGrammar

set_option autoImplicit false

namespace Specifier

variable {word : String}

theorem read_text (spec : Specifier) : read spec.text = .ok spec := by
  rw [read, ofText?_text]

theorem read_of_unknown (unknown : ∀ spec : Specifier, word ≠ spec.text) :
    read word = .error (.unknownSpecifier word) := by
  have none : ofText? word = none :=
    List.find?_eq_none.2 fun spec _ named => unknown spec (of_decide_eq_true named).symm
  rw [read, none]

end Specifier

namespace Table

variable {line word key value : String} {before after options : List String}
  {op amended last : Operator} {e : DefinitionError}

/-! ## One option -/

/-- What an option makes of an operator. -/
inductive Amends : String → Operator → Operator → Prop where
  | embed {op : Operator} : Amends "embed" op { op with embed := true }
  | rename {op : Operator} {functor : String} (named : functor ≠ "") :
      Amends ("rename=" ++ functor) op { op with rename := some functor }

/-- The word is an option. -/
def IsOption (word : String) : Prop := word = "embed" ∨ ∃ functor ≠ "", word = "rename=" ++ functor

theorem splitOption_append {cs ds : List Char} (noSign : ∀ c ∈ cs, c ≠ '=')
    (split : word.toList = cs ++ '=' :: ds) :
    splitOption word = some (String.ofList cs, String.ofList ds) := by
  have stops : ∀ c ∈ cs, (c != '=') = true := fun c mem => by simp [noSign c mem]
  have key_eq : (cs ++ '=' :: ds).takeWhile (· != '=') = cs := by
    rw [List.takeWhile_append_of_pos stops]
    simp
  have value_eq : (cs ++ '=' :: ds).dropWhile (· != '=') = '=' :: ds := by
    rw [List.dropWhile_append_of_pos stops]
    simp
  rw [splitOption, List.span_eq_takeWhile_dropWhile, split, key_eq, value_eq]

theorem splitOption_of_not_mem (noSign : ∀ c ∈ word.toList, c ≠ '=') : splitOption word = none := by
  have none : word.toList.dropWhile (· != '=') = [] := by
    have stops : ∀ c ∈ word.toList, (c != '=') = true := fun c mem => by simp [noSign c mem]
    rw [← List.append_nil word.toList, List.dropWhile_append_of_pos stops, List.dropWhile_nil]
  rw [splitOption, List.span_eq_takeWhile_dropWhile, none]

/-- A word with a sign of equality has a first one. -/
theorem noSign_or_split (word : String) :
    (∀ c ∈ word.toList, c ≠ '=') ∨
      ∃ cs ds, word.toList = cs ++ '=' :: ds ∧ ∀ c ∈ cs, c ≠ '=' := by
  by_cases sign : '=' ∈ word.toList
  · obtain ⟨cs, ds, split, before⟩ := List.eq_append_cons_of_mem sign
    exact Or.inr ⟨cs, ds, split, fun c mem same => before (same ▸ mem)⟩
  · exact Or.inl fun c mem same => sign (same ▸ mem)

theorem eq_of_splitOption (found : splitOption word = some (key, value)) :
    word = key ++ ("=" ++ value) := by
  rcases noSign_or_split word with noSign | ⟨cs, ds, split, noSign⟩
  · rw [splitOption_of_not_mem noSign] at found
    cases found
  · rw [splitOption_append noSign split] at found
    obtain ⟨rfl, rfl⟩ := Prod.mk.inj (Option.some.inj found)
    apply String.toList_injective
    simp [split]

theorem Amends.applyOption_eq (amends : Amends word op amended) :
    applyOption op word = .ok amended := by
  cases amends with
  | embed => rfl
  | @rename _ functor named =>
      have noSign : ∀ c ∈ "rename".toList, c ≠ '=' := by simp
      have split : ("rename=" ++ functor).toList = "rename".toList ++ '=' :: functor.toList := by
        simp
      rw [applyOption, splitOption_append noSign split, String.ofList_toList, String.ofList_toList]
      exact if_neg (mt String.isEmpty_iff.1 named)

theorem applyOption_of_other (other : ¬ IsOption word) (op : Operator) :
    applyOption op word = .error (.unknownOption word) := by
  unfold applyOption
  split
  · rename_i functor found
    split
    · rfl
    · rename_i named
      have option : IsOption word :=
        Or.inr ⟨functor, mt String.isEmpty_iff.2 named, eq_of_splitOption found⟩
      exact absurd option other
  · rfl
  · exact if_neg fun embed => other (Or.inl embed)

/-- An option always amends an operator. -/
theorem IsOption.exists_amends (option : IsOption word) (op : Operator) :
    ∃ amended, Amends word op amended := by
  rcases option with rfl | ⟨functor, named, rfl⟩
  · exact ⟨_, .embed⟩
  · exact ⟨_, .rename named⟩

/-! ## Options in order -/

/-- What options make of an operator, one after the other. -/
inductive AmendsAll : List String → Operator → Operator → Prop where
  | nil {op : Operator} : AmendsAll [] op op
  | cons {word : String} {options : List String} {op amended last : Operator}
      (first : Amends word op amended) (others : AmendsAll options amended last) :
      AmendsAll (word :: options) op last

theorem AmendsAll.foldlM_eq (amends : AmendsAll options op last) :
    options.foldlM applyOption op = .ok last := by
  induction amends with
  | nil => rfl
  | cons first _ ih =>
      rw [List.foldlM_cons, first.applyOption_eq]
      exact ih

/-- The first word that is no option stops the others. -/
theorem foldlM_of_other (options : ∀ option ∈ before, IsOption option) (other : ¬ IsOption word)
    (op : Operator) :
    (before ++ word :: after).foldlM applyOption op = .error (.unknownOption word) := by
  induction before generalizing op with
  | nil =>
      rw [List.nil_append, List.foldlM_cons, applyOption_of_other other]
      rfl
  | cons first before ih =>
      obtain ⟨option, options⟩ := List.forall_mem_cons.1 options
      obtain ⟨amended, amends⟩ := option.exists_amends op
      rw [List.cons_append, List.foldlM_cons, amends.applyOption_eq]
      exact ih options amended

theorem amendsAll_or_other (options : List String) (op : Operator) :
    (∃ last, AmendsAll options op last) ∨
      ∃ before word after, options = before ++ word :: after ∧
        (∀ option ∈ before, IsOption option) ∧ ¬ IsOption word := by
  induction options generalizing op with
  | nil => exact Or.inl ⟨op, .nil⟩
  | cons first options ih =>
      by_cases option : IsOption first
      · obtain ⟨amended, amends⟩ := option.exists_amends op
        rcases ih amended with ⟨last, others⟩ | ⟨before, word, after, rfl, options, other⟩
        · exact Or.inl ⟨last, .cons amends others⟩
        · exact Or.inr ⟨first :: before, word, after, rfl,
            List.forall_mem_cons.2 ⟨option, options⟩, other⟩
      · exact Or.inr ⟨[], first, options, rfl, by simp, option⟩

/-! ## Lines -/

/-- The line describes the operator. -/
inductive Describes (line : String) : Operator → Prop where
  | words {prec name : String} {spec : Specifier} {options : List String} {number : Nat}
      {op : Operator} (words : Text.words line = prec :: spec.text :: name :: options)
      (unsigned : Text.IsUnsigned prec.toList number) (small : number < Nat.pow 2 64)
      (amends : AmendsAll options { name, spec, prec := number } op) : Describes line op

/-- The line describes no operator, for the cause. -/
inductive Garbles (line : String) : DefinitionError → Prop where
  | missing (few : (Text.words line).length < 3) : Garbles line (.missingFields line)
  | precedence {prec spec name : String} {options : List String} {cause : Text.NumeralError}
      (words : Text.words line = prec :: spec :: name :: options)
      (invalid : Text.word64? prec = .error cause) : Garbles line (.invalidPrecedence prec cause)
  | specifier {prec spec name : String} {options : List String} {number : Nat}
      (words : Text.words line = prec :: spec :: name :: options)
      (unsigned : Text.IsUnsigned prec.toList number) (small : number < Nat.pow 2 64)
      (unknown : ∀ known : Specifier, spec ≠ known.text) : Garbles line (.unknownSpecifier spec)
  | option {prec name word : String} {spec : Specifier} {before after : List String} {number : Nat}
      (words : Text.words line = prec :: spec.text :: name :: (before ++ word :: after))
      (unsigned : Text.IsUnsigned prec.toList number) (small : number < Nat.pow 2 64)
      (options : ∀ option ∈ before, IsOption option) (other : ¬ IsOption word) :
      Garbles line (.unknownOption word)

theorem Describes.readOperator_eq (describes : Describes line op) :
    readOperator line = .ok op := by
  obtain ⟨words, unsigned, small, amends⟩ := describes
  rw [readOperator, words]
  simp only [Text.word64?_eq_ok_iff.2 ⟨unsigned, small⟩, Specifier.read_text]
  exact amends.foldlM_eq

theorem Garbles.readOperator_eq (garbles : Garbles line e) : readOperator line = .error e := by
  cases garbles with
  | missing few =>
      unfold readOperator
      split
      · rename_i words
        rw [words, List.length_cons, List.length_cons, List.length_cons] at few
        omega
      · rfl
  | precedence words invalid =>
      rw [readOperator, words]
      simp only [invalid]
  | specifier words unsigned small unknown =>
      rw [readOperator, words]
      simp only [Text.word64?_eq_ok_iff.2 ⟨unsigned, small⟩, Specifier.read_of_unknown unknown]
      rfl
  | option words unsigned small options other =>
      rw [readOperator, words]
      simp only [Text.word64?_eq_ok_iff.2 ⟨unsigned, small⟩, Specifier.read_text]
      exact foldlM_of_other options other _

theorem describes_or_garbles (line : String) :
    (∃ op, Describes line op) ∨ ∃ e, Garbles line e := by
  rcases words : Text.words line with _ | ⟨prec, _ | ⟨kind, _ | ⟨name, options⟩⟩⟩
  · exact Or.inr ⟨_, .missing (by simp [words])⟩
  · exact Or.inr ⟨_, .missing (by simp [words])⟩
  · exact Or.inr ⟨_, .missing (by simp [words])⟩
  · cases writes : Text.word64? prec with
    | error cause => exact Or.inr ⟨_, .precedence words writes⟩
    | ok number =>
        obtain ⟨unsigned, small⟩ := Text.word64?_eq_ok_iff.1 writes
        by_cases known : ∃ spec : Specifier, kind = spec.text
        · obtain ⟨spec, rfl⟩ := known
          rcases amendsAll_or_other options { name, spec, prec := number } with
            ⟨op, amends⟩ | ⟨before, word, after, rfl, options, other⟩
          · exact Or.inl ⟨op, .words words unsigned small amends⟩
          · exact Or.inr ⟨_, .option words unsigned small options other⟩
        · exact Or.inr ⟨_, .specifier words unsigned small (not_exists.1 known)⟩

/-- A line is read as the operator that it describes. -/
theorem readOperator_eq_ok_iff : readOperator line = .ok op ↔ Describes line op := by
  refine ⟨fun read => ?_, Describes.readOperator_eq⟩
  rcases describes_or_garbles line with ⟨op', describes⟩ | ⟨e, garbles⟩
  · rw [describes.readOperator_eq] at read
    cases read
    exact describes
  · rw [garbles.readOperator_eq] at read
    cases read

/-- A line that describes no operator fails for what it lacks, or at the first of its words that
is not as it should be. -/
theorem readOperator_eq_error_iff : readOperator line = .error e ↔ Garbles line e := by
  refine ⟨fun failed => ?_, Garbles.readOperator_eq⟩
  rcases describes_or_garbles line with ⟨op, describes⟩ | ⟨e', garbles⟩
  · rw [describes.readOperator_eq] at failed
    cases failed
  · rw [garbles.readOperator_eq] at failed
    cases failed
    exact garbles

end Table

end OperatorGrammar
