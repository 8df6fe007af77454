/-
# Proofs.Sequence.Reading -- forms for a sequence from the left

A reading of a sequence of items gives each item a form of the table such that all
neighbours may meet.  It is listed like a stack, the latest item first, and it grows
with the sequence: a reading of `items ++ [item]` is one of `items` with a form that
`Joins` it (`reads_concat`).  Nothing is asked of the right end, so a reading may stop
where an operand is due.

The parts of a parse are a reading, unless the parse is a single atom (`reads_of_isParse`).
So a sequence of two items or more without readings has no parse, however it goes on
(`not_isParse_of_not_reads`).  A reading that does not stop where an operand is due is a
sentence whose atoms stand where they may (`isSentence_reverse`, `atomsAllowed_reverse`).
-/
import OperatorGrammar.Proofs.Tree.Neighbours

namespace OperatorGrammar

set_option autoImplicit false

namespace Part

variable {table : Table} {items : List Item} {item : Item} {p q : Part} {ps : List Part}

/-- `p` may stand behind the parts, the latest first. -/
def Joins (table : Table) : List Part → Part → Prop
  | [], p => p.takesLeft = false ∧ ∀ name, p = .atom name → hasPostfix table name
  | q :: _, p => Meets q p ∧ ∀ name, p ≠ .atom name

/-- Every part comes from the table and joins the ones before it. -/
def Viable (table : Table) : List Part → Prop
  | [] => True
  | p :: ps => Viable table ps ∧ p.IsDefined table ∧ Joins table ps p

/-- The parts, the latest first, are forms of the items for which all neighbours may
meet. -/
structure Reads (table : Table) (items : List Item) (ps : List Part) : Prop where
  viable : Viable table ps
  items_eq : (ps.map Part.item).reverse = items

theorem reads_nil_iff : Reads table [] ps ↔ ps = [] := by
  constructor
  · rintro ⟨-, items_eq⟩
    simpa using items_eq
  · rintro rfl
    exact ⟨trivial, rfl⟩

theorem reads_concat :
    Reads table (items ++ [item]) ps ↔
      ∃ p rest, ps = p :: rest ∧ Reads table items rest ∧ p.item = item ∧ p.IsDefined table ∧
        Joins table rest p := by
  constructor
  · rintro ⟨viable, items_eq⟩
    cases ps with
    | nil => simp at items_eq
    | cons p rest =>
        obtain ⟨before, isDefined, joins⟩ := viable
        rw [List.map_cons, List.reverse_cons] at items_eq
        obtain ⟨items_eq, last⟩ := List.append_inj' items_eq rfl
        exact ⟨p, rest, rfl, ⟨before, items_eq⟩, List.singleton_inj.1 last, isDefined, joins⟩
  · rintro ⟨p, rest, rfl, ⟨before, rfl⟩, rfl, isDefined, joins⟩
    exact ⟨⟨before, isDefined, joins⟩, by simp⟩

theorem not_reads_append (hopeless : ∀ ps, ¬ Reads table items ps) (more : List Item) :
    ∀ ps, ¬ Reads table (items ++ more) ps := by
  induction more using List.reverseRecOn with
  | nil => simpa using hopeless
  | append_singleton more item ih =>
      intro ps reads
      rw [← List.append_assoc] at reads
      obtain ⟨p, rest, -, before, -⟩ := reads_concat.1 reads
      exact ih rest before

/-- Viability in terms of neighbours and of the part at the left end. -/
theorem viable_iff :
    Viable table ps ↔
      (ps.IsChain fun r l => Meets l r) ∧ (∀ p ∈ ps, p.IsDefined table) ∧
        (∀ p ∈ ps.getLast?, Joins table [] p) ∧ ∀ name, .atom name ∉ ps.dropLast := by
  induction ps with
  | nil => simp [Viable]
  | cons p ps ih =>
      cases ps with
      | nil => simp [Viable, and_comm]
      | cons q ps =>
          rw [Viable, ih, List.isChain_cons_cons, List.getLast?_cons_cons, List.dropLast_cons_cons]
          constructor
          · rintro ⟨⟨chain, others, first, atoms⟩, isDefined, meets, decided⟩
            refine ⟨⟨meets, chain⟩, List.forall_mem_cons.2 ⟨isDefined, others⟩, first, ?_⟩
            intro name member
            rcases List.mem_cons.1 member with same | member
            · exact decided name same.symm
            · exact atoms name member
          · rintro ⟨⟨meets, chain⟩, isDefined, first, atoms⟩
            obtain ⟨isDefined, others⟩ := List.forall_mem_cons.1 isDefined
            refine ⟨⟨chain, others, first, fun name member => ?_⟩, isDefined, meets, ?_⟩
            · exact atoms name (List.mem_cons_of_mem _ member)
            · rintro name rfl
              exact atoms name List.mem_cons_self

theorem Viable.isDefined (viable : Viable table ps) : ∀ p ∈ ps, p.IsDefined table :=
  (viable_iff.1 viable).2.1

/-- A reading that does not end where an operand is due is a sentence. -/
theorem isSentence_reverse (viable : Viable table (p :: ps)) (closed : p.opens = false) :
    IsSentence (p :: ps).reverse := by
  obtain ⟨chain, -, first, -⟩ := viable_iff.1 viable
  refine ⟨by simp, List.isChain_reverse.2 chain, ?_, ?_⟩
  · intro q start
    rw [List.head?_reverse] at start
    exact (first q start).1
  · rw [List.getLast?_reverse]
    rintro q ⟨⟩
    exact closed

theorem atomsAllowed_cons :
    AtomsAllowed table (p :: ps) ↔
      (∃ name, p :: ps = [.atom name]) ∨
        (∀ name, p = .atom name → hasPostfix table name) ∧ ∀ name, .atom name ∉ ps := by
  cases p <;> cases ps <;> simp [AtomsAllowed]

theorem atomsAllowed_of_absent {ps : List Part} (absent : ∀ name, .atom name ∉ ps) :
    AtomsAllowed table ps := by
  cases ps with
  | nil => exact trivial
  | cons p ps =>
      refine atomsAllowed_cons.2 (Or.inr ⟨?_, fun name member => ?_⟩)
      · rintro name rfl
        exact absurd List.mem_cons_self (absent name)
      · exact absent name (List.mem_cons_of_mem _ member)

theorem atomsAllowed_reverse (viable : Viable table ps) : AtomsAllowed table ps.reverse := by
  obtain ⟨-, -, first, atoms⟩ := viable_iff.1 viable
  rcases List.eq_nil_or_concat ps with rfl | ⟨rest, start, rfl⟩
  · exact trivial
  · rw [List.concat_eq_append] at first atoms ⊢
    rw [List.reverse_append, List.reverse_singleton, List.singleton_append, atomsAllowed_cons]
    refine Or.inr ⟨(first start (by simp)).2, fun name member => atoms name ?_⟩
    simpa using member

/-! ## Parses -/

/-- A parse reads the sequence to a point where no operand is due, unless it is an atom
alone. -/
theorem reads_of_isParse {t : Tree} (parse : t.IsParse table items) :
    (∃ name, t.parts = [.atom name]) ∨
      ∃ p ps, t.parts.reverse = p :: ps ∧ Reads table items (p :: ps) ∧ p.opens = false := by
  have sentence := t.isSentence_parts parse.accepted
  have items_eq : t.parts.map Part.item = items := parse.items_eq
  have isDefined := parse.isDefined
  have atomsAllowed := parse.atomsAllowed
  generalize t.parts = parts at *
  rcases List.eq_nil_or_concat parts with rfl | ⟨before, p, rfl⟩
  · exact absurd rfl sentence.nonempty
  rw [List.concat_eq_append] at *
  cases parts_eq : before ++ [p] with
  | nil => simp at parts_eq
  | cons first rest =>
      rw [parts_eq] at sentence items_eq isDefined atomsAllowed
      rcases atomsAllowed_cons.1 atomsAllowed with alone | ⟨postfixed, decided⟩
      · exact Or.inl alone
      · have reversed : (first :: rest).reverse = p :: before.reverse := by
          rw [← parts_eq, List.reverse_append]; rfl
        refine Or.inr ⟨p, before.reverse, reversed, ?_, ?_⟩
        · rw [← reversed]
          refine ⟨viable_iff.2 ⟨List.isChain_reverse.2 sentence.chain, ?_, ?_, ?_⟩, ?_⟩
          · exact fun q member => isDefined q (List.mem_reverse.1 member)
          · intro q start
            rw [List.getLast?_reverse] at start
            cases start
            exact ⟨sentence.first first rfl, postfixed⟩
          · intro name member
            rw [List.reverse_cons, List.dropLast_concat, List.mem_reverse] at member
            exact decided name member
          · rw [List.map_reverse, List.reverse_reverse, items_eq]
        · exact sentence.last p (by rw [← parts_eq]; simp)

theorem not_isParse_of_not_reads (hopeless : ∀ ps, ¬ Reads table items ps)
    (several : 2 ≤ items.length) (more : List Item) (t : Tree) :
    ¬ t.IsParse table (items ++ more) := by
  intro parse
  rcases reads_of_isParse parse with ⟨name, alone⟩ | ⟨p, ps, -, reads, -⟩
  · have count := congrArg List.length parse.items_eq
    rw [Tree.items, alone, List.map_singleton, List.length_singleton, List.length_append] at count
    omega
  · exact not_reads_append hopeless more _ reads

end Part

end OperatorGrammar
