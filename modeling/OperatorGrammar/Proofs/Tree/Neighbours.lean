/-
# Proofs.Tree.Neighbours -- the parts of a tree, two at a time

Of two neighbours in a sequence one takes the other's side: behind a prefix or infix
operator an operand is due, in front of an infix or postfix operator there is one
(`Part.opens`, `Part.takesLeft`).  Where two operators touch, one of them is a prefix
or postfix operator and lies on the edge of an argument of the other; the other must
accept it (`Part.Accords`).

`Part.IsSentence` asks this of all neighbours and of both ends.  The parts of every
accepted tree form a sentence (`Tree.isSentence_parts`): an operator on the edge of an
argument binds no looser than the operator that heads it (`exists_head_of_prefixOp`,
`exists_head_of_postfixOp`).
-/
import Mathlib.Data.List.Chain
import OperatorGrammar.Proofs.Operator.Comparison
import OperatorGrammar.Tree.Basic

namespace OperatorGrammar

set_option autoImplicit false

namespace Part

/-- Whether an operand is due behind the part. -/
def opens : Part → Bool
  | .operator .prefixOp _ | .operator .infixOp _ => true
  | _ => false

/-- Whether the part takes what stands in front of it as its left argument. -/
def takesLeft : Part → Bool
  | .operator .infixOp _ | .operator .postfixOp _ => true
  | _ => false

/-- Where two operators touch, the one whose argument starts or ends there accepts
the other. -/
def Accords : Part → Part → Prop
  | .operator .postfixOp inner, .operator _ outer => outer.leftAccepts inner = true
  | .operator _ outer, .operator .prefixOp inner => outer.rightAccepts inner = true
  | _, _ => True

/-- The second part may directly follow the first one. -/
structure Meets (l r : Part) : Prop where
  sides : r.takesLeft = !l.opens
  accords : l.Accords r

/-- The parts have the shape of an expression. -/
structure IsSentence (ps : List Part) : Prop where
  nonempty : ps ≠ []
  chain : ps.IsChain Meets
  first : ∀ p ∈ ps.head?, p.takesLeft = false
  last : ∀ p ∈ ps.getLast?, p.opens = false

theorem isSentence_singleton {p : Part} (first : p.takesLeft = false) (last : p.opens = false) :
    IsSentence [p] where
  nonempty := List.cons_ne_nil _ _
  chain := List.isChain_singleton _
  first := by simpa using first
  last := by simpa using last

end Part

namespace Tree

open OperatorGrammar.Part

theorem parts_ne_nil (t : Tree) : t.parts ≠ [] := by
  cases t <;> simp [parts]

theorem head?_parts_append (t : Tree) (ps : List Part) :
    (t.parts ++ ps).head? = t.parts.head? := by
  rw [List.head?_append, List.head?_eq_some_head t.parts_ne_nil, Option.some_or]

theorem getLast?_append_parts (ps : List Part) (t : Tree) :
    (ps ++ t.parts).getLast? = t.parts.getLast? := by
  rw [List.getLast?_append, List.getLast?_eq_some_getLast t.parts_ne_nil, Option.some_or]

/-- A prefix operator that a tree starts with binds no looser than its head. -/
theorem exists_head_of_prefixOp {t : Tree} {op : Operator} (accepted : t.Accepted)
    (first : t.parts.head? = some (.operator .prefixOp op)) :
    ∃ d ∈ t.head?, op.prec ≤ d.prec := by
  induction t with
  | operand term => simp [parts] at first
  | atom name => simp [parts] at first
  | prefixOp outer arg _ =>
      simp only [parts, List.head?_cons, Option.some.injEq, Part.operator.injEq, true_and] at first
      exact ⟨outer, rfl, by rw [first]⟩
  | postfixOp outer arg ih =>
      rw [parts, head?_parts_append] at first
      obtain ⟨d, heads, le⟩ := ih accepted.1 first
      exact ⟨outer, rfl, le.trans (Operator.prec_le_of_leftAccepts (accepted.2 d heads))⟩
  | infixOp outer left right ih _ =>
      rw [parts, head?_parts_append] at first
      obtain ⟨d, heads, le⟩ := ih accepted.1 first
      exact ⟨outer, rfl, le.trans (Operator.prec_le_of_leftAccepts (accepted.2.2.1 d heads))⟩

/-- A postfix operator that a tree ends with binds no looser than its head. -/
theorem exists_head_of_postfixOp {t : Tree} {op : Operator} (accepted : t.Accepted)
    (last : t.parts.getLast? = some (.operator .postfixOp op)) :
    ∃ d ∈ t.head?, op.prec ≤ d.prec := by
  induction t with
  | operand term => simp [parts] at last
  | atom name => simp [parts] at last
  | postfixOp outer arg _ =>
      simp only [parts, List.getLast?_concat, Option.some.injEq, Part.operator.injEq,
        true_and] at last
      exact ⟨outer, rfl, by rw [last]⟩
  | prefixOp outer arg ih =>
      rw [parts, ← List.singleton_append, getLast?_append_parts] at last
      obtain ⟨d, heads, le⟩ := ih accepted.1 last
      exact ⟨outer, rfl, le.trans (Operator.prec_le_of_rightAccepts (accepted.2 d heads))⟩
  | infixOp outer left right _ ih =>
      rw [parts, List.append_cons, getLast?_append_parts] at last
      obtain ⟨d, heads, le⟩ := ih accepted.2.1 last
      exact ⟨outer, rfl, le.trans (Operator.prec_le_of_rightAccepts (accepted.2.2.2 d heads))⟩

/-- An operator in front of its right argument meets the first part of it. -/
theorem meets_first {f : Fixity} {op : Operator} {arg : Tree} (accepted : arg.Accepted)
    (accepts : ∀ d ∈ arg.head?, op.rightAccepts d = true)
    (opening : (Part.operator f op).opens = true)
    (sentence : IsSentence arg.parts) :
    ∀ p ∈ arg.parts.head?, Meets (.operator f op) p := by
  intro p first
  refine ⟨by rw [sentence.first p first, opening]; rfl, ?_⟩
  cases p with
  | operand term => cases f <;> trivial
  | atom name => cases f <;> trivial
  | operator g inner =>
      have prefixed : g = .prefixOp := by
        have := sentence.first _ first
        cases g <;> simp [takesLeft] at this ⊢
      subst prefixed
      obtain ⟨d, heads, le⟩ := exists_head_of_prefixOp accepted first
      have inside := Operator.rightAccepts_of_le (accepts d heads) le
      cases f with
      | prefixOp => exact inside
      | infixOp => exact inside
      | postfixOp => simp [opens] at opening

/-- The last part of a left argument meets the operator behind it. -/
theorem meets_last {f : Fixity} {op : Operator} {arg : Tree} (accepted : arg.Accepted)
    (accepts : ∀ d ∈ arg.head?, op.leftAccepts d = true)
    (taking : (Part.operator f op).takesLeft = true)
    (sentence : IsSentence arg.parts) :
    ∀ p ∈ arg.parts.getLast?, Meets p (.operator f op) := by
  intro p last
  refine ⟨by rw [sentence.last p last, taking]; rfl, ?_⟩
  cases p with
  | operand term => trivial
  | atom name => trivial
  | operator g inner =>
      have postfixed : g = .postfixOp := by
        have := sentence.last _ last
        cases g <;> simp [opens] at this ⊢
      subst postfixed
      obtain ⟨d, heads, le⟩ := exists_head_of_postfixOp accepted last
      exact Operator.leftAccepts_of_le (accepts d heads) le

theorem isSentence_parts {t : Tree} (accepted : t.Accepted) : IsSentence t.parts := by
  induction t with
  | operand term => exact isSentence_singleton rfl rfl
  | atom name => exact isSentence_singleton rfl rfl
  | prefixOp op arg ih =>
      have inner := ih accepted.1
      refine ⟨parts_ne_nil _, ?_, by simp [parts, takesLeft], ?_⟩
      · exact List.isChain_cons.2 ⟨meets_first accepted.1 accepted.2 rfl inner, inner.chain⟩
      · rw [parts, ← List.singleton_append, getLast?_append_parts]
        exact inner.last
  | postfixOp op arg ih =>
      have inner := ih accepted.1
      refine ⟨parts_ne_nil _, ?_, ?_, by simp [parts, opens]⟩
      · refine List.isChain_append.2 ⟨inner.chain, List.isChain_singleton _, fun p last q => ?_⟩
        rintro ⟨⟩
        exact meets_last accepted.1 accepted.2 rfl inner p last
      · rw [parts, head?_parts_append]
        exact inner.first
  | infixOp op left right ihLeft ihRight =>
      have before := ihLeft accepted.1
      have behind := ihRight accepted.2.1
      refine ⟨parts_ne_nil _, ?_, ?_, ?_⟩
      · have rest : (Part.operator .infixOp op :: right.parts).IsChain Meets :=
          List.isChain_cons.2
            ⟨meets_first accepted.2.1 accepted.2.2.2 rfl behind, behind.chain⟩
        refine List.isChain_append.2 ⟨before.chain, rest, fun p last q => ?_⟩
        rintro ⟨⟩
        exact meets_last accepted.1 accepted.2.2.1 rfl before p last
      · rw [parts, head?_parts_append]
        exact before.first
      · rw [parts, List.append_cons, getLast?_append_parts]
        exact behind.last

end Tree

end OperatorGrammar
