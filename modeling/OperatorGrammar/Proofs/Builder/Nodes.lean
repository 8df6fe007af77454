/-
# Proofs.Builder.Nodes -- operator notation and calls make the same terms

A tree whose nodes are operators of a table (`Tree.IsFormed`) can be built from its leaves to
its root, with a fresh builder for every node.  The builder takes the name of the operator at
its place among the terms of its arguments, or it takes a call of the name with these terms
(`Style`).

An operator among operands has no operator for an argument and none for a neighbour, so no
precedence is in its way and its name can be read in one way only (`build_nodeItems`).  A call
finds the same operator by the number of its arguments (`buildCall_eq`).  Either way it applies
itself once to its arguments, and the tree is built as the term that it stands for, whatever
the styles of its nodes and whatever their precedences (`buildUp_eq`).

A builder that takes all items of the tree at once and reduces them to this tree makes the same
term (`Reduces.finish_eq`).  So does every builder that makes a term of the items of a tree
that is accepted (`reduces_of_finish`).
-/
import OperatorGrammar.Proofs.Builder.Tightness
import OperatorGrammar.Proofs.Layout.Form

namespace OperatorGrammar

set_option autoImplicit false

/-- How a node is written: its operator among its arguments, or a call of its name. -/
inductive Style where
  | operator
  | call

namespace Builder

/-- The term that a fresh builder makes of a call. -/
def buildCall (table : Table) (name : String) (args : List Term) : Except Failure Term := do
  let b ← addOperatorApplication table .empty name args
  b.finish

/-- The name of an operator at its place among its arguments. -/
def nodeItems (fixity : Fixity) (name : String) (args : List Term) : List Item :=
  match fixity, args with
  | .prefixOp, [arg] => [.operator name, .operand arg]
  | .postfixOp, [arg] => [.operand arg, .operator name]
  | .infixOp, [left, right] => [.operand left, .operator name, .operand right]
  | _, _ => []

/-- The term that a fresh builder makes of a node. -/
def buildNode (table : Table) (style : Style) (fixity : Fixity) (name : String)
    (args : List Term) : Except Failure Term :=
  match style with
  | .operator => Item.build table (nodeItems fixity name args)
  | .call => buildCall table name args

end Builder

namespace Tree

variable {table : Table} {t : Tree}

/-- Every node is an operator of the table, and no name is read as an atom. -/
def IsFormed (table : Table) : Tree → Prop
  | .operand _ => True
  | .atom _ => False
  | .prefixOp op arg => (Part.operator .prefixOp op).IsDefined table ∧ arg.IsFormed table
  | .postfixOp op arg => (Part.operator .postfixOp op).IsDefined table ∧ arg.IsFormed table
  | .infixOp op left right =>
      (Part.operator .infixOp op).IsDefined table ∧ left.IsFormed table ∧ right.IsFormed table

theorem isFormed_iff (t : Tree) :
    t.IsFormed table ↔ ∀ p ∈ t.parts, p.IsDefined table ∧ ∀ name, p ≠ .atom name := by
  induction t with
  | operand term => simp [IsFormed, parts, Part.IsDefined]
  | atom name => simp [IsFormed, parts]
  | prefixOp op arg ih => simp [IsFormed, ih, parts]
  | postfixOp op arg ih =>
      rw [IsFormed, ih, parts, List.forall_mem_append, List.forall_mem_singleton]
      simp [and_comm]
  | infixOp op left right ihLeft ihRight =>
      rw [IsFormed, ihLeft, ihRight, parts, List.forall_mem_append, List.forall_mem_cons]
      simp [and_left_comm]

/-- For a tree of operators, to be a parse is to be accepted. -/
theorem IsFormed.isParse (formed : t.IsFormed table) (accepted : t.Accepted) :
    t.IsParse table t.items where
  items_eq := rfl
  isDefined := fun p member => (t.isFormed_iff.1 formed p member).1
  atomsAllowed := Part.atomsAllowed_of_absent fun name member =>
    (t.isFormed_iff.1 formed _ member).2 name rfl
  accepted := accepted

/-- Builds a tree from its leaves to its root, each node by a builder of its own.  A node has
the style of its path: `false` leads to an only or a left argument, `true` to a right one. -/
def buildUp (table : Table) : (List Bool → Style) → Tree → Except Failure Term
  | _, .operand term => .ok term
  | _, .atom name => Item.build table [.operator name]
  | style, .prefixOp op arg => do
      let arg ← buildUp table (fun path => style (false :: path)) arg
      Builder.buildNode table (style []) .prefixOp op.name [arg]
  | style, .postfixOp op arg => do
      let arg ← buildUp table (fun path => style (false :: path)) arg
      Builder.buildNode table (style []) .postfixOp op.name [arg]
  | style, .infixOp op left right => do
      let left ← buildUp table (fun path => style (false :: path)) left
      let right ← buildUp table (fun path => style (true :: path)) right
      Builder.buildNode table (style []) .infixOp op.name [left, right]

end Tree

namespace Builder

variable {table : Table} {b : Builder} {t : Tree} {op : Operator} {fixity : Fixity}
  {args : List Term} {arg left right term : Term} {items : List Item}

/-! ## Single nodes -/

/-- A tight parse is built where no two operators are neighbours. -/
theorem build_of_apart (wf : table.WellFormed) (formed : t.IsFormed table)
    (accepted : t.Accepted) (tight : ¬ t.Loose)
    (apart : ∀ before first second after,
      t.items ≠ before ++ .operator first :: .operator second :: after) :
    Item.build table t.items = .ok t.eval := by
  rcases build_of_tight wf (formed.isParse accepted) tight with built | ⟨e, -, refused⟩
  · exact built
  · obtain ⟨before, first, second, after, -, -, -, -, -, -, -, items_eq, -⟩ := refused
    exact absurd items_eq (apart before first second after)

theorem build_prefixOp (wf : table.WellFormed)
    (isDefined : (Part.operator .prefixOp op).IsDefined table) :
    Item.build table [.operator op.name, .operand arg] = .ok (op.apply [arg]) := by
  refine build_of_apart (t := .prefixOp op (.operand arg)) wf ⟨isDefined, trivial⟩
    ⟨trivial, by simp [Tree.head?]⟩ (by simp [Tree.Loose, Tree.head?]) ?_
  rintro (_ | ⟨_, _ | ⟨_, _ | _⟩⟩) first second after <;>
    simp [Tree.items, Tree.parts, Part.item]

theorem build_postfixOp (wf : table.WellFormed)
    (isDefined : (Part.operator .postfixOp op).IsDefined table) :
    Item.build table [.operand arg, .operator op.name] = .ok (op.apply [arg]) := by
  refine build_of_apart (t := .postfixOp op (.operand arg)) wf ⟨isDefined, trivial⟩
    ⟨trivial, by simp [Tree.head?]⟩ (by simp [Tree.Loose, Tree.head?]) ?_
  rintro (_ | ⟨_, _ | ⟨_, _ | _⟩⟩) first second after <;>
    simp [Tree.items, Tree.parts, Part.item]

theorem build_infixOp (wf : table.WellFormed)
    (isDefined : (Part.operator .infixOp op).IsDefined table) :
    Item.build table [.operand left, .operator op.name, .operand right] =
      .ok (op.apply [left, right]) := by
  refine build_of_apart (t := .infixOp op (.operand left) (.operand right)) wf
    ⟨isDefined, trivial, trivial⟩ ⟨trivial, trivial, by simp [Tree.head?], by simp [Tree.head?]⟩
    (by simp [Tree.Loose, Tree.head?]) ?_
  rintro (_ | ⟨_, _ | ⟨_, _ | ⟨_, _ | _⟩⟩⟩) first second after <;>
    simp [Tree.items, Tree.parts, Part.item]

/-- An operator among operands is built, whatever its precedence. -/
theorem build_nodeItems (wf : table.WellFormed)
    (isDefined : (Part.operator fixity op).IsDefined table)
    (count : args.length = Layout.arity fixity) :
    Item.build table (nodeItems fixity op.name args) = .ok (op.apply args) := by
  cases fixity with
  | prefixOp =>
      obtain ⟨arg, rfl⟩ := List.length_eq_one_iff.1 count
      exact build_prefixOp wf isDefined
  | postfixOp =>
      obtain ⟨arg, rfl⟩ := List.length_eq_one_iff.1 count
      exact build_postfixOp wf isDefined
  | infixOp =>
      obtain ⟨left, right, rfl⟩ := List.length_eq_two.1 count
      exact build_infixOp wf isDefined

/-- A call with as many arguments as the operator has is built by the operator. -/
theorem operatorTerm_eq (wf : table.WellFormed)
    (isDefined : (Part.operator fixity op).IsDefined table)
    (count : args.length = Layout.arity fixity) :
    operatorTerm table op.name args = op.apply args := by
  obtain ⟨e, found, form⟩ := isDefined
  have sound := Table.sound_of_mem wf (Table.mem_of_find? found).1
  have chosen : e.formOfArity? args.length = some op := by
    rw [count]
    exact Layout.formOfArity?_of_form? sound form
  rw [operatorTerm, found, Option.bind_some, chosen]

theorem buildCall_eq (table : Table) (name : String) (args : List Term) :
    buildCall table name args = .ok (operatorTerm table name args) := rfl

/-- Both styles of a node make the same term. -/
theorem buildNode_eq (wf : table.WellFormed)
    (isDefined : (Part.operator fixity op).IsDefined table)
    (count : args.length = Layout.arity fixity) (style : Style) :
    buildNode table style fixity op.name args = .ok (op.apply args) := by
  cases style with
  | operator => exact build_nodeItems wf isDefined count
  | call =>
      show buildCall table op.name args = _
      rw [buildCall_eq, operatorTerm_eq wf isDefined count]

theorem buildUp_eq (wf : table.WellFormed) (formed : t.IsFormed table)
    (style : List Bool → Style) : t.buildUp table style = .ok t.eval := by
  induction t generalizing style with
  | operand term => rfl
  | atom name => exact formed.elim
  | prefixOp op arg ih =>
      rw [Tree.buildUp, ih formed.2]
      exact buildNode_eq wf formed.1 rfl (style [])
  | postfixOp op arg ih =>
      rw [Tree.buildUp, ih formed.2]
      exact buildNode_eq wf formed.1 rfl (style [])
  | infixOp op left right ihLeft ihRight =>
      rw [Tree.buildUp, ihLeft formed.2.1, ihRight formed.2.2]
      exact buildNode_eq wf formed.1 rfl (style [])

/-! ## All items at once -/

/-- The end of the builder is accepted, and the symbols of its sequence are reduced to the
prefix order of the tree. -/
def Reduces (b : Builder) (t : Tree) : Prop :=
  ∃ token b' symbols s, b.receive .stop = .ok (token, b') ∧ b'.symbols = .ok symbols ∧
    Shunting.run {} symbols = .ok s ∧ s.finish = t.prefixOrder

/-- The symbols of a tree in prefix order are assembled to the term that it stands for. -/
theorem Reduces.finish_eq (reduces : b.Reduces t) (placed : t.Placed) :
    b.finish = .ok t.eval := by
  obtain ⟨token, b', symbols, s, received, symbols_eq, ran, order⟩ := reduces
  rw [finish_eq_of_receive received, reduce, symbols_eq]
  simp only [ran, order, Tree.assemble_prefixOrder placed]

/-- A builder that makes a term of the items of a parse has reduced them to that parse. -/
theorem reduces_of_finish (wf : table.WellFormed) (parse : t.IsParse table items)
    (added : addItems table .empty items = .ok b) (finished : b.finish = .ok term) :
    b.Reduces t := by
  have built : Item.build table items = .ok term := by rw [build_of_addItems added, finished]
  obtain ⟨b₁, token, b', ps, s, added', received, decided, ran, -⟩ := exists_run_of_build wf built
  obtain rfl : b = b₁ := by simpa [added] using added'
  obtain ⟨u, accepted, parts_eq, order⟩ :=
    Shunting.exists_tree_of_runParts decided.sentence (decided.placed wf) ran
  obtain rfl : u = t :=
    eq_of_isParse_of_build wf built parse (decided.isParse parts_eq accepted)
  exact ⟨token, b', _, s, received, decided.symbols_eq, ran, order⟩

/-- Every tree of operators of a reachable table is built node by node, accepted or not, and
whatever the styles of its nodes, as the term that it stands for.  A builder that takes all its
items and reduces them to the tree makes the same term; and if the tree is a parse of its items,
that is what a builder does which makes a term of them. -/
theorem buildUp_eq_eval (reachable : table.Reachable) (formed : t.IsFormed table) :
    (∀ style, t.buildUp table style = .ok t.eval) ∧
      ∀ b, addItems table .empty t.items = .ok b →
        (b.Reduces t → b.finish = .ok t.eval) ∧
        (t.IsParse table t.items → ∀ term, b.finish = .ok term →
          b.Reduces t ∧ term = t.eval) := by
  have wf := reachable.wellFormed
  have placed : t.Placed := t.placed_iff.2 fun p member =>
    Token.placed_of_isDefined wf (t.isFormed_iff.1 formed p member).1
  refine ⟨buildUp_eq wf formed, fun b added => ⟨fun reduces => reduces.finish_eq placed, ?_⟩⟩
  intro parse term finished
  have reduces := reduces_of_finish wf parse added finished
  rw [reduces.finish_eq placed] at finished
  cases finished
  exact ⟨reduces, rfl⟩

/-- Subtraction, a renamed sign and an embedding factorial. -/
def signedTable : Table :=
  ((Table.empty.insert ⟨"-", .yfx, 500, none, false⟩).insert
    ⟨"-", .fy, 200, some "neg", false⟩).insert ⟨"!", .yf, 100, none, true⟩

/-- The factorial of a difference. -/
def factorial : Tree :=
  .postfixOp ⟨"!", .yf, 100, none, true⟩
    (.infixOp ⟨"-", .yfx, 500, none, false⟩ (.operand (.var "X"))
      (.prefixOp ⟨"-", .fy, 200, some "neg", false⟩ (.operand (.int 1))))

/-- The difference that the items of `factorial` are. -/
def signedDifference : Tree :=
  .infixOp ⟨"-", .yfx, 500, none, false⟩ (.operand (.var "X"))
    (.prefixOp ⟨"-", .fy, 200, some "neg", false⟩
      (.postfixOp ⟨"!", .yf, 100, none, true⟩ (.operand (.int 1))))

theorem signedDifference_accepted : signedDifference.Accepted := by
  refine ⟨trivial, ⟨⟨trivial, nofun⟩, ?_⟩, nofun, ?_⟩
  · rintro d ⟨⟩
    decide
  · rintro d ⟨⟩
    decide

/-- Node by node the two trees are built as two terms.  All items at once are reduced to one of
them, as the term that is built for this one node by node. -/
theorem buildUp_factorial :
    signedTable.Reachable ∧ factorial.IsFormed signedTable ∧ ¬ factorial.Accepted ∧
      (factorial.buildUp signedTable fun path => if path = [] then .call else .operator) =
        .ok (.compound "!" [.atom "postfix",
          .compound "-" [.var "X", .compound "neg" [.int 1]]]) ∧
      factorial.items = signedDifference.items ∧
      ∃ b, addItems signedTable .empty signedDifference.items = .ok b ∧ b.Reduces signedDifference ∧
        b.finish = signedDifference.buildUp signedTable (fun _ => .call) ∧
        b.finish = .ok (.compound "-" [.var "X",
          .compound "neg" [.compound "!" [.atom "postfix", .int 1]]]) := by
  have reachable : signedTable.Reachable :=
    .define ⟨"!", .yf, 100, none, true⟩
      (.define ⟨"-", .fy, 200, some "neg", false⟩
        (.define ⟨"-", .yfx, 500, none, false⟩ .empty rfl) rfl) rfl
  have formed : factorial.IsFormed signedTable :=
    ⟨⟨_, rfl, rfl⟩, ⟨_, rfl, rfl⟩, trivial, ⟨_, rfl, rfl⟩, trivial⟩
  have regrouped : signedDifference.IsFormed signedTable :=
    ⟨⟨_, rfl, rfl⟩, trivial, ⟨_, rfl, rfl⟩, ⟨_, rfl, rfl⟩, trivial⟩
  obtain ⟨nodes, flat⟩ := buildUp_eq_eval reachable regrouped
  obtain ⟨reduces, -⟩ := (flat _ rfl).2 (regrouped.isParse signedDifference_accepted) _ rfl
  have finished := (flat _ rfl).1 reduces
  refine ⟨reachable, formed, ?_, (buildUp_eq_eval reachable formed).1 _, rfl, _, rfl, reduces,
    finished.trans (nodes _).symm, finished⟩
  rintro ⟨-, accepts⟩
  exact absurd (accepts _ rfl) (by decide)

end Builder

end OperatorGrammar
