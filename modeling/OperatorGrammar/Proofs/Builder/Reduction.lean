/-
# Proofs.Builder.Reduction -- what a reduction holds between two tokens

The reduction moves the tokens themselves, from the right end of the sequence.  After each of
them two things hold:

* on the pending stack every operator accepts the one above it as the head of its left argument,
  so precedences never decrease from the top (`Ordered`);
* the output is a sequence of complete terms in prefix order, one for each infix operator that
  waits, and one more if the last token was an operand, an atom or a prefix operator
  (`Balanced`).

Both are read off the trees that the reduction stands for (`Shunting.Reduced`): each infix
operator that waits has its right argument on the output, and a tree in front is there exactly
behind a token that takes no left argument.  That no token is lost or doubled and that each
waiting operator moves once is so whatever is placed (`conserves_run`).
-/
import OperatorGrammar.Proofs.Builder.Indexed

namespace OperatorGrammar

set_option autoImplicit false

variable {table : Table}

theorem Table.fixity_of_entryAt (wf : table.WellFormed) {index : Nat} {f : Fixity} {op : Operator}
    (form : (table.entryAt index).form? f = some op) : op.fixity = f := by
  unfold entryAt at form
  cases found : table.get? index with
  | none =>
      rw [found] at form
      cases f <;> cases form
  | some e =>
      rw [found] at form
      exact (wf.placed e (List.mem_of_getElem? found) f op form).2.1

namespace IndexedToken

variable {token : IndexedToken} {tokens : List IndexedToken}

/-- The tokens of one term in prefix order: every operator in front of its arguments. -/
inductive IsTerm : List IndexedToken → Prop
  | leaf {t : IndexedToken} (role : t.role = .operand ∨ t.role = .zerofix) : IsTerm [t]
  | unary {t : IndexedToken} {arg : List IndexedToken}
      (role : t.role = .prefixOp ∨ t.role = .postfixOp) (term : IsTerm arg) : IsTerm (t :: arg)
  | binary {t : IndexedToken} {left right : List IndexedToken} (role : t.role = .infixOp)
      (leftTerm : IsTerm left) (rightTerm : IsTerm right) : IsTerm (t :: (left ++ right))

/-- The token goes to the pending stack first. -/
def waits (t : IndexedToken) : Bool := t.role = .infixOp ∨ t.role = .postfixOp

/-- A term starts with the token: it is an operand, an atom or a prefix operator. -/
def starts (t : IndexedToken) : Bool :=
  t.role = .operand ∨ t.role = .zerofix ∨ t.role = .prefixOp

/-! ## Roles and symbols -/

theorem role_of_fixity? {role : Role} {f : Fixity} (decided : role.fixity? = some f) :
    role = f.role := by
  cases role <;> cases decided <;> rfl

theorem role_of_yields_leaf {term : Term} (yields : token.Yields table (.leaf term)) :
    token.role = .operand ∨ token.role = .zerofix := by
  obtain ⟨-, yields⟩ := yields
  cases token with
  | operand term => exact Or.inl rfl
  | operator index role prev =>
      by_cases atom : role = .zerofix
      · exact Or.inr atom
      · simp only [lookUp, Token.symbol, if_neg atom] at yields
        split at yields <;> cases yields
  | _ => cases yields

theorem role_of_yields_operator {op : Operator} (wf : table.WellFormed)
    (yields : token.Yields table (.operator op)) : token.role = op.fixity.role := by
  obtain ⟨-, yields⟩ := yields
  cases token with
  | operator index role prev =>
      simp only [lookUp, Token.symbol] at yields
      split at yields
      · cases yields
      · split at yields
        · rename_i form
          cases yields
          obtain ⟨f, decided, form⟩ := Option.bind_eq_some_iff.1 form
          rw [Table.fixity_of_entryAt wf form]
          exact role_of_fixity? decided
        · cases yields
  | _ => cases yields

theorem eq_start_of_lookUp (marks : token.lookUp table = .start) : token = .start := by
  cases token <;> first | rfl | cases marks

/-- Tokens that yield the symbols of a tree in prefix order are a term. -/
theorem isTerm_of_yields {t : Tree} (wf : table.WellFormed) (placed : t.Placed)
    (yields : List.Forall₂ (Yields table) tokens t.prefixOrder) : IsTerm tokens := by
  induction t generalizing tokens with
  | operand term =>
      cases yields with
      | cons first none =>
          cases none
          exact .leaf (role_of_yields_leaf first)
  | atom name =>
      cases yields with
      | cons first none =>
          cases none
          exact .leaf (role_of_yields_leaf first)
  | prefixOp op arg ih =>
      cases yields with
      | cons first rest =>
          refine .unary (Or.inl ?_) (ih placed.2 rest)
          rw [role_of_yields_operator wf first, placed.1]
          rfl
  | postfixOp op arg ih =>
      cases yields with
      | cons first rest =>
          refine .unary (Or.inr ?_) (ih placed.2 rest)
          rw [role_of_yields_operator wf first, placed.1]
          rfl
  | infixOp op left right ihLeft ihRight =>
      obtain ⟨fixity, placedLeft, placedRight⟩ := placed
      cases yields with
      | @cons t _ tokens _ first rest =>
          rw [← List.take_append_drop left.prefixOrder.length tokens]
          refine .binary ?_ (ihLeft placedLeft (List.forall₂_take_append _ _ _ rest))
            (ihRight placedRight (List.forall₂_drop_append _ _ _ rest))
          rw [role_of_yields_operator wf first, fixity]
          rfl

end IndexedToken

namespace IndexedShunting

open IndexedToken OperatorGrammar.Part

variable {s s' : IndexedShunting} {t : IndexedToken} {tokens : List IndexedToken}

/-! ## What is moved -/

/-- The second reduction holds the tokens of the first one and some more, and counts those of
them that wait. -/
structure Conserves (s : IndexedShunting) (more : List IndexedToken) (s' : IndexedShunting) :
    Prop where
  perm : (s'.pending ++ s'.output).Perm (more ++ (s.pending ++ s.output))
  moves_eq : s'.moves = s.moves + more.countP waits

theorem Conserves.trans {more first : List IndexedToken} {s₁ : IndexedShunting}
    (conserves : Conserves s first s₁) (conserves' : Conserves s₁ more s') :
    Conserves s (first ++ more) s' where
  perm := by
    refine conserves'.perm.trans ((conserves.perm.append_left more).trans ?_)
    rw [← List.append_assoc]
    exact List.perm_append_comm.append_right _
  moves_eq := by
    rw [conserves'.moves_eq, conserves.moves_eq, List.countP_append]
    omega

theorem conserves_releaseFor {op : Operator} {pending output : List IndexedToken}
    {released : List Operator} (ran : releaseFor table op pending output released = .ok s) :
    Conserves ⟨pending, output, released⟩ [] s := by
  induction pending generalizing output released with
  | nil =>
      cases ran
      exact ⟨.refl _, rfl⟩
  | cons top pending ih =>
      unfold releaseFor at ran
      split at ran
      · cases ran
      · split at ran
        · obtain ⟨perm, counted⟩ := ih ran
          refine ⟨perm.trans ?_, counted.trans ?_⟩
          · exact List.perm_middle
          · simp only [moves, List.length_cons]
            omega
        · cases ran
          exact ⟨.refl _, rfl⟩
        · cases ran

theorem conserves_release (ran : s.release table t = .ok s') : Conserves s [] s' := by
  unfold release at ran
  split at ran
  · cases ran
  · exact conserves_releaseFor ran

theorem conserves_pending (s : IndexedShunting) (goes : t.waits = true) :
    Conserves s [t] { s with pending := t :: s.pending } where
  perm := .refl _
  moves_eq := by
    simp only [moves, List.length_cons, List.countP_singleton, goes, if_true]
    omega

theorem conserves_output (s : IndexedShunting) (goes : t.waits = false) :
    Conserves s [t] { s with output := t :: s.output } where
  perm := List.perm_middle
  moves_eq := by
    simp only [moves, List.countP_singleton, goes]
    rfl

theorem conserves_place (placed : s.place table t = .ok s') : Conserves s [t] s' := by
  cases role : t.role with
  | operand | zerofix =>
      simp only [place, role] at placed
      cases placed
      exact conserves_output s (by simp [waits, role])
  | infixOp =>
      simp only [place, role] at placed
      cases ran : s.release table t with
      | error stuck =>
          rw [ran] at placed
          cases placed
      | ok s₁ =>
          rw [ran] at placed
          cases placed
          exact (conserves_release ran).trans (conserves_pending s₁ (by simp [waits, role]))
  | prefixOp =>
      simp only [place, role] at placed
      cases ran : s.release table t with
      | error stuck =>
          rw [ran] at placed
          cases placed
      | ok s₁ =>
          rw [ran] at placed
          cases placed
          exact (conserves_release ran).trans (conserves_output s₁ (by simp [waits, role]))
  | postfixOp =>
      simp only [place, role] at placed
      cases placed
      exact conserves_pending s (by simp [waits, role])
  | _ =>
      simp only [place, role] at placed
      cases placed

/-- No token is lost or doubled, and every operator that waits is counted once. -/
theorem conserves_run (ran : tokens.foldlM (place table) s = .ok s') :
    Conserves s tokens s' := by
  induction tokens generalizing s with
  | nil =>
      cases ran
      exact ⟨.refl _, rfl⟩
  | cons t tokens ih =>
      rw [List.foldlM_cons] at ran
      cases placed : s.place table t with
      | error stuck =>
          rw [placed] at ran
          cases ran
      | ok s₁ =>
          rw [placed] at ran
          exact (conserves_place placed).trans (ih ran)

/-! ## Between two tokens -/

/-- Every operator that waits accepts the one above it as the head of its left argument, and none
of them binds tighter than that one. -/
def Ordered (table : Table) (s : IndexedShunting) : Prop :=
  ∃ ops, List.Forall₂ (fun t op => t.fetch table = .ok op) s.pending ops ∧
    ops.IsChain (fun upper lower => lower.leftAccepts upper = true) ∧
    ops.Pairwise fun upper lower => upper.prec ≤ lower.prec

/-- The output is a sequence of complete terms: one for each infix operator that waits, and one
more if a term starts with the token that was placed last. -/
def Balanced (last : Option IndexedToken) (s : IndexedShunting) : Prop :=
  ∃ terms : List (List IndexedToken), (∀ term ∈ terms, IsTerm term) ∧
    s.output = terms.flatten ∧
    terms.length = s.pending.countP (fun t => t.role = .infixOp) + (last.any starts).toNat

theorem Means.ordered {s' : Shunting} {ws : List Trailing} (means : Means table s s')
    (pending : s'.pending = ws.map Trailing.op) (ladder : Trailing.Ladder ws) :
    s.Ordered table := by
  have rising : s'.pending.IsChain fun upper lower => lower.leftAccepts upper = true := by
    rw [pending, List.isChain_map]
    exact ladder.rising
  refine ⟨s'.pending, means.pending.imp fun _ _ works => works.fetched, rising, ?_⟩
  exact (rising.imp fun _ _ => Operator.prec_le_of_leftAccepts).pairwise

/-- Tokens that yield the symbols of several trees are as many terms. -/
theorem exists_terms {forest : List Tree} (wf : table.WellFormed)
    (placed : ∀ t ∈ forest, t.Placed)
    (yields : List.Forall₂ (Yields table) tokens (forest.flatMap Tree.prefixOrder)) :
    ∃ terms : List (List IndexedToken), (∀ term ∈ terms, IsTerm term) ∧
      tokens = terms.flatten ∧ terms.length = forest.length := by
  induction forest generalizing tokens with
  | nil =>
      cases yields
      exact ⟨[], by simp, rfl, rfl⟩
  | cons t forest ih =>
      obtain ⟨first, others⟩ := List.forall_mem_cons.1 placed
      rw [List.flatMap_cons] at yields
      obtain ⟨terms, complete, rest_eq, count⟩ := ih others (List.forall₂_drop_append _ _ _ yields)
      refine ⟨tokens.take t.prefixOrder.length :: terms, List.forall_mem_cons.2 ⟨?_, complete⟩,
        ?_, congrArg (· + 1) count⟩
      · exact isTerm_of_yields wf first (List.forall₂_take_append _ _ _ yields)
      · rw [List.flatten_cons, ← rest_eq, List.take_append_drop]

/-- The right argument of an infix operator that waits. -/
def right? : Trailing → Option Tree
  | .infixOp _ right => some right
  | .postfixOp _ => none

theorem flatMap_argument (ws : List Trailing) :
    ws.flatMap Trailing.argument = (ws.filterMap right?).flatMap Tree.prefixOrder := by
  induction ws with
  | nil => rfl
  | cons w ws ih =>
      cases w with
      | infixOp op right => exact congrArg (right.prefixOrder ++ ·) ih
      | postfixOp op => exact ih

theorem length_right? {ws : List Trailing} {pending : List IndexedToken} (wf : table.WellFormed)
    (works : List.Forall₂ (Works table) pending (ws.map Trailing.op))
    (placed : ∀ p ∈ ws.flatMap Trailing.parts, p.Placed) :
    (ws.filterMap right?).length = pending.countP fun t => t.role = .infixOp := by
  induction ws generalizing pending with
  | nil =>
      cases works
      rfl
  | cons w ws ih =>
      cases works with
      | cons first rest =>
          rw [List.flatMap_cons, List.forall_mem_append] at placed
          have role := role_of_yields_operator wf first.yields
          have behind := ih rest placed.2
          cases w with
          | infixOp op right =>
              have fixity : op.fixity = .infixOp := placed.1 _ List.mem_cons_self
              rw [List.countP_cons_of_pos, ← behind]
              · rfl
              · simp [role, Trailing.op, fixity, Fixity.role]
          | postfixOp op =>
              have fixity : op.fixity = .postfixOp := placed.1 _ List.mem_cons_self
              rw [List.countP_cons_of_neg, ← behind]
              · rfl
              · simp [role, Trailing.op, fixity, Fixity.role]

theorem placed_right? {ws : List Trailing} (placed : ∀ p ∈ ws.flatMap Trailing.parts, p.Placed) :
    ∀ t ∈ ws.filterMap right?, t.Placed := by
  intro t member
  obtain ⟨w, memberOf, right⟩ := List.mem_filterMap.1 member
  cases w with
  | postfixOp op => cases right
  | infixOp op right' =>
      cases right
      exact t.placed_iff.2 fun p inside =>
        placed p (List.mem_flatMap.2 ⟨_, memberOf, List.mem_cons_of_mem _ inside⟩)

theorem Means.balanced {s' : Shunting} {front : Option Tree} {ws : List Trailing}
    {last : Option IndexedToken} (wf : table.WellFormed) (means : Means table s s')
    (holds : s'.Holds front ws) (placedFront : ∀ t ∈ front, t.Placed)
    (placed : ∀ p ∈ ws.flatMap Trailing.parts, p.Placed)
    (fronted : last.any starts = front.isSome) : s.Balanced last := by
  have output := means.output
  rw [holds.output, flatMap_argument, ← List.flatMap_append] at output
  obtain ⟨terms, complete, output_eq, count⟩ := exists_terms wf
    (List.forall_mem_append.2 ⟨by simpa using placedFront, placed_right? placed⟩) output
  refine ⟨terms, complete, output_eq, ?_⟩
  have works := means.pending
  rw [holds.pending] at works
  rw [count, List.length_append, length_right? wf works placed, fronted, Nat.add_comm]
  cases front <;> rfl

/-- What the trees of a reduction say of its tokens. -/
theorem Means.between {s' : Shunting} {ps : List Part} {last : Option IndexedToken}
    (wf : table.WellFormed) (means : Means table s s') (reduced : s'.Reduced ps)
    (placed : ∀ p ∈ ps, p.Placed) (last_eq : last.any starts = ps.head?.any (!·.takesLeft)) :
    s.Ordered table ∧ s.Balanced last := by
  cases reduced with
  | due ws holds ladder parts_eq =>
      subst parts_eq
      refine ⟨means.ordered holds.pending ladder,
        means.balanced wf holds (by simp) placed (last_eq.trans ?_)⟩
      cases ws with
      | nil => rfl
      | cons w ws => cases w <;> rfl
  | held t ws holds ladder parts_eq accepted _ _ =>
      subst parts_eq
      rw [List.forall_mem_append] at placed
      refine ⟨means.ordered holds.pending ladder,
        means.balanced wf holds ?_ placed.2 (last_eq.trans ?_)⟩
      · rintro _ ⟨⟩
        exact t.placed_iff.2 placed.1
      · have first := List.head?_eq_some_head t.parts_ne_nil
        rw [Tree.head?_parts_append, first, Option.any_some,
          (Tree.isSentence_parts accepted).first _ first]
        rfl

/-- Whether a term starts with a token is up to its part. -/
theorem any_starts (table : Table) {ps : List Part}
    (stand : List.Forall₂ (fun t p => (t.lookUp table).Stands table p) tokens.reverse ps) :
    tokens.getLast?.any starts = ps.head?.any (!·.takesLeft) := by
  rw [← List.head?_reverse]
  generalize tokens.reverse = latest at stand ⊢
  cases stand with
  | nil => rfl
  | @cons t p _ _ stands _ =>
      simp only [List.head?_cons, Option.any_some, starts, role_of_stands stands]
      cases p with
      | operator f op => cases f <;> rfl
      | _ => rfl

end IndexedShunting

namespace IndexedBuilder

open Builder IndexedToken IndexedShunting

variable {b b' : IndexedBuilder} {mark : IndexedToken} {items : List Item} {ps : List Part}

/-! ## Reductions of accepted sequences -/

/-- Behind an accepted stop mark the looked-up tokens stand for a sentence. -/
theorem exists_decided (wf : table.WellFormed) (sound : Builder.Sound table (b.lookUp table))
    (received : b.receive table .stop = .ok (mark, b')) :
    ∃ items ps, Decided table items (b'.lookUp table) ps := by
  obtain ⟨items, keeps⟩ := sound
  obtain ⟨⟨token, c⟩, received', -, rfl⟩ := (matches_receive table b .stop).exists_of_ok received
  rcases keeps.stop wf with ⟨token', c', ps, received'', decided⟩ | ⟨cause, refused, -⟩
  · cases received'.symm.trans received''
    exact ⟨items, ps, decided⟩
  · cases received'.symm.trans refused

/-- Tokens that stand for parts are placed as the parts are. -/
theorem exists_means_of_run {qs : List Part} {s : IndexedShunting} {tokens : List IndexedToken}
    (wf : table.WellFormed)
    (stand : List.Forall₂ (fun t p => (t.lookUp table).Stands table p) tokens qs.reverse)
    (ran : tokens.foldlM (IndexedShunting.place table) {} = .ok s) :
    ∃ s', Shunting.runParts {} qs = .ok s' ∧ Means table s s' := by
  have start : Means table {} {} := ⟨.nil, .nil, rfl⟩
  have agrees := start.run wf stand
  rw [ran, List.map_reverse] at agrees
  unfold Shunting.runParts
  cases ran' : Shunting.run {} (qs.map Part.symbol).reverse with
  | error stuck =>
      rw [ran'] at agrees
      cases agrees
  | ok s' =>
      rw [ran'] at agrees
      cases agrees with
      | ok means => exact ⟨s', rfl, means⟩

/-- After some of the tokens, the reduction stands for trees. -/
theorem between_of_decided {placed rest : List IndexedToken} {s : IndexedShunting}
    (wf : table.WellFormed) (decided : Decided table items (b.lookUp table) ps)
    (tokens_eq : b.tokens.dropLast = placed ++ rest)
    (ran : placed.foldlM (IndexedShunting.place table) {} = .ok s) :
    s.Ordered table ∧ s.Balanced placed.getLast? := by
  have stand := List.forall₂_take placed.length (stand_of_decided decided)
  rw [tokens_eq, List.take_left] at stand
  -- The parts of the tokens that were placed, from left to right, are the right end of the
  -- sentence.
  obtain ⟨before, qs, parts_eq, split⟩ : ∃ before qs, ps = before ++ qs ∧
      ps.reverse.take placed.length = qs.reverse := by
    refine ⟨(ps.reverse.drop placed.length).reverse, (ps.reverse.take placed.length).reverse, ?_,
      List.reverse_reverse _ |>.symm⟩
    rw [← List.reverse_append, List.take_append_drop, List.reverse_reverse]
  rw [split] at stand
  have wellPlaced : ∀ p ∈ qs, p.Placed := fun p member =>
    decided.placed wf p (by rw [parts_eq]; exact List.mem_append_right _ member)
  have chain := decided.sentence.chain
  rw [parts_eq] at chain
  have last : ∀ p ∈ qs.getLast?, p.opens = false := fun p final =>
    decided.sentence.last p (by rw [parts_eq, List.getLast?_append, final]; rfl)
  obtain ⟨s', ran', means⟩ := exists_means_of_run wf stand ran
  refine means.between wf
    (Shunting.reduced_of_runParts chain.right_of_append last wellPlaced ran') wellPlaced
    (any_starts table ?_)
  have reversed := List.rel_reverse stand
  rwa [List.reverse_reverse] at reversed

/-- A reduction that comes through leaves one term, and reports it. -/
theorem exists_built_of_decided {s : IndexedShunting} (wf : table.WellFormed)
    (decided : Decided table items (b.lookUp table) ps)
    (ran : b.tokens.dropLast.foldlM (IndexedShunting.place table) {} = .ok s) :
    IsTerm s.finish ∧ ∃ term, (b.reduce table).trace.head? =
      some (.built term { b.stats with moves := s.moves }) := by
  obtain ⟨s', ran', means⟩ := exists_means_of_run wf (stand_of_decided decided) ran
  have placed := decided.placed wf
  obtain ⟨t, -, parts_eq, finish⟩ :=
    Shunting.exists_tree_of_runParts decided.sentence placed ran'
  have placedTree : t.Placed := t.placed_iff.2 (by rw [parts_eq]; exact placed)
  have yields := means.finish
  rw [finish] at yields
  refine ⟨isTerm_of_yields wf placedTree yields, t.eval, ?_⟩
  have assembled : assemble table s.finish = .ok t.eval := by
    rw [assemble_eq yields]
    exact Tree.assemble_prefixOrder placedTree
  simp only [reduce, ran, assembled, List.head?_cons]

theorem tokens_of_decided (decided : Decided table items (b.lookUp table) ps) :
    b.tokens = b.tokens.dropLast ++ [.start] := by
  obtain ⟨ts, tokens_eq, -⟩ := decided.stand
  obtain ⟨above, base, split, -, based⟩ := List.map_eq_append_iff.1 tokens_eq
  obtain ⟨t, rfl, marks⟩ := List.map_eq_singleton_iff.1 based
  rw [split, List.dropLast_concat, IndexedToken.eq_start_of_lookUp marks]

/-- In the reduction of a sequence that was accepted to its end, whatever was asked of the builder
before, the stacks are in order after every token that was placed without a failure.  If all
tokens are placed, then they come out as one term, each of them once, and each infix or postfix
operator was moved once. -/
theorem reduction_balanced (reachable : table.Reachable) (calls : List Call)
    (accepted : (attemptAll table .empty calls).receive table .stop = .ok (mark, b)) :
    ∃ tokens, b.tokens = tokens ++ [.start] ∧
      (∀ placed rest s, tokens = placed ++ rest →
        placed.foldlM (IndexedShunting.place table) {} = .ok s →
        s.Ordered table ∧ s.Balanced placed.getLast?) ∧
      ∀ s, tokens.foldlM (IndexedShunting.place table) {} = .ok s →
        IsTerm s.finish ∧ s.finish.Perm tokens ∧ s.moves = tokens.countP waits ∧
        ∃ term, (b.reduce table).trace.head? =
          some (.built term { b.stats with moves := s.moves }) := by
  have wf := reachable.wellFormed
  have sound : Builder.Sound table ((attemptAll table .empty calls).lookUp table) := by
    rw [lookUp_attemptAll]
    exact Builder.sound_empty.attemptAll wf calls
  obtain ⟨items, ps, decided⟩ := exists_decided wf sound accepted
  refine ⟨b.tokens.dropLast, tokens_of_decided decided, fun placed rest s split ran =>
    between_of_decided wf decided split ran, fun s ran => ?_⟩
  obtain ⟨term, built⟩ := exists_built_of_decided wf decided ran
  obtain ⟨perm, moves⟩ := conserves_run ran
  rw [List.append_nil, List.append_nil] at perm
  refine ⟨term, ?_, moves.trans (Nat.zero_add _), built⟩
  exact ((List.reverse_perm _).append_right _).trans perm

/-- In `a - - b * c` the product waits while `-` is placed in front of it. -/
theorem reduction_balanced_minus :
    let calls : List Call := [.operand (.atom "a"), .operator "-", .operator "-",
      .operand (.atom "b"), .operator "*", .operand (.atom "c")]
    ∃ b tokens s, (attemptAll .standard .empty calls).receive .standard .stop = .ok (.stop, b) ∧
      b.tokens = tokens ++ [.start] ∧
      tokens.foldlM (IndexedShunting.place .standard) {} = .ok s ∧
      IsTerm s.finish ∧ s.finish.Perm tokens ∧ s.moves = 2 := by
  intro calls
  have accepted : (attemptAll .standard .empty calls).receive .standard .stop =
    .ok (.stop, _) := rfl
  obtain ⟨tokens, split, -, built⟩ := reduction_balanced .standard calls accepted
  have above := congrArg List.dropLast split
  rw [List.dropLast_concat] at above
  subst above
  have ran : (attemptAll .standard .empty calls).tokens.dropLast.foldlM
      (IndexedShunting.place .standard) {} = .ok _ := rfl
  obtain ⟨term, perm, moves, -⟩ := built _ ran
  exact ⟨_, _, _, accepted, split, ran, term, perm, moves.trans rfl⟩

end IndexedBuilder

end OperatorGrammar
