/-
# Proofs.Builder.Indexed -- a term depends on the operators used, not on their places

What a builder of indexed tokens stands for in its table is a builder whose tokens carry
their entries (`IndexedBuilder.lookUp`).  Each step does the same on both sides, or fails on
both for the same reason: a role is decided without the table, a judgement asks for nothing
but the operators of the tokens and of the one in front (`matches_receive`).  So call by call
the looked-up builder is the one that `Builder` would have (`matches_perform`).

At the end every token stands for a part of a sentence, so each operator that the reduction
asks for is there, and it moves and applies the same ones (`Means.run`, `assemble_eq`).  The
conclusion is that of the looked-up builder (`conclude_lookUp`).  What can go wrong with places
alone, a name that has none or a place beyond the end of the table, never does
(`attempt_ne_internal`, `conclude_ne_internal`).

There a table is asked for the names of operator calls alone (`Call.names`).  Two tables with
the same entries for these names therefore lead to the same answers and the same conclusion,
whatever places the names have and whatever else the tables define (`building_eq_of_agree`).
-/
import OperatorGrammar.Builder.Indexed
import OperatorGrammar.Proofs.Builder.Alike
import OperatorGrammar.Proofs.Builder.Calls
import OperatorGrammar.Proofs.Table.Places

namespace OperatorGrammar

set_option autoImplicit false

variable {table t u : Table}

/-! ## Looking up -/

theorem FormRef.find?_eq (table : Table) (r : FormRef) :
    r.find? table = (table.entryAt r.index).form? r.fixity := by
  unfold find? Table.entryAt
  cases table.get? r.index with
  | some entry => rfl
  | none => cases r.fixity <;> rfl

theorem Table.entryAt_of_index? {name : String} {index : Nat}
    (found : table.index? name = some index) : table.find? name = some (table.entryAt index) := by
  obtain ⟨e, kept, looked⟩ := find?_of_index? found
  rw [entryAt, kept]
  exact looked

namespace IndexedToken

theorem role_lookUp (table : Table) (token : IndexedToken) :
    (token.lookUp table).role = token.role := by
  cases token <;> rfl

theorem form?_lookUp (token : IndexedToken) :
    (token.lookUp table).form? = token.formRef?.bind (·.find? table) := by
  cases token with
  | operator index role prev =>
      show role.fixity?.bind (table.entryAt index).form? =
        (role.fixity?.map fun fixity => (⟨index, fixity⟩ : FormRef)).bind (·.find? table)
      cases role.fixity? with
      | none => rfl
      | some fixity => exact (FormRef.find?_eq table ⟨index, fixity⟩).symm
  | _ => rfl

theorem lookUp_follow (token top : IndexedToken) :
    (token.follow top).lookUp table = (token.lookUp table).follow (top.lookUp table) := by
  cases token with
  | operator index role prev =>
      show Token.operator ⟨table.entryAt index, role, top.formRef?.bind (·.find? table)⟩ =
        Token.operator ⟨table.entryAt index, role, (top.lookUp table).form?⟩
      rw [form?_lookUp]
  | _ => rfl

theorem matches_resolve (token : IndexedToken) (role : Role) :
    Builder.Matches (fun t u => t.lookUp table = u) (token.resolve role)
      ((token.lookUp table).resolve role) := by
  unfold resolve Token.resolve
  rw [role_lookUp]
  split
  · exact .ok rfl
  · cases token with
    | operator index role' prev =>
        simp only [lookUp]
        split
        · exact .ok rfl
        · exact .error _
    | _ => exact .error _

end IndexedToken

namespace IndexedBuilder

open Builder

/-- The same token and the same builder, once they are looked up. -/
def LeadsTo (table : Table) : IndexedToken × IndexedBuilder → Token × Builder → Prop
  | (token, b), (token', b') => token.lookUp table = token' ∧ b.lookUp table = b'

/-! ## Single steps -/

theorem matches_top (b : IndexedBuilder) :
    Matches (fun t u => t.lookUp table = u) b.top (b.lookUp table).top := by
  unfold top Builder.top
  cases tokens : b.tokens with
  | nil => simpa [lookUp, tokens, Stack.top?] using .error _
  | cons token tokens' => simpa [lookUp, tokens, Stack.top?] using .ok rfl

theorem matches_replaceTop (tokens : Stack IndexedToken) (token : IndexedToken) :
    Matches (fun s s' => s.2.map (·.lookUp table) = s'.2) (Stack.replaceTop tokens token)
      (Stack.replaceTop (tokens.map (·.lookUp table)) (token.lookUp table)) := by
  cases tokens with
  | nil => exact .error _
  | cons first rest => exact .ok rfl

theorem matches_resolveTop (b : IndexedBuilder) (role : Role) :
    Matches (fun b b' => b.lookUp table = b') (b.resolveTop table role)
      ((b.lookUp table).resolveTop role) := by
  refine (matches_top b).bind fun top _ same => ?_
  subst same
  refine (top.matches_resolve role).bind fun resolved _ same => ?_
  subst same
  refine (matches_replaceTop b.tokens resolved).bind fun _ _ same => .ok ?_
  simp only [lookUp, same]

theorem matches_resolveNew (b : IndexedBuilder) (token : IndexedToken) (role : Role) :
    Matches (LeadsTo table) (b.resolveNew token role)
      ((b.lookUp table).resolveNew (token.lookUp table) role) := by
  refine (token.matches_resolve role).bind fun resolved _ same => .ok ⟨same, ?_⟩
  simp only [lookUp, IndexedToken.role_lookUp]

theorem matches_carryOut (b : IndexedBuilder) (token : IndexedToken) (verdict : Verdict) :
    Matches (LeadsTo table) (b.carryOut table token verdict)
      ((b.lookUp table).carryOut (token.lookUp table) verdict) := by
  cases verdict with
  | accept => exact .ok ⟨rfl, rfl⟩
  | acceptFlagged => exact .ok ⟨rfl, rfl⟩
  | acceptAs role => exact matches_resolveNew { b with infixAtStart := false } token role
  | resolve topRole role =>
      refine (matches_resolveTop b topRole).bind fun b _ same => ?_
      subst same
      exact matches_resolveNew { b with infixAtStart := false } token role
  | reject cause => exact .error _

theorem matches_followTop {received : IndexedToken × IndexedBuilder}
    {received' : Token × Builder} (leads : LeadsTo table received received') :
    Matches (LeadsTo table) (followTop received) (Builder.followTop received') := by
  obtain ⟨token, b⟩ := received
  obtain ⟨token', b'⟩ := received'
  obtain ⟨rfl, rfl⟩ := leads
  refine (matches_top b).bind fun top _ same => .ok ⟨?_, rfl⟩
  subst same
  exact token.lookUp_follow top

theorem matches_receive (table : Table) (b : IndexedBuilder) (token : IndexedToken) :
    Matches (LeadsTo table) (b.receive table token)
      ((b.lookUp table).receive (token.lookUp table)) := by
  rw [receive_eq_bind]
  refine (matches_top b).bind fun top _ same => ?_
  subst same
  have height : (b.lookUp table).tokens.length = b.tokens.length := List.length_map _
  rw [height]
  refine Matches.bind (.refl (fun _ => rfl) (Adjacency.judge _)) fun verdict _ same => ?_
  cases same
  exact (matches_carryOut b token verdict).bind fun _ _ => matches_followTop

theorem matches_add (b : IndexedBuilder) (token : IndexedToken) :
    Matches (fun b b' => b.lookUp table = b') (b.add table token)
      ((b.lookUp table).add (token.lookUp table)) := by
  refine (matches_receive table b token).bind ?_
  rintro ⟨token, b⟩ ⟨_, _⟩ ⟨rfl, rfl⟩
  exact .ok rfl

theorem matches_addOperator (b : IndexedBuilder) (name : String) :
    Matches (fun b b' => b.lookUp table = b') (b.addOperator table name)
      (Builder.addOperator table (b.lookUp table) name) := by
  unfold addOperator Builder.addOperator
  cases place : table.index? name with
  | none =>
      rw [Table.index?_eq_none_iff.1 place]
      exact .error _
  | some index =>
      rw [Table.entryAt_of_index? place]
      simp only [Option.bind_some]
      cases plays : (table.entryAt index).role? with
      | none => simpa only [plays] using .error _
      | some role => exact matches_add b (.operator index role none)

/-- A call does what it does to the builder that is looked up. -/
theorem matches_perform (table : Table) (b : IndexedBuilder) (call : Call) :
    Matches (fun b b' => b.lookUp table = b') (b.perform table call)
      (Builder.perform table (b.lookUp table) call) := by
  cases call with
  | operator name => exact matches_addOperator b name
  | group terms =>
      match terms with
      | [] => exact .error _
      | [term] => exact matches_add b (.operand term)
      | first :: second :: rest =>
          exact matches_add b (.operand (.application "," (first :: second :: rest)))
  | _ => exact matches_add b (.operand _)

/-! ## Sequences of calls -/

theorem lookUp_attempt (table : Table) (b : IndexedBuilder) (call : Call) :
    (b.attempt table call).1.lookUp table = (Builder.attempt table (b.lookUp table) call).1 ∧
      (b.attempt table call).2 = (Builder.attempt table (b.lookUp table) call).2 := by
  have both := matches_perform table b call
  unfold attempt Builder.attempt
  generalize b.perform table call = first at both
  generalize Builder.perform table (b.lookUp table) call = second at both
  cases both with
  | ok same => exact ⟨same, rfl⟩
  | error e => exact ⟨rfl, rfl⟩

theorem lookUp_attemptAll (table : Table) (b : IndexedBuilder) (calls : List Call) :
    (attemptAll table b calls).lookUp table = Builder.attemptAll table (b.lookUp table) calls := by
  induction calls generalizing b with
  | nil => rfl
  | cons call rest ih =>
      show (attemptAll table (b.attempt table call).1 rest).lookUp table = _
      rw [ih, (lookUp_attempt table b call).1]
      rfl

end IndexedBuilder

/-! ## Reduction -/

namespace IndexedToken

/-- The place of an operator is not beyond the end of the table. -/
def IsListed (table : Table) : IndexedToken → Prop
  | .operator index _ _ => ∃ e, table.get? index = some e
  | _ => True

/-- The token builds what the symbol builds. -/
structure Yields (table : Table) (token : IndexedToken) (symbol : Symbol) : Prop where
  listed : token.IsListed table
  symbol_eq : (token.lookUp table).symbol = .ok symbol

/-- The token is the operator, at work. -/
structure Works (table : Table) (token : IndexedToken) (op : Operator) : Prop where
  fetched : token.fetch table = .ok op
  yields : token.Yields table (.operator op)

variable {token : IndexedToken}

theorem build_eq {symbol : Symbol} (yields : token.Yields table symbol) (terms : List Term) :
    token.build table terms = symbol.build terms := by
  obtain ⟨listed, symbol_eq⟩ := yields
  cases token with
  | operand term =>
      cases symbol_eq
      rfl
  | operator index role prev =>
      obtain ⟨e, kept⟩ := listed
      by_cases atom : role = .zerofix
      · subst atom
        cases symbol_eq
        simp only [build, kept, Table.entryAt, Option.getD_some, Symbol.build]
      · have form : ((IndexedToken.operator index role prev).lookUp table).form? = _ :=
          form?_lookUp _
        simp only [lookUp, Token.form?] at form
        simp only [lookUp, Token.symbol, if_neg atom, form] at symbol_eq
        rw [build]
        · cases found : (operator index role prev).formRef?.bind (·.find? table) with
          | none =>
              rw [found] at symbol_eq
              cases symbol_eq
          | some op =>
              rw [found] at symbol_eq
              cases symbol_eq
              rfl
        · exact atom
  | _ => cases symbol_eq

/-- What a token stands for is in the table, where no entry is without operators. -/
theorem isListed_of_stands {p : Part} (wf : table.WellFormed)
    (stands : (token.lookUp table).Stands table p) : token.IsListed table := by
  cases token with
  | operator index role prev =>
      have found : table.find? (table.entryAt index).name = some (table.entryAt index) := by
        cases stands <;> assumption
      obtain ⟨f, form⟩ := wf.inhabited _ (Table.mem_of_find? found).1
      cases kept : table.get? index with
      | some e => exact ⟨e, kept⟩
      | none =>
          rw [Table.entryAt, kept] at form
          cases f <;> cases form
  | _ => trivial

theorem yields_of_stands {p : Part} (wf : table.WellFormed)
    (stands : (token.lookUp table).Stands table p) : token.Yields table p.symbol :=
  ⟨isListed_of_stands wf stands, stands.symbol_eq⟩

theorem role_of_stands {p : Part} (stands : (token.lookUp table).Stands table p) :
    token.role = p.role := by
  rw [← role_lookUp table]
  exact stands.role_eq

theorem works_of_stands {f : Fixity} {op : Operator} (wf : table.WellFormed)
    (stands : (token.lookUp table).Stands table (.operator f op)) : token.Works table op where
  fetched := by
    have form := stands.form?_eq
    rw [form?_lookUp] at form
    simp only [fetch, form, Part.operator?]
  yields := yields_of_stands wf stands

end IndexedToken

namespace IndexedShunting

open IndexedToken

/-- The same reduction, once its tokens are looked up. -/
structure Means (table : Table) (s : IndexedShunting) (s' : Shunting) : Prop where
  pending : List.Forall₂ (Works table) s.pending s'.pending
  output : List.Forall₂ (Yields table) s.output s'.output
  released : s.released = s'.released

/-- Reductions that are the same, or that fail for the same reason at the same place. -/
inductive Agrees (table : Table) :
    Except Stuck IndexedShunting → Except Shunting.Stuck Shunting → Prop
  | ok {s : IndexedShunting} {s' : Shunting} (means : Means table s s') :
      Agrees table (.ok s) (.ok s')
  | error (cause : Rejection) (released : List Operator) :
      Agrees table (.error ⟨.rejected cause, released⟩) (.error ⟨cause, released⟩)

variable {s : IndexedShunting} {s' : Shunting} {token : IndexedToken}

theorem Agrees.bind {first : Except Stuck IndexedShunting}
    {second : Except Shunting.Stuck Shunting} {f : IndexedShunting → Except Stuck IndexedShunting}
    {g : Shunting → Except Shunting.Stuck Shunting} (both : Agrees table first second)
    (goesOn : ∀ s s', Means table s s' → Agrees table (f s) (g s')) :
    Agrees table (first >>= f) (second >>= g) := by
  cases both with
  | ok means => exact goesOn _ _ means
  | error cause released => exact .error cause released

theorem agrees_releaseFor (op : Operator) {pending output : List IndexedToken}
    {pending' : List Operator} {output' : List Symbol}
    (waiting : List.Forall₂ (Works table) pending pending')
    (placed : List.Forall₂ (Yields table) output output') (released : List Operator) :
    Agrees table (releaseFor table op pending output released)
      (Shunting.releaseFor op pending' output' released) := by
  induction waiting generalizing output output' released with
  | nil => exact .ok ⟨.nil, placed, rfl⟩
  | @cons top other pending pending' works waiting ih =>
      unfold releaseFor Shunting.releaseFor
      rw [works.fetched]
      cases nested : Shunting.nests op other with
      | error cause => simpa only [nested] using .error cause released
      | ok inside =>
          cases inside with
          | true => simpa only [nested] using ih (.cons works.yields placed) (other :: released)
          | false => simpa only [nested] using .ok ⟨.cons works waiting, placed, rfl⟩

theorem Means.release {op : Operator} (means : Means table s s') (works : token.Works table op) :
    Agrees table (s.release table token) (s'.release op) := by
  unfold IndexedShunting.release Shunting.release
  rw [works.fetched, ← means.released]
  exact agrees_releaseFor op means.pending means.output s.released

theorem Means.place {p : Part} (wf : table.WellFormed) (means : Means table s s')
    (stands : (token.lookUp table).Stands table p) :
    Agrees table (s.place table token) (s'.place p.symbol) := by
  have yields : token.Yields table p.symbol := yields_of_stands wf stands
  unfold IndexedShunting.place
  rw [role_of_stands stands]
  cases p with
  | operand term => exact .ok ⟨means.pending, .cons yields means.output, means.released⟩
  | atom name => exact .ok ⟨means.pending, .cons yields means.output, means.released⟩
  | operator f op =>
      have works := works_of_stands wf stands
      have fixity : op.fixity = f := stands.placed wf
      simp only [Part.symbol, Shunting.place, fixity]
      cases f with
      | prefixOp =>
          exact (means.release works).bind fun s s' means =>
            .ok ⟨means.pending, .cons yields means.output, means.released⟩
      | infixOp =>
          exact (means.release works).bind fun s s' means =>
            .ok ⟨.cons works means.pending, means.output, means.released⟩
      | postfixOp => exact .ok ⟨.cons works means.pending, means.output, means.released⟩

theorem Means.run {tokens : List IndexedToken} {ps : List Part} (wf : table.WellFormed)
    (means : Means table s s')
    (stand : List.Forall₂ (fun token p => (token.lookUp table).Stands table p) tokens ps) :
    Agrees table (tokens.foldlM (IndexedShunting.place table) s) (s'.run (ps.map Part.symbol)) := by
  induction stand generalizing s s' with
  | nil => exact .ok means
  | cons stands _ ih => exact (means.place wf stands).bind fun s s' means => ih means

theorem Means.finish (means : Means table s s') :
    List.Forall₂ (Yields table) s.finish s'.finish := by
  rw [IndexedShunting.finish, Shunting.finish_eq]
  refine List.rel_append (List.rel_reverse ?_) means.output
  exact List.forall₂_map_right_iff.2 (means.pending.imp fun _ _ works => works.yields)

theorem Means.moves_eq (means : Means table s s') : s.moves = s'.moves := by
  rw [moves, Shunting.moves, means.released, means.pending.length_eq]

end IndexedShunting

namespace IndexedBuilder

open Builder IndexedToken

theorem buildAll_eq {tokens : List IndexedToken} {symbols : List Symbol}
    (yield : List.Forall₂ (Yields table) tokens symbols) :
    buildAll table tokens = Symbol.buildAll symbols := by
  induction yield with
  | nil => rfl
  | cons yields _ ih =>
      unfold buildAll Symbol.buildAll
      rw [ih]
      exact congrArg _ (funext fun terms => build_eq yields terms)

theorem assemble_eq {tokens : List IndexedToken} {symbols : List Symbol}
    (yield : List.Forall₂ (Yields table) tokens symbols) :
    assemble table tokens = Symbol.assemble symbols := by
  rw [assemble, buildAll_eq yield]
  rfl

theorem stand_of_decided {b : IndexedBuilder} {items : List Item} {ps : List Part}
    (decided : Decided table items (b.lookUp table) ps) :
    List.Forall₂ (fun token p => (token.lookUp table).Stands table p) b.tokens.dropLast
      ps.reverse := by
  obtain ⟨ts, tokens, stand⟩ := decided.stand
  have looked : b.tokens.dropLast.map (·.lookUp table) = ts := by
    rw [List.map_dropLast]
    exact (congrArg List.dropLast tokens).trans List.dropLast_concat
  rw [← looked] at stand
  exact List.forall₂_map_left_iff.1 stand

theorem reduce_lookUp {b : IndexedBuilder} {items : List Item} {ps : List Part}
    (wf : table.WellFormed) (decided : Decided table items (b.lookUp table) ps) :
    b.reduce table = (b.lookUp table).reduce := by
  have start : IndexedShunting.Means table {} {} := ⟨.nil, .nil, rfl⟩
  have agrees := start.run wf (stand_of_decided decided)
  unfold reduce Builder.reduce
  simp only [decided.symbols_eq, ← List.map_reverse]
  generalize b.tokens.dropLast.foldlM (IndexedShunting.place table) {} = ran at agrees
  generalize Shunting.run {} (ps.reverse.map Part.symbol) = ran' at agrees
  cases agrees with
  | error cause released => rfl
  | @ok s s' means =>
      simp only [assemble_eq means.finish, means.released, means.moves_eq]
      cases Symbol.assemble s'.finish <;> rfl

/-- The end of a builder is that of the builder that is looked up. -/
theorem conclude_lookUp {b : IndexedBuilder} (wf : table.WellFormed)
    (sound : Builder.Sound table (b.lookUp table)) :
    b.conclude table = (b.lookUp table).conclude := by
  obtain ⟨items, keeps⟩ := sound
  have both := matches_receive table b .stop
  have stops := keeps.stop wf
  unfold conclude Builder.conclude
  rw [show IndexedToken.stop.lookUp table = Token.stop from rfl] at both
  generalize b.receive table .stop = first at both
  unfold Stops at stops
  generalize (b.lookUp table).receive .stop = second at both stops
  cases both with
  | error e => rfl
  | @ok received received' leads =>
      rcases stops with ⟨token, b', ps, received_eq, decided⟩ | ⟨cause, refused, -⟩
      · cases received_eq
        obtain ⟨-, rfl⟩ := leads
        exact reduce_lookUp wf decided
      · cases refused

/-- The end of a sequence of attempts on a builder of indexed tokens. -/
theorem conclude_attemptAll (reachable : table.Reachable) (calls : List Call) :
    (attemptAll table .empty calls).conclude table =
      (Builder.attemptAll table .empty calls).conclude := by
  have wf := reachable.wellFormed
  have looked := lookUp_attemptAll table .empty calls
  rw [conclude_lookUp wf (looked ▸ Builder.sound_empty.attemptAll wf calls), looked]
  rfl

/-- No call finds a defect: a name with operators has its place in the table, too. -/
theorem attempt_ne_internal (reachable : table.Reachable) (calls : List Call) (call : Call)
    (defect : Defect) :
    ((attemptAll table .empty calls).attempt table call).2 ≠ some (.internal defect) := by
  have wf := reachable.wellFormed
  rw [(lookUp_attempt table _ call).2, lookUp_attemptAll]
  exact (Builder.sound_empty.attemptAll wf calls).attempt_ne_internal wf call defect

/-- The end finds no defect: the tokens are decided, and their places are in the table. -/
theorem conclude_ne_internal (reachable : table.Reachable) (calls : List Call)
    (defect : Defect) :
    ((attemptAll table .empty calls).conclude table).result ≠ .error (.internal defect) := by
  have wf := reachable.wellFormed
  rw [conclude_attemptAll reachable]
  exact (Builder.sound_empty.attemptAll wf calls).finish_ne_internal wf defect

end IndexedBuilder

/-! ## Two tables -/

/-- The names that a call asks the table for. -/
def Call.names : Call → List String
  | .operator name | .operatorApplication name _ => [name]
  | .operand _ | .application _ _ | .group _ => []

theorem Builder.perform_congr {call : Call}
    (agree : ∀ name ∈ call.names, t.find? name = u.find? name) (b : Builder) :
    perform t b call = perform u b call := by
  cases call with
  | operator name => simp only [perform, addOperator, agree name (.head _)]
  | operatorApplication name args =>
      simp only [perform, addOperatorApplication, operatorTerm, agree name (.head _)]
  | _ => rfl

namespace IndexedBuilder

variable {b c : IndexedBuilder}

/-- Builders that stand for the same one give the same answer to a call, and stand for the
same one behind it. -/
theorem attempt_congr {call : Call} (agree : ∀ name ∈ call.names, t.find? name = u.find? name)
    (same : b.lookUp t = c.lookUp u) :
    (b.attempt t call).2 = (c.attempt u call).2 ∧
      (b.attempt t call).1.lookUp t = (c.attempt u call).1.lookUp u := by
  have alike : Builder.attempt t (b.lookUp t) call = Builder.attempt u (c.lookUp u) call := by
    rw [same, Builder.attempt, Builder.attempt, Builder.perform_congr agree]
  obtain ⟨next, answer⟩ := lookUp_attempt t b call
  obtain ⟨next', answer'⟩ := lookUp_attempt u c call
  exact ⟨by rw [answer, answer', alike], by rw [next, next', alike]⟩

theorem answers_congr {calls : List Call}
    (agree : ∀ call ∈ calls, ∀ name ∈ call.names, t.find? name = u.find? name)
    (same : b.lookUp t = c.lookUp u) :
    b.answers t calls = c.answers u calls ∧
      (attemptAll t b calls).lookUp t = (attemptAll u c calls).lookUp u := by
  induction calls generalizing b c with
  | nil => exact ⟨rfl, same⟩
  | cons call rest ih =>
      obtain ⟨answer, next⟩ := attempt_congr (agree call (.head _)) same
      obtain ⟨behind, last⟩ := ih (fun call later => agree call (.tail _ later)) next
      have counted : (b.attempt t call).1.stats = (c.attempt u call).1.stats :=
        congrArg Builder.stats next
      exact ⟨by rw [answers_cons, answers_cons, answer, counted, behind], last⟩

/-- If two tables have the same entries for all names that the calls ask for, then the calls
are answered alike, with the same counters behind each, and lead to the same conclusion.  The
places of the names are of no account, nor are other names. -/
theorem building_eq_of_agree {calls : List Call} (reachable : t.Reachable)
    (reachable' : u.Reachable)
    (agree : ∀ call ∈ calls, ∀ name ∈ call.names, t.find? name = u.find? name) :
    answers t .empty calls = answers u .empty calls ∧
      (attemptAll t .empty calls).conclude t = (attemptAll u .empty calls).conclude u := by
  obtain ⟨answered, same⟩ := answers_congr (b := .empty) (c := .empty) agree rfl
  rw [lookUp_attemptAll, lookUp_attemptAll] at same
  refine ⟨answered, ?_⟩
  rw [conclude_attemptAll reachable, conclude_attemptAll reachable']
  exact congrArg Builder.conclude same

/-- A table of the operator `-` alone. -/
def minusTable : Table :=
  (Table.empty.insert { name := "-", spec := .fy, prec := 200 }).insert
    { name := "-", spec := .yfx, prec := 500 }

theorem reachable_minusTable : minusTable.Reachable :=
  .define { name := "-", spec := .yfx, prec := 500 }
    (.define { name := "-", spec := .fy, prec := 200 } .empty rfl) rfl

/-- `1 - - x` and a name that is no operator: in the standard table `-` has another place. -/
theorem building_minus_elsewhere :
    let calls : List Call :=
      [.operand (.int 1), .operator "-", .operator "foo", .operator "-",
       .operatorApplication "-" [.atom "x"]]
    Table.standard.index? "-" = some 31 ∧ minusTable.index? "-" = some 0 ∧
      (∀ call ∈ calls, ∀ name ∈ call.names,
        Table.standard.find? name = minusTable.find? name) ∧
      answers .standard .empty calls = answers minusTable .empty calls ∧
      (attemptAll .standard .empty calls).conclude .standard =
        (attemptAll minusTable .empty calls).conclude minusTable := by
  intro calls
  have agree : ∀ call ∈ calls, ∀ name ∈ call.names,
      Table.standard.find? name = minusTable.find? name := by decide
  exact ⟨by decide, by decide, agree, building_eq_of_agree .standard reachable_minusTable agree⟩

end IndexedBuilder

end OperatorGrammar
