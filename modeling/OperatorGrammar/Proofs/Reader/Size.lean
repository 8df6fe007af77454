/-
# Proofs.Reader.Size -- a term is as large as the line it is read from

The size of a term is the number of its functors, atoms, variables, numbers, strings and list
cells (`Term.size`).  In a table whose operators embed nothing an operator adds one to the
sizes of its arguments, so a tree stands for a term as large as its items (`Tree.size_eval`),
and so does a builder (`Builder.Took.size_eq`).

Lexemes weigh as much as the term of the expression that they form (`weighs_expression`):
each name, number and string weighs one, and so does a comma, but not where it separates the
arguments of a call.  A term that is read is therefore as large as the lexemes of its line
weigh (`size_of_run`).  A text that was written for a term and weighs less than it, because a
comma of the term has come to separate arguments, is not read as that term
(`Accounts.kept_of_read`).
-/
import OperatorGrammar.Proofs.Builder.Calls
import OperatorGrammar.Proofs.Reader.Soundness
import OperatorGrammar.Proofs.Reader.Writing

namespace OperatorGrammar

set_option autoImplicit false

mutual

/-- The number of names, numbers, strings and list cells of a term. -/
def Term.size : Term → Nat
  | .compound _ args => sizes args + 1
  | .cons head tail => size head + size tail + 1
  | _ => 1

/-- The sizes of some terms in all. -/
def Term.sizes : List Term → Nat
  | [] => 0
  | t :: ts => size t + sizes ts

end

/-- The size of an operand, or one for an operator. -/
def Item.size : Item → Nat
  | .operand term => term.size
  | .operator _ => 1

/-- The sizes of some items in all. -/
def Item.sizes : List Item → Nat
  | [] => 0
  | item :: items => item.size + sizes items

@[simp] theorem Item.sizes_nil : sizes [] = 0 := rfl

@[simp] theorem Item.sizes_cons (item : Item) (items : List Item) :
    sizes (item :: items) = item.size + sizes items := rfl

@[simp] theorem Item.sizes_append (items more : List Item) :
    sizes (items ++ more) = sizes items + sizes more := by
  induction items with
  | nil => simp
  | cons item items ih => simp [ih, Nat.add_assoc]

variable {table : Table} {name : String} {args : List Term} {t term : Term} {op : Operator}

/-! ## Terms that operators and calls build -/

theorem Term.size_application (functor : String) (args : List Term) :
    (application functor args).size = sizes args + 1 := by
  cases args <;> rfl

/-- An operator that embeds nothing adds its name to its arguments. -/
theorem Operator.size_apply (unembedded : op.embed = false) (args : List Term) :
    (op.apply args).size = Term.sizes args + 1 := by
  rw [apply, unembedded]
  exact Term.size_application _ args

theorem Reader.size_callTerm (plain : table.Plain) (name : String) (args : List Term) :
    (callTerm table name args).size = Term.sizes args + 1 := by
  have makes := callTerm_eq_iff.1 (Eq.refl (callTerm table name args))
  generalize callTerm table name args = t at makes ⊢
  cases makes with
  | @operator e op args known form =>
      have unembedded : op.embed = false := by
        have chosen : Layout.form? table name args = some op := by
          rw [Layout.form?_of_plain plain, known]
          exact form
        obtain ⟨-, -, -, -, unembedded⟩ := Layout.form?_eq_some_iff.1 chosen
        exact unembedded
      exact Operator.size_apply unembedded args
  | formless known form => exact Term.size_application name args
  | cell unknown isCell => simp [Term.size, Term.sizes]
  | functor unknown _ => exact Term.size_application name args

/-- A tree stands for a term as large as its items. -/
theorem Tree.size_eval (plain : table.Plain) (t : Tree)
    (isDefined : ∀ p ∈ t.parts, p.IsDefined table) :
    t.eval.size = Item.sizes (t.parts.map Part.item) := by
  have unembedded : ∀ {f : Fixity} {op : Operator}, (Part.operator f op).IsDefined table →
      op.embed = false := fun isDefined => (plain _ (Table.mem_operators_of_isDefined isDefined)).2
  induction t with
  | operand term => simp [eval, parts, Part.item, Item.size]
  | atom name => simp [eval, parts, Part.item, Item.size, Term.size]
  | prefixOp op arg ih =>
      obtain ⟨own, inner⟩ := List.forall_mem_cons.1 isDefined
      rw [eval, Operator.size_apply (unembedded own), Term.sizes, Term.sizes, ih inner]
      simp only [parts, List.map_cons, Part.item, Item.sizes_cons, Item.size]
      omega
  | postfixOp op arg ih =>
      obtain ⟨inner, own⟩ := List.forall_mem_append.1 isDefined
      rw [eval, Operator.size_apply (unembedded (own _ List.mem_cons_self)), Term.sizes,
        Term.sizes, ih inner]
      simp [parts, Part.item, Item.size]
  | infixOp op left right ihLeft ihRight =>
      obtain ⟨before, rest⟩ := List.forall_mem_append.1 isDefined
      obtain ⟨own, behind⟩ := List.forall_mem_cons.1 rest
      rw [eval, Operator.size_apply (unembedded own), Term.sizes, Term.sizes, Term.sizes,
        ihLeft before, ihRight behind]
      simp only [parts, List.map_append, List.map_cons, Part.item, Item.sizes_append,
        Item.sizes_cons, Item.size]
      omega

namespace Builder

/-- The builder took items of this size in all. -/
def Took (table : Table) (b : Builder) (size : Nat) : Prop :=
  ∃ items, Keeps table items b ∧ Item.sizes items = size

variable {b c : Builder} {n : Nat}

theorem took_empty : Took table .empty 0 := ⟨[], keeps_empty, rfl⟩

theorem Took.addItem (wf : table.WellFormed) (took : Took table b n) (item : Item)
    (added : Builder.addItem table b item = .ok c) : Took table c (n + item.size) := by
  obtain ⟨items, keeps, rfl⟩ := took
  rcases keeps.addItem wf item with ⟨c', added', keeps'⟩ | ⟨cause, refused, -⟩
  · rw [added] at added'
    cases added'
    exact ⟨_, keeps', by simp⟩
  · rw [added] at refused
    cases refused

/-- A builder makes a term as large as its items. -/
theorem Took.size_eq (wf : table.WellFormed) (plain : table.Plain) (took : Took table b n)
    (finished : b.finish = .ok term) : term.size = n := by
  obtain ⟨items, keeps, rfl⟩ := took
  rcases keeps.finish wf with ⟨t, built, parse⟩ | ⟨cause, refused⟩
  · rw [finished] at built
    cases built
    rw [t.size_eval plain parse.isDefined, ← parse.items_eq]
    rfl
  · rw [finished] at refused
    cases refused

end Builder

namespace Reader

open Builder

/-! ## The weight of lexemes -/

/-- The weight of a lexeme that starts no call, inside the parentheses of a call if `call`. -/
def weight (call : Bool) : Lexeme → Nat
  | .opening _ | .closing => 0
  | .comma => if call then 0 else 1
  | .word _ | .quoted _ | .str _ => 1

/-- Whether the open parentheses hold arguments, the innermost first, behind a lexeme that
starts no call. -/
def shift (calls : List Bool) : Lexeme → List Bool
  | .opening _ => false :: calls
  | .closing => calls.tail
  | _ => calls

/-- The weight of the rest of a line. -/
def totalWeight : List Bool → List Lexeme → Nat
  | calls, .word _ :: .opening true :: rest => totalWeight (true :: calls) rest + 1
  | calls, .quoted _ :: .opening true :: rest => totalWeight (true :: calls) rest + 1
  | calls, lexeme :: rest =>
      weight (calls.headD false) lexeme + totalWeight (shift calls lexeme) rest
  | _, [] => 0

variable {call : Bool} {calls : List Bool} {lexeme : Lexeme} {lexemes others rest : List Lexeme}
  {n m : Nat}

theorem totalWeight_of_nameOf? (name? : nameOf? lexeme = some name) :
    totalWeight calls (lexeme :: .opening true :: rest) = totalWeight (true :: calls) rest + 1 := by
  cases lexeme with
  | word text | quoted text => rw [totalWeight]
  | _ => cases name?

theorem totalWeight_of_not_called
    (notCalled : (nameOf? lexeme).isSome = true → rest.head? ≠ some (.opening true)) :
    totalWeight calls (lexeme :: rest) =
      weight (calls.headD false) lexeme + totalWeight (shift calls lexeme) rest := by
  rw [totalWeight]
  · rintro name others rfl rfl
    exact notCalled rfl rfl
  · rintro name others rfl rfl
    exact notCalled rfl rfl

/-- In front of others, and inside the parentheses of a call if `call`, the lexemes have this
weight and open as many parentheses as they close. -/
def Weighs (call : Bool) (lexemes : List Lexeme) (n : Nat) : Prop :=
  ∀ calls rest, calls.headD false = call → rest.head? ≠ some (.opening true) →
    totalWeight calls (lexemes ++ rest) = n + totalWeight calls rest

theorem weighs_nil : Weighs call [] 0 := by
  intro calls rest _ _
  simp

theorem Weighs.append (first : Weighs call lexemes n) (second : Weighs call others m)
    (apart : others.head? ≠ some (.opening true)) : Weighs call (lexemes ++ others) (n + m) := by
  intro calls rest inside behind
  rw [List.append_assoc, first calls _ inside (head?_append_ne apart behind),
    second calls rest inside behind]
  omega

/-- A lexeme that opens and closes nothing. -/
theorem Weighs.item (still : ∀ calls, shift calls lexeme = calls)
    (notCalled : (nameOf? lexeme).isSome = true → others.head? ≠ some (.opening true))
    (weighs : Weighs call others n) : Weighs call (lexeme :: others) (weight call lexeme + n) := by
  intro calls rest inside behind
  have notCalled := fun named => head?_append_ne (notCalled named) behind
  rw [List.cons_append, totalWeight_of_not_called notCalled, still, inside,
    weighs calls rest inside behind]
  omega

theorem totalWeight_opening (opened : Bool) :
    totalWeight calls (.opening opened :: rest) = totalWeight (false :: calls) rest := by
  rw [totalWeight_of_not_called (by simp [nameOf?])]
  simp [weight, shift]

theorem totalWeight_closing :
    totalWeight (call :: calls) (.closing :: rest) = totalWeight calls rest := by
  rw [totalWeight_of_not_called (by simp [nameOf?])]
  simp [weight, shift]

theorem Weighs.group (opened : Bool) (inner : Weighs false lexemes n)
    (weighs : Weighs call others m) :
    Weighs call (.opening opened :: lexemes ++ .closing :: others) (n + m) := by
  intro calls rest inside behind
  have split : .opening opened :: lexemes ++ .closing :: others ++ rest =
      .opening opened :: (lexemes ++ .closing :: (others ++ rest)) := by simp
  rw [split, totalWeight_opening, inner _ _ rfl (by simp), totalWeight_closing,
    weighs calls rest inside behind]
  omega

theorem Weighs.application (name? : nameOf? lexeme = some name) (inner : Weighs true lexemes n)
    (weighs : Weighs call others m) :
    Weighs call (lexeme :: .opening true :: lexemes ++ .closing :: others) (n + 1 + m) := by
  intro calls rest inside behind
  have split : lexeme :: .opening true :: lexemes ++ .closing :: others ++ rest =
      lexeme :: .opening true :: (lexemes ++ .closing :: (others ++ rest)) := by simp
  rw [split, totalWeight_of_nameOf? name?, inner _ _ rfl (by simp), totalWeight_closing,
    weighs calls rest inside behind]
  omega

theorem Weighs.separated (first : Weighs true lexemes n) (second : Weighs true others m) :
    Weighs true (lexemes ++ .comma :: others) (n + m) := by
  have behind : Weighs true (.comma :: others) (0 + m) :=
    second.item (fun _ => rfl) (by simp [nameOf?])
  simpa using first.append behind (by simp)

/-! ## Expressions -/

theorem size_ofWord (table : Table) (word : String) : (Item.ofWord table word).size = 1 := by
  unfold Item.ofWord
  split
  · rename_i number written
    unfold Term.number? at written
    split at written
    · cases written
      rfl
    · obtain ⟨real, -, rfl⟩ := Option.map_eq_some_iff.1 written
      rfl
  · split
    · rfl
    · split <;> rfl

theorem size_of_itemOf? {item : Item} (item? : itemOf? table lexeme = some item) (call : Bool) :
    item.size = weight call lexeme ∧ ∀ calls, shift calls lexeme = calls := by
  cases lexeme with
  | word text =>
      cases item?
      exact ⟨size_ofWord table text, fun _ => rfl⟩
  | quoted text | str text =>
      cases item?
      exact ⟨rfl, fun _ => rfl⟩
  | _ => cases item?

mutual

/-- An expression weighs as much as its term is large. -/
theorem weighs_expression (wf : table.WellFormed) (plain : table.Plain) {call : Bool}
    {lexemes : List Lexeme} {t : Term} :
    Expression table call lexemes t → Weighs call lexemes t.size
  | .mk items finished => by
      obtain ⟨n, took, weighs⟩ := weighs_items wf plain items took_empty
      rw [took.size_eq wf plain finished]
      simpa using weighs

theorem weighs_items (wf : table.WellFormed) (plain : table.Plain) {call : Bool} {b c : Builder}
    {lexemes : List Lexeme} :
    Items table call b lexemes c → ∀ {m : Nat}, Took table b m →
      ∃ n, Took table c (m + n) ∧ Weighs call lexemes n
  | .nil, _, took => ⟨0, took, weighs_nil⟩
  | .item item? notCalled added others, _, took => by
      obtain ⟨size_eq, still⟩ := size_of_itemOf? item? call
      obtain ⟨n, took', weighs⟩ := weighs_items wf plain others (took.addItem wf _ added)
      refine ⟨_, ?_, weighs.item still notCalled⟩
      rwa [size_eq, Nat.add_assoc] at took'
  | .comma added others, _, took => by
      obtain ⟨n, took', weighs⟩ :=
        weighs_items wf plain others (took.addItem wf (.operator ",") added)
      refine ⟨_, ?_, Weighs.item (fun _ => rfl) (by simp [nameOf?]) weighs⟩
      simpa [Item.size, weight, Nat.add_assoc] using took'
  | .group group added others, _, took => by
      obtain ⟨n, took', weighs⟩ :=
        weighs_items wf plain others (took.addItem wf (.operand _) added)
      refine ⟨_, ?_, (weighs_expression wf plain group).group _ weighs⟩
      simpa only [Item.size, Nat.add_assoc] using took'
  | .call name? arguments added others, _, took => by
      rw [addCall_eq] at added
      obtain ⟨n, took', weighs⟩ :=
        weighs_items wf plain others (took.addItem wf (.operand _) added)
      refine ⟨_, ?_, (weighs_arguments wf plain arguments).application name? weighs⟩
      simpa only [Item.size, size_callTerm plain, Nat.add_assoc] using took'

theorem weighs_arguments (wf : table.WellFormed) (plain : table.Plain) {lexemes : List Lexeme}
    {args : List Term} : Arguments table lexemes args → Weighs true lexemes (Term.sizes args)
  | .one argument => weighs_expression wf plain argument
  | .more argument others =>
      (weighs_expression wf plain argument).separated (weighs_arguments wf plain others)

end

/-- A term that is read is as large as its line weighs. -/
theorem size_of_run (wf : table.WellFormed) (plain : table.Plain)
    (ran : (run table 1 .empty lexemes).result = .ok t) : t.size = totalWeight [] lexemes := by
  have weighs := weighs_expression wf plain (run_eq_ok_iff.1 ran)
  simpa [totalWeight] using (weighs [] [] rfl (by simp)).symm

/-! ## Texts -/

/-- The text weighs `size` at most, and less unless `kept` holds. -/
def Accounts (call : Bool) (text : String) (size : Nat) (kept : Prop) : Prop :=
  ∃ lexemes n, Spells text lexemes ∧ lexemes.head? ≠ some (.opening true) ∧
    Weighs call lexemes n ∧ n ≤ size ∧ (n = size → kept)

variable {s text : String} {size more : Nat} {kept kept' : Prop}

theorem Accounts.imp (accounts : Accounts call text size kept) (weaker : kept → kept') :
    Accounts call text size kept' := by
  obtain ⟨lexemes, n, spells, apart, weighs, bounded, all⟩ := accounts
  exact ⟨lexemes, n, spells, apart, weighs, bounded, fun full => weaker (all full)⟩

/-- Of a text that is read as a term of this size nothing is missing. -/
theorem Accounts.kept_of_read (wf : table.WellFormed) (plain : table.Plain)
    (accounts : Accounts false text t.size kept) (read : Term.read table text = .ok t) : kept := by
  obtain ⟨lexemes, n, spells, -, weighs, -, all⟩ := accounts
  rw [Term.read, Reading.ofLine, spells.ofLine] at read
  have total_eq := weighs [] [] rfl (by simp)
  rw [List.append_nil, ← size_of_run wf plain read] at total_eq
  exact all (by simpa [totalWeight] using total_eq.symm)

theorem accounts_name (spells : SpellsName s lexeme) (name? : nameOf? lexeme = some name) :
    Accounts call s 1 True := by
  obtain ⟨still, one⟩ : (∀ calls, shift calls lexeme = calls) ∧ weight call lexeme = 1 := by
    cases lexeme with
    | word text | quoted text => exact ⟨fun _ => rfl, rfl⟩
    | _ => cases name?
  have weighs : Weighs call [lexeme] (weight call lexeme + 0) :=
    Weighs.item still (by simp) weighs_nil
  rw [one] at weighs
  refine ⟨[lexeme], 1, spells.spells, ?_, weighs, le_rfl, fun _ => trivial⟩
  rintro ⟨⟩
  cases name?

/-- A comma weighs something where it is an operator. -/
theorem accounts_comma : Accounts call "," 1 (call = false) := by
  have weighs : Weighs call [.comma] (weight call .comma + 0) :=
    Weighs.item (fun _ => rfl) (by simp) weighs_nil
  refine ⟨[.comma], _, spells_comma, by simp, weighs, ?_, ?_⟩
  · cases call <;> simp [weight]
  · cases call <;> simp [weight]

theorem Accounts.beside (first : Accounts call s size kept)
    (second : Accounts call text more kept') :
    Accounts call (s ++ " " ++ text) (size + more) (kept ∧ kept') := by
  obtain ⟨lexemes, n, spells, apart, weighs, bounded, all⟩ := first
  obtain ⟨others, m, spells', apart', weighs', bounded', all'⟩ := second
  refine ⟨_, _, spells.beside spells', head?_append_ne apart apart',
    weighs.append weighs' apart', by omega, fun full => ⟨all (by omega), all' (by omega)⟩⟩

theorem Accounts.parenthesized (inner : Accounts false text size kept) :
    Accounts call ("(" ++ text ++ ")") size kept := by
  obtain ⟨lexemes, n, spells, -, weighs, bounded, all⟩ := inner
  exact ⟨_, n + 0, spells.parenthesized, by simp, weighs.group false weighs_nil, bounded, all⟩

/-- Texts of the arguments with commas between them. -/
theorem accounts_arguments (written : Term → String) (keeps : Term → Prop) (some_arg : args ≠ [])
    (told : ∀ arg ∈ args, Accounts true (written arg) arg.size (keeps arg)) :
    Accounts true (", ".intercalate (args.map written)) (Term.sizes args)
      (∀ arg ∈ args, keeps arg) := by
  induction args with
  | nil => exact absurd rfl some_arg
  | cons arg args ih =>
      obtain ⟨first, others⟩ := List.forall_mem_cons.1 told
      cases args with
      | nil => simpa [Term.sizes] using first
      | cons second args =>
          obtain ⟨lexemes, n, spells, apart, weighs, bounded, all⟩ := first
          obtain ⟨rest, m, spells', apart', weighs', bounded', all'⟩ := ih (by simp) others
          refine ⟨lexemes ++ .comma :: rest, n + m, ?_, head?_append_ne apart (by simp),
            weighs.separated weighs', by rw [Term.sizes]; omega, fun full => ?_⟩
          · have whole := spells.separatedBy spells'
            simpa [String.intercalate_cons_cons] using whole
          · rw [Term.sizes] at full
            exact List.forall_mem_cons.2 ⟨all (by omega), all' (by omega)⟩

theorem accounts_application (call : Bool) (functor : String) (written : Term → String)
    (keeps : Term → Prop) (some_arg : args ≠ [])
    (told : ∀ arg ∈ args, Accounts true (written arg) arg.size (keeps arg)) :
    Accounts call (Term.applicationText functor (args.map written)) (Term.sizes args + 1)
      (∀ arg ∈ args, keeps arg) := by
  obtain ⟨lexemes, n, spells, -, weighs, bounded, all⟩ :=
    accounts_arguments written keeps some_arg told
  obtain ⟨lexeme, name?, spellsName⟩ := exists_name functor
  refine ⟨_, n + 1 + 0, spellsName.application spells, ?_, weighs.application name? weighs_nil,
    by omega, fun full => all (by omega)⟩
  rintro ⟨⟩
  cases name?

end Reader

end OperatorGrammar
