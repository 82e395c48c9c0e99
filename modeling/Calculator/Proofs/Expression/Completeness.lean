import Calculator.Proofs.Expression.Soundness

/-!
The reader finds every phrase of the grammar whose literals are finite, whatever follows, as long as what
follows does not belong to the phrase as well. If the phrase exceeds the limits of reading, it may be
refused for its depth instead: there is nothing else that the reader could find wrong with it.
-/
namespace Calculator

namespace Phrase

/-- Every literal of the phrase is a finite number. -/
def FiniteLiterals (p : Phrase) : Prop :=
  ∀ raw range, ⟨.number raw, range⟩ ∈ p.tokens → (Binary64.ofText raw).isFinite

theorem FiniteLiterals.of_subset {p q : Phrase} (finite : p.FiniteLiterals)
    (subset : q.tokens ⊆ p.tokens) : q.FiniteLiterals :=
  fun raw range member => finite raw range (subset member)

theorem FiniteLiterals.chain {first : Phrase} {more : List Tail}
    (finite : (first.chain more).FiniteLiterals) :
    first.FiniteLiterals ∧ ∀ t ∈ more, t.operand.FiniteLiterals := by
  constructor
  · refine finite.of_subset ?_
    rw [chain_tokens]
    exact List.subset_append_left _ _
  · intro t member
    refine finite.of_subset fun token inside => ?_
    rw [chain_tokens, List.mem_append, Tail.tokens, List.mem_flatMap]
    exact .inr ⟨t, member, List.mem_cons_of_mem _ inside⟩

end Phrase

theorem Items.tokens_inside {items : Items} {p : Phrase} (member : p ∈ items.phrases) :
    p.tokens <:+: items.tokens := by
  induction items with
  | none => simp [phrases] at member
  | last item =>
    obtain rfl : p = item := by simpa [phrases] using member
    exact List.infix_rfl
  | more item comma rest ih =>
    simp only [phrases, List.mem_cons] at member
    rcases member with rfl | later
    · exact (List.prefix_append _ _).isInfix
    · have behind : rest.tokens <:+ item.tokens ++ ⟨.comma, comma⟩ :: rest.tokens :=
        (List.suffix_cons _ _).trans (List.suffix_append _ _)
      exact (ih later).trans behind.isInfix

theorem Ends.stops {level : Nat} {tokens : List Token} (ends : Ends level tokens) :
    Stops level tokens := by
  unfold Stops
  split
  · exact ends
  · trivial

namespace Parser

variable {room : Nat} {operand : Nat → List Token → Reading Expr}

theorem climb_fuel (reads : ReadsPhrases room operand) (stop level : Nat) {f g : Nat} {left : Expr}
    {tokens : List Token} (enough : tokens.length ≤ f) (enough' : tokens.length ≤ g) :
    climb operand stop level f left tokens = climb operand stop level g left tokens := by
  induction f generalizing g left tokens with
  | zero =>
    have empty : tokens = [] := List.length_eq_zero_iff.mp (by omega)
    subst empty
    cases g <;> rfl
  | succ f ih =>
    cases tokens with
    | nil => cases g <;> rfl
    | cons token behind =>
      cases g with
      | zero => simp at enough'
      | succ g =>
        simp only [climb]
        split
        · rename_i op _
          split
          · rfl
          split
          · rfl
          rename_i right after second
          obtain ⟨_, p, _, _, _, span, _⟩ := reads op.rightLevel _ _ _ (by cases op <;> decide) second
          split
          · rfl
          rename_i node _ passed
          obtain ⟨_, _, rfl⟩ := accept_ok_iff.mp passed
          -- no more tokens are left behind the operand than before it, so either fuel is still enough
          have shorter : after.length ≤ behind.length := by
            rw [← span, List.length_append]
            exact Nat.le_add_left _ _
          simp only [List.length_cons] at enough enough'
          exact ih (by omega) (by omega)
        · rfl

theorem climb_stops {stop level fuel : Nat} {left : Expr} {tokens : List Token}
    (stops : Stops level tokens) : climb operand stop level fuel left tokens = .ok (left, tokens) := by
  cases fuel with
  | zero => rfl
  | succ fuel =>
    cases tokens with
    | nil => rfl
    | cons token behind =>
      obtain ⟨lexeme, range⟩ := token
      simp only [climb]
      split
      · simp only [Stops] at stops
        simp [stops]
      · rfl

/-- The wanted result; where something does not fit the limits, the reader may give up for depth. -/
def OrTooDeep {α : Type} (fits : Prop) (result wanted : Reading α) : Prop :=
  result = wanted ∨ ¬ fits ∧ ∃ range, result = .error ⟨.tooDeep, range⟩

namespace OrTooDeep

variable {α : Type} {fits fits' : Prop} {first second third : Reading α}

theorem of_fits (run : OrTooDeep fits first second) (holds : fits) : first = second :=
  run.resolve_right fun deep => deep.1 holds

theorem mono (run : OrTooDeep fits first second) (le : fits' → fits) : OrTooDeep fits' first second :=
  run.imp_right fun deep => ⟨fun holds => deep.1 (le holds), deep.2⟩

theorem trans (before : OrTooDeep fits first second) (behind : OrTooDeep fits second third) :
    OrTooDeep fits first third := by
  rcases before with rfl | deep
  · exact behind
  · exact .inr deep

end OrTooDeep

theorem accept_orTooDeep (stop : Nat) (node : Expr) (rest : List Token) :
    OrTooDeep (node.depth ≤ maxDepth) (accept stop node rest) (.ok (node, rest)) := by
  unfold accept
  split
  · rename_i deep
    exact .inr ⟨Nat.not_le.mpr deep, _, rfl⟩
  · exact .inl rfl

/-- The reader finds the phrase before anything that ends it. -/
def Reads (c : Category) (p : Phrase) : Prop :=
  ∀ stop room level rest, level ≤ c.level → Ends level rest →
    OrTooDeep (p.Within room maxDepth) (expression stop room level (p.tokens ++ rest))
      (.ok (p.tree, rest))

/-- The reader takes the phrase as a left operand and goes on behind it. -/
def Climbs (c : Category) (p : Phrase) : Prop :=
  ∀ stop room level rest, level ≤ c.level → Ends c.level rest →
    OrTooDeep (p.Within (room + 1) maxDepth) (expression stop (room + 1) level (p.tokens ++ rest))
      (climb (expression stop room) stop level rest.length p.tree rest)

theorem reads_of_climbs {c : Category} {p : Phrase} (derives : Derives c p) (climbs : Climbs c p) :
    Reads c p := by
  intro stop room level rest low ends
  cases room with
  | zero =>
    refine .inr ⟨fun within => ?_, _, rfl⟩
    have := derives.nesting_pos
    have := within.nesting
    omega
  | succ room =>
    have found := climbs stop room level rest low (ends.mono low)
    rwa [climb_stops ends.stops] at found

theorem climb_operation (reads : ReadsPhrases room operand) (stop : Nat) {level : Nat}
    (left : Phrase) {right : Phrase} {op : Operator} (range : Span) {rest : List Token}
    (strong : level ≤ op.level)
    (run : OrTooDeep (right.Within room maxDepth) (operand op.rightLevel (right.tokens ++ rest))
      (.ok (right.tree, rest))) :
    OrTooDeep ((left.operation op range right).Within (room + 1) maxDepth)
      (climb operand stop level (⟨.operator op, range⟩ :: (right.tokens ++ rest)).length left.tree
        (⟨.operator op, range⟩ :: (right.tokens ++ rest)))
      (climb operand stop level rest.length (left.operation op range right).tree rest) := by
  have second := run.mono fun within : (left.operation op range right).Within (room + 1) maxDepth =>
    (Phrase.within_operation_iff.mp within).2.1
  have passed := (accept_orTooDeep stop (left.operation op range right).tree rest).mono
    fun within : (left.operation op range right).Within (room + 1) maxDepth => within.depth
  simp only [Phrase.operation] at passed
  simp only [List.length_cons, climb, Nat.not_lt.mpr strong, ↓reduceIte]
  rcases second with run | ⟨beyond, place, run⟩
  · simp only [run]
    rcases passed with passed | ⟨beyond, place, passed⟩
    · simp only [passed]
      exact .inl (climb_fuel reads stop level (by simp) (Nat.le_refl _))
    · exact .inr ⟨beyond, place, by simp only [passed]⟩
  · exact .inr ⟨beyond, place, by simp only [run]⟩

theorem within_of_chain {n d : Nat} {first : Phrase} (more : List Tail)
    (within : (first.chain more).Within (n + 1) d) : first.Within (n + 1) d := by
  induction more generalizing first with
  | nil => exact within
  | cons t rest ih => exact (Phrase.within_operation_iff.mp (ih within)).1

/-- Behind a first operand the operators of a chain are taken one after the other. -/
theorem climb_chain {c d : Category} {stop level : Nat} {left : Phrase} {more : List Tail}
    {rest : List Token} (lower : c.level < d.level) (low : level ≤ c.level)
    (operators : ∀ t ∈ more, t.op.level = c.level ∧ t.op.rightLevel = d.level)
    (operands : ∀ t ∈ more, Reads d t.operand) (ends : Ends c.level rest) :
    OrTooDeep ((left.chain more).Within (room + 1) maxDepth)
      (climb (expression stop room) stop level (Tail.tokens more ++ rest).length left.tree
        (Tail.tokens more ++ rest))
      (climb (expression stop room) stop level rest.length (left.chain more).tree rest) := by
  induction more generalizing left with
  | nil => exact .inl rfl
  | cons t more ih =>
    simp only [List.mem_cons, forall_eq_or_imp] at operators operands
    have behind : Ends d.level (Tail.tokens more ++ rest) :=
      ends_tail lower (fun u member => (operators.2 u member).1) ends
    have run := operands.1 stop room _ _ (Nat.le_of_eq operators.1.2) (operators.1.2 ▸ behind)
    have step := (climb_operation (expression_sound stop room) stop left t.range
      (operators.1.1 ▸ low) run).mono (within_of_chain more)
    have later := @ih (left.operation t.op t.range t.operand) operators.2 operands.2
    rw [← Phrase.chain] at later
    simpa [Tail.tokens, Phrase.chain] using step.trans later

theorem closing_self (lexeme : Lexeme) (range : Span) (rest : List Token) :
    closing? lexeme (⟨lexeme, range⟩ :: rest) = some (range.stop, rest) := by
  simp [closing?]

theorem closing_other {lexeme other : Lexeme} {range : Span} {rest : List Token}
    (different : other ≠ lexeme) : closing? lexeme (⟨other, range⟩ :: rest) = none := by
  simp [closing?, different]

/-- A phrase does not begin with the token that closes the items around it. -/
theorem closing_phrase {c : Category} {p : Phrase} (derives : Derives c p) {closing : Lexeme}
    (closes : ¬ closing.Begins) (rest : List Token) : closing? closing (p.tokens ++ rest) = none := by
  obtain ⟨⟨lexeme, range⟩, behind, span, begins⟩ := derives.begins
  rw [span]
  exact closing_other fun same => closes (same ▸ begins)

theorem phrases_length_le {list : Items} (derives : ∀ p ∈ list.phrases, Derives .expression p) :
    list.phrases.length ≤ list.tokens.length := by
  have nonempty : ∀ p ∈ list.phrases, 1 ≤ p.tokens.length := by
    intro p member
    obtain ⟨token, rest, span, _⟩ := (derives p member).begins
    simp [span]
  clear derives
  induction list with
  | none => simp [Items.phrases]
  | last item => simpa [Items.phrases, Items.tokens] using nonempty
  | more item comma rest ih =>
    have := ih fun p member => nonempty p (by simp [Items.phrases, member])
    simp only [Items.phrases, Items.tokens, List.length_cons, List.length_append]
    omega

theorem items_complete (room stop : Nat) {fuel : Nat} {closing : Lexeme} {list : Items} {range : Span}
    {rest : List Token} (derives : ∀ p ∈ list.phrases, Derives .expression p)
    (back : ∀ p ∈ list.phrases, Reads .expression p) (closes : ¬ closing.Begins)
    (ends : Ends 1 (⟨closing, range⟩ :: rest)) (comma : closing ≠ .comma)
    (enough : list.phrases.length < fuel) :
    OrTooDeep (∀ p ∈ list.phrases, p.Within room maxDepth)
      (items (expression stop room 1) closing fuel (list.tokens ++ ⟨closing, range⟩ :: rest))
      (.ok (list.trees, ⟨closing, range⟩ :: rest)) := by
  induction list generalizing fuel with
  | none =>
    obtain ⟨fuel, rfl⟩ := Nat.exists_eq_add_of_lt enough
    exact .inl (by simp [Items.tokens, Items.trees, Items.phrases, items, closing_self])
  | last item =>
    simp only [Items.phrases, List.mem_singleton, forall_eq, List.length_singleton]
      at derives back enough ⊢
    obtain ⟨fuel, rfl⟩ := Nat.exists_eq_add_of_lt enough
    rcases back stop room 1 _ (Nat.le_refl 1) ends with run | ⟨beyond, place, run⟩
    · exact .inl (by simp [Items.tokens, Items.trees, Items.phrases, items,
        closing_phrase derives closes, run, closing_other comma])
    · exact .inr ⟨beyond, place, by simp [Items.tokens, items, closing_phrase derives closes, run]⟩
  | more item mark tail ih =>
    simp only [Items.phrases, List.mem_cons, forall_eq_or_imp, List.length_cons]
      at derives back enough ⊢
    cases fuel with
    | zero => omega
    | succ fuel =>
      have first := back.1 stop room 1 (⟨.comma, mark⟩ :: (tail.tokens ++ ⟨closing, range⟩ :: rest))
        (Nat.le_refl 1) trivial
      have fewer : tail.phrases.length < fuel := by omega
      rcases first with run | ⟨beyond, place, run⟩
      · rcases ih derives.2 back.2 fewer with later | ⟨beyond, place, later⟩
        · exact .inl (by simp [Items.tokens, Items.trees, Items.phrases, items,
            closing_phrase derives.1 closes, run, closing_self, later])
        · exact .inr ⟨fun within => beyond within.2, place, by
            simp [Items.tokens, items, closing_phrase derives.1 closes, run, closing_self, later]⟩
      · exact .inr ⟨fun within => beyond within.1, place, by
          simp [Items.tokens, items, closing_phrase derives.1 closes, run]⟩

theorem closedItems_complete (room stop : Nat) {closing : Lexeme} (missing : SyntaxCause) {list : Items}
    {range : Span} {rest : List Token} (derives : ∀ p ∈ list.phrases, Derives .expression p)
    (back : ∀ p ∈ list.phrases, Reads .expression p) (closes : ¬ closing.Begins)
    (ends : Ends 1 (⟨closing, range⟩ :: rest)) (comma : closing ≠ .comma) :
    OrTooDeep (∀ p ∈ list.phrases, p.Within room maxDepth)
      (closedItems (expression stop room 1) stop closing missing
        (list.tokens ++ ⟨closing, range⟩ :: rest))
      (.ok ((list.trees, range.stop), rest)) := by
  have enough : list.phrases.length < (list.tokens ++ ⟨closing, range⟩ :: rest).length + 1 := by
    have := phrases_length_le derives
    simp only [List.length_append]
    omega
  rcases items_complete room stop derives back closes ends comma enough with
    run | ⟨beyond, place, run⟩
  · exact .inl (by simp only [closedItems, run, closing_self])
  · exact .inr ⟨beyond, place, by simp only [closedItems, run]⟩

theorem climbs_of_primary {c : Category} {p : Phrase}
    (run : ∀ stop room rest, Ends c.level rest → OrTooDeep (p.Within (room + 1) maxDepth)
      (primary (expression stop room) stop (p.tokens ++ rest)) (.ok (p.tree, rest))) : Climbs c p := by
  intro stop room level rest _ ends
  rcases run stop room rest ends with read | ⟨beyond, place, read⟩
  · exact .inl (by simp [expression, read])
  · exact .inr ⟨beyond, place, by simp [expression, read]⟩

theorem number_climbs (raw : Text) (range : Span) (finite : (Phrase.number raw range).FiniteLiterals) :
    Climbs .primary (.number raw range) := by
  refine climbs_of_primary fun stop room rest _ => .inl ?_
  have literal := finite raw range List.mem_cons_self
  simp [Phrase.number, primary, literal]

theorem name_climbs (text : Text) (range : Span) : Climbs .primary (.name text range) := by
  refine climbs_of_primary fun stop room rest ends => .inl ?_
  have plain : closing? .leftParen rest = none := by
    cases rest with
    | nil => rfl
    | cons token behind =>
      obtain ⟨lexeme, range⟩ := token
      refine closing_other fun same => ?_
      subst same
      exact ends.not_open
  simp [Phrase.name, primary, plain]

theorem group_climbs {p : Phrase} (opening closing : Span) (back : Reads .expression p) :
    Climbs .primary (.group opening closing p) := by
  refine climbs_of_primary fun stop room rest _ => ?_
  have inner := back stop room 1 (⟨.rightParen, closing⟩ :: rest) (Nat.le_refl 1) (ends_paren _ _ _)
  rcases inner.mono Phrase.within_group_iff.mp with run | ⟨beyond, place, run⟩
  · exact .inl (by simp [Phrase.group, primary, run, closing_self])
  · exact .inr ⟨beyond, place, by simp [Phrase.group, primary, run]⟩

theorem call_climbs {args : Items} (text : Text) (range opening closing : Span)
    (derives : ∀ p ∈ args.phrases, Derives .expression p)
    (back : ∀ p ∈ args.phrases, Reads .expression p) :
    Climbs .primary (.call text range opening closing args) := by
  refine climbs_of_primary fun stop room rest _ => ?_
  have inner := closedItems_complete room stop .unclosedArguments derives back
    (by simp [Lexeme.Begins, Lexeme.BeginsPrimary]) (ends_paren 1 closing rest) (by simp)
  have passed := (accept_orTooDeep stop (Phrase.call text range opening closing args).tree rest).mono
    fun within : (Phrase.call text range opening closing args).Within (room + 1) maxDepth => within.depth
  simp only [Phrase.call] at passed
  rcases inner.mono fun within => (Phrase.within_call_iff.mp within).1 with run | ⟨beyond, place, run⟩
  · simpa [Phrase.call, primary, closing_self, run] using passed
  · exact .inr ⟨beyond, place, by simp [Phrase.call, primary, closing_self, run]⟩

theorem list_climbs {elements : Items} (opening closing : Span)
    (derives : ∀ p ∈ elements.phrases, Derives .expression p)
    (back : ∀ p ∈ elements.phrases, Reads .expression p) :
    Climbs .primary (.list opening closing elements) := by
  refine climbs_of_primary fun stop room rest _ => ?_
  have inner := closedItems_complete room stop .unclosedList derives back
    (by simp [Lexeme.Begins, Lexeme.BeginsPrimary]) (ends_bracket 1 closing rest) (by simp)
  have passed := (accept_orTooDeep stop (Phrase.list opening closing elements).tree rest).mono
    fun within : (Phrase.list opening closing elements).Within (room + 1) maxDepth => within.depth
  simp only [Phrase.list] at passed
  rcases inner.mono fun within => (Phrase.within_list_iff.mp within).1 with run | ⟨beyond, place, run⟩
  · simpa [Phrase.list, primary, run] using passed
  · exact .inr ⟨beyond, place, by simp [Phrase.list, primary, run]⟩

theorem signed_climbs {p : Phrase} (negative : Bool) (range : Span) (back : Reads .unary p) :
    Climbs .unary (.signed negative range p) := by
  refine climbs_of_primary fun stop room rest ends => ?_
  have inner := back stop room Operator.signLevel rest (Nat.le_refl 3) ends
  have passed := (accept_orTooDeep stop (Phrase.signed negative range p).tree rest).mono
    fun within : (Phrase.signed negative range p).Within (room + 1) maxDepth => within.depth
  simp only [Phrase.signed] at passed
  rcases inner.mono fun within => (Phrase.within_signed_iff.mp within).1 with run | ⟨beyond, place, run⟩
  · cases negative <;> simpa [Phrase.signed, primary, run] using passed
  · refine .inr ⟨beyond, place, ?_⟩
    cases negative <;> simp [Phrase.signed, primary, run]

theorem power_climbs {base exponent : Phrase} (range : Span) (left : Climbs .primary base)
    (right : Reads .unary exponent) : Climbs .power (base.operation .power range exponent) := by
  intro stop room level rest low ends
  have first := left stop room level (⟨.operator .power, range⟩ :: (exponent.tokens ++ rest))
    (Nat.le_trans low (by decide)) (ends_power _ _)
  have run := right stop room Operator.power.rightLevel rest (Nat.le_refl 3) ends
  have step := climb_operation (expression_sound stop room) stop base range
    (Nat.le_trans low (by decide : Category.power.level ≤ Operator.power.level)) run
  have begin := first.mono
    fun within : (base.operation .power range exponent).Within (room + 1) maxDepth =>
      (Phrase.within_operation_iff.mp within).1
  simpa [Phrase.operation] using begin.trans step

theorem chain_climbs {c d : Category} {first : Phrase} {more : List Tail} (lower : c.level < d.level)
    (operators : ∀ t ∈ more, t.op.level = c.level ∧ t.op.rightLevel = d.level) (head : Climbs d first)
    (operands : ∀ t ∈ more, Reads d t.operand) : Climbs c (first.chain more) := by
  intro stop room level rest low ends
  have begin := head stop room level (Tail.tokens more ++ rest) (Nat.le_trans low (Nat.le_of_lt lower))
    (ends_tail lower (fun t member => (operators t member).1) ends)
  rw [Phrase.chain_tokens, List.append_assoc]
  exact (begin.mono (within_of_chain more)).trans (climb_chain lower low operators operands ends)

theorem climbs {c : Category} {p : Phrase} (derives : Derives c p) (finite : p.FiniteLiterals) :
    Climbs c p := by
  induction derives with
  | expression first more _ operators operands head ih =>
    exact chain_climbs (d := .term) (by decide)
      (fun t member => Operator.sum_level (operators t member)) (head finite.chain.1)
      fun t member => reads_of_climbs (operands t member) (ih t member (finite.chain.2 t member))
  | term first more _ operators operands head ih =>
    exact chain_climbs (d := .unary) (by decide)
      (fun t member => Operator.product_level (operators t member)) (head finite.chain.1)
      fun t member => reads_of_climbs (operands t member) (ih t member (finite.chain.2 t member))
  | signed negative range operand inner ih =>
    have literals := finite.of_subset (List.subset_cons_self _ operand.tokens)
    exact signed_climbs negative range (reads_of_climbs inner (ih literals))
  | unsigned p _ ih => exact ih finite
  | power base range exponent _ right left ih =>
    have first := finite.of_subset (List.subset_append_left base.tokens _)
    have second := finite.of_subset
      (List.subset_append_of_subset_right base.tokens (List.subset_cons_self _ exponent.tokens))
    exact power_climbs range (left first) (reads_of_climbs right (ih second))
  | base p _ ih =>
    intro stop room level rest low ends
    exact ih finite stop room level rest (Nat.le_trans low (by decide)) (ends.mono (by decide))
  | number raw range => exact number_climbs raw range finite
  | name text range => exact name_climbs text range
  | group opening closing p inner ih =>
    have literals : p.FiniteLiterals := finite.of_subset fun token inside => by
      simp [Phrase.group, inside]
    exact group_climbs opening closing (reads_of_climbs inner (ih literals))
  | call text range opening closing args inner ih =>
    have literals : ∀ p ∈ args.phrases, p.FiniteLiterals := fun p member =>
      finite.of_subset fun token inside => by
        simp [Phrase.call, (Items.tokens_inside member).subset inside]
    exact call_climbs text range opening closing inner fun p member =>
      reads_of_climbs (inner p member) (ih p member (literals p member))
  | list opening closing elements inner ih =>
    have literals : ∀ p ∈ elements.phrases, p.FiniteLiterals := fun p member =>
      finite.of_subset fun token inside => by
        simp [Phrase.list, (Items.tokens_inside member).subset inside]
    exact list_climbs opening closing inner fun p member =>
      reads_of_climbs (inner p member) (ih p member (literals p member))

theorem expression_reads {c : Category} {p : Phrase} (derives : Derives c p) (finite : p.FiniteLiterals) :
    Reads c p :=
  reads_of_climbs derives (climbs derives finite)

theorem expression_complete {c : Category} {p : Phrase} (derives : Derives c p) (stop room level : Nat)
    (rest : List Token) (within : p.Within room maxDepth) (low : level ≤ c.level)
    (ends : Ends level rest) : expression stop room level (p.tokens ++ rest) = .ok (p.tree, rest) :=
  (expression_reads derives within.literals stop room level rest low ends).of_fits within

end Parser

end Calculator
