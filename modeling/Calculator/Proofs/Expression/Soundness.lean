import Calculator.Proofs.Expression.Grammar

/-!
Whatever the reader takes from the front of a token list is a phrase of the grammar, within the limits
the reader has, and nothing follows that the reader should have taken as well.
-/
namespace Calculator

/-- The limits on a phrase: finite literals, nesting and the depth of the tree. -/
structure Phrase.Within (nesting depth : Nat) (p : Phrase) : Prop where
  literals : ∀ raw range, ⟨.number raw, range⟩ ∈ p.tokens → (Binary64.ofText raw).isFinite
  nesting : p.nesting ≤ nesting
  depth : p.tree.depth ≤ depth

namespace Items

theorem nesting_le_iff (items : Items) (n : Nat) :
    items.nesting ≤ n ↔ ∀ p ∈ items.phrases, p.nesting ≤ n := by
  induction items with
  | none => simp [nesting, phrases]
  | last item => simp [nesting, phrases]
  | more item comma rest ih =>
    rw [nesting, Nat.max_le, ih]
    simp [phrases]

theorem depthAll_le_iff (items : Items) (d : Nat) :
    Expr.depthAll items.trees ≤ d ↔ ∀ p ∈ items.phrases, p.tree.depth ≤ d := by
  induction items with
  | none => simp [trees, phrases, Expr.depthAll]
  | last item => simp [trees, phrases, Expr.depthAll]
  | more item comma rest ih =>
    rw [trees, phrases, List.map_cons, Expr.depthAll, Nat.max_le, ← trees, ih]
    simp

theorem number_mem_tokens_iff (items : Items) (raw : Text) (range : Span) :
    ⟨.number raw, range⟩ ∈ items.tokens ↔ ∃ p ∈ items.phrases, ⟨.number raw, range⟩ ∈ p.tokens := by
  induction items with
  | none => simp [tokens, phrases]
  | last item => simp [tokens, phrases]
  | more item comma rest ih => simp [tokens, phrases, ih]

end Items

namespace Phrase

theorem within_group_iff {n d : Nat} {opening closing : Span} {p : Phrase} :
    (group opening closing p).Within (n + 1) d ↔ p.Within n d := by
  constructor
  · rintro ⟨literals, nesting, depth⟩
    exact ⟨fun raw range member => literals raw range (by simp [group, member]),
      Nat.le_of_succ_le_succ nesting, depth⟩
  · rintro ⟨literals, nesting, depth⟩
    refine ⟨fun raw range member => literals raw range ?_, Nat.succ_le_succ nesting, depth⟩
    simpa [group] using member

theorem within_signed_iff {n d : Nat} {negative : Bool} {range : Span} {p : Phrase} :
    (signed negative range p).Within (n + 1) d ↔ p.Within n d ∧ 1 + p.tree.depth ≤ d := by
  constructor
  · rintro ⟨literals, nesting, depth⟩
    simp only [signed, Expr.depth] at depth
    exact ⟨⟨fun raw range member => literals raw range (by simp [signed, member]),
      Nat.le_of_succ_le_succ nesting, by omega⟩, depth⟩
  · rintro ⟨⟨literals, nesting, _⟩, depth⟩
    refine ⟨fun raw range member => literals raw range ?_, Nat.succ_le_succ nesting, depth⟩
    simpa [signed] using member

theorem within_operation_iff {n d : Nat} {left right : Phrase} {op : Operator} {range : Span} :
    (left.operation op range right).Within (n + 1) d ↔
      left.Within (n + 1) d ∧ right.Within n d ∧ 1 + max left.tree.depth right.tree.depth ≤ d := by
  constructor
  · rintro ⟨literals, nesting, depth⟩
    simp only [operation, Expr.depth, Nat.max_le, Nat.add_le_add_iff_right] at nesting depth
    exact ⟨⟨fun raw range member => literals raw range (by simp [operation, member]), nesting.1,
        by omega⟩,
      ⟨fun raw range member => literals raw range (by simp [operation, member]), nesting.2,
        by omega⟩, depth⟩
  · rintro ⟨first, second, depth⟩
    refine ⟨fun raw range member => ?_, ?_, depth⟩
    · simp only [operation, List.mem_append, List.mem_cons, Token.mk.injEq, reduceCtorEq, false_and,
        false_or] at member
      exact member.elim (first.literals raw range) (second.literals raw range)
    · exact Nat.max_le.mpr ⟨first.nesting, Nat.succ_le_succ second.nesting⟩

/-- A phrase that encloses items between tokens of its own. -/
theorem within_items_iff {n d : Nat} {p : Phrase} {items : Items}
    (numbers : ∀ raw range, ⟨.number raw, range⟩ ∈ p.tokens ↔ ⟨.number raw, range⟩ ∈ items.tokens)
    (nested : p.nesting = items.nesting + 1)
    (node : p.tree.depth = 1 + Expr.depthAll items.trees) :
    p.Within (n + 1) d ↔
      (∀ q ∈ items.phrases, q.Within n d) ∧ 1 + Expr.depthAll items.trees ≤ d := by
  constructor
  · rintro ⟨literals, nesting, depth⟩
    rw [nested, Nat.add_le_add_iff_right] at nesting
    rw [node] at depth
    refine ⟨fun q member => ⟨fun raw range inside => ?_, ?_, ?_⟩, depth⟩
    · have held := (items.number_mem_tokens_iff raw range).mpr ⟨q, member, inside⟩
      exact literals raw range ((numbers raw range).mpr held)
    · exact (items.nesting_le_iff n).mp nesting q member
    · exact (items.depthAll_le_iff d).mp (by omega) q member
  · rintro ⟨inner, depth⟩
    refine ⟨fun raw range member => ?_, ?_, by omega⟩
    · obtain ⟨q, inItems, inside⟩ :=
        (items.number_mem_tokens_iff raw range).mp ((numbers raw range).mp member)
      exact (inner q inItems).literals raw range inside
    · rw [nested, Nat.add_le_add_iff_right]
      exact (items.nesting_le_iff n).mpr fun q member => (inner q member).nesting

theorem within_call_iff {n d : Nat} {text : Text} {range opening closing : Span} {args : Items} :
    (call text range opening closing args).Within (n + 1) d ↔
      (∀ p ∈ args.phrases, p.Within n d) ∧ 1 + Expr.depthAll args.trees ≤ d :=
  within_items_iff (by simp [call]) rfl rfl

theorem within_list_iff {n d : Nat} {opening closing : Span} {elements : Items} :
    (list opening closing elements).Within (n + 1) d ↔
      (∀ p ∈ elements.phrases, p.Within n d) ∧ 1 + Expr.depthAll elements.trees ≤ d :=
  within_items_iff (by simp [list]) rfl rfl

end Phrase

/-- No operator of at least the given level comes next. -/
def Stops (level : Nat) : List Token → Prop
  | ⟨.operator op, _⟩ :: _ => op.level < level
  | _ => True

theorem Stops.mono {low high : Nat} {tokens : List Token} (stops : Stops low tokens)
    (le : low ≤ high) : Stops high tokens := by
  unfold Stops at stops ⊢
  split
  · exact Nat.lt_of_lt_of_le stops le
  · trivial

def Phrase.EndsInName (p : Phrase) : Prop :=
  ∃ text range, p.tokens.getLast? = some ⟨.name text, range⟩

/-- Nothing that comes next belongs to the phrase: no operator, and behind a name no parenthesis. -/
structure Leaves (level : Nat) (p : Phrase) (rest : List Token) : Prop where
  stops : Stops level rest
  uncalled : p.EndsInName → Parser.closing? .leftParen rest = none

theorem Leaves.of_last {level : Nat} {p q : Phrase} {rest : List Token} (leaves : Leaves level q rest)
    (last : p.tokens.getLast? = q.tokens.getLast?) {low : Nat} (stops : Stops low rest) :
    Leaves low p rest :=
  ⟨stops, fun ends => leaves.uncalled (by rwa [Phrase.EndsInName, ← last])⟩

/-- Behind a closing token, or a number, a parenthesis makes no call. -/
theorem leaves_of_last {level : Nat} {p : Phrase} {rest : List Token} (token : Token)
    (last : p.tokens.getLast? = some token) (other : ∀ text, token.lexeme ≠ .name text)
    (stops : Stops level rest) : Leaves level p rest := by
  refine ⟨stops, ?_⟩
  rintro ⟨text, range, ends⟩
  obtain rfl : token = ⟨.name text, range⟩ := Option.some.inj (last.symm.trans ends)
  exact (other text rfl).elim

/-- A reader takes phrases of the grammar, leaves the tokens behind them and stops where it should. -/
def ReadsPhrases (room : Nat) (operand : Nat → List Token → Parser.Reading Expr) : Prop :=
  ∀ level tokens e rest, level ≤ 3 → operand level tokens = .ok (e, rest) →
    ∃ c p, Derives c p ∧ level ≤ c.level ∧ p.Within room Parser.maxDepth ∧
      p.tokens ++ rest = tokens ∧ p.tree = e ∧ Leaves level p rest

namespace Parser

theorem closing_some {lexeme : Lexeme} {tokens rest : List Token} {last : Nat}
    (found : closing? lexeme tokens = some (last, rest)) :
    ∃ range, tokens = ⟨lexeme, range⟩ :: rest ∧ last = range.stop := by
  cases tokens with
  | nil => simp [closing?] at found
  | cons token tail =>
    simp only [closing?, Option.ite_none_right_eq_some, Option.some.injEq, Prod.mk.injEq] at found
    obtain ⟨same, stop, tail⟩ := found
    exact ⟨token.range, by rw [← same, ← tail], stop.symm⟩

theorem accept_ok_iff {stop : Nat} {node e : Expr} {rest rest' : List Token} :
    accept stop node rest = .ok (e, rest') ↔ node.depth ≤ maxDepth ∧ node = e ∧ rest = rest' := by
  unfold accept
  split
  · rename_i deep
    simp [fail, Nat.not_le.mpr deep]
  · rename_i shallow
    simp [Nat.le_of_not_lt shallow]

variable {room : Nat} {operand : Nat → List Token → Reading Expr}

theorem items_sound (reads : ReadsPhrases room operand) {closing : Lexeme} {fuel : Nat}
    {tokens rest : List Token} {es : List Expr}
    (run : items (operand 1) closing fuel tokens = .ok (es, rest)) :
    ∃ list : Items, (∀ p ∈ list.phrases, Derives .expression p ∧ p.Within room maxDepth) ∧
      list.tokens ++ rest = tokens ∧ list.trees = es := by
  induction fuel generalizing tokens es with
  | zero =>
    simp only [items, Except.ok.injEq, Prod.mk.injEq] at run
    exact ⟨.none, by simp [Items.phrases], run.2.symm, run.1⟩
  | succ fuel ih =>
    simp only [items] at run
    split at run
    · simp only [Except.ok.injEq, Prod.mk.injEq] at run
      exact ⟨.none, by simp [Items.phrases], run.2.symm, run.1⟩
    split at run
    · simp at run
    rename_i item behind first
    obtain ⟨c, p, derives, _, within, span, tree, _⟩ := reads 1 _ _ _ (by decide) first
    have good : Derives .expression p ∧ p.Within room maxDepth := ⟨derives.expression_of, within⟩
    split at run
    · simp only [Except.ok.injEq, Prod.mk.injEq] at run
      obtain ⟨rfl, rfl⟩ := run
      exact ⟨.last p, by simpa [Items.phrases] using good, span,
        by simp [Items.trees, Items.phrases, tree]⟩
    · rename_i comma after found
      obtain ⟨range, rfl, _⟩ := closing_some found
      split at run
      · simp at run
      rename_i more _ second
      simp only [Except.ok.injEq, Prod.mk.injEq] at run
      obtain ⟨rfl, rfl⟩ := run
      obtain ⟨list, all, span', trees⟩ := ih second
      refine ⟨.more p range list, ?_, ?_, ?_⟩
      · simpa [Items.phrases] using ⟨good, all⟩
      · rw [← span, ← span']
        simp [Items.tokens]
      · simpa [Items.trees, Items.phrases, tree] using trees

theorem closedItems_sound (reads : ReadsPhrases room operand) {stop last : Nat} {closing : Lexeme}
    {missing : SyntaxCause} {tokens rest : List Token} {es : List Expr}
    (run : closedItems (operand 1) stop closing missing tokens = .ok ((es, last), rest)) :
    ∃ (list : Items) (range : Span),
      (∀ p ∈ list.phrases, Derives .expression p ∧ p.Within room maxDepth) ∧
      list.tokens ++ ⟨closing, range⟩ :: rest = tokens ∧ list.trees = es ∧ last = range.stop := by
  simp only [closedItems] at run
  split at run
  · simp at run
  rename_i elements behind inner
  obtain ⟨list, all, span, trees⟩ := items_sound reads inner
  split at run
  · simp [fail] at run
  rename_i found
  simp only [Except.ok.injEq, Prod.mk.injEq] at run
  obtain ⟨⟨rfl, rfl⟩, rfl⟩ := run
  obtain ⟨range, rfl, rfl⟩ := closing_some found
  exact ⟨list, range, all, span, trees, rfl⟩

theorem number_within {raw : Text} {range : Span} {n : Nat}
    (finite : (Binary64.ofText raw).isFinite) : (Phrase.number raw range).Within (n + 1) maxDepth := by
  refine ⟨fun other place member => ?_, Nat.le_add_left 1 n, (by decide : 1 ≤ maxDepth)⟩
  simp only [Phrase.number, List.mem_singleton, Token.mk.injEq, Lexeme.number.injEq] at member
  rw [member.1]
  exact finite

theorem name_within {text : Text} {range : Span} {n : Nat} :
    (Phrase.name text range).Within (n + 1) maxDepth :=
  ⟨by simp [Phrase.name], Nat.le_add_left 1 n, (by decide : 1 ≤ maxDepth)⟩

theorem signed_last {c : Category} {p : Phrase} (derives : Derives c p) (negative : Bool)
    (range : Span) : (Phrase.signed negative range p).tokens.getLast? = p.tokens.getLast? := by
  obtain ⟨token, rest, span, _⟩ := derives.begins
  simp [Phrase.signed, span, List.getLast?_cons]

theorem operation_last {c : Category} (left : Phrase) {right : Phrase} (derives : Derives c right)
    (op : Operator) (range : Span) : (left.operation op range right).tokens.getLast? = right.tokens.getLast? := by
  obtain ⟨token, rest, span, _⟩ := derives.begins
  simp [Phrase.operation, span, List.getLast?_cons]

/-- What a signed operand leaves behind begins with no power sign. -/
theorem signed_sound (reads : ReadsPhrases room operand) (negative : Bool) {range : Span}
    {stop : Nat} {tokens rest rest' : List Token} {inner e : Expr}
    (run : operand Operator.signLevel tokens = .ok (inner, rest))
    (passed : accept stop (.unary (if negative then .minus else .plus) inner
      ⟨range.start, inner.range.stop⟩) rest = .ok (e, rest')) :
    ∃ c p, Derives c p ∧ 3 ≤ c.level ∧ p.Within (room + 1) maxDepth ∧
      p.tokens ++ rest' = ⟨.operator (if negative then .minus else .plus), range⟩ :: tokens ∧
      p.tree = e ∧ Leaves (c.level + 1) p rest' := by
  obtain ⟨shallow, rfl, rfl⟩ := accept_ok_iff.mp passed
  obtain ⟨c, p, derives, high, within, rfl, rfl, leaves⟩ :=
    reads Operator.signLevel _ _ _ (by decide) run
  refine ⟨.unary, .signed negative range p, .signed negative range p (derives.unary_of high),
    by decide, Phrase.within_signed_iff.mpr ⟨within, ?_⟩, by simp [Phrase.signed], rfl, ?_⟩
  · simpa [Expr.depth] using shallow
  · exact leaves.of_last (signed_last derives negative range) (leaves.stops.mono (by decide))

theorem stops_primary (tokens : List Token) : Stops (Category.primary.level + 1) tokens := by
  unfold Stops
  split
  · rename_i op _ _
    cases op <;> decide
  · trivial

theorem primary_sound (reads : ReadsPhrases room operand) {stop : Nat} {tokens rest : List Token}
    {e : Expr} (run : primary operand stop tokens = .ok (e, rest)) :
    ∃ c p, Derives c p ∧ 3 ≤ c.level ∧ p.Within (room + 1) maxDepth ∧ p.tokens ++ rest = tokens ∧
      p.tree = e ∧ Leaves (c.level + 1) p rest := by
  unfold primary at run
  split at run
  · simp [fail] at run
  · rename_i raw range behind
    split at run
    · rename_i finite
      simp only [Except.ok.injEq, Prod.mk.injEq] at run
      obtain ⟨rfl, rfl⟩ := run
      exact ⟨.primary, .number raw range, .number raw range, by decide, number_within finite, rfl, rfl,
        leaves_of_last _ rfl (by simp) (stops_primary _)⟩
    · simp at run
  · rename_i text range behind
    split at run
    · rename_i uncalled
      simp only [Except.ok.injEq, Prod.mk.injEq] at run
      obtain ⟨rfl, rfl⟩ := run
      exact ⟨.primary, .name text range, .name text range, by decide, name_within, rfl, rfl,
        stops_primary _, fun _ => uncalled⟩
    · rename_i inner found
      obtain ⟨opening, rfl, _⟩ := closing_some found
      split at run
      · simp at run
      rename_i args last after closed
      obtain ⟨shallow, rfl, rfl⟩ := accept_ok_iff.mp run
      obtain ⟨list, closing, all, rfl, rfl, rfl⟩ := closedItems_sound reads closed
      refine ⟨.primary, .call text range opening closing list,
        .call text range opening closing list fun p member => (all p member).1, by decide,
        Phrase.within_call_iff.mpr ⟨fun p member => (all p member).2, ?_⟩, by simp [Phrase.call], rfl,
        leaves_of_last ⟨.rightParen, closing⟩ (by simp [Phrase.call, List.getLast?_cons])
          (by simp) (stops_primary _)⟩
      simpa [Expr.depth] using shallow
  · rename_i opening behind
    split at run
    · simp at run
    rename_i inner after first
    obtain ⟨c, p, derives, _, within, rfl, rfl, _⟩ := reads 1 _ _ _ (by decide) first
    split at run
    · simp [fail] at run
    rename_i found
    simp only [Except.ok.injEq, Prod.mk.injEq] at run
    obtain ⟨rfl, rfl⟩ := run
    obtain ⟨closing, rfl, _⟩ := closing_some found
    exact ⟨.primary, .group opening closing p, .group opening closing p derives.expression_of,
      by decide, Phrase.within_group_iff.mpr within, by simp [Phrase.group], rfl,
      leaves_of_last ⟨.rightParen, closing⟩ (by simp [Phrase.group, List.getLast?_cons])
        (by simp) (stops_primary _)⟩
  · rename_i opening behind
    split at run
    · simp at run
    rename_i elements last after closed
    obtain ⟨shallow, rfl, rfl⟩ := accept_ok_iff.mp run
    obtain ⟨list, closing, all, rfl, rfl, rfl⟩ := closedItems_sound reads closed
    refine ⟨.primary, .list opening closing list,
      .list opening closing list fun p member => (all p member).1, by decide,
      Phrase.within_list_iff.mpr ⟨fun p member => (all p member).2, ?_⟩, by simp [Phrase.list], rfl,
      leaves_of_last ⟨.rightBracket, closing⟩ (by simp [Phrase.list, List.getLast?_cons])
        (by simp) (stops_primary _)⟩
    simpa [Expr.depth] using shallow
  · split at run
    · simp at run
    rename_i first
    exact signed_sound reads true first run
  · split at run
    · simp at run
    rename_i first
    exact signed_sound reads false first run
  · simp at run

/-- What an operator makes of two phrases; only a primary may stand before a power sign. -/
theorem derives_operation {c d : Category} {left right : Phrase} {op : Operator} (range : Span)
    (first : Derives c left) (low : op.level ≤ c.level) (second : Derives d right)
    (high : op.rightLevel ≤ d.level) :
    ∃ c', Derives c' (left.operation op range right) ∧ min op.level 3 ≤ c'.level ∧
      op.rightLevel ≤ c'.level + 1 := by
  have sum : ∀ op ∈ Operator.sums, 2 ≤ d.level →
      Derives .expression (left.operation op range right) := fun op operator high =>
    first.expression_of.sum range operator (second.term_of high)
  have product : ∀ op ∈ Operator.products, 2 ≤ c.level → 3 ≤ d.level →
      Derives .term (left.operation op range right) := fun op operator low high =>
    (first.term_of low).product range operator (second.unary_of high)
  cases op with
  | plus => exact ⟨_, sum _ (by decide) high, by decide, by decide⟩
  | minus => exact ⟨_, sum _ (by decide) high, by decide, by decide⟩
  | times => exact ⟨_, product _ (by decide) low high, by decide, by decide⟩
  | divide => exact ⟨_, product _ (by decide) low high, by decide, by decide⟩
  | modulo => exact ⟨_, product _ (by decide) low high, by decide, by decide⟩
  | floorDivide => exact ⟨_, product _ (by decide) low high, by decide, by decide⟩
  | power =>
    exact ⟨_, .power left range right (first.primary_of low) (second.unary_of high), by decide,
      by decide⟩

theorem climb_sound (reads : ReadsPhrases room operand) {stop level fuel : Nat} {left : Phrase}
    {c : Category} {tokens rest : List Token} {e : Expr} (small : level ≤ 3)
    (derives : Derives c left) (low : level ≤ c.level) (within : left.Within (room + 1) maxDepth)
    (leaves : Leaves (c.level + 1) left tokens) (enough : tokens.length ≤ fuel)
    (run : climb operand stop level fuel left.tree tokens = .ok (e, rest)) :
    ∃ c p, Derives c p ∧ level ≤ c.level ∧ p.Within (room + 1) maxDepth ∧
      p.tokens ++ rest = left.tokens ++ tokens ∧ p.tree = e ∧ Leaves level p rest := by
  induction fuel generalizing left c tokens with
  | zero =>
    have empty : tokens = [] := List.length_eq_zero_iff.mp (by omega)
    subst empty
    simp only [climb, Except.ok.injEq, Prod.mk.injEq] at run
    obtain ⟨rfl, rfl⟩ := run
    exact ⟨c, left, derives, low, within, rfl, rfl, leaves.of_last rfl trivial⟩
  | succ fuel ih =>
    cases tokens with
    | nil =>
      simp only [climb, Except.ok.injEq, Prod.mk.injEq] at run
      obtain ⟨rfl, rfl⟩ := run
      exact ⟨c, left, derives, low, within, rfl, rfl, leaves.of_last rfl trivial⟩
    | cons token behind =>
      obtain ⟨lexeme, range⟩ := token
      simp only [climb] at run
      split at run
      · rename_i op
        split at run
        · rename_i weak
          simp only [Except.ok.injEq, Prod.mk.injEq] at run
          obtain ⟨rfl, rfl⟩ := run
          exact ⟨c, left, derives, low, within, rfl, rfl, leaves.of_last rfl weak⟩
        rename_i strong
        split at run
        · simp at run
        rename_i right after second
        obtain ⟨d, p, derives', high, within', rfl, rfl, leaves'⟩ :=
          reads op.rightLevel _ _ _ (by cases op <;> decide) second
        split at run
        · simp at run
        rename_i node _ passed
        obtain ⟨shallow, rfl, rfl⟩ := accept_ok_iff.mp passed
        obtain ⟨c', whole, low', bound⟩ := derives_operation range derives
          (Nat.le_of_lt_succ leaves.stops) derives' high
        have within'' : (left.operation op range p).Within (room + 1) maxDepth :=
          Phrase.within_operation_iff.mpr ⟨within, within', by simpa [Expr.depth] using shallow⟩
        have behind := leaves'.of_last (operation_last left derives' op range) (leaves'.stops.mono bound)
        obtain ⟨c'', q, derives'', high'', fits, span, tree, leaves''⟩ :=
          ih whole (by omega) within'' behind
            (by simp only [List.length_cons, List.length_append] at enough; omega) run
        exact ⟨c'', q, derives'', high'', fits, by simpa [Phrase.operation] using span, tree, leaves''⟩
      · rename_i other
        simp only [Except.ok.injEq, Prod.mk.injEq] at run
        obtain ⟨rfl, rfl⟩ := run
        refine ⟨c, left, derives, low, within, rfl, rfl, leaves.of_last rfl ?_⟩
        unfold Stops
        split
        · rename_i op _ _ same
          simp only [List.cons.injEq, Token.mk.injEq] at same
          exact (other op same.1.1).elim
        · trivial

theorem expression_sound (stop room : Nat) : ReadsPhrases room (expression stop room) := by
  induction room with
  | zero =>
    intro level tokens e rest _ run
    simp [expression, fail] at run
  | succ room ih =>
    intro level tokens e rest small run
    simp only [expression] at run
    split at run
    · simp at run
    rename_i left behind first
    obtain ⟨c, p, derives, high, within, rfl, rfl, leaves⟩ := primary_sound ih first
    exact climb_sound ih small derives (by omega) within leaves (Nat.le_refl _) run

end Parser

end Calculator
