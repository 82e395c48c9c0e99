import Calculator.Proofs.Expression.Grammar

/-!
A token list is the span of one phrase at most. Two phrases of one category that begin alike, and are
each followed by nothing they would draw in, are the same phrase and are followed by the same tokens.
-/
namespace Calculator

/-- Whatever phrase of the category begins the same tokens is this one. -/
def Splits (c : Category) (p : Phrase) : Prop :=
  ∀ q rest rest', Derives c q → Ends c.level rest → Ends c.level rest' →
    p.tokens ++ rest = q.tokens ++ rest' → p = q ∧ rest = rest'

theorem Derives.not_closing {c : Category} {p : Phrase} (derives : Derives c p) {lexeme : Lexeme}
    (closes : ¬ lexeme.Begins) {range : Span} {rest rest' : List Token} :
    ⟨lexeme, range⟩ :: rest ≠ p.tokens ++ rest' := by
  obtain ⟨token, tail, span, begins⟩ := derives.begins
  intro same
  simp only [span, List.cons_append, List.cons.injEq] at same
  exact closes (by rw [← same.1] at begins; exact begins)

theorem not_power_sign {rest : List Token} {level : Nat} (low : level ≤ 4) {range : Span}
    (ends : Ends level (⟨.operator .power, range⟩ :: rest)) : False := by
  simp only [Ends, Operator.level] at ends
  omega

theorem tails_split {c d : Category} (lower : c.level < d.level) {more more' : List Tail}
    {rest rest' : List Token} (operators : ∀ t ∈ more, t.op.level = c.level)
    (operators' : ∀ t ∈ more', t.op.level = c.level) (operands : ∀ t ∈ more, Splits d t.operand)
    (derives : ∀ t ∈ more', Derives d t.operand) (ends : Ends c.level rest) (ends' : Ends c.level rest')
    (same : Tail.tokens more ++ rest = Tail.tokens more' ++ rest') : more = more' ∧ rest = rest' := by
  induction more generalizing more' with
  | nil =>
    cases more' with
    | nil => exact ⟨rfl, same⟩
    | cons t more' =>
      have weak : Ends c.level (Tail.tokens (t :: more') ++ rest') := by
        rw [← same]
        exact ends
      exact absurd (operators' t (by simp)) (Nat.ne_of_lt weak)
  | cons t more ih =>
    cases more' with
    | nil =>
      have weak : Ends c.level (Tail.tokens (t :: more) ++ rest) := by
        rw [same]
        exact ends'
      exact absurd (operators t (by simp)) (Nat.ne_of_lt weak)
    | cons u more' =>
      simp only [List.mem_cons, forall_eq_or_imp] at operators operators' operands derives
      simp only [Tail.tokens, List.flatMap_cons, List.cons_append, List.append_assoc, List.cons.injEq,
        Token.mk.injEq, Lexeme.operator.injEq] at same
      obtain ⟨⟨op, range⟩, behind⟩ := same
      obtain ⟨operand, tail⟩ := operands.1 u.operand _ _ derives.1
        (ends_tail lower operators.2 ends) (ends_tail lower operators'.2 ends') behind
      obtain ⟨rfl, rfl⟩ := ih operators.2 operators'.2 operands.2 derives.2 tail
      refine ⟨?_, rfl⟩
      cases t; cases u
      simp_all

theorem chains_split {c d : Category} (lower : c.level < d.level) {first first' : Phrase}
    {more more' : List Tail} {rest rest' : List Token} (head : Splits d first)
    (derived : Derives d first') (operators : ∀ t ∈ more, t.op.level = c.level)
    (operators' : ∀ t ∈ more', t.op.level = c.level) (operands : ∀ t ∈ more, Splits d t.operand)
    (derives : ∀ t ∈ more', Derives d t.operand) (ends : Ends c.level rest) (ends' : Ends c.level rest')
    (same : (first.chain more).tokens ++ rest = (first'.chain more').tokens ++ rest') :
    first.chain more = first'.chain more' ∧ rest = rest' := by
  simp only [Phrase.chain_tokens, List.append_assoc] at same
  obtain ⟨rfl, behind⟩ := head first' _ _ derived (ends_tail lower operators ends)
    (ends_tail lower operators' ends') same
  obtain ⟨rfl, rfl⟩ := tails_split lower operators operators' operands derives ends ends' behind
  exact ⟨rfl, rfl⟩

theorem items_split {list list' : Items} {closing : Lexeme} {range range' : Span}
    {rest rest' : List Token} (closes : ¬ closing.Begins) (comma : closing ≠ .comma)
    (ends : ∀ range rest, Ends 1 (⟨closing, range⟩ :: rest))
    (splits : ∀ p ∈ list.phrases, Derives .expression p ∧ Splits .expression p)
    (derives : ∀ p ∈ list'.phrases, Derives .expression p)
    (same : list.tokens ++ ⟨closing, range⟩ :: rest = list'.tokens ++ ⟨closing, range'⟩ :: rest') :
    list = list' ∧ range = range' ∧ rest = rest' := by
  induction list generalizing list' with
  | none =>
    cases list' with
    | none => simpa [Items.tokens] using same
    | last q => exact ((derives q (by simp [Items.phrases])).not_closing closes same).elim
    | more q mark tail =>
      simp only [Items.tokens, List.append_assoc] at same
      exact ((derives q (by simp [Items.phrases])).not_closing closes same).elim
  | last p =>
    have good := splits p (by simp [Items.phrases])
    cases list' with
    | none => exact (good.1.not_closing closes same.symm).elim
    | last q =>
      obtain ⟨rfl, behind⟩ := good.2 q _ _ (derives q (by simp [Items.phrases])) (ends _ _)
        (ends _ _) same
      simpa using behind
    | more q mark tail =>
      simp only [Items.tokens, List.append_assoc] at same
      obtain ⟨_, behind⟩ := good.2 q _ _ (derives q (by simp [Items.phrases])) (ends _ _)
        (ends_comma _ _ _) same
      simp [comma] at behind
  | more p mark tail ih =>
    have good := splits p (by simp [Items.phrases])
    simp only [Items.tokens, List.append_assoc] at same
    cases list' with
    | none => exact (good.1.not_closing closes same.symm).elim
    | last q =>
      obtain ⟨_, behind⟩ := good.2 q _ _ (derives q (by simp [Items.phrases])) (ends_comma _ _ _)
        (ends _ _) same
      simp [comma.symm] at behind
    | more q mark' tail' =>
      simp only [Items.tokens, List.append_assoc] at same
      obtain ⟨rfl, behind⟩ := good.2 q _ _ (derives q (by simp [Items.phrases])) (ends_comma _ _ _)
        (ends_comma _ _ _) same
      simp only [List.cons.injEq, Token.mk.injEq, true_and] at behind
      obtain ⟨rfl, behind⟩ := behind
      obtain ⟨rfl, rfl, rfl⟩ := ih (fun r member => splits r (by simp [Items.phrases, member]))
        (fun r member => derives r (by simp [Items.phrases, member])) behind
      exact ⟨rfl, rfl, rfl⟩

theorem number_splits (raw : Text) (range : Span) : Splits .primary (.number raw range) := by
  intro q rest rest' second _ _ same
  cases second with
  | number raw' range' =>
    simp only [Phrase.number, List.cons_append, List.nil_append, List.cons.injEq, Token.mk.injEq,
      Lexeme.number.injEq] at same
    obtain ⟨⟨rfl, rfl⟩, rfl⟩ := same
    exact ⟨rfl, rfl⟩
  | _ => simp [Phrase.number, Phrase.name, Phrase.group, Phrase.call, Phrase.list] at same

theorem name_splits (text : Text) (range : Span) : Splits .primary (.name text range) := by
  intro q rest rest' second ends _ same
  cases second with
  | name text' range' =>
    simp only [Phrase.name, List.cons_append, List.nil_append, List.cons.injEq, Token.mk.injEq,
      Lexeme.name.injEq] at same
    obtain ⟨⟨rfl, rfl⟩, rfl⟩ := same
    exact ⟨rfl, rfl⟩
  | call text' range' opening closing args inner =>
    simp only [Phrase.name, Phrase.call, List.cons_append, List.nil_append, List.cons.injEq] at same
    rw [same.2] at ends
    exact ends.not_open.elim
  | _ => simp [Phrase.number, Phrase.name, Phrase.group, Phrase.list] at same

theorem group_splits {p : Phrase} (opening closing : Span) (splits : Splits .expression p) :
    Splits .primary (.group opening closing p) := by
  intro q rest rest' second _ _ same
  cases second with
  | group opening' closing' p' inner =>
    simp only [Phrase.group, List.cons_append, List.append_assoc, List.nil_append, List.cons.injEq,
      Token.mk.injEq, true_and] at same
    obtain ⟨rfl, behind⟩ := same
    obtain ⟨rfl, tail⟩ := splits p' _ _ inner (ends_paren _ _ _) (ends_paren _ _ _) behind
    simp only [List.cons.injEq, Token.mk.injEq, true_and] at tail
    obtain ⟨rfl, rfl⟩ := tail
    exact ⟨rfl, rfl⟩
  | _ => simp [Phrase.number, Phrase.name, Phrase.group, Phrase.call, Phrase.list] at same

theorem call_splits {args : Items} (text : Text) (range opening closing : Span)
    (splits : ∀ p ∈ args.phrases, Derives .expression p ∧ Splits .expression p) :
    Splits .primary (.call text range opening closing args) := by
  intro q rest rest' second _ ends' same
  cases second with
  | name text' range' =>
    simp only [Phrase.name, Phrase.call, List.cons_append, List.nil_append, List.cons.injEq] at same
    rw [← same.2] at ends'
    exact ends'.not_open.elim
  | call text' range' opening' closing' args' inner =>
    simp only [Phrase.call, List.cons_append, List.append_assoc, List.nil_append, List.cons.injEq,
      Token.mk.injEq, Lexeme.name.injEq, true_and] at same
    obtain ⟨⟨rfl, rfl⟩, rfl, behind⟩ := same
    obtain ⟨rfl, rfl, rfl⟩ := items_split (by simp [Lexeme.Begins, Lexeme.BeginsPrimary]) (by simp)
      (ends_paren 1) splits inner behind
    exact ⟨rfl, rfl⟩
  | _ => simp [Phrase.number, Phrase.group, Phrase.call, Phrase.list] at same

theorem list_splits {elements : Items} (opening closing : Span)
    (splits : ∀ p ∈ elements.phrases, Derives .expression p ∧ Splits .expression p) :
    Splits .primary (.list opening closing elements) := by
  intro q rest rest' second _ _ same
  cases second with
  | list opening' closing' elements' inner =>
    simp only [Phrase.list, List.cons_append, List.append_assoc, List.nil_append, List.cons.injEq,
      Token.mk.injEq, true_and] at same
    obtain ⟨rfl, behind⟩ := same
    obtain ⟨rfl, rfl, rfl⟩ := items_split (by simp [Lexeme.Begins, Lexeme.BeginsPrimary]) (by simp)
      (ends_bracket 1) splits inner behind
    exact ⟨rfl, rfl⟩
  | _ => simp [Phrase.number, Phrase.name, Phrase.group, Phrase.call, Phrase.list] at same

theorem power_splits {base exponent : Phrase} (range : Span) (left : Splits .primary base)
    (right : Splits .unary exponent) :
    Splits .power (base.operation .power range exponent) := by
  intro q rest rest' second ends ends' same
  simp only [Phrase.operation, List.append_assoc, List.cons_append] at same
  cases second with
  | power base' range' exponent' left' right' =>
    simp only [Phrase.operation, List.append_assoc, List.cons_append] at same
    obtain ⟨rfl, behind⟩ := left base' _ _ left' (ends_power _ _) (ends_power _ _) same
    simp only [List.cons.injEq, Token.mk.injEq, true_and] at behind
    obtain ⟨rfl, tail⟩ := behind
    obtain ⟨rfl, rfl⟩ := right exponent' _ _ right' ends ends' tail
    exact ⟨rfl, rfl⟩
  | base _ inner =>
    obtain ⟨_, behind⟩ := left q _ _ inner (ends_power _ _) (ends'.mono (by decide)) same
    rw [← behind] at ends'
    exact (not_power_sign (by decide) ends').elim

theorem base_splits {p : Phrase} (splits : Splits .primary p) : Splits .power p := by
  intro q rest rest' second ends ends' same
  cases second with
  | power base range exponent left right =>
    simp only [Phrase.operation, List.append_assoc, List.cons_append] at same
    obtain ⟨_, behind⟩ := splits base _ _ left (ends.mono (by decide))
      (ends_power _ _) same
    rw [behind] at ends
    exact (not_power_sign (by decide) ends).elim
  | base _ inner => exact splits q rest rest' inner (ends.mono (by decide)) (ends'.mono (by decide)) same

theorem signed_ne_power {p : Phrase} (derives : Derives .power p) (negative : Bool) (range : Span)
    (operand : Phrase) (rest rest' : List Token) :
    (Phrase.signed negative range operand).tokens ++ rest ≠ p.tokens ++ rest' := by
  obtain ⟨token, tail, span, begins⟩ := derives.power_begins
  intro same
  simp only [Phrase.signed, span, List.cons_append, List.cons.injEq] at same
  rw [← same.1] at begins
  exact begins

theorem signed_splits {p : Phrase} (negative : Bool) (range : Span) (splits : Splits .unary p) :
    Splits .unary (.signed negative range p) := by
  intro q rest rest' second ends ends' same
  cases second with
  | signed negative' range' operand inner =>
    simp only [Phrase.signed, List.cons_append, List.cons.injEq, Token.mk.injEq,
      Lexeme.operator.injEq] at same
    obtain ⟨⟨sign, rfl⟩, behind⟩ := same
    obtain rfl : negative = negative' := by cases negative <;> cases negative' <;> simp_all
    obtain ⟨rfl, rfl⟩ := splits operand _ _ inner ends ends' behind
    exact ⟨rfl, rfl⟩
  | unsigned _ inner => exact (signed_ne_power inner negative range p rest rest' same).elim

theorem unsigned_splits {p : Phrase} (derives : Derives .power p) (splits : Splits .power p) :
    Splits .unary p := by
  intro q rest rest' second ends ends' same
  cases second with
  | signed negative range operand inner =>
    exact (signed_ne_power derives negative range operand rest' rest same.symm).elim
  | unsigned _ inner => exact splits q rest rest' inner ends ends' same

theorem Derives.splits {c : Category} {p : Phrase} (derives : Derives c p) : Splits c p := by
  induction derives with
  | expression first more _ operators _ head operands =>
    intro q rest rest' second ends ends' same
    cases second with
    | expression first' more' derived operators' derives =>
      exact chains_split (c := .expression) (d := .term) (by decide) head derived
        (fun t member => (Operator.sum_level (operators t member)).1)
        (fun t member => (Operator.sum_level (operators' t member)).1) operands derives ends ends' same
  | term first more _ operators _ head operands =>
    intro q rest rest' second ends ends' same
    cases second with
    | term first' more' derived operators' derives =>
      exact chains_split (c := .term) (d := .unary) (by decide) head derived
        (fun t member => (Operator.product_level (operators t member)).1)
        (fun t member => (Operator.product_level (operators' t member)).1) operands derives ends ends'
        same
  | signed negative range operand _ ih => exact signed_splits negative range ih
  | unsigned p inner ih => exact unsigned_splits inner ih
  | power base range exponent _ _ left right => exact power_splits range left right
  | base p _ ih => exact base_splits ih
  | number raw range => exact number_splits raw range
  | name text range => exact name_splits text range
  | group opening closing p _ ih => exact group_splits opening closing ih
  | call text range opening closing args inner ih =>
    exact call_splits text range opening closing fun p member => ⟨inner p member, ih p member⟩
  | list opening closing elements inner ih =>
    exact list_splits opening closing fun p member => ⟨inner p member, ih p member⟩

end Calculator
