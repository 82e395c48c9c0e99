import Calculator.Proofs.Expression.Trees

/-!
What stands in a text at the places of its tree. The scanner cuts each word from the place that it gives
the token, so what the nodes say of themselves can be read off the text again.
-/
namespace Calculator

/-- The stretch of a text at a place. -/
def Text.slice (t : Text) (range : Span) : Text :=
  t.extract range.start range.stop

theorem Text.slice_join (t : Text) {a b c : Nat} (first : a ≤ b) (second : b ≤ c) :
    t.slice ⟨a, c⟩ = t.slice ⟨a, b⟩ ++ t.slice ⟨b, c⟩ := by
  have length : c - a = (b - a) + (c - b) := by omega
  have place : a + (b - a) = b := by omega
  simp only [slice, List.extract_eq_take_drop]
  rw [length, List.take_add, List.drop_drop, place]

/-- Each token is a stretch of the text, spelled as its word. -/
def Cut (t : Text) (tokens : List Token) : Prop :=
  ∀ token ∈ tokens, t.slice token.range = token.lexeme.text

theorem Lexer.scan_cut {start passing : Nat} (before : Text) {t : Text} {tokens : List Token}
    (place : before.length = start) (run : scan start passing t = .ok tokens) :
    Cut (before ++ t) tokens := by
  induction t generalizing start passing before tokens with
  | nil =>
    cases run
    simp [Cut]
  | cons u rest ih =>
    have whole : before ++ u :: rest = (before ++ [u]) ++ rest := by simp
    have next : (before ++ [u]).length = start + 1 := by simp [place]
    cases passing with
    | succ passing =>
      simp only [scan] at run
      exact whole ▸ ih _ next run
    | zero =>
      simp only [scan] at run
      split at run
      · exact whole ▸ ih _ next run
      split at run
      · cases run
      rename_i lexeme found
      split at run
      · rename_i more behind
        cases run
        have here : (before ++ u :: rest).slice ⟨start, start + lexeme.text.length⟩ = lexeme.text := by
          have front := List.prefix_iff_eq_take.mp (front_found (by simp) found).1
          rw [Text.slice, List.extract_eq_take_drop, ← place, List.drop_left, Nat.add_sub_cancel_left]
          exact front.symm
        have later : Cut (before ++ u :: rest) more := whole ▸ ih _ next behind
        simpa [Cut] using ⟨here, later⟩
      · cases run

theorem tokenize_cut {t : Text} {tokens : List Token} (run : tokenize t = .ok tokens) : Cut t tokens :=
  Lexer.scan_cut [] rfl run

theorem Ordered.of_append {low high : Nat} {before behind : List Token}
    (ordered : Ordered low high (before ++ behind)) :
    Ordered low high before ∧ Ordered low high behind := by
  induction before generalizing low with
  | nil => exact ⟨trivial, ordered⟩
  | cons token before ih =>
    obtain ⟨first, extent, last, rest⟩ := ordered
    obtain ⟨inside, after⟩ := ih rest
    exact ⟨⟨first, extent, last, inside⟩, after.mono (by omega) (Nat.le_refl _)⟩

theorem Ordered.of_part {low high : Nat} {part tokens : List Token} (ordered : Ordered low high tokens)
    (inside : part <:+: tokens) : Ordered low high part := by
  obtain ⟨before, behind, rfl⟩ := inside
  exact ordered.of_append.1.of_append.2

/-- Between the first and the last of some tokens in order stands what is not theirs. -/
theorem Cut.enclosed {t : Text} {low high : Nat} {first last : Token} {middle : List Token}
    (cut : Cut t (first :: middle ++ [last])) (ordered : Ordered low high (first :: middle ++ [last])) :
    ∃ inside, t.slice ⟨first.range.start, last.range.stop⟩ = first.lexeme.text ++ inside ++ last.lexeme.text := by
  obtain ⟨_, extent, _, rest⟩ := ordered
  obtain ⟨after, extent', _⟩ := rest.split
  have front := cut first (by simp)
  have back := cut last (by simp)
  refine ⟨t.slice ⟨first.range.stop, last.range.start⟩, ?_⟩
  rw [← front, ← back, t.slice_join (Nat.le_of_lt extent) (Nat.le_trans after (Nat.le_of_lt extent')),
    t.slice_join after (Nat.le_of_lt extent'), List.append_assoc]

/-- What a node says of itself stands at its place. -/
def Expr.Quotes (t : Text) : Expr → Prop
  | number _ raw range => t.slice range = raw
  | name text range => t.slice range = text
  | unary op _ range => op.symbol <+: t.slice range
  | binary _ left right range => range.start = left.range.start ∧ range.stop = right.range.stop
  | call callee _ range => ∃ inside, t.slice range = callee ++ inside ++ ")"
  | list _ range => ∃ inside, t.slice range = "[" ++ inside ++ "]"
  | foreign .. => False

section Phrases

variable {t : Text} {low high : Nat} {tokens : List Token}

theorem Items.quotes {items : Items} (inside : items.tokens <:+: tokens)
    (inner : ∀ p ∈ items.phrases, Derives .expression p ∧ (p.tokens <:+: tokens →
      ∀ part : Expr, part.PartOf p.tree → part.Quotes t)) :
    ∀ e ∈ items.trees, ∀ part : Expr, part.PartOf e → part.Quotes t := by
  intro e member
  obtain ⟨p, listed, rfl⟩ := List.mem_map.mp member
  exact (inner p listed).2 ((tokens_inside listed).trans inside)

/-- By induction on the phrase, whose words are among those that were cut from the text in order. -/
theorem Derives.quotes (ordered : Ordered low high tokens) (cut : Cut t tokens) {c : Category}
    {p : Phrase} (derives : Derives c p) :
    p.tokens <:+: tokens → ∀ part : Expr, part.PartOf p.tree → part.Quotes t := by
  have cutInside : ∀ {words : List Token}, words <:+: tokens → Cut t words := fun inside token member =>
    cut token (inside.subset member)
  refine derived_induction (motive := fun p => p.tokens <:+: tokens →
    ∀ part : Expr, part.PartOf p.tree → part.Quotes t) ?_ ?_ ?_ ?_ ?_ ?_ ?_ derives
  · intro raw range inside
    have word : t.slice range = raw := cutInside inside _ List.mem_cons_self
    exact Expr.forall_parts_iff.mpr ⟨word, by simp [Phrase.number, Expr.children]⟩
  · intro text range inside
    have word : t.slice range = text := cutInside inside _ List.mem_cons_self
    exact Expr.forall_parts_iff.mpr ⟨word, by simp [Phrase.name, Expr.children]⟩
  · intro opening closing p _ ih inside
    have within : p.tokens <:+: (Phrase.group opening closing p).tokens :=
      ⟨[⟨.leftParen, opening⟩], [⟨.rightParen, closing⟩], by simp [Phrase.group]⟩
    exact ih (within.trans inside)
  · intro text range opening closing args ih inside
    have within : args.tokens <:+: (Phrase.call text range opening closing args).tokens :=
      ⟨[⟨.name text, range⟩, ⟨.leftParen, opening⟩], [⟨.rightParen, closing⟩], by simp [Phrase.call]⟩
    have ends := Cut.enclosed (cutInside inside) (ordered.of_part inside)
    exact Expr.forall_parts_iff.mpr ⟨ends, Items.quotes (within.trans inside) ih⟩
  · intro opening closing elements ih inside
    have within : elements.tokens <:+: (Phrase.list opening closing elements).tokens :=
      ⟨[⟨.leftBracket, opening⟩], [⟨.rightBracket, closing⟩], by simp [Phrase.list]⟩
    have ends := Cut.enclosed (cutInside inside) (ordered.of_part inside)
    exact Expr.forall_parts_iff.mpr ⟨ends, Items.quotes (within.trans inside) ih⟩
  · intro negative range p derived ih inside
    have within : p.tokens <:+: (Phrase.signed negative range p).tokens := (List.suffix_cons _ _).isInfix
    obtain ⟨_, extent, _, rest⟩ := ordered.of_part inside
    have operand := derived.liesIn _ _ rest
    have behind : range.stop ≤ p.tree.range.stop :=
      Nat.le_trans operand.first (Nat.le_of_lt operand.extent)
    have sign := cutInside inside _ List.mem_cons_self
    have whole := t.slice_join (Nat.le_of_lt extent) behind
    refine Expr.forall_parts_iff.mpr ⟨?_, by simpa [Phrase.signed, Expr.children] using ih (within.trans inside)⟩
    cases negative <;> exact ⟨_, by rw [whole, sign]; rfl⟩
  · intro c d left op range right _ _ first second inside
    have before : left.tokens <:+: (left.operation op range right).tokens :=
      (List.prefix_append _ _).isInfix
    have behind : right.tokens <:+: (left.operation op range right).tokens :=
      ((List.suffix_cons _ _).trans (List.suffix_append _ _)).isInfix
    have parts := first (before.trans inside)
    have parts' := second (behind.trans inside)
    exact Expr.forall_parts_iff.mpr
      ⟨⟨rfl, rfl⟩, by simpa [Phrase.operation, Expr.children] using ⟨parts, parts'⟩⟩

end Phrases

/-- The places of a tree read from a text: each is a stretch of the text that holds the places of its
parts, these stand apart and in their order, and what a node says of itself stands there. -/
theorem parse_places {t : Text} {tree : Expr} (read : parse t = .ok tree) :
    ∀ node : Expr, node.PartOf tree →
      node.range.start < node.range.stop ∧ node.range.stop ≤ t.length ∧
        (∀ child ∈ node.children,
          node.range.start ≤ child.range.start ∧ child.range.stop ≤ node.range.stop) ∧
        (node.children.Pairwise fun first second => first.range.stop ≤ second.range.start) ∧
        node.Quotes t := by
  intro node part
  obtain ⟨tokens, p, lexed, derives, rfl, _, rfl⟩ := parse_derives read
  have ordered := tokenize_ordered lexed
  have lies := derives.liesIn _ _ ordered
  have laid := lies.arranged node part
  have extent := lies.spans node part
  have quotes := derives.quotes ordered (tokenize_cut lexed) List.infix_rfl node part
  exact ⟨laid.extent, extent.2.2, laid.inside, laid.apart, quotes⟩

theorem signed_call_places :
    parse "-ln (x)" = .ok (.unary .minus (.call "ln" [.name "x" ⟨5, 6⟩] ⟨1, 7⟩) ⟨0, 7⟩) ∧
      (∃ operand, Text.slice "-ln (x)" ⟨0, 7⟩ = "-" ++ operand) ∧
      (∃ inside, Text.slice "-ln (x)" ⟨1, 7⟩ = "ln" ++ inside ++ ")") ∧
      Text.slice "-ln (x)" ⟨5, 6⟩ = "x" := by
  have read : parse "-ln (x)" =
    .ok (.unary .minus (.call "ln" [.name "x" ⟨5, 6⟩] ⟨1, 7⟩) ⟨0, 7⟩) := rfl
  have places := parse_places read
  have whole := places _ .whole
  have call := places (.call "ln" [.name "x" ⟨5, 6⟩] ⟨1, 7⟩) (.inside List.mem_cons_self .whole)
  have argument := places (.name "x" ⟨5, 6⟩)
    (.inside List.mem_cons_self (.inside List.mem_cons_self .whole))
  obtain ⟨operand, sign⟩ := whole.2.2.2.2
  exact ⟨read, ⟨operand, sign.symm⟩, call.2.2.2.2, argument.2.2.2.2⟩

end Calculator
