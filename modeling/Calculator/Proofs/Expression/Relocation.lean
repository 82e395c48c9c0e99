import Calculator.Proofs.Expression.Acceptance
import Calculator.Proofs.Expression.Lexemes
import Calculator.Proofs.Expression.Parts

/-!
Trees and phrases up to the places they have in a text. The same words elsewhere are the same phrase
elsewhere, with the same tree.
-/
namespace Calculator

namespace Expr

mutual

/-- The tree with all its ranges forgotten. -/
def unplaced : Expr → Expr
  | number value raw _ => number value raw default
  | name text _ => name text default
  | unary op operand _ => unary op (unplaced operand) default
  | binary op left right _ => binary op (unplaced left) (unplaced right) default
  | call callee args _ => call callee (unplacedAll args) default
  | list elements _ => list (unplacedAll elements) default
  | foreign kind _ => foreign kind default

def unplacedAll : List Expr → List Expr
  | [] => []
  | e :: rest => unplaced e :: unplacedAll rest

end

theorem depthAll_unplacedAll {es : List Expr} (each : ∀ e ∈ es, e.unplaced.depth = e.depth) :
    depthAll (unplacedAll es) = depthAll es := by
  induction es with
  | nil => rfl
  | cons e rest ih =>
    simp only [List.mem_cons, forall_eq_or_imp] at each
    rw [unplacedAll, depthAll, depthAll, each.1, ih each.2]

theorem depth_unplaced (e : Expr) : e.unplaced.depth = e.depth := by
  induction e with
  | number value raw range => rfl
  | name text range => rfl
  | unary op operand range ih => rw [unplaced, depth, depth, ih]
  | binary op left right range first second => rw [unplaced, depth, depth, first, second]
  | call callee args range ih => rw [unplaced, depth, depth, depthAll_unplacedAll ih]
  | list elements range ih => rw [unplaced, depth, depth, depthAll_unplacedAll ih]
  | foreign kind range => rfl

end Expr

namespace Phrase

def lexemes (p : Phrase) : List Lexeme :=
  p.tokens.map Token.lexeme

namespace FiniteLiterals

variable {p q : Phrase}

theorem number {raw : Text} (finite : (Binary64.ofText raw).isFinite) (range : Span) :
    (Phrase.number raw range).FiniteLiterals := by
  intro raw' range' member
  obtain ⟨rfl, _⟩ : raw' = raw ∧ range' = range := by simpa [Phrase.number] using member
  exact finite

theorem name (text : Text) (range : Span) : (Phrase.name text range).FiniteLiterals := by
  intro raw range' member
  simp [Phrase.name] at member

theorem group (finite : p.FiniteLiterals) (opening closing : Span) :
    (Phrase.group opening closing p).FiniteLiterals := by
  intro raw range member
  exact finite raw range (by simpa [Phrase.group] using member)

theorem signed (finite : p.FiniteLiterals) (negative : Bool) (place : Span) :
    (Phrase.signed negative place p).FiniteLiterals := by
  intro raw range member
  exact finite raw range (by simpa [Phrase.signed] using member)

theorem operation (left : p.FiniteLiterals) (right : q.FiniteLiterals) (op : Operator) (place : Span) :
    (p.operation op place q).FiniteLiterals := by
  intro raw range member
  have inside : ⟨.number raw, range⟩ ∈ p.tokens ∨ ⟨.number raw, range⟩ ∈ q.tokens := by
    simpa [Phrase.operation] using member
  exact inside.elim (left raw range) (right raw range)

theorem items {items : Items} (each : ∀ p ∈ items.phrases, p.FiniteLiterals) {raw : Text} {range : Span}
    (member : ⟨.number raw, range⟩ ∈ items.tokens) : (Binary64.ofText raw).isFinite := by
  obtain ⟨p, inItems, inside⟩ := (items.number_mem_tokens_iff raw range).mp member
  exact each p inItems raw range inside

theorem call {args : Items} (each : ∀ p ∈ args.phrases, p.FiniteLiterals) (text : Text)
    (place opening closing : Span) : (Phrase.call text place opening closing args).FiniteLiterals := by
  intro raw range member
  exact items each (by simpa [Phrase.call] using member)

theorem list {elements : Items} (each : ∀ p ∈ elements.phrases, p.FiniteLiterals)
    (opening closing : Span) : (Phrase.list opening closing elements).FiniteLiterals := by
  intro raw range member
  exact items each (by simpa [Phrase.list] using member)

end FiniteLiterals

/-- The same phrase at places of its own. -/
structure Alike (p q : Phrase) : Prop where
  lexemes : p.lexemes = q.lexemes
  nesting : p.nesting = q.nesting
  tree : p.tree.unplaced = q.tree.unplaced

namespace Alike

variable {p q : Phrase}

theorem depth (alike : p.Alike q) : p.tree.depth = q.tree.depth := by
  rw [← p.tree.depth_unplaced, alike.tree, q.tree.depth_unplaced]

theorem finiteLiterals (alike : p.Alike q) (finite : q.FiniteLiterals) : p.FiniteLiterals := by
  intro raw range member
  have spoken : Lexeme.number raw ∈ q.lexemes := by
    rw [← alike.lexemes]
    exact List.mem_map_of_mem member
  obtain ⟨⟨lexeme, range'⟩, member', same⟩ := List.mem_map.mp spoken
  obtain rfl : lexeme = .number raw := same
  exact finite raw range' member'

theorem within {nesting depth : Nat} (alike : p.Alike q) (within : q.Within nesting depth) :
    p.Within nesting depth :=
  ⟨alike.finiteLiterals within.literals, alike.nesting ▸ within.nesting, alike.depth ▸ within.depth⟩

theorem operation {p' q' : Phrase} (left : p.Alike p') (right : q.Alike q') (op : Operator)
    (range range' : Span) : (p.operation op range q).Alike (p'.operation op range' q') := by
  constructor
  · have first := left.lexemes
    have second := right.lexemes
    simp only [Phrase.lexemes] at first second
    simp [Phrase.lexemes, Phrase.operation, first, second]
  · simp [Phrase.operation, left.nesting, right.nesting]
  · simp [Phrase.operation, Expr.unplaced, left.tree, right.tree]

end Alike

end Phrase

/-- Other tokens for the words of a phrase make up the same phrase of the category. -/
def Relocates (c : Category) (p : Phrase) : Prop :=
  ∀ tokens : List Token, tokens.map Token.lexeme = p.lexemes →
    ∃ q, Derives c q ∧ q.tokens = tokens ∧ q.Alike p

theorem items_relocate {items : Items} {tokens : List Token}
    (each : ∀ p ∈ items.phrases, Relocates .expression p)
    (same : tokens.map Token.lexeme = items.tokens.map Token.lexeme) :
    ∃ items' : Items, (∀ p ∈ items'.phrases, Derives .expression p) ∧ items'.tokens = tokens ∧
      items'.nesting = items.nesting ∧ Expr.unplacedAll items'.trees = Expr.unplacedAll items.trees := by
  induction items generalizing tokens with
  | none =>
    obtain rfl : tokens = [] := by simpa [Items.tokens] using same
    exact ⟨.none, by simp [Items.phrases], rfl, rfl, rfl⟩
  | last item =>
    obtain ⟨q, derives, rfl, alike⟩ := each item (by simp [Items.phrases]) tokens same
    exact ⟨.last q, by simpa [Items.phrases] using derives, rfl, alike.nesting,
      by simp [Items.trees, Items.phrases, Expr.unplacedAll, alike.tree]⟩
  | more item comma rest ih =>
    simp only [Items.phrases, List.mem_cons, forall_eq_or_imp] at each
    simp only [Items.tokens, List.map_append, List.map_cons] at same
    obtain ⟨before, behind, rfl, first, later⟩ := List.map_eq_append_iff.mp same
    obtain ⟨⟨lexeme, range⟩, after, rfl, rfl, second⟩ := List.map_eq_cons_iff.mp later
    obtain ⟨q, derives, rfl, alike⟩ := each.1 before first
    obtain ⟨items', all, rfl, nesting, trees⟩ := ih each.2 second
    refine ⟨.more q range items', ?_, rfl, ?_, ?_⟩
    · simpa [Items.phrases] using ⟨derives, all⟩
    · simp [Items.nesting, alike.nesting, nesting]
    · simp only [Items.trees] at trees
      simp [Items.trees, Items.phrases, Expr.unplacedAll, alike.tree, trees]

/-- The tokens for words between two others stand between two others. -/
theorem enclosed_relocate {tokens middle : List Token} {opening closing : Token}
    (same : tokens.map Token.lexeme = (opening :: middle ++ [closing]).map Token.lexeme) :
    ∃ first inside last, tokens = ⟨opening.lexeme, first⟩ :: inside ++ [⟨closing.lexeme, last⟩] ∧
      inside.map Token.lexeme = middle.map Token.lexeme := by
  simp only [List.cons_append, List.map_cons, List.map_append, List.map_nil] at same
  obtain ⟨⟨lexeme, first⟩, after, rfl, rfl, later⟩ := List.map_eq_cons_iff.mp same
  obtain ⟨inside, final, rfl, here, rest⟩ := List.map_eq_append_iff.mp later
  obtain ⟨⟨lexeme, last⟩, rfl, rfl⟩ := List.map_eq_singleton_iff.mp rest
  exact ⟨first, inside, last, rfl, here⟩

theorem chain_relocates {c : Category} {operators : List Operator} {more : List Tail}
    {first first' : Phrase} {tokens : List Token} (alike : first'.Alike first)
    (ops : ∀ t ∈ more, t.op ∈ operators) (operands : ∀ t ∈ more, Relocates c t.operand)
    (same : tokens.map Token.lexeme = (Tail.tokens more).map Token.lexeme) :
    ∃ more' : List Tail, (∀ t ∈ more', t.op ∈ operators) ∧ (∀ t ∈ more', Derives c t.operand) ∧
      Tail.tokens more' = tokens ∧ (first'.chain more').Alike (first.chain more) := by
  induction more generalizing first first' tokens with
  | nil =>
    obtain rfl : tokens = [] := by simpa [Tail.tokens] using same
    exact ⟨[], by simp, by simp, rfl, alike⟩
  | cons t more ih =>
    simp only [List.mem_cons, forall_eq_or_imp] at ops operands
    simp only [Tail.tokens, List.flatMap_cons, List.cons_append, List.map_cons, List.map_append]
      at same
    obtain ⟨⟨lexeme, range⟩, after, rfl, rfl, later⟩ := List.map_eq_cons_iff.mp same
    obtain ⟨before, behind, rfl, here, rest⟩ := List.map_eq_append_iff.mp later
    obtain ⟨q, derives, rfl, alike'⟩ := operands.1 before here
    obtain ⟨more', ops', derived, rfl, whole⟩ :=
      ih (alike.operation alike' t.op range t.range) ops.2 operands.2 rest
    refine ⟨⟨t.op, range, q⟩ :: more', ?_, ?_, by simp [Tail.tokens], whole⟩
    · simpa using ⟨ops.1, ops'⟩
    · simpa using ⟨derives, derived⟩

theorem Derives.relocates {c : Category} {p : Phrase} (derives : Derives c p) : Relocates c p := by
  induction derives with
  | expression first more _ operators _ head operands =>
    intro tokens same
    rw [Phrase.lexemes, Phrase.chain_tokens, List.map_append] at same
    obtain ⟨before, behind, rfl, here, later⟩ := List.map_eq_append_iff.mp same
    obtain ⟨first', derived, rfl, alike⟩ := head before here
    obtain ⟨more', operators', derives', rfl, whole⟩ := chain_relocates alike operators operands later
    exact ⟨_, .expression first' more' derived operators' derives', Phrase.chain_tokens _ _, whole⟩
  | term first more _ operators _ head operands =>
    intro tokens same
    rw [Phrase.lexemes, Phrase.chain_tokens, List.map_append] at same
    obtain ⟨before, behind, rfl, here, later⟩ := List.map_eq_append_iff.mp same
    obtain ⟨first', derived, rfl, alike⟩ := head before here
    obtain ⟨more', operators', derives', rfl, whole⟩ := chain_relocates alike operators operands later
    exact ⟨_, .term first' more' derived operators' derives', Phrase.chain_tokens _ _, whole⟩
  | signed negative range operand _ ih =>
    intro tokens same
    obtain ⟨⟨lexeme, range'⟩, after, rfl, rfl, later⟩ := List.map_eq_cons_iff.mp same
    obtain ⟨q, derived, rfl, alike⟩ := ih after later
    refine ⟨_, .signed negative range' q derived, rfl, same, ?_, ?_⟩
    · simp [Phrase.signed, alike.nesting]
    · simp [Phrase.signed, Expr.unplaced, alike.tree]
  | unsigned p _ ih =>
    intro tokens same
    obtain ⟨q, derived, span, alike⟩ := ih tokens same
    exact ⟨q, .unsigned q derived, span, alike⟩
  | power base range exponent _ _ left right =>
    intro tokens same
    simp only [Phrase.lexemes, Phrase.operation, List.map_append, List.map_cons] at same
    obtain ⟨before, behind, rfl, here, later⟩ := List.map_eq_append_iff.mp same
    obtain ⟨⟨lexeme, range'⟩, after, rfl, rfl, rest⟩ := List.map_eq_cons_iff.mp later
    obtain ⟨base', derived, rfl, alike⟩ := left before here
    obtain ⟨exponent', derived', rfl, alike'⟩ := right after rest
    exact ⟨_, .power base' range' exponent' derived derived', rfl, alike.operation alike' _ _ _⟩
  | base p _ ih =>
    intro tokens same
    obtain ⟨q, derived, span, alike⟩ := ih tokens same
    exact ⟨q, .base q derived, span, alike⟩
  | number raw range =>
    intro tokens same
    obtain ⟨⟨lexeme, range'⟩, rfl, rfl⟩ := List.map_eq_singleton_iff.mp same
    exact ⟨_, .number raw range', rfl, rfl, rfl, rfl⟩
  | name text range =>
    intro tokens same
    obtain ⟨⟨lexeme, range'⟩, rfl, rfl⟩ := List.map_eq_singleton_iff.mp same
    exact ⟨_, .name text range', rfl, rfl, rfl, rfl⟩
  | group opening closing p _ ih =>
    intro tokens same
    obtain ⟨opening', inside, closing', rfl, here⟩ := enclosed_relocate same
    obtain ⟨q, derived, rfl, alike⟩ := ih inside here
    exact ⟨_, .group opening' closing' q derived, rfl, same, by simp [Phrase.group, alike.nesting],
      alike.tree⟩
  | call text range opening closing args _ ih =>
    intro tokens same
    obtain ⟨⟨lexeme, range'⟩, rest, rfl, rfl, behind⟩ := List.map_eq_cons_iff.mp same
    obtain ⟨opening', inside, closing', rfl, here⟩ := enclosed_relocate behind
    obtain ⟨args', derived, rfl, nesting, trees⟩ := items_relocate ih here
    exact ⟨_, .call text range' opening' closing' args' derived, rfl, same,
      by simp [Phrase.call, nesting], by simp [Phrase.call, Expr.unplaced, trees]⟩
  | list opening closing elements _ ih =>
    intro tokens same
    obtain ⟨opening', inside, closing', rfl, here⟩ := enclosed_relocate same
    obtain ⟨elements', derived, rfl, nesting, trees⟩ := items_relocate ih here
    exact ⟨_, .list opening' closing' elements' derived, rfl, same,
      by simp [Phrase.list, nesting], by simp [Phrase.list, Expr.unplaced, trees]⟩

/-- Other tokens for the same words have the same tree, at other places. -/
theorem Parser.whole_relocates {stop stop' : Nat} {tokens tokens' : List Token} {tree : Expr}
    (same : tokens'.map Token.lexeme = tokens.map Token.lexeme) (read : whole stop tokens = .ok tree) :
    (whole stop' tokens').toOption.map Expr.unplaced = some tree.unplaced := by
  obtain ⟨p, derives, rfl, within, rfl⟩ := whole_ok_iff.mp read
  obtain ⟨q, derives', rfl, alike⟩ := derives.relocates tokens' same
  have read' : whole stop' q.tokens = .ok q.tree :=
    whole_ok_iff.mpr ⟨q, derives', rfl, alike.within within, rfl⟩
  rw [read', Except.toOption, Option.map_some, alike.tree]

/-- Two readings are the same, places aside, if each gives the trees that the other gives. -/
theorem reading_congr {first second : Except SyntaxError Expr}
    (forth : ∀ tree, first = .ok tree → second.toOption.map Expr.unplaced = some tree.unplaced)
    (back : ∀ tree, second = .ok tree → first.toOption.map Expr.unplaced = some tree.unplaced) :
    first.toOption.map Expr.unplaced = second.toOption.map Expr.unplaced := by
  cases first with
  | ok tree => exact (forth tree rfl).symm
  | error e =>
    cases second with
    | ok tree => exact back tree rfl
    | error e' => rfl

/-- A text with the words of a phrase is an expression with the tree of the phrase, if the phrase keeps
to the limits. -/
theorem parse_of_lexes {t : Text} {p : Phrase} (lexes : Lexes t p.lexemes)
    (derives : Derives .expression p) (within : p.Within Parser.maxNesting Parser.maxDepth) :
    ∃ tree, parse t = .ok tree ∧ tree.unplaced = p.tree.unplaced := by
  obtain ⟨tokens, lexed, same⟩ := lexes_iff.mp lexes
  obtain ⟨q, derived, rfl, alike⟩ := derives.relocates tokens same
  refine ⟨q.tree, ?_, alike.tree⟩
  simp only [parse, lexed]
  exact Parser.whole_ok_iff.mpr ⟨q, derived, rfl, alike.within within, rfl⟩

theorem Parser.whole_or_gives_up {p : Phrase} (derives : Derives .expression p)
    (finite : p.FiniteLiterals) (stop : Nat) :
    whole stop p.tokens = .ok p.tree ∨ ∃ range, whole stop p.tokens = .error ⟨.tooDeep, range⟩ := by
  have read := expression_reads derives finite stop maxNesting 1 [] (Nat.le_refl 1) trivial
  rw [List.append_nil] at read
  obtain ⟨token, rest, span, _⟩ := derives.begins
  rw [span] at read ⊢
  rcases read with run | ⟨_, range, run⟩
  · exact .inl (by simp [whole, run])
  · exact .inr ⟨range, by simp [whole, run]⟩

/-- The text is an expression of the grammar that nests too deeply, or has too deep a tree. -/
def BeyondLimits (t : Text) : Prop :=
  ∃ p, tokenize t = .ok p.tokens ∧ Derives .expression p ∧
    (Parser.maxNesting < p.nesting ∨ Parser.maxDepth < p.tree.depth)

/-- An expression of the grammar with finite literals is refused just for exceeding a limit. -/
theorem parse_of_lexes_limited {t : Text} {p : Phrase} (lexes : Lexes t p.lexemes)
    (derives : Derives .expression p) (finite : p.FiniteLiterals) :
    (¬ BeyondLimits t → ∃ tree, parse t = .ok tree ∧ tree.unplaced = p.tree.unplaced) ∧
    (BeyondLimits t → ∃ range, parse t = .error ⟨.tooDeep, range⟩) := by
  obtain ⟨tokens, lexed, same⟩ := lexes_iff.mp lexes
  obtain ⟨q, derived, rfl, alike⟩ := derives.relocates tokens same
  have literals : q.FiniteLiterals := alike.finiteLiterals finite
  constructor
  · intro inside
    refine parse_of_lexes lexes derives ⟨finite, ?_, ?_⟩
    · refine Nat.le_of_not_lt fun deep => inside ⟨q, lexed, derived, .inl ?_⟩
      rwa [alike.nesting]
    · refine Nat.le_of_not_lt fun deep => inside ⟨q, lexed, derived, .inr ?_⟩
      rwa [alike.depth]
  · -- the tokens make up one phrase only, so the one beyond the limits is the one at hand
    rintro ⟨q', lexed', derived', deep⟩
    obtain rfl : q = q' := derives_tokens_injective derived derived' (by simpa [lexed] using lexed')
    simp only [parse, lexed]
    rcases Parser.whole_or_gives_up derived literals t.length with run | refused
    · obtain ⟨q', derived', span, within, _⟩ := Parser.whole_ok_iff.mp run
      obtain rfl : q' = q := derives_tokens_injective derived' derived span
      have nesting := within.nesting
      have depth := within.depth
      omega
    · exact refused

end Calculator
