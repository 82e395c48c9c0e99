import Calculator.Proofs.Expression.Spelling

/-!
Trees written with the fewest parentheses, and that reading what is written gives the tree back.
-/
namespace Calculator

/-- The least level of what an operator takes for its left operand without parentheses. -/
def Operator.leftLevel : Operator → Nat
  | power => Category.primary.level
  | op => op.level

namespace Expr

def parenthesized (enclose : Prop) [Decidable enclose] (t : Text) : Text :=
  if enclose then "(" ++ t ++ ")" else t

mutual

/-- The text of a tree that stands where operators of at least the given level may. Nodes that the
language does not have, have no text. -/
def print (least : Nat) : Expr → Text
  | number _ raw _ => raw
  | name text _ => text
  | unary op operand _ =>
    parenthesized (Operator.signLevel < least) (op.symbol ++ print Operator.signLevel operand)
  | binary (.known op) left right _ =>
    parenthesized (op.level < least)
      (print op.leftLevel left ++ " " ++ op.symbol ++ " " ++ print op.rightLevel right)
  | call callee args _ => callee ++ "(" ++ Text.join ", " (printAll args) ++ ")"
  | list elements _ => "[" ++ Text.join ", " (printAll elements) ++ "]"
  | binary (.other _) .. => []
  | foreign .. => []

def printAll : List Expr → List Text
  | [] => []
  | e :: rest => print 1 e :: printAll rest

end

def nestedBy (enclose : Prop) [Decidable enclose] (n : Nat) : Nat :=
  if enclose then n + 1 else n

mutual

/-- How deeply the text of a tree nests. -/
def printedNesting (least : Nat) : Expr → Nat
  | unary _ operand _ =>
    nestedBy (Operator.signLevel < least) (printedNesting Operator.signLevel operand + 1)
  | binary (.known op) left right _ =>
    nestedBy (op.level < least)
      (max (printedNesting op.leftLevel left) (printedNesting op.rightLevel right + 1))
  | call _ args _ => printedNestingAll args + 1
  | list elements _ => printedNestingAll elements + 1
  | _ => 1

def printedNestingAll : List Expr → Nat
  | [] => 0
  | e :: rest => max (printedNesting 1 e) (printedNestingAll rest)

end

/-- Trees of the language whose literals and names are words: a literal has the value that its text
denotes, and that is a finite number. -/
inductive Printable : Expr → Prop where
  | number {raw : Text} (word : (Lexeme.number raw).ReadsBack)
    (finite : (Binary64.ofText raw).isFinite = true) (range : Span) :
    Printable (.number (.ofText raw) raw range)
  | name {text : Text} (word : (Lexeme.name text).ReadsBack) (range : Span) : Printable (.name text range)
  | signed (negative : Bool) {operand : Expr} (inner : Printable operand) (range : Span) :
    Printable (.unary (if negative then .minus else .plus) operand range)
  | binary (op : Operator) {left right : Expr} (first : Printable left) (second : Printable right)
    (range : Span) : Printable (.binary (.known op) left right range)
  | call {callee : Text} {args : List Expr} (word : (Lexeme.name callee).ReadsBack)
    (each : ∀ e ∈ args, Printable e) (range : Span) : Printable (.call callee args range)
  | list {elements : List Expr} (each : ∀ e ∈ elements, Printable e) (range : Span) :
    Printable (.list elements range)

end Expr

/-- The phrase that the text of a tree at the given level is. -/
structure Prints (least : Nat) (e : Expr) (c : Category) (p : Phrase) : Prop where
  derives : Derives c p
  high : least ≤ c.level
  lexes : Lexes (e.print least) p.lexemes
  nesting : p.nesting = e.printedNesting least
  tree : p.tree.unplaced = e.unplaced
  literals : p.FiniteLiterals

/-- The levels that operators leave to their operands. -/
def OperandLevel (least : Nat) : Prop :=
  least ≤ 3 ∨ least = Category.primary.level

variable {least : Nat} {e : Expr} {p : Phrase}

instance (least : Nat) : Decidable (OperandLevel least) :=
  inferInstanceAs (Decidable (_ ∨ _))

theorem OperandLevel.le_primary (level : OperandLevel least) : least ≤ Category.primary.level := by
  rcases level with few | same
  · exact Nat.le_trans few (by decide)
  · exact Nat.le_of_eq same

theorem OperandLevel.left (op : Operator) : OperandLevel op.leftLevel := by
  cases op <;> decide

theorem OperandLevel.right (op : Operator) : OperandLevel op.rightLevel := by
  cases op <;> decide

/-- A phrase of its own level, or one in parentheses where that is too low. -/
theorem prints_parenthesized {c : Category} (own : Nat) {n : Nat} {t : Text} (level : OperandLevel least)
    (derives : Derives c p) (low : least ≤ own → least ≤ c.level) (lexes : Lexes t p.lexemes)
    (nesting : p.nesting = n) (tree : p.tree.unplaced = e.unplaced) (literals : p.FiniteLiterals)
    (text : e.print least = Expr.parenthesized (own < least) t)
    (nested : e.printedNesting least = Expr.nestedBy (own < least) n) :
    ∃ c p, Prints least e c p := by
  by_cases weak : own < least
  · simp only [Expr.parenthesized, weak, if_true] at text
    simp only [Expr.nestedBy, weak, if_true] at nested
    refine ⟨.primary, .group default default p, .group _ _ _ derives.expression_of, level.le_primary,
      ?_, ?_, tree, literals.group _ _⟩
    · rw [text]
      exact lexes_group _ _ lexes
    · rw [nested, ← nesting]
      rfl
  · simp only [Expr.parenthesized, weak, if_false] at text
    simp only [Expr.nestedBy, weak, if_false] at nested
    exact ⟨c, p, derives, low (Nat.le_of_not_lt weak), text ▸ lexes, nesting.trans nested.symm, tree,
      literals⟩

theorem prints_signed (negative : Bool) {operand : Expr} (range : Span) (level : OperandLevel least)
    (inner : ∃ c p, Prints Operator.signLevel operand c p) :
    ∃ c p, Prints least (.unary (if negative then .minus else .plus) operand range) c p := by
  obtain ⟨c, p, prints⟩ := inner
  refine prints_parenthesized Operator.signLevel (p := .signed negative default p) level
    (.signed negative _ p (prints.derives.unary_of prints.high)) id
    (lexes_signed negative _ prints.lexes) rfl ?_ (prints.literals.signed _ _) rfl ?_
  · simp [Phrase.signed, Expr.unplaced, prints.tree]
  · simp [Expr.printedNesting, Phrase.signed, prints.nesting]

theorem prints_binary (op : Operator) {left right : Expr} (range : Span) (level : OperandLevel least)
    (first : ∃ c p, Prints op.leftLevel left c p) (second : ∃ c p, Prints op.rightLevel right c p) :
    ∃ c p, Prints least (.binary (.known op) left right range) c p := by
  obtain ⟨c, p, prints⟩ := first
  obtain ⟨d, q, prints'⟩ := second
  have strong : op.level ≤ op.leftLevel := by cases op <;> decide
  obtain ⟨c', derives, high, _⟩ := Parser.derives_operation default prints.derives
    (Nat.le_trans strong prints.high) prints'.derives prints'.high
  refine prints_parenthesized op.level (p := p.operation op default q) level derives ?_
    (lexes_operation op _ prints.lexes prints'.lexes) rfl ?_ (prints.literals.operation prints'.literals _ _)
    rfl ?_
  · intro own
    rcases level with few | same
    · exact Nat.le_trans (Nat.le_min.mpr ⟨own, few⟩) high
    · have top : op.level < Category.primary.level := by cases op <;> decide
      omega
  · simp [Phrase.operation, Expr.unplaced, prints.tree, prints'.tree]
  · simp [Expr.printedNesting, Phrase.operation, prints.nesting, prints'.nesting]

/-- The phrases of items that are printed one after the other. -/
structure PrintsAll (es : List Expr) (ps : List Phrase) : Prop where
  derives : ∀ p ∈ ps, Derives .expression p
  lexes : List.Forall₂ (fun t p => Lexes t p.lexemes) (Expr.printAll es) ps
  nesting : (Items.ofPhrases ps).nesting = Expr.printedNestingAll es
  trees : Expr.unplacedAll (ps.map Phrase.tree) = Expr.unplacedAll es
  literals : ∀ p ∈ ps, p.FiniteLiterals

theorem printsAll {es : List Expr} (each : ∀ e ∈ es, ∃ c p, Prints 1 e c p) : ∃ ps, PrintsAll es ps := by
  induction es with
  | nil => exact ⟨[], by simp, .nil, rfl, rfl, by simp⟩
  | cons e rest ih =>
    simp only [List.mem_cons, forall_eq_or_imp] at each
    obtain ⟨c, p, prints⟩ := each.1
    obtain ⟨ps, all⟩ := ih each.2
    refine ⟨p :: ps, ?_, .cons prints.lexes all.lexes, ?_, ?_, ?_⟩
    · simpa using ⟨prints.derives.expression_of, all.derives⟩
    · simp [Items.nesting_ofPhrases_cons, Expr.printedNestingAll, prints.nesting, all.nesting]
    · simp [Expr.unplacedAll, prints.tree, all.trees]
    · simpa using ⟨prints.literals, all.literals⟩

theorem Expr.Printable.prints (printable : e.Printable) (level : OperandLevel least) :
    ∃ c p, Prints least e c p := by
  -- on the tree, for every level at once: an operator asks another one of each operand than its own
  induction printable generalizing least with
  | @number raw word finite range =>
    exact ⟨.primary, .number raw default, .number _ _, level.le_primary, word.lexes, rfl, rfl,
      .number finite _⟩
  | @name text word range =>
    exact ⟨.primary, .name text default, .name _ _, level.le_primary, word.lexes, rfl, rfl,
      .name _ _⟩
  | signed negative _ range ih =>
    exact prints_signed negative range level (ih (.inl (Nat.le_refl 3)))
  | binary op _ _ range first second =>
    exact prints_binary op range level (first (.left op)) (second (.right op))
  | @call callee args word _ range ih =>
    obtain ⟨ps, all⟩ := printsAll fun e member => ih e member (.inl (by decide))
    refine ⟨.primary, .call callee default default default (.ofPhrases ps), .call _ _ _ _ _ ?_,
      level.le_primary, lexes_call _ _ _ word all.lexes, ?_, ?_, .call ?_ _ _ _ _⟩
    · rw [Items.phrases_ofPhrases]
      exact all.derives
    · simp [Phrase.call, all.nesting, Expr.printedNesting]
    · simp [Phrase.call, Items.trees, Items.phrases_ofPhrases, Expr.unplaced, all.trees]
    · rw [Items.phrases_ofPhrases]
      exact all.literals
  | @list elements _ range ih =>
    obtain ⟨ps, all⟩ := printsAll fun e member => ih e member (.inl (by decide))
    refine ⟨.primary, .list default default (.ofPhrases ps), .list _ _ _ ?_, level.le_primary,
      lexes_list _ _ all.lexes, ?_, ?_, .list ?_ _ _⟩
    · rw [Items.phrases_ofPhrases]
      exact all.derives
    · simp [Phrase.list, all.nesting, Expr.printedNesting]
    · simp [Phrase.list, Items.trees, Items.phrases_ofPhrases, Expr.unplaced, all.trees]
    · rw [Items.phrases_ofPhrases]
      exact all.literals

/-- A tree that is written with the fewest parentheses is read back, ranges aside, if what is written
keeps to the limits. -/
theorem parse_print {e : Expr} (printable : e.Printable)
    (nesting : e.printedNesting 1 ≤ Parser.maxNesting) (depth : e.depth ≤ Parser.maxDepth) :
    ∃ tree, parse (e.print 1) = .ok tree ∧ tree.unplaced = e.unplaced := by
  obtain ⟨c, p, prints⟩ := printable.prints (.inl (by decide) : OperandLevel 1)
  have shallow : p.tree.depth = e.depth := by
    rw [← p.tree.depth_unplaced, prints.tree, e.depth_unplaced]
  have within : p.Within Parser.maxNesting Parser.maxDepth :=
    ⟨prints.literals, prints.nesting ▸ nesting, shallow ▸ depth⟩
  obtain ⟨tree, read, same⟩ := parse_of_lexes prints.lexes prints.derives.expression_of within
  exact ⟨tree, read, same.trans prints.tree⟩

/-- A sign to the left of a power needs parentheses and one to its right does not; a difference needs
them to the right of another. -/
theorem parse_signed_power_of_differences :
    ∃ tree, parse "(-2) ** -f(x - (y - z), [])" = .ok tree ∧
      tree.unplaced = .binary (.known .power)
        (.unary .minus (.number (.ofText "2") "2" default) default)
        (.unary .minus (.call "f"
          [.binary (.known .minus) (.name "x" default)
            (.binary (.known .minus) (.name "y" default) (.name "z" default) default) default,
            .list [] default] default) default) default := by
  have two : (Lexeme.number "2").ReadsBack := rfl
  have x : (Lexeme.name "x").ReadsBack := rfl
  have y : (Lexeme.name "y").ReadsBack := rfl
  have z : (Lexeme.name "z").ReadsBack := rfl
  have f : (Lexeme.name "f").ReadsBack := rfl
  have inner := Expr.Printable.binary .minus (.name y default) (.name z default) default
  have outer := Expr.Printable.binary .minus (.name x default) inner default
  have args : ∀ e ∈ [_, Expr.list [] default], e.Printable :=
    List.forall_mem_cons.mpr ⟨outer, by simpa using Expr.Printable.list (by simp) default⟩
  have base := Expr.Printable.signed true (.number two (by decide +kernel) default) default
  have exponent := Expr.Printable.signed true (.call f args default) default
  have whole := Expr.Printable.binary .power base exponent default
  obtain ⟨tree, read, same⟩ := parse_print whole (by decide) (by decide)
  exact ⟨tree, read, same⟩

end Calculator
