import Calculator.Proofs.Evaluation.AllowList
import Calculator.Proofs.Expression.Placement
import Calculator.Proofs.Expression.Trees
import Calculator.Proofs.Expression.Vocabulary
import Calculator.Proofs.Session.Location
import Calculator.Proofs.Text.Printable

/-!
What the messages of a session quote of an expression: words of it and single characters, and no white
space. A message is one line, however many lines the expression has.
-/
namespace Calculator

open Text (OneLine)

namespace Text

theorem oneLine_of_visible {t : Text} (visible : ∀ u ∈ t, Lexer.isSpace u = false) : t.OneLine :=
  ⟨fun feed => absurd (visible _ feed) (by decide), fun back => absurd (visible _ back) (by decide)⟩

end Text

/-! ## Splitting the text -/

namespace Lexer

theorem visible_of_numberUnit {u : CodeUnit} (unit : isNumberUnit u = true ∨ continuesNumber u = true) :
    isSpace u = false := by
  cases blank : isSpace u with
  | false => rfl
  | true =>
    rcases space_cases blank with rfl | rfl | rfl | rfl <;> rcases unit with unit | unit <;> cases unit

theorem front_message {u : CodeUnit} {rest : Text} {cause : LexicalCause} {n : Nat}
    (visible : isSpace u = false) (wrong : front (u :: rest) = .wrong cause n) :
    cause.message.OneLine := by
  have marks : OneLine "Malformed number literal: '" ∧ OneLine "Unexpected character: '" ∧
    OneLine "'" := by decide
  unfold front at wrong
  split at wrong
  · split at wrong
    · cases wrong
    · rename_i extent
      cases wrong
      have quoted : OneLine ((u :: rest).take n) := by
        refine Text.oneLine_of_visible fun v member => visible_of_numberUnit ?_
        exact numberExtent_units (t := u :: rest) (by rwa [extent])
      simp only [LexicalCause.message, Text.oneLine_append, marks, quoted, and_self]
  · split at wrong
    · cases wrong
    split at wrong
    · cases wrong
    split at wrong
    · cases wrong
    · cases wrong
      have quoted : OneLine [u] := Text.oneLine_of_visible (by simpa using visible)
      simp only [LexicalCause.message, List.headD_cons, Text.oneLine_append, marks, quoted, and_self]

theorem scan_message {start passing : Nat} {t : Text} {e : LexicalError}
    (run : scan start passing t = .error e) : e.cause.message.OneLine := by
  induction t generalizing start passing with
  | nil => cases run
  | cons u rest ih =>
    cases passing with
    | succ passing => exact ih run
    | zero =>
      simp only [scan] at run
      split at run
      · exact ih run
      · rename_i visible
        split at run
        · rename_i wrong
          cases run
          exact front_message (by simpa using visible) wrong
        split at run
        · cases run
        · rename_i behind
          cases run
          exact ih behind

end Lexer

theorem tokens_visible {t : Text} {tokens : List Token} (run : tokenize t = .ok tokens) :
    ∀ token ∈ tokens, ∀ u ∈ token.lexeme.text, Lexer.isSpace u = false := by
  intro token member u inside
  have lexes := lexes_iff.mpr ⟨tokens, run, rfl⟩
  have spelled := lexes.wellSpelled token.lexeme (List.mem_map_of_mem member)
  exact spelled.isWord.spelled.visible inside

/-! ## Reading -/

theorem Lexeme.describe_oneLine {lexeme : Lexeme}
    (visible : ∀ u ∈ lexeme.text, Lexer.isSpace u = false) : lexeme.describe.OneLine := by
  have marks : OneLine "number '" ∧ OneLine "name '" ∧ OneLine "operator '" ∧ OneLine "'" := by decide
  have quoted := Text.oneLine_of_visible visible
  cases lexeme <;> simp only [describe, Text.oneLine_append, marks, true_and, and_true] <;> exact quoted

theorem SyntaxCause.message_oneLine {cause : SyntaxCause} {tokens : List Token}
    (drawn : cause.DrawnFrom tokens)
    (visible : ∀ token ∈ tokens, ∀ u ∈ token.lexeme.text, Lexer.isSpace u = false) :
    cause.message.OneLine := by
  have quoted : ∀ lexeme, (∃ token ∈ tokens, token.lexeme = lexeme) → lexeme.describe.OneLine := by
    rintro _ ⟨token, member, rfl⟩
    exact Lexeme.describe_oneLine (visible token member)
  have words : OneLine "Unexpected " ∧ OneLine " after expression" ∧
    OneLine "Number literal out of range: '" ∧ OneLine "'" := by decide
  cases cause with
  | lexical cause => exact drawn.elim
  | unexpected lexeme => simp only [message, Text.oneLine_append, words, quoted lexeme drawn, and_self]
  | trailing lexeme =>
    have plain : OneLine ("Unexpected " ++ lexeme.describe ++ " after expression") := by
      simp only [Text.oneLine_append, words, quoted lexeme drawn, and_self]
    cases lexeme with
    | rightParen => decide
    | _ => exact plain
  | numberOutOfRange raw =>
    obtain ⟨_, token, member, same⟩ := drawn
    have literal : raw.OneLine := Text.oneLine_of_visible fun u inside =>
      visible token member u (by rwa [same])
    simp only [message, Text.oneLine_append, words, literal, and_self]
  | _ => decide

theorem parse_message {t : Text} {e : SyntaxError} (failed : parse t = .error e) :
    e.cause.message.OneLine := by
  unfold parse at failed
  split at failed
  · rename_i lexical
    cases failed
    exact Lexer.scan_message lexical
  · rename_i tokens lexed
    by_cases some : tokens = []
    · subst some
      have words : SyntaxCause.empty.message.OneLine := by decide
      rwa [Parser.whole_nil failed]
    · exact SyntaxCause.message_oneLine (Parser.whole_arises some failed).drawn (tokens_visible lexed)

/-- The name of a node is among the tokens. -/
def Expr.NamedFrom (tokens : List Token) : Expr → Prop
  | .name text _ => ∃ token ∈ tokens, token.lexeme = .name text
  | .call callee _ _ => ∃ token ∈ tokens, token.lexeme = .name callee
  | _ => True

theorem Expr.NamedFrom.mono {e : Expr} {tokens tokens' : List Token} (named : e.NamedFrom tokens)
    (subset : tokens ⊆ tokens') : e.NamedFrom tokens' := by
  have found : ∀ text, (∃ token ∈ tokens, token.lexeme = .name text) →
      ∃ token ∈ tokens', token.lexeme = .name text :=
    fun text ⟨token, member, same⟩ => ⟨token, subset member, same⟩
  cases e with
  | name text range => exact found text named
  | call callee args range => exact found callee named
  | _ => trivial

theorem Derives.named {c : Category} {p : Phrase} (derives : Derives c p) :
    ∀ part : Expr, part.PartOf p.tree → part.NamedFrom p.tokens := by
  have own : ∀ (text : Text) (range : Span),
      ∃ token ∈ [(⟨.name text, range⟩ : Token)], token.lexeme = .name text :=
    fun text range => ⟨_, List.mem_cons_self, rfl⟩
  refine derives.forall_parts (P := fun tokens e => e.NamedFrom tokens) (fun named => named.mono)
    (fun _ _ => trivial) own (fun text range _ _ => own text range) ?_ ?_ ?_
  · exact fun _ _ => trivial
  · exact fun _ _ _ => trivial
  · exact fun _ _ _ _ => trivial

/-! ## Evaluating -/

def Origin.source : Origin → Text
  | operator op => op.symbol
  | call callee => callee

namespace Fault

/-- The texts of the tree that a message quotes. -/
def quoted : Fault → List Text
  | unsupported kind => [kind]
  | operatorNotAllowed symbol => [symbol]
  | signNotAllowed symbol => [symbol]
  | operandIsList op _ => [op.symbol]
  | signedList op _ => [op.symbol]
  | undefined origin => [origin.source]
  | outOfRange origin => [origin.source]
  | unknownName name => [name]
  | functionAsName name => [name]
  | unknownFunction name => [name]
  | notCallable name => [name]
  | arity callee _ _ _ => [callee]
  | _ => []

theorem message_oneLine {fault : Fault} (quoted : ∀ t ∈ fault.quoted, t.OneLine) :
    fault.message.OneLine := by
  have counted : ∀ n, (Text.ofNat n).OneLine := fun n => (Text.printable_ofNat n).oneLine
  have described : ∀ n, (Value.describeList n).OneLine := by
    intro n
    have list : OneLine "list of " := by decide
    simp only [Value.describeList, Text.oneLine_append, list, counted, and_self]
  have spoken : ∀ f : Function, f.spokenName.OneLine := by
    intro f
    cases f <;> decide
  have expected : ∀ fewest most, (expectedArguments fewest most).OneLine := by
    intro fewest most
    have between : OneLine " to " := by decide
    unfold expectedArguments
    split <;> simp only [Text.oneLine_append, between, counted, and_self]
  have plural : ∀ most, OneLine (Text.ofString (if most = 1 then "" else "s")) := by
    intro most
    split <;> decide
  have origin : ∀ o : Origin, o.source.OneLine → o.describe.OneLine := by
    intro o source
    have words : OneLine "Result of '" ∧ OneLine "Result of " ∧ OneLine "'" ∧ OneLine "()" := by decide
    cases o <;> simp only [Origin.describe, Text.oneLine_append, words, true_and, and_true] <;> exact source
  cases fault <;> simp only [Fault.quoted, List.mem_singleton, forall_eq] at quoted <;>
    simp +decide only [message, Text.oneLine_append, counted, described, spoken, expected, plural, origin,
      quoted]

end Fault

namespace Registry

variable {f : Function} {args : List Value} {fault : Fault}

/-! No function quotes anything: it knows its arguments by their values only. -/

theorem numberAt_quoted {index : Nat} (failed : numberAt f args index = .error fault) :
    fault.quoted = [] := by
  unfold numberAt at failed
  split at failed <;> cases failed <;> rfl

theorem single_quoted {body : Binary64 → Except Fault Binary64} (failed : single f args body = .error fault)
    (plain : ∀ x fault, body x = .error fault → fault.quoted = []) : fault.quoted = [] := by
  unfold single at failed
  split at failed
  · rename_i missing
    cases failed
    exact numberAt_quoted missing
  · exact plain _ _ failed

theorem logarithm_quoted (failed : logarithm args = .error fault) : fault.quoted = [] := by
  unfold logarithm at failed
  split at failed
  · rename_i missing
    cases failed
    exact numberAt_quoted missing
  split at failed
  · cases failed
    rfl
  split at failed
  · cases failed
  split at failed
  · rename_i missing
    cases failed
    exact numberAt_quoted missing
  split at failed
  · cases failed
    rfl
  split at failed <;> cases failed
  rfl

theorem roundTo_quoted (failed : roundTo args = .error fault) : fault.quoted = [] := by
  unfold roundTo at failed
  split at failed
  · rename_i missing
    cases failed
    exact numberAt_quoted missing
  split at failed
  · rename_i missing
    cases failed
    split at missing
    · exact numberAt_quoted missing
    · cases missing
  split at failed <;> cases failed
  rfl

theorem total_quoted (failed : total args = .error fault) : fault.quoted = [] := by
  unfold total at failed
  split at failed
  · cases failed
    rfl
  · cases failed
    rfl
  rename_i items rest
  split at failed
  · rename_i missing
    cases failed
    split at missing
    · cases missing
    · exact numberAt_quoted missing
  · rename_i start _
    rcases addItems_cases items start with ⟨_, x, sum⟩ | ⟨n, _, refused⟩
    · cases sum.symm.trans failed
    · cases refused.symm.trans failed
      rfl

theorem apply_quoted {r : Registry} (failed : r.apply f args = .error fault) : fault.quoted = [] := by
  have never : ∀ {body : Binary64 → Binary64}, single f args (fun x => .ok (body x)) = .error fault →
      fault.quoted = [] := fun failed => single_quoted failed (by simp)
  have outside : ∀ {body : Binary64 → Binary64}, single f args (r.inverse f body) = .error fault →
      fault.quoted = [] := by
    intro body failed
    refine single_quoted failed fun x fault refused => ?_
    rw [inverse_error refused]
    rfl
  cases f with
  | sin => exact never failed
  | cos => exact never failed
  | tan => exact never failed
  | asin => exact outside failed
  | acos => exact outside failed
  | atan => exact never failed
  | sqrt =>
    refine single_quoted failed fun x fault refused => ?_
    split at refused <;> cases refused
    rfl
  | log => exact logarithm_quoted failed
  | log10 =>
    refine single_quoted failed fun x fault refused => ?_
    split at refused <;> cases refused
    rfl
  | abs => exact never failed
  | floor => exact never failed
  | ceil => exact never failed
  | round => exact roundTo_quoted failed
  | factorial =>
    refine single_quoted failed fun x fault refused => ?_
    rcases factorial_error refused with rfl | rfl <;> rfl
  | sum => exact total_quoted failed
  | memory => cases failed

end Registry

namespace Evaluate

variable {fault : Fault} {v w : Value}

theorem name_quoted {text : Text} (failed : name text = .error fault) : fault.quoted = [text] := by
  unfold name at failed
  split at failed <;> cases failed <;> rfl

theorem callee_quoted {text : Text} (failed : callee text = .error fault) : fault.quoted = [text] := by
  unfold callee at failed
  split at failed <;> cases failed <;> rfl

theorem call_quoted {r : Registry} {text : Text} {f : Function} {args : List Value}
    (failed : call r text f args = .error fault) : fault.quoted ⊆ [text] := by
  rcases call_error failed with ⟨_, rfl⟩ | ⟨_, _, refused⟩ | rfl | rfl
  · exact List.Subset.refl _
  · simp [Registry.apply_quoted refused]
  · exact List.Subset.refl _
  · exact List.Subset.refl _

theorem operator_quoted {op : Operator} {x y : Binary64} (failed : op.apply x y = .error fault) :
    fault.quoted = [] := by
  rcases Operator.apply_error failed with rfl | rfl | rfl | rfl | rfl <;> rfl

theorem binary_quoted {op : BinaryOp} (failed : binary op v w = .error fault) :
    fault.quoted ⊆ [op.symbol] := by
  rcases binary_error failed with ⟨_, _, rfl⟩ | ⟨_, _, _, _, refused⟩ | rfl | rfl
  · exact List.Subset.refl _
  · cases op with
    | known op => simp [operator_quoted refused]
    | other symbol =>
      cases refused
      exact List.Subset.refl _
  · exact List.Subset.refl _
  · exact List.Subset.refl _

theorem unary_quoted {op : UnaryOp} (failed : unary op v = .error fault) :
    fault.quoted ⊆ [op.symbol] := by
  rcases unary_error failed with ⟨items, _, rfl⟩ | ⟨x, _, refused⟩
  · exact List.Subset.refl _
  · cases op <;> cases refused
    exact List.Subset.refl _

end Evaluate

/-- The texts of a node itself. -/
def Expr.spoken : Expr → List Text
  | number .. => []
  | name text _ => [text]
  | unary op _ _ => [op.symbol]
  | binary op _ _ _ => [op.symbol]
  | call callee _ _ => [callee]
  | list .. => []
  | foreign kind _ => [kind]

theorem Raises.quoted {r : Registry} {node : Expr} {err : EvaluationError} (raises : Raises r node err) :
    err.fault.quoted ⊆ node.spoken := by
  cases raises with
  | name cause => exact Evaluate.name_quoted cause ▸ List.Subset.refl _
  | unary _ cause => exact Evaluate.unary_quoted cause
  | binary _ _ cause => exact Evaluate.binary_quoted cause
  | callee cause => exact Evaluate.callee_quoted cause ▸ List.Subset.refl _
  | call _ _ cause => exact Evaluate.call_quoted cause
  | foreign => exact List.Subset.refl _

theorem Expr.spoken_oneLine {e : Expr} {tokens : List Token} (readable : e.Readable)
    (named : e.NamedFrom tokens)
    (visible : ∀ token ∈ tokens, ∀ u ∈ token.lexeme.text, Lexer.isSpace u = false) :
    ∀ t ∈ e.spoken, t.OneLine := by
  have word : ∀ text, (∃ token ∈ tokens, token.lexeme = .name text) → text.OneLine := by
    rintro text ⟨token, member, same⟩
    exact Text.oneLine_of_visible fun u inside => visible token member u (by rwa [same])
  cases e with
  | number value raw range => simp [spoken]
  | name text range => simpa [spoken] using word text named
  | unary op operand range =>
    cases op with
    | plus => simpa [spoken] using (by decide : UnaryOp.plus.symbol.OneLine)
    | minus => simpa [spoken] using (by decide : UnaryOp.minus.symbol.OneLine)
    | other symbol => exact readable.elim
  | binary op left right range =>
    cases op with
    | known op =>
      have symbol : op.symbol.OneLine := by cases op <;> decide
      simpa [spoken, BinaryOp.symbol] using symbol
    | other symbol => exact readable.elim
  | call callee args range => simpa [spoken] using word callee named
  | list elements range => simp [spoken]
  | foreign kind range => exact readable.elim

theorem evaluateNumber_message {r : Registry} {t : Text} {tree : Expr} {err : EvaluationError}
    (read : parse t = .ok tree) (failed : evaluateNumber r tree = .error err) :
    err.fault.message.OneLine := by
  obtain ⟨tokens, p, lexed, derives, rfl, _, rfl⟩ := parse_derives read
  unfold evaluateNumber at failed
  split at failed
  · rename_i inner
    cases failed
    obtain ⟨node, part, raises⟩ := evaluate_error_raised inner
    have spoken := Expr.spoken_oneLine (parse_readable read node part) (derives.named node part)
      (tokens_visible lexed)
    exact Fault.message_oneLine fun t member => spoken t (raises.quoted member)
  · obtain ⟨fault, notNumber, rfl⟩ := located_error_iff.mp failed
    obtain ⟨items, _, rfl⟩ := Value.number_error notNumber
    exact Fault.message_oneLine (by simp [Fault.quoted])

/-- Whatever the text, the message of a failure is one line. -/
theorem Session.message_oneLine {s : Session} {t : Text} {f : Failure}
    (failed : (s.evaluate t).outcome = .error f) : f.message.OneLine := by
  rcases outcome_error failed with ⟨e, read, rfl⟩ | ⟨tree, err, read, run, rfl⟩
  · exact parse_message read
  · exact evaluateNumber_message read run

end Calculator
