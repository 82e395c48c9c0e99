import Calculator.Proofs.Expression.Placement
import Calculator.Proofs.Expression.Trees
import Calculator.Proofs.Expression.Vocabulary
import Calculator.Proofs.Number.Conversion

/-!
Number literals, from the text to the tree. The scanner takes for a number what the reader of numbers can
read, and its value is what the literal says, rounded once.
-/
namespace Calculator

open Binary64 (RoundsTo)

/-- The text is a numeral that says, rounded to 53 significant bits, so many units. -/
def Text.Denotes (raw : Text) (m : Nat) : Prop :=
  ∃ n : Numeral, n.text = raw ∧ RoundsTo (n.exact * Binary64.one) m

theorem Numeral.denotes (n : Numeral) : ∃ m, n.text.Denotes m := by
  have value := n.value.fraction_value
  rw [n.magnitude_value] at value
  have rounds := Binary64.roundsTo_roundRatio (n.value.fraction Binary64.one).1
    (n.value.fraction_positive Binary64.one)
  rw [value] at rounds
  exact ⟨_, n, rfl, rounds⟩

theorem Text.Denotes.ofText {raw : Text} {m : Nat} (denotes : raw.Denotes m) :
    (∃ fits, m < Binary64.limit ∧ Binary64.ofText raw = .finite false m fits) ∨
      Binary64.limit ≤ m ∧ Binary64.ofText raw = .infinite false := by
  obtain ⟨n, rfl, rounds⟩ := denotes
  obtain ⟨inside, outside⟩ := Binary64.ofText_rounds n rounds
  rcases Nat.lt_or_ge m Binary64.limit with small | large
  · exact .inl ⟨_, small, inside small⟩
  · exact .inr ⟨large, outside large⟩

theorem Text.Denotes.isFinite_iff {raw : Text} {m : Nat} (denotes : raw.Denotes m) :
    (Binary64.ofText raw).isFinite = true ↔ m < Binary64.limit := by
  rcases denotes.ofText with ⟨fits, small, value⟩ | ⟨large, value⟩
  · simp [value, Binary64.isFinite, small]
  · simp [value, Binary64.isFinite, large]

/-- A literal is a number of the tree, or out of range. -/
theorem Parser.primary_number {raw : Text} {m : Nat} (denotes : raw.Denotes m)
    (operand : Nat → List Token → Reading Expr) (stop : Nat) (range : Span) (rest : List Token) :
    (m < Binary64.limit → ∃ fits, primary operand stop (⟨.number raw, range⟩ :: rest) =
      .ok (.number (.finite false m fits) raw range, rest)) ∧
    (Binary64.limit ≤ m → primary operand stop (⟨.number raw, range⟩ :: rest) =
      .error ⟨.numberOutOfRange raw, range⟩) := by
  rcases denotes.ofText with ⟨fits, small, value⟩ | ⟨large, value⟩
  · refine ⟨fun _ => ⟨fits, ?_⟩, fun large => absurd small (Nat.not_lt.mpr large)⟩
    simp [primary, value, Binary64.isFinite]
  · refine ⟨fun small => absurd small (Nat.not_lt.mpr large), fun _ => ?_⟩
    simp [primary, value, Binary64.isFinite]

theorem token_numeral {t : Text} {tokens : List Token} (lexed : tokenize t = .ok tokens) {raw : Text}
    {range : Span} (member : ⟨.number raw, range⟩ ∈ tokens) : ∃ n : Numeral, n.text = raw := by
  have lexes := lexes_iff.mpr ⟨tokens, lexed, rfl⟩
  exact lexes.wellSpelled (.number raw) (List.mem_map_of_mem (f := Token.lexeme) member)

theorem token_denotes {t : Text} {tokens : List Token} (lexed : tokenize t = .ok tokens) {raw : Text}
    {range : Span} (member : ⟨.number raw, range⟩ ∈ tokens) : ∃ m, raw.Denotes m := by
  obtain ⟨n, rfl⟩ := token_numeral lexed member
  exact n.denotes

theorem Numeral.tokenize_text (n : Numeral) :
    ∃ range, tokenize n.text = .ok [⟨.number n.text, range⟩] := by
  obtain ⟨tokens, lexed, same⟩ := lexes_iff.mp (Lexes.single n.isWord)
  obtain ⟨⟨lexeme, range⟩, rfl, number⟩ := List.map_eq_singleton_iff.mp same
  obtain rfl : lexeme = .number n.text := number
  exact ⟨range, lexed⟩

/-- A node of a number has the value of a token. -/
def Expr.LiteralOf (tokens : List Token) : Expr → Prop
  | .number value raw range => value = .ofText raw ∧ ⟨.number raw, range⟩ ∈ tokens
  | _ => True

theorem parse_literals {t : Text} {tree : Expr} (run : parse t = .ok tree) :
    ∃ tokens, tokenize t = .ok tokens ∧
      (∀ raw range, ⟨.number raw, range⟩ ∈ tokens → (Binary64.ofText raw).isFinite = true) ∧
      ∀ part : Expr, part.PartOf tree → part.LiteralOf tokens := by
  obtain ⟨_, p, lexed, derives, rfl, within, rfl⟩ := parse_derives run
  refine ⟨p.tokens, lexed, within.literals, ?_⟩
  refine derives.forall_parts (P := fun tokens e => e.LiteralOf tokens) ?_ ?_ ?_ ?_ ?_ ?_ ?_
  · intro tokens tokens' e literal subset
    cases e with
    | number value raw range => exact ⟨literal.1, subset literal.2⟩
    | _ => trivial
  · exact fun raw range => ⟨rfl, List.mem_cons_self⟩
  all_goals intros; trivial

/-- A literal that is refused is one of the text, and its conversion is infinite. -/
theorem parse_outOfRange {t : Text} {e : SyntaxError} (refused : parse t = .error e) {raw : Text}
    (cause : e.cause = .numberOutOfRange raw) :
    ∃ tokens range, tokenize t = .ok tokens ∧ ⟨.number raw, range⟩ ∈ tokens ∧
      (Binary64.ofText raw).isFinite = false := by
  unfold parse at refused
  split at refused
  · cases refused
    cases cause
  · rename_i tokens lexed
    by_cases some : tokens = []
    · subst some
      rw [Parser.whole_nil refused] at cause
      cases cause
    · have drawn := (Parser.whole_arises some refused).drawn
      rw [cause] at drawn
      obtain ⟨beyond, ⟨lexeme, range⟩, member, same⟩ := drawn
      obtain rfl : lexeme = .number raw := same
      exact ⟨tokens, range, lexed, member, beyond⟩

/-- A literal alone is an expression, unless it is out of range. -/
theorem Numeral.parse_text (n : Numeral) {m : Nat} (denotes : n.text.Denotes m) :
    ∃ range, (m < Binary64.limit → ∃ fits, parse n.text = .ok (.number (.finite false m fits) n.text range)) ∧
      (Binary64.limit ≤ m → parse n.text = .error ⟨.numberOutOfRange n.text, range⟩) := by
  obtain ⟨range, lexed⟩ := n.tokenize_text
  obtain ⟨inside, outside⟩ := Parser.primary_number denotes (Parser.expression n.text.length 499)
    n.text.length range []
  have nesting : Parser.maxNesting = 499 + 1 := rfl
  refine ⟨range, fun small => ?_, fun large => ?_⟩
  · obtain ⟨fits, number⟩ := inside small
    refine ⟨fits, ?_⟩
    rw [parse, lexed]
    simp only [Parser.whole]
    rw [nesting, Parser.expression, number]
    rfl
  · rw [parse, lexed]
    simp only [Parser.whole]
    rw [nesting, Parser.expression, outside large]

/-- What the scanner takes for a number anywhere is what the reader of numbers can read. It begins with a
digit or a point, it is converted to the number nearest to what it says, and it is refused where that is
out of range. The numbers of a tree are the literals of the text, and a literal is refused for its size
only. -/
theorem literals_converted :
    (∀ raw : Text, (∃ t tokens range, tokenize t = .ok tokens ∧ ⟨.number raw, range⟩ ∈ tokens) ↔
      ∃ d, Decimal.read? raw = some d) ∧
    (∀ (t : Text) tokens (raw : Text) range, tokenize t = .ok tokens → ⟨.number raw, range⟩ ∈ tokens →
      (∃ u rest, raw = u :: rest ∧ (Text.isDigit u = true ∨ u = 0x2E)) ∧ Binary64.ofText raw ≠ .nan ∧
      ∃ m, raw.Denotes m ∧ ∀ operand stop rest,
        (m < Binary64.limit → ∃ fits, Parser.primary operand stop (⟨.number raw, range⟩ :: rest) =
          .ok (.number (.finite false m fits) raw range, rest)) ∧
        (Binary64.limit ≤ m → Parser.primary operand stop (⟨.number raw, range⟩ :: rest) =
          .error ⟨.numberOutOfRange raw, range⟩)) ∧
    (∀ t tree, parse t = .ok tree →
      (∀ value (raw : Text) range, (Expr.number value raw range).PartOf tree →
        ∃ m fits, raw.Denotes m ∧ value = .finite false m fits) ∧
      ∀ tokens (raw : Text) range, tokenize t = .ok tokens → ⟨.number raw, range⟩ ∈ tokens →
        ∃ m, raw.Denotes m ∧ m < Binary64.limit) ∧
    (∀ t e (raw : Text), parse t = .error e → e.cause = .numberOutOfRange raw →
      ∃ m, raw.Denotes m ∧ Binary64.limit ≤ m) ∧
    ∀ (n : Numeral) m, n.text.Denotes m → ∃ range,
      (m < Binary64.limit →
        ∃ fits, parse n.text = .ok (.number (.finite false m fits) n.text range)) ∧
      (Binary64.limit ≤ m → parse n.text = .error ⟨.numberOutOfRange n.text, range⟩) := by
  refine ⟨fun raw => ?_, fun t tokens raw range lexed member => ?_, fun t tree run => ⟨?_, ?_⟩, ?_,
    fun n m denotes => n.parse_text denotes⟩
  · rw [exists_congr fun d => Decimal.read_iff]
    constructor
    · rintro ⟨t, tokens, range, lexed, member⟩
      obtain ⟨n, text⟩ := token_numeral lexed member
      exact ⟨n.value, n, text, rfl⟩
    · rintro ⟨_, n, rfl, _⟩
      obtain ⟨range, lexed⟩ := n.tokenize_text
      exact ⟨n.text, _, range, lexed, List.mem_cons_self⟩
  · obtain ⟨n, rfl⟩ := token_numeral lexed member
    obtain ⟨m, denotes⟩ := n.denotes
    refine ⟨n.begins, ?_, m, denotes, fun operand stop rest =>
      Parser.primary_number denotes operand stop range rest⟩
    rcases denotes.ofText with ⟨fits, _, value⟩ | ⟨_, value⟩ <;> simp [value]
  · intro value raw range part
    obtain ⟨tokens, lexed, finite, literals⟩ := parse_literals run
    obtain ⟨rfl, member⟩ := literals _ part
    obtain ⟨m, denotes⟩ := token_denotes lexed member
    rcases denotes.ofText with ⟨fits, _, value⟩ | ⟨_, value⟩
    · exact ⟨m, fits, denotes, value⟩
    · have inside := finite raw range member
      simp [value, Binary64.isFinite] at inside
  · intro tokens raw range lexed member
    obtain ⟨tokens', lexed', finite, _⟩ := parse_literals run
    obtain rfl := Except.ok.inj (lexed.symm.trans lexed')
    obtain ⟨m, denotes⟩ := token_denotes lexed member
    exact ⟨m, denotes, denotes.isFinite_iff.mp (finite raw range member)⟩
  · intro t e raw refused cause
    obtain ⟨tokens, range, lexed, member, beyond⟩ := parse_outOfRange refused cause
    obtain ⟨m, denotes⟩ := token_denotes lexed member
    refine ⟨m, denotes, Nat.not_lt.mp fun small => ?_⟩
    rw [denotes.isFinite_iff.mpr small] at beyond
    cases beyond

/-- A point in front of an exponent, a point in front of digits, and a literal far out of range. -/
theorem literals_converted_points :
    (tokenize "1.e5*.5e-3" =
        .ok [⟨.number "1.e5", 0, 4⟩, ⟨.operator .times, 4, 5⟩, ⟨.number ".5e-3", 5, 10⟩] ∧
      ∃ m, Text.Denotes ".5e-3" m) ∧
    (parse "+1e0999" = .error ⟨.numberOutOfRange "1e0999", 1, 7⟩ ∧
      ∃ m, Text.Denotes "1e0999" m ∧ Binary64.limit ≤ m) := by
  have lexed : tokenize "1.e5*.5e-3" =
      .ok [⟨.number "1.e5", 0, 4⟩, ⟨.operator .times, 4, 5⟩, ⟨.number ".5e-3", 5, 10⟩] := rfl
  have refused : parse "+1e0999" = .error ⟨.numberOutOfRange "1e0999", 1, 7⟩ := rfl
  obtain ⟨_, tokens, _, errors, _⟩ := literals_converted
  obtain ⟨_, _, m, denotes, _⟩ := tokens _ _ ".5e-3" ⟨5, 10⟩ lexed (by simp)
  exact ⟨⟨lexed, m, denotes⟩, refused, errors _ _ _ refused rfl⟩

end Calculator
