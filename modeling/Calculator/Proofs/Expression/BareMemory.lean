import Calculator.Proofs.Expression.Completion
import Calculator.Proofs.Expression.Words

/-!
The bare name `mem` in a text and in its words. Completing it in the text is completing it in the words,
as long as the text and the words agree on where a parenthesis follows; they do not where the line ends
between the name and the parenthesis.
-/
namespace Calculator

/-- Puts parentheses behind each name `mem` that no opening parenthesis follows. -/
def completed : List Lexeme → List Lexeme
  | [] => []
  | lexeme :: rest =>
    if lexeme = .name "mem" ∧ rest.head? ≠ some .leftParen then
      lexeme :: .leftParen :: .rightParen :: completed rest
    else lexeme :: completed rest

open Normalize Lexeme

namespace Lexeme

variable {lexeme : Lexeme}

theorem EndsBefore.of_head {s t : Text} (ends : lexeme.EndsBefore s) (same : t.head? = s.head?) :
    lexeme.EndsBefore t := by
  rwa [EndsBefore, same]

theorem EndsBefore.apart {rest : Text} (ends : lexeme.EndsBefore rest) {inWord : Bool}
    (inside : endsInWord inWord lexeme.text = true) : startsWithWordUnit rest = false := by
  cases lexeme with
  | number raw =>
    have unfused : Unfused rest := ends
    exact startsWithWordUnit_iff.mpr unfused.not_word
  | name text => exact startsWithWordUnit_iff.mpr ends
  | operator op => cases op <;> cases inside
  | _ => cases inside

/-- Only names have the first letter of the name. -/
theorem Spelled.not_mem (spelled : lexeme.Spelled) (other : ∀ text, lexeme ≠ .name text) :
    0x6D ∉ lexeme.text := by
  intro member
  cases lexeme with
  | number raw => cases spelled _ member
  | name text => exact other text rfl
  | operator op =>
    revert member
    cases op <;> decide
  | _ =>
    revert member
    decide

theorem IsWord.opens_iff (word : lexeme.IsWord) :
    lexeme.text.head? = some 0x28 ↔ lexeme = .leftParen := by
  constructor
  · intro first
    have member : 0x28 ∈ lexeme.text := List.mem_of_head? first
    refine word.spelled.of_sign rfl rfl member (P := fun sign => sign = leftParen) (fun op => ?_) ?_
    · cases op <;> decide
    · decide
  · rintro rfl
    rfl

theorem Spelled.closes (spelled : lexeme.Spelled) (member : 0x29 ∈ lexeme.text) :
    lexeme = .rightParen := by
  refine spelled.of_sign rfl rfl member (P := fun sign => sign = rightParen) (fun op => ?_) ?_
  · cases op <;> decide
  · decide

theorem IsWord.callFollows (word : lexeme.IsWord) (rest : Text) :
    Normalize.callFollows (lexeme.text ++ rest) = true ↔ lexeme = .leftParen := by
  rw [← word.opens_iff]
  obtain ⟨u, tail, text, visible⟩ := word.text_eq_cons
  simp [Normalize.callFollows, text, visible]

end Lexeme

theorem Lexes.callFollows {t : Text} {lexemes : List Lexeme} (lexes : Lexes t lexemes) :
    Normalize.callFollows t = true ↔ lexemes.head? = some .leftParen := by
  induction lexes using Lexes.words with
  | nil => simp [Normalize.callFollows]
  | space blank rest ih => simpa [Normalize.callFollows, blank] using ih
  | word isWord ends behind ih => simpa using isWord.callFollows _

theorem completed_name {name rest : Text} {lexemes : List Lexeme} (lexes : Lexes rest lexemes)
    (keeps : KeepsCalls false (name ++ rest)) (boundary : startsWithWordUnit rest = false) :
    completed (.name name :: lexemes) = .name name ::
      ((if name = "mem" ∧ opensCall rest = false then [.leftParen, .rightParen] else []) ++
        completed lexemes) := by
  have agree : name = "mem" ∧ opensCall rest = false ↔
      Lexeme.name name = .name "mem" ∧ lexemes.head? ≠ some .leftParen := by
    rw [Lexeme.name.injEq]
    refine and_congr_right fun bare => ?_
    subst bare
    have sight : opensCall rest = Normalize.callFollows rest := keeps [] rest rfl rfl boundary
    rw [sight, ne_eq, ← lexes.callFollows, Bool.not_eq_true]
  rw [completed]
  by_cases bare : name = "mem" ∧ opensCall rest = false
  · rw [if_pos bare, if_pos (agree.mp bare)]
    rfl
  · rw [if_neg bare, if_neg (mt agree.mpr bare)]
    rfl

theorem completed_other {lexeme : Lexeme} (other : ∀ text, lexeme ≠ .name text)
    (lexemes : List Lexeme) : completed (lexeme :: lexemes) = lexeme :: completed lexemes := by
  rw [completed, if_neg fun bare => other _ bare.1]

theorem lexes_added_iff {p : Prop} [Decidable p] {t : Text} {lexemes : List Lexeme} :
    Lexes ((if p then [0x28, 0x29] else []) ++ t) lexemes ↔
      ∃ behind, lexemes = (if p then [.leftParen, .rightParen] else []) ++ behind ∧ Lexes t behind := by
  by_cases added : p
  · simp only [if_pos added]
    constructor
    · intro lexes
      have opening : Lexes (Lexeme.leftParen.text ++ 0x29 :: t) lexemes := lexes
      obtain ⟨inside, rfl, lexes'⟩ := (Lexes.mark_iff (by decide)).mp opening
      have closing : Lexes (Lexeme.rightParen.text ++ t) inside := lexes'
      obtain ⟨behind, rfl, later⟩ := (Lexes.mark_iff (by decide)).mp closing
      exact ⟨behind, rfl, later⟩
    · rintro ⟨behind, rfl, lexes⟩
      exact .lexeme rfl rfl (.lexeme rfl rfl lexes)
  · simp [if_neg added]

theorem name_begins {name rest : Text} (word : (Lexeme.name name).IsWord) {inWord : Bool}
    (apart : inWord = true → startsWithWordUnit (name ++ rest) = false) : inWord = false := by
  cases inWord with
  | false => rfl
  | true =>
    cases name with
    | nil => exact (word.nonempty rfl).elim
    | cons u tail =>
      have unit : Text.isWordUnit u = true := word.spelled u (by simp)
      exact unit.symm.trans (apart rfl)

theorem Lexes.completed {t : Text} {lexemes : List Lexeme} (lexes : Lexes t lexemes) {inWord : Bool}
    (apart : inWord = true → startsWithWordUnit t = false) (keeps : KeepsCalls inWord t) :
    Lexes (memoryFrom inWord t) (completed lexemes) := by
  induction lexes using Lexes.words generalizing inWord with
  | nil => exact .nil
  | @space u t lexemes blank rest ih =>
    have alone : u ≠ 0x6D ∧ Text.isWordUnit u = false := by
      rcases Lexer.space_cases blank with rfl | rfl | rfl | rfl <;> decide
    have keeps' : KeepsCalls (Text.isWordUnit u) t := keeps.behind (s := [u])
    rw [memoryFrom_other inWord alone.1]
    exact .space blank (ih (by simp [alone.2]) keeps')
  | @word lexeme rest lexemes isWord ends behind ih =>
    have later := ih ends.apart keeps.behind
    by_cases named : ∃ name, lexeme = .name name
    · obtain ⟨name, rfl⟩ := named
      have boundary : startsWithWordUnit rest = false := startsWithWordUnit_iff.mpr ends
      obtain rfl : inWord = false := name_begins isWord apart
      rw [endsInWord_name false isWord.nonempty isWord.spelled] at later
      have parted : (Lexeme.name name).EndsBefore
          ((if name = "mem" ∧ opensCall rest = false then [0x28, 0x29] else []) ++
            memoryFrom true rest) := by
        split
        · exact fun u first => by cases first; rfl
        · exact ends.of_head (head_memoryFrom _ _)
      have text : memoryFrom false ((Lexeme.name name).text ++ rest) = _ :=
        memoryFrom_name isWord.nonempty isWord.spelled boundary
      have words : Calculator.completed (.name name :: lexemes) = _ :=
        completed_name behind keeps boundary
      rw [text, words]
      exact (lexes_added_iff.mpr ⟨_, rfl, later⟩).word isWord parted
    · have other : ∀ text, lexeme ≠ .name text := fun text same => named ⟨text, same⟩
      rw [memoryFrom_stretch inWord (isWord.spelled.not_mem other), completed_other other]
      exact later.word isWord (ends.of_head (head_memoryFrom _ _))

theorem name_of_memoryFrom {inWord : Bool} {t name rest : Text}
    (units : ∀ u ∈ name, Text.isWordUnit u = true)
    (boundary : ∀ u ∈ rest.head?, Text.isWordUnit u = false)
    (same : memoryFrom inWord t = name ++ rest) :
    ∃ tail, t = name ++ tail ∧ startsWithWordUnit tail = false := by
  have taken : t.takeWhile Text.isWordUnit = name := by
    rw [← takeWhile_memoryFrom inWord, same, List.takeWhile_append_of_pos units,
      takeWhile_boundary (startsWithWordUnit_iff.mpr boundary), List.append_nil]
  refine ⟨t.dropWhile Text.isWordUnit, ?_, startsWithWordUnit_iff.mpr (Lexer.not_word_dropWhile t)⟩
  rw [← taken, List.takeWhile_append_dropWhile]

theorem exists_completed {t : Text} {lexemes : List Lexeme} {inWord : Bool}
    (lexes : Lexes (memoryFrom inWord t) lexemes)
    (apart : inWord = true → startsWithWordUnit t = false) (keeps : KeepsCalls inWord t) :
    ∃ before, Lexes t before ∧ completed before = lexemes := by
  -- on the length of the text, since a word takes several units at once
  induction length : t.length using Nat.strongRecOn generalizing t lexemes inWord with
  | ind n ih =>
    have shorter : ∀ {lexeme : Lexeme} {rest : Text}, lexeme.IsWord →
        (lexeme.text ++ rest).length = n → rest.length < n := by
      intro lexeme rest word length
      have extent := List.length_pos_iff.mpr word.nonempty
      rw [List.length_append] at length
      omega
    cases t with
    | nil =>
      cases lexes
      exact ⟨[], .nil, rfl⟩
    | cons u tail =>
      cases blank : Lexer.isSpace u with
      | true =>
        have alone : u ≠ 0x6D ∧ Text.isWordUnit u = false := by
          rcases Lexer.space_cases blank with rfl | rfl | rfl | rfl <;> decide
        have keeps' : KeepsCalls (Text.isWordUnit u) tail := keeps.behind (s := [u])
        rw [memoryFrom_other inWord alone.1, Lexes.blank_iff blank] at lexes
        obtain ⟨before, words, same⟩ :=
          ih tail.length (by simp [← length]) lexes (by simp [alone.2]) keeps' rfl
        exact ⟨before, .space blank words, same⟩
      | false =>
        obtain ⟨x, rewritten⟩ := memoryFrom_cons inWord u tail
        rw [rewritten] at lexes
        obtain ⟨lexeme, rest, behind, split, rfl, isWord, ends, later⟩ := lexes.first blank
        rw [← rewritten] at split
        by_cases named : ∃ name, lexeme = .name name
        · obtain ⟨name, rfl⟩ := named
          obtain ⟨rest', spelled, boundary⟩ := name_of_memoryFrom isWord.spelled ends split
          rw [spelled] at apart keeps length split
          obtain rfl : inWord = false := name_begins isWord apart
          have some : name ≠ [] := isWord.nonempty
          have units : ∀ u ∈ name, Text.isWordUnit u = true := isWord.spelled
          rw [memoryFrom_name some units boundary] at split
          have cut : name ++ _ = name ++ rest := split
          obtain rfl := List.append_cancel_left cut
          obtain ⟨inner, rfl, words⟩ := lexes_added_iff.mp later
          have keeps' := keeps.behind
          rw [endsInWord_name false some units] at keeps'
          obtain ⟨before, words', rfl⟩ := ih _ (shorter isWord length) words (fun _ => boundary) keeps' rfl
          rw [spelled]
          exact ⟨.name name :: before, words'.word isWord (startsWithWordUnit_iff.mp boundary),
            completed_name words' keeps boundary⟩
        · have other : ∀ text, lexeme ≠ .name text := fun text same => named ⟨text, same⟩
          obtain ⟨rest, spelled, rfl⟩ :=
            memoryFrom_eq_append (isWord.spelled.not_mem other) split
          have ends' : lexeme.EndsBefore rest := ends.of_head (head_memoryFrom _ _).symm
          rw [spelled] at keeps length
          obtain ⟨before, words, same⟩ := ih _ (shorter isWord length) later ends'.apart keeps.behind rfl
          rw [spelled]
          exact ⟨lexeme :: before, words.word isWord ends', by rw [completed_other other, same]⟩

/-- Completing a text is completing its words. -/
theorem lexes_memory_iff {t : Text} (keeps : KeepsCalls false t) {lexemes : List Lexeme} :
    Lexes (memory t) lexemes ↔ ∃ before, Lexes t before ∧ completed before = lexemes := by
  have start : false = true → startsWithWordUnit t = false := fun impossible => by cases impossible
  constructor
  · intro lexes
    exact exists_completed lexes start keeps
  · rintro ⟨before, lexes, rfl⟩
    exact lexes.completed start keeps

/-- A mark parts the words before it from those behind. -/
theorem Lexes.split_rightParen {s t : Text} {lexemes : List Lexeme} (lexes : Lexes (s ++ 0x29 :: t) lexemes) :
    ∃ before behind, lexemes = before ++ .rightParen :: behind ∧ Lexes t behind := by
  generalize whole : s ++ 0x29 :: t = text at lexes
  induction lexes using Lexes.words generalizing s with
  | nil => simp at whole
  | @space u rest lexemes blank _ ih =>
    cases s with
    | nil =>
      obtain ⟨rfl, _⟩ := List.cons.inj whole
      cases blank
    | cons v s =>
      obtain ⟨_, same⟩ := List.cons.inj whole
      exact ih same
  | @word lexeme rest lexemes isWord ends later ih =>
    rcases List.append_eq_append_iff.mp whole with ⟨middle, text, closing⟩ | ⟨middle, rfl, same⟩
    · cases middle with
      | nil =>
        obtain ⟨before, behind, rfl, words⟩ := ih (s := []) closing
        exact ⟨lexeme :: before, behind, rfl, words⟩
      | cons v middle =>
        obtain ⟨rfl, rfl⟩ := List.cons.inj closing
        obtain rfl := isWord.spelled.closes (by simp [text])
        obtain ⟨rfl, rfl⟩ : s = [] ∧ middle = [] := by
          have length := congrArg List.length text
          simp only [List.length_append, List.length_cons] at length
          have one : Lexeme.rightParen.text.length = 1 := rfl
          exact ⟨List.length_eq_zero_iff.mp (by omega), List.length_eq_zero_iff.mp (by omega)⟩
        exact ⟨[], lexemes, rfl, later⟩
    · obtain ⟨before, behind, rfl, words⟩ := ih same.symm
      exact ⟨lexeme :: before, behind, rfl, words⟩

/-- Where a parenthesis follows a bare `mem` but is not in sight, the words of the completed text have
a call behind a call. -/
theorem Lexes.torn {t : Text} {lexemes : List Lexeme} (torn : ¬ KeepsCalls false t)
    (lexes : Lexes (memory t) lexemes) :
    ∃ before behind, lexemes = before ++ .rightParen :: .leftParen :: behind := by
  simp only [KeepsCalls, Classical.not_forall, exists_prop] at torn
  obtain ⟨before, rest, rfl, bare, apart, hidden⟩ := torn
  have follows : Normalize.callFollows rest = true ∧ opensCall rest = false := by
    cases opens : opensCall rest with
    | true => exact (hidden (opens.trans (callFollows_of_opensCall opens).symm)).elim
    | false =>
      rw [opens] at hidden
      exact ⟨by simpa using hidden, rfl⟩
  obtain ⟨start, whole⟩ := memoryFrom_behind bare (0x6D :: 0x65 :: 0x6D :: rest)
  have name : memoryFrom false (0x6D :: 0x65 :: 0x6D :: rest) =
      [0x6D, 0x65, 0x6D, 0x28] ++ 0x29 :: memoryFrom true rest := by
    rw [memoryFrom, apart, follows.2]
    rfl
  rw [memory, whole, name, ← List.append_assoc] at lexes
  obtain ⟨first, second, rfl, later⟩ := lexes.split_rightParen
  have opening := later.callFollows.mp ((callFollows_memoryFrom true rest).trans follows.1)
  obtain ⟨behind, rfl⟩ : ∃ behind, second = .leftParen :: behind := by
    cases second with
    | nil => cases opening
    | cons lexeme behind =>
      obtain rfl : lexeme = .leftParen := by simpa using opening
      exact ⟨behind, rfl⟩
  exact ⟨first, behind, rfl⟩

end Calculator
