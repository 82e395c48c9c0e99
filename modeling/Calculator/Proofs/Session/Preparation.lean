import Calculator.Proofs.Expression.Completion
import Calculator.Session.Session

/-!
What preparing a text does to it. Parentheses are put behind each bare `mem` and nowhere else, whether
carets have become power signs before or do so afterwards; in a prepared text nothing is left to do.
-/
namespace Calculator

namespace Normalize

/-- The first unit behind spaces and tabs. -/
def firstVisible (t : Text) : Option CodeUnit :=
  (t.dropWhile fun u => u == 0x20 || u == 0x09).head?

/-- A bare `mem` ends behind the first `n` units: no letter, digit or underscore stands on either side of
it, and no parenthesis opens behind it, spaces and tabs aside. -/
def BareBefore (t : Text) (n : Nat) : Prop :=
  (3 ≤ n ∧ (t.take n).drop (n - 3) = "mem") ∧
    (∀ u ∈ (t.take (n - 3)).getLast?, Text.isWordUnit u = false) ∧
    (∀ u ∈ (t.drop n).head?, Text.isWordUnit u = false) ∧ firstVisible (t.drop n) ≠ some 0x28

instance (t : Text) (n : Nat) : Decidable (BareBefore t n) :=
  inferInstanceAs (Decidable (_ ∧ _))

theorem opensCall_iff {t : Text} : opensCall t = true ↔ firstVisible t = some 0x28 := by
  induction t with
  | nil => simp [opensCall, firstVisible]
  | cons u rest ih =>
    by_cases blank : u = 0x20 ∨ u = 0x09
    · simpa [opensCall, firstVisible, blank] using ih
    · simp [opensCall, firstVisible, blank]

theorem endsInWord_eq (inWord : Bool) (t : Text) :
    endsInWord inWord t = (t.getLast?.map Text.isWordUnit).getD inWord := by
  induction t generalizing inWord with
  | nil => rfl
  | cons u rest ih =>
    rw [endsInWord, ih, List.getLast?_cons]
    cases rest.getLast? <;> rfl

theorem endsInWord_iff {t : Text} :
    endsInWord false t = false ↔ ∀ u ∈ t.getLast?, Text.isWordUnit u = false := by
  rw [endsInWord_eq]
  cases t.getLast? <;> simp

/-- What stands at a place, in terms of the text before and the text behind. -/
theorem bareBefore_append_iff (before s : Text) :
    BareBefore (before ++ s) (before.length + 3) ↔
      ∃ rest, s = 0x6D :: 0x65 :: 0x6D :: rest ∧ endsInWord false before = false ∧
        startsWithWordUnit rest = false ∧ opensCall rest = false := by
  have name : ("mem" : Text) = [0x6D, 0x65, 0x6D] := rfl
  have taken : ((before ++ s).take (before.length + 3)).drop before.length = s.take 3 := by
    simp [List.take_append]
  have behind : (before ++ s).drop (before.length + 3) = s.drop 3 := by
    simp [List.drop_append]
  have closed : ∀ t, opensCall t = false ↔ firstVisible t ≠ some 0x28 := fun t => by
    rw [← Bool.not_eq_true, opensCall_iff]
  rw [BareBefore, Nat.add_sub_cancel, taken, behind, List.take_left, name, ← endsInWord_iff]
  simp only [← startsWithWordUnit_iff, ← closed]
  constructor
  · rintro ⟨⟨_, spelled⟩, first, last, uncalled⟩
    refine ⟨s.drop 3, ?_, first, last, uncalled⟩
    rw [← List.take_append_drop 3 s, spelled]
    rfl
  · rintro ⟨rest, rfl, first, last, uncalled⟩
    exact ⟨⟨by omega, rfl⟩, first, last, uncalled⟩

/-- No bare name ends behind the next unit or the one after it. -/
def Passed (t : Text) (k : Nat) : Prop :=
  ∀ n, k < n → n < k + 3 → ¬ BareBefore t n

theorem passed_start (t : Text) : Passed t 0 := by
  rintro n _ few ⟨⟨room, _⟩, _⟩
  omega

theorem Passed.next {t : Text} {k : Nat} (passed : Passed t k) (plain : ¬ BareBefore t (k + 3)) :
    Passed t (k + 1) := by
  intro n low high
  by_cases last : n = k + 3
  · rwa [last]
  · exact passed n (by omega) (by omega)

/-- The rule that says where parentheses are put, for the stretch `s` behind `before`. -/
def completion (t : Text) (place : Nat) (s : Text) : Text :=
  (s.zipIdx place).flatMap fun (u, n) => u :: if BareBefore t n then "()" else []

theorem completion_cons (t : Text) (place : Nat) (u : CodeUnit) (s : Text) :
    completion t place (u :: s) =
      (u :: if BareBefore t place then "()" else []) ++ completion t (place + 1) s := rfl

/-- By induction on the text: the name is looked for where it begins, so behind it, and inside of it, no
other bare one can end. -/
theorem memoryFrom_eq_completion {inWord : Bool} (before : Text) {s : Text}
    (word : endsInWord false before = inWord) (passed : Passed (before ++ s) before.length) :
    memoryFrom inWord s = completion (before ++ s) (before.length + 1) s := by
  have moved : ∀ (b r : Text) (u : CodeUnit), (b ++ [u]) ++ r = b ++ u :: r := by simp
  have word' : ∀ (b : Text) (u : CodeUnit), endsInWord false (b ++ [u]) = Text.isWordUnit u := by
    intro b u
    rw [endsInWord_append]
    rfl
  fun_induction memoryFrom inWord s generalizing before with
  | case1 inWord rest whole ih =>
    have here := passed (before.length + 1) (by omega) (by omega)
    have part : ¬ BareBefore (before ++ 0x6D :: 0x65 :: 0x6D :: rest) (before.length + 3) := by
      rw [bareBefore_append_iff]
      rintro ⟨rest', same, first, last, _⟩
      obtain rfl : rest = rest' := by simpa using same
      simp [← word, first, last] at whole
    have later := ih (before ++ [0x6D]) (word' before _)
      (by simpa [moved] using passed.next part)
    rw [moved, List.length_append] at later
    rw [completion_cons, if_neg here, later]
    rfl
  | case2 inWord rest part ih =>
    obtain ⟨first, last⟩ : inWord = false ∧ startsWithWordUnit rest = false := by simpa using part
    subst first
    have here := passed (before.length + 1) (by omega) (by omega)
    have next := passed (before.length + 2) (by omega) (by omega)
    have name : BareBefore (before ++ 0x6D :: 0x65 :: 0x6D :: rest) (before.length + 3) ↔
        opensCall rest = false := by
      rw [bareBefore_append_iff]
      constructor
      · rintro ⟨rest', same, _, _, uncalled⟩
        obtain rfl : rest = rest' := by simpa using same
        exact uncalled
      · intro uncalled
        exact ⟨rest, rfl, word, last, uncalled⟩
    -- no name begins with the second letter of another, and one that begins with the third is not bare
    have inside : Passed (before ++ 0x6D :: 0x65 :: 0x6D :: rest) (before.length + 3) := by
      intro n low high bare
      obtain rfl | rfl : n = before.length + 4 ∨ n = before.length + 5 := by omega
      · have split := bareBefore_append_iff (before ++ [0x6D]) (0x65 :: 0x6D :: rest)
        rw [moved, List.length_append] at split
        obtain ⟨_, same, _⟩ := split.mp bare
        cases same
      · have split := bareBefore_append_iff (before ++ [0x6D, 0x65]) (0x6D :: rest)
        rw [List.append_assoc, List.length_append] at split
        obtain ⟨_, _, begins, _⟩ := split.mp bare
        rw [endsInWord_append] at begins
        cases begins
    have later := ih (before ++ [0x6D, 0x65, 0x6D]) (by rw [endsInWord_append]; rfl)
      (by simpa using inside)
    rw [List.append_assoc, List.length_append] at later
    rw [completion_cons, completion_cons, completion_cons, if_neg here, if_neg next, later]
    cases opens : opensCall rest with
    | true => simp [name, opens]
    | false => simp [name, opens, Text.ofString, Text.ofChar]
  | case3 inWord u rest plain ih =>
    have here := passed (before.length + 1) (by omega) (by omega)
    have part : ¬ BareBefore (before ++ u :: rest) (before.length + 3) := by
      rw [bareBefore_append_iff]
      rintro ⟨rest', same, _⟩
      obtain ⟨rfl, rfl⟩ := List.cons.inj same
      exact plain rest' rfl rfl
    have later := ih (before ++ [u]) (word' before u) (by simpa [moved] using passed.next part)
    rw [moved, List.length_append] at later
    rw [completion_cons, if_neg here, later]
    rfl
  | case4 inWord => rfl

theorem memory_eq_completion (t : Text) : memory t = completion t 1 t :=
  memoryFrom_eq_completion [] rfl (passed_start t)

theorem memoryFrom_boundary {t : Text} (boundary : startsWithWordUnit t = false) (inWord : Bool) :
    memoryFrom inWord t = memoryFrom true t := by
  cases t with
  | nil => rfl
  | cons u rest =>
    have other : u ≠ 0x6D := by
      rintro rfl
      cases boundary
    rw [memoryFrom_other inWord other, memoryFrom_other true other]

theorem startsWithWordUnit_memoryFrom (inWord : Bool) (t : Text) :
    startsWithWordUnit (memoryFrom inWord t) = startsWithWordUnit t := by
  cases t with
  | nil => rfl
  | cons u rest =>
    obtain ⟨tail, same⟩ := memoryFrom_cons inWord u rest
    rw [same]
    rfl

theorem opensCall_memoryFrom (inWord : Bool) (t : Text) : opensCall (memoryFrom inWord t) = opensCall t := by
  induction t generalizing inWord with
  | nil => rfl
  | cons u rest ih =>
    by_cases blank : u = 0x20 ∨ u = 0x09
    · have other : u ≠ 0x6D := by
        rintro rfl
        rcases blank with same | same <;> cases same
      rw [memoryFrom_other inWord other, opensCall, opensCall, if_pos blank, if_pos blank, ih]
    · obtain ⟨tail, same⟩ := memoryFrom_cons inWord u rest
      rw [same, opensCall, opensCall, if_neg blank, if_neg blank]

/-- Rewriting does not bring about the rest of the name. -/
theorem memoryFrom_eq_name {inWord : Bool} {t tail : Text}
    (same : memoryFrom inWord t = 0x65 :: 0x6D :: tail) : ∃ rest, t = 0x65 :: 0x6D :: rest := by
  have word : t.takeWhile Text.isWordUnit = 0x65 :: 0x6D :: tail.takeWhile Text.isWordUnit := by
    rw [← takeWhile_memoryFrom inWord, same]
    rfl
  obtain ⟨rest, whole⟩ := List.takeWhile_prefix (l := t) Text.isWordUnit
  rw [word] at whole
  exact ⟨_, whole.symm⟩

theorem memoryFrom_again (inWord : Bool) (t : Text) :
    memoryFrom inWord (memoryFrom inWord t) = memoryFrom inWord t := by
  fun_induction memoryFrom inWord t with
  | case1 inWord rest whole ih =>
    have inside : memoryFrom true (0x65 :: 0x6D :: rest) = 0x65 :: 0x6D :: memoryFrom true rest := by
      rw [memoryFrom_inWord]
      exact congrArg (0x65 :: ·) (memoryFrom_inWord _ _)
    rw [inside] at ih ⊢
    rw [memoryFrom, startsWithWordUnit_memoryFrom, if_pos whole, ih]
  | case2 inWord rest part ih =>
    obtain ⟨first, last⟩ : inWord = false ∧ startsWithWordUnit rest = false := by simpa using part
    subst first
    cases opens : opensCall rest with
    | true =>
      rw [if_pos rfl, List.nil_append, memoryFrom, startsWithWordUnit_memoryFrom, if_neg part,
        opensCall_memoryFrom, opens, ih]
      rfl
    | false =>
      have boundary : startsWithWordUnit (memoryFrom true rest) = false := by
        rw [startsWithWordUnit_memoryFrom, last]
      have called : memoryFrom true (0x28 :: 0x29 :: memoryFrom true rest) =
          0x28 :: 0x29 :: memoryFrom true rest := by
        rw [memoryFrom_inWord, memoryFrom_other _ (by decide), memoryFrom_boundary boundary, ih]
      exact congrArg (fun s => 0x6D :: 0x65 :: 0x6D :: s) called
  | case3 inWord u rest plain ih =>
    rw [memoryFrom, ih]
    rintro tail rfl same
    obtain ⟨rest', rfl⟩ := memoryFrom_eq_name same
    exact plain rest' rfl rfl
  | case4 inWord => rfl

theorem startsWithWordUnit_caret (t : Text) : startsWithWordUnit (caret t) = startsWithWordUnit t := by
  cases t with
  | nil => rfl
  | cons u rest =>
    by_cases power : u = 0x5E
    · subst power
      rfl
    · rw [caret_other power]
      rfl

theorem opensCall_caret (t : Text) : opensCall (caret t) = opensCall t := by
  induction t with
  | nil => rfl
  | cons u rest ih =>
    by_cases power : u = 0x5E
    · subst power
      rfl
    · rw [caret_other power, opensCall, opensCall, ih]

theorem memoryFrom_caret (inWord : Bool) (t : Text) :
    memoryFrom inWord (caret t) = caret (memoryFrom inWord t) := by
  have name : ∀ rest, caret (0x6D :: 0x65 :: 0x6D :: rest) = 0x6D :: 0x65 :: 0x6D :: caret rest :=
    fun rest => rfl
  fun_induction memoryFrom inWord t with
  | case1 inWord rest whole ih =>
    have inside : caret (0x65 :: 0x6D :: rest) = 0x65 :: 0x6D :: caret rest := rfl
    rw [inside] at ih
    rw [name, memoryFrom, startsWithWordUnit_caret, if_pos whole, ih]
    rfl
  | case2 inWord rest part ih =>
    rw [name, memoryFrom, startsWithWordUnit_caret, if_neg part, opensCall_caret, ih, name, caret_append]
    cases opensCall rest <;> rfl
  | case3 inWord u rest plain ih =>
    by_cases power : u = 0x5E
    · subst power
      have marks : memoryFrom inWord (0x2A :: 0x2A :: caret rest) =
          0x2A :: 0x2A :: memoryFrom false (caret rest) := by
        rw [memoryFrom_mark rfl, memoryFrom_mark rfl]
      exact marks.trans (congrArg (fun s => 0x2A :: 0x2A :: s) ih)
    · rw [caret_other power, caret_other power, memoryFrom, ih]
      -- what the text lacks of the name, no power sign brings about
      rintro tail rfl same
      obtain ⟨rest', rfl, _⟩ := caret_eq_append (s := [0x65, 0x6D]) (by decide) same
      exact plain rest' rfl rfl
  | case4 inWord => rfl

theorem no_caret (t : Text) : 0x5E ∉ caret t := by
  induction t with
  | nil => simp [caret]
  | cons u rest ih =>
    by_cases power : u = 0x5E
    · subst power
      simpa [caret] using ih
    · simpa [caret_other power, eq_comm] using ⟨power, ih⟩

end Normalize

open Normalize

theorem normalize_again (t : Text) : normalize (normalize t) = normalize t := by
  have plain : caret (caret t) = caret t := caret_eq_self (no_caret t)
  rw [normalize, normalize, memory, memory, ← memoryFrom_caret, plain, memoryFrom_again]

/-- Preparing a text puts parentheses behind its bare names and nowhere else, before or after the carets
become power signs, and leaves a prepared text as it is; hence an evaluation can be repeated from the text
that it prepared. -/
theorem normalize_settles (t : Text) :
    normalize (normalize t) = normalize t ∧
    memory (caret t) = caret (memory t) ∧
    memory t = ((t.zipIdx 1).flatMap fun (u, n) => u :: if BareBefore t n then "()" else []) ∧
    ∀ s : Session, (s.evaluate (s.evaluate t).normalized).outcome = (s.evaluate t).outcome := by
  refine ⟨normalize_again t, memoryFrom_caret false t, memory_eq_completion t, fun s => ?_⟩
  show s.outcome (normalize t) = s.outcome t
  rw [Session.outcome, Session.outcome, Session.parse, Session.parse, normalize_again]

end Calculator
