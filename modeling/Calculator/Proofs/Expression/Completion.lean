import Calculator.Expression.Lexer
import Calculator.Proofs.Expression.Normalizing

/-!
Completing a bare `mem` in a text. A name is completed where it begins and nothing else is touched, so a
text can be followed from its front, whichever of the two forms it is given in.
-/
namespace Calculator

namespace Normalize

/-- Whether a text goes on, after any white space, with an opening parenthesis. -/
def callFollows (t : Text) : Bool :=
  (t.dropWhile Lexer.isSpace).head? == some 0x28

/-- Whether a word unit stands before what follows the text. -/
def endsInWord (inWord : Bool) : Text → Bool
  | [] => inWord
  | u :: rest => endsInWord (Text.isWordUnit u) rest

/-- Behind each bare `mem`, the parenthesis that opens the call, if any, is in sight. -/
def KeepsCalls (inWord : Bool) (t : Text) : Prop :=
  ∀ before rest, t = before ++ 0x6D :: 0x65 :: 0x6D :: rest → endsInWord inWord before = false →
    startsWithWordUnit rest = false → opensCall rest = callFollows rest

theorem endsInWord_append (inWord : Bool) (s t : Text) :
    endsInWord inWord (s ++ t) = endsInWord (endsInWord inWord s) t := by
  induction s generalizing inWord with
  | nil => rfl
  | cons u rest ih => exact ih _

theorem KeepsCalls.behind {inWord : Bool} {s t : Text} (keeps : KeepsCalls inWord (s ++ t)) :
    KeepsCalls (endsInWord inWord s) t := by
  rintro before rest rfl bare apart
  exact keeps (s ++ before) rest (by simp) (by rwa [endsInWord_append]) apart

theorem memoryFrom_other (inWord : Bool) {u : CodeUnit} (other : u ≠ 0x6D) (t : Text) :
    memoryFrom inWord (u :: t) = u :: memoryFrom (Text.isWordUnit u) t := by
  rw [memoryFrom]
  rintro rest rfl
  contradiction

theorem memoryFrom_inWord (u : CodeUnit) (t : Text) :
    memoryFrom true (u :: t) = u :: memoryFrom (Text.isWordUnit u) t := by
  by_cases named : ∃ rest, u = 0x6D ∧ t = 0x65 :: 0x6D :: rest
  · obtain ⟨rest, rfl, rfl⟩ := named
    rfl
  · rw [memoryFrom]
    rintro rest rfl rfl
    exact named ⟨rest, rfl, rfl⟩

theorem memoryFrom_stretch (inWord : Bool) {s : Text} (none : 0x6D ∉ s) (t : Text) :
    memoryFrom inWord (s ++ t) = s ++ memoryFrom (endsInWord inWord s) t := by
  induction s generalizing inWord with
  | nil => rfl
  | cons u rest ih =>
    obtain ⟨other, later⟩ : u ≠ 0x6D ∧ 0x6D ∉ rest := by simpa [eq_comm] using none
    rw [List.cons_append, memoryFrom_other inWord other, ih _ later]
    rfl

theorem memoryFrom_rest_of_name {s : Text} (units : ∀ u ∈ s, Text.isWordUnit u = true) (t : Text) :
    memoryFrom true (s ++ t) = s ++ memoryFrom true t := by
  induction s with
  | nil => rfl
  | cons u rest ih =>
    rw [List.cons_append, memoryFrom_inWord, units u (by simp),
      ih fun v member => units v (List.mem_cons_of_mem u member)]
    rfl

/-- Where a longer name begins, its first unit is passed like any other. -/
theorem memoryFrom_longer {u : CodeUnit} {s : Text} (units : ∀ v ∈ u :: s, Text.isWordUnit v = true)
    (longer : u :: s ≠ [0x6D, 0x65, 0x6D]) {t : Text} (boundary : startsWithWordUnit t = false) :
    memoryFrom false (u :: (s ++ t)) = u :: memoryFrom true (s ++ t) := by
  have word : Text.isWordUnit u = true := units u (by simp)
  by_cases named : ∃ rest, u = 0x6D ∧ s ++ t = 0x65 :: 0x6D :: rest
  · obtain ⟨rest, rfl, same⟩ := named
    match s with
    | [] =>
      obtain rfl : t = 0x65 :: 0x6D :: rest := same
      cases boundary
    | [v] =>
      obtain ⟨_, rfl⟩ : v = 0x65 ∧ t = 0x6D :: rest := by simpa using same
      cases boundary
    | [v, w] =>
      obtain ⟨rfl, rfl, _⟩ : v = 0x65 ∧ w = 0x6D ∧ t = rest := by simpa using same
      exact (longer rfl).elim
    | v :: w :: x :: more =>
      obtain ⟨rfl, rfl, _⟩ : v = 0x65 ∧ w = 0x6D ∧ x :: more ++ t = rest := by simpa using same
      have inside : startsWithWordUnit (x :: more ++ t) = true := units x (by simp)
      simp only [List.cons_append] at inside ⊢
      rw [memoryFrom, inside, Bool.or_true, if_pos rfl]
  · rw [memoryFrom, word]
    rintro rest rfl same
    exact named ⟨rest, rfl, same⟩

theorem memoryFrom_name {s : Text} (some : s ≠ []) (units : ∀ u ∈ s, Text.isWordUnit u = true) {t : Text}
    (boundary : startsWithWordUnit t = false) :
    memoryFrom false (s ++ t) =
      s ++ ((if s = "mem" ∧ opensCall t = false then [0x28, 0x29] else []) ++ memoryFrom true t) := by
  by_cases named : s = "mem"
  · subst named
    show memoryFrom false (0x6D :: 0x65 :: 0x6D :: t) = _
    rw [memoryFrom, boundary]
    cases opensCall t <;> rfl
  · cases s with
    | nil => contradiction
    | cons u rest =>
      have later := memoryFrom_rest_of_name (fun v member => units v (List.mem_cons_of_mem u member)) t
      rw [List.cons_append, memoryFrom_longer units named boundary, later]
      simp [named]

theorem head_memoryFrom (inWord : Bool) (t : Text) : (memoryFrom inWord t).head? = t.head? := by
  fun_induction memoryFrom inWord t <;> rfl

theorem memoryFrom_cons (inWord : Bool) (u : CodeUnit) (t : Text) :
    ∃ rest, memoryFrom inWord (u :: t) = u :: rest := by
  have head := head_memoryFrom inWord (u :: t)
  cases rewritten : memoryFrom inWord (u :: t) with
  | nil => simp [rewritten] at head
  | cons v rest =>
    obtain rfl : v = u := by simpa [rewritten] using head
    exact ⟨rest, rfl⟩

theorem takeWhile_boundary {t : Text} (boundary : startsWithWordUnit t = false) :
    t.takeWhile Text.isWordUnit = [] := by
  cases t with
  | nil => rfl
  | cons u rest =>
    have alone : Text.isWordUnit u = false := boundary
    simp [alone]

theorem takeWhile_memoryFrom (inWord : Bool) (t : Text) :
    (memoryFrom inWord t).takeWhile Text.isWordUnit = t.takeWhile Text.isWordUnit := by
  fun_induction memoryFrom inWord t with
  | case1 inWord rest whole ih =>
    rw [List.takeWhile_cons, ih]
    rfl
  | case2 inWord rest part ih =>
    have boundary : startsWithWordUnit rest = false := by
      cases starts : startsWithWordUnit rest with
      | false => rfl
      | true => simp [starts] at part
    rw [takeWhile_boundary boundary] at ih
    -- neither the text behind the name nor the parentheses put there go on with a word
    have added : ((if opensCall rest = true then [] else [0x28, 0x29]) ++
        memoryFrom true rest).takeWhile Text.isWordUnit = [] := by
      cases opensCall rest with
      | true => exact ih
      | false => rfl
    show 0x6D :: 0x65 :: 0x6D :: List.takeWhile Text.isWordUnit _ =
      0x6D :: 0x65 :: 0x6D :: List.takeWhile Text.isWordUnit rest
    rw [added, takeWhile_boundary boundary]
  | case3 inWord u rest plain ih =>
    cases word : Text.isWordUnit u with
    | false => simp [word]
    | true =>
      rw [word] at ih
      simp [word, ih]
  | case4 inWord => rfl

/-- What a rewritten text begins with, if it has not the first letter of the name, the text itself
begins with. -/
theorem memoryFrom_eq_append {inWord : Bool} {s t rest : Text} (none : 0x6D ∉ s)
    (same : memoryFrom inWord t = s ++ rest) :
    ∃ tail, t = s ++ tail ∧ rest = memoryFrom (endsInWord inWord s) tail := by
  induction s generalizing inWord t with
  | nil => exact ⟨t, rfl, same.symm⟩
  | cons u s ih =>
    obtain ⟨other, later⟩ : u ≠ 0x6D ∧ 0x6D ∉ s := by simpa [eq_comm] using none
    have head := head_memoryFrom inWord t
    rw [same] at head
    cases t with
    | nil => cases head
    | cons v t =>
      obtain rfl : u = v := by simpa using head
      rw [memoryFrom_other inWord other] at same
      obtain ⟨tail, rfl, behind⟩ := ih later (List.cons.inj same).2
      exact ⟨tail, rfl, behind⟩

theorem startsWithWordUnit_iff {t : Text} :
    startsWithWordUnit t = false ↔ ∀ u ∈ t.head?, Text.isWordUnit u = false := by
  cases t <;> simp [startsWithWordUnit]

theorem endsInWord_name (inWord : Bool) {name : Text} (some : name ≠ [])
    (units : ∀ u ∈ name, Text.isWordUnit u = true) : endsInWord inWord name = true := by
  induction name generalizing inWord with
  | nil => contradiction
  | cons u rest ih =>
    cases rest with
    | nil => exact units u (by simp)
    | cons v rest => exact ih inWord (by simp) fun w member => units w (List.mem_cons_of_mem u member)

/-- Behind a unit outside words, a text is completed as it is by itself. -/
theorem memoryFrom_behind {inWord : Bool} {s : Text} (bare : endsInWord inWord s = false) (t : Text) :
    ∃ before, memoryFrom inWord (s ++ t) = before ++ memoryFrom false t := by
  fun_induction memoryFrom inWord s with
  | case1 inWord rest whole ih =>
    obtain ⟨before, later⟩ := ih bare
    have whole' : (inWord || startsWithWordUnit (rest ++ t)) = true := by
      cases rest with
      | nil => cases inWord <;> simp [startsWithWordUnit] at whole ⊢
      | cons u rest => exact whole
    simp only [List.cons_append] at later ⊢
    rw [memoryFrom, if_pos whole', later]
    exact ⟨0x6D :: before, rfl⟩
  | case2 inWord rest part ih =>
    obtain ⟨before, later⟩ := ih bare
    cases rest with
    | nil => cases bare
    | cons u rest =>
      have part' : ¬ (inWord || startsWithWordUnit (u :: rest ++ t)) = true := part
      simp only [List.cons_append] at later part' ⊢
      rw [memoryFrom, if_neg part', later]
      exact ⟨_, by simp only [← List.cons_append, ← List.append_assoc]; rfl⟩
  | case3 inWord u rest plain ih =>
    obtain ⟨before, later⟩ := ih bare
    rw [List.cons_append, memoryFrom, later]
    · exact ⟨u :: before, rfl⟩
    -- the name cannot begin before the unit and end behind it
    · intro tail first same
      obtain _ | ⟨v, _ | ⟨w, rest⟩⟩ := rest
      · subst first
        cases bare
      · obtain ⟨rfl, _⟩ := List.cons.inj same
        cases bare
      · obtain ⟨rfl, rfl, _⟩ : v = 0x65 ∧ w = 0x6D ∧ rest ++ t = tail := by simpa using same
        exact plain rest first rfl
  | case4 inWord =>
    obtain rfl : inWord = false := bare
    exact ⟨[], rfl⟩

theorem callFollows_of_opensCall {t : Text} (opens : opensCall t = true) : callFollows t = true := by
  induction t with
  | nil => cases opens
  | cons u rest ih =>
    simp only [opensCall] at opens
    split at opens
    · rename_i blank
      have space : Lexer.isSpace u = true := by rcases blank with rfl | rfl <;> rfl
      simpa [callFollows, space] using ih opens
    · obtain rfl : u = 0x28 := by simpa using opens
      rfl

theorem callFollows_memoryFrom (inWord : Bool) (t : Text) :
    callFollows (memoryFrom inWord t) = callFollows t := by
  induction t generalizing inWord with
  | nil => rfl
  | cons u rest ih =>
    cases blank : Lexer.isSpace u with
    | true =>
      have other : u ≠ 0x6D := by
        rintro rfl
        cases blank
      rw [memoryFrom_other inWord other]
      simpa [callFollows, blank] using ih (Text.isWordUnit u)
    | false =>
      obtain ⟨tail, rewritten⟩ := memoryFrom_cons inWord u rest
      simp [callFollows, rewritten, blank]

end Normalize

end Calculator
