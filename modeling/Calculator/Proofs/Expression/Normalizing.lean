import Calculator.Expression.Normalize
import Calculator.Expression.Token

/-!
Normalizing part by part. What normalizing does to a stretch of text depends on its surroundings through
the words it touches and the parenthesis that may follow it, so it can be done on either side of a mark.
-/
namespace Calculator

namespace Normalize

theorem caret_append (s t : Text) : caret (s ++ t) = caret s ++ caret t := by
  induction s with
  | nil => rfl
  | cons u rest ih => by_cases power : u = 0x5E <;> simp [caret, power, ih]

/-- A text that holds no caret. -/
theorem caret_eq_self {t : Text} (none : 0x5E ∉ t) : caret t = t := by
  induction t with
  | nil => rfl
  | cons u rest ih =>
    obtain ⟨other, later⟩ : 0x5E ≠ u ∧ 0x5E ∉ rest := by simpa using none
    rw [caret, if_neg (Ne.symm other), ih later]

theorem caret_other {u : CodeUnit} (other : u ≠ 0x5E) (t : Text) : caret (u :: t) = u :: caret t := by
  rw [caret, if_neg other]

/-- What a rewritten text begins with, if it has no star, the text itself begins with. -/
theorem caret_eq_append {s t rest : Text} (none : 0x2A ∉ s) (same : caret t = s ++ rest) :
    ∃ tail, t = s ++ tail ∧ rest = caret tail := by
  induction s generalizing t with
  | nil => exact ⟨t, rfl, same.symm⟩
  | cons u s ih =>
    obtain ⟨other, later⟩ : u ≠ 0x2A ∧ 0x2A ∉ s := by simpa [eq_comm] using none
    cases t with
    | nil => cases same
    | cons v t =>
      by_cases power : v = 0x5E
      · rw [caret, if_pos power] at same
        exact (other (List.cons.inj same).1.symm).elim
      · rw [caret_other power] at same
        obtain ⟨rfl, behind⟩ := List.cons.inj same
        obtain ⟨tail, rfl, rest⟩ := ih later behind
        exact ⟨tail, rfl, rest⟩

/-- A unit other than the star comes from the text, and parts it as it parts the rewritten one. -/
theorem caret_eq_split {u : CodeUnit} (other : u ≠ 0x2A) {t before behind : Text}
    (same : caret t = before ++ u :: behind) :
    ∃ first second, t = first ++ u :: second ∧ before = caret first ∧ behind = caret second := by
  induction t generalizing before with
  | nil => simp [caret] at same
  | cons v t ih =>
    by_cases power : v = 0x5E
    · rw [caret, if_pos power] at same
      match before with
      | [] => exact (other (List.cons.inj same).1.symm).elim
      | [w] => exact (other (List.cons.inj (List.cons.inj same).2).1.symm).elim
      | w :: x :: before =>
        obtain ⟨rfl, rfl, later⟩ : 0x2A = w ∧ 0x2A = x ∧ caret t = before ++ u :: behind := by
          simpa using same
        obtain ⟨first, second, rfl, rfl, rfl⟩ := ih later
        exact ⟨v :: first, second, rfl, by rw [caret, if_pos power], rfl⟩
    · rw [caret_other power] at same
      cases before with
      | nil =>
        obtain ⟨rfl, rfl⟩ := List.cons.inj same
        exact ⟨[], t, rfl, rfl, rfl⟩
      | cons w before =>
        obtain ⟨rfl, later⟩ := List.cons.inj same
        obtain ⟨first, second, rfl, rfl, rfl⟩ := ih later
        exact ⟨v :: first, second, rfl, (caret_other power first).symm, rfl⟩

theorem mem_caret {u : CodeUnit} {t : Text} (member : u ∈ caret t) : u ∈ t ∨ u = 0x2A := by
  induction t with
  | nil => exact .inl member
  | cons v rest ih =>
    by_cases power : v = 0x5E
    · have signs : u = 0x2A ∨ u ∈ caret rest := by simpa [caret, power] using member
      rcases signs with sign | later
      · exact .inr sign
      · exact (ih later).imp_left (List.mem_cons_of_mem v)
    · rw [caret_other power] at member
      rcases List.mem_cons.mp member with rfl | later
      · exact .inl List.mem_cons_self
      · exact (ih later).imp_left (List.mem_cons_of_mem v)

theorem mem_memoryFrom {u : CodeUnit} {inWord : Bool} {t : Text} (member : u ∈ memoryFrom inWord t) :
    u ∈ t ∨ u = 0x28 ∨ u = 0x29 := by
  fun_induction memoryFrom inWord t with
  | case1 inWord rest whole ih =>
    rcases List.mem_cons.mp member with rfl | later
    · exact .inl List.mem_cons_self
    · exact (ih later).imp_left (List.mem_cons_of_mem _)
  | case2 inWord rest part ih =>
    rcases List.mem_append.mp (show u ∈ [0x6D, 0x65, 0x6D] ++ _ from member) with name | behind
    · exact .inl (List.mem_append_left rest name)
    rcases List.mem_append.mp behind with call | later
    · split at call
      · cases call
      · exact .inr (by simpa using call)
    · exact (ih later).imp_left (List.mem_append_right [0x6D, 0x65, 0x6D])
  | case3 inWord v rest plain ih =>
    rcases List.mem_cons.mp member with rfl | later
    · exact .inl List.mem_cons_self
    · exact (ih later).imp_left (List.mem_cons_of_mem _)
  | case4 => cases member

variable {v : CodeUnit} (alone : Text.isWordUnit v = false)
include alone

theorem startsWithWordUnit_append (s t : Text) :
    startsWithWordUnit (s ++ v :: t) = startsWithWordUnit s := by
  cases s with
  | nil => exact alone
  | cons u rest => rfl

theorem memoryFrom_mark (inWord : Bool) (t : Text) :
    memoryFrom inWord (v :: t) = v :: memoryFrom false t := by
  rw [memoryFrom, alone]
  rintro rest rfl
  cases alone

/-- The bare name does not come about through a mark put behind a text. -/
theorem memoryFrom_plain {u : CodeUnit} {s : Text} (inWord : Bool)
    (plain : ∀ rest, u = 0x6D → s = 0x65 :: 0x6D :: rest → False) (t : Text) :
    memoryFrom inWord (u :: s ++ v :: t) = u :: memoryFrom (Text.isWordUnit u) (s ++ v :: t) := by
  rw [List.cons_append, memoryFrom]
  intro rest first same
  -- where the text is shorter than the name, the mark would have to be a letter of it
  match s with
  | [] =>
    obtain ⟨rfl, _⟩ := List.cons.inj same
    cases alone
  | [a] =>
    obtain ⟨_, rfl, _⟩ : a = 0x65 ∧ v = 0x6D ∧ t = rest := by simpa using same
    cases alone
  | a :: b :: s' =>
    obtain ⟨rfl, rfl, _⟩ : a = 0x65 ∧ b = 0x6D ∧ s' ++ v :: t = rest := by simpa using same
    exact plain s' first rfl

omit alone in
theorem opensCall_append (visible : v ≠ 0x20 ∧ v ≠ 0x09) (closing : v ≠ 0x28) (s t : Text) :
    opensCall (s ++ v :: t) = opensCall s := by
  induction s with
  | nil => simp [opensCall, visible, closing]
  | cons u rest ih => by_cases space : u = 0x20 ∨ u = 0x09 <;> simp [opensCall, space, ih]

/-- A visible mark other than an opening parenthesis has no part in what is done before it. -/
theorem memoryFrom_append (visible : v ≠ 0x20 ∧ v ≠ 0x09) (closing : v ≠ 0x28) (inWord : Bool)
    (s t : Text) : memoryFrom inWord (s ++ v :: t) = memoryFrom inWord s ++ v :: memoryFrom false t := by
  fun_induction memoryFrom inWord s with
  | case1 inWord rest whole ih =>
    simp only [List.cons_append] at ih ⊢
    rw [memoryFrom, startsWithWordUnit_append alone, if_pos whole, ih]
  | case2 inWord rest part ih =>
    simp only [List.cons_append, List.append_assoc] at ih ⊢
    rw [memoryFrom, startsWithWordUnit_append alone, if_neg part, opensCall_append visible closing, ih]
  | case3 inWord u rest plain ih => rw [memoryFrom_plain alone inWord plain, ih, List.cons_append]
  | case4 inWord => exact memoryFrom_mark alone inWord t

omit alone in
/-- A name that is called is left as it is. -/
theorem memoryFrom_called (inWord : Bool) {word : Text} (units : ∀ u ∈ word, Text.isWordUnit u = true)
    (t : Text) : memoryFrom inWord (word ++ 0x28 :: t) = word ++ 0x28 :: memoryFrom false t := by
  have alone : Text.isWordUnit 0x28 = false := rfl
  fun_induction memoryFrom inWord word with
  | case1 inWord rest whole ih =>
    simp only [List.cons_append] at ih ⊢
    rw [memoryFrom, startsWithWordUnit_append alone, if_pos whole,
      ih fun u member => units u (List.mem_cons_of_mem _ member)]
  | case2 inWord rest part ih =>
    cases rest with
    | nil =>
      simp only [List.cons_append]
      rw [memoryFrom, startsWithWordUnit_append alone, if_neg part, List.nil_append,
        memoryFrom_mark alone]
      simp [opensCall]
    | cons u rest =>
      have unit := units u (by simp)
      simp [startsWithWordUnit, unit] at part
  | case3 inWord u rest plain ih =>
    rw [memoryFrom_plain alone inWord plain, ih fun u member => units u (List.mem_cons_of_mem _ member),
      List.cons_append]
  | case4 inWord => exact memoryFrom_mark alone inWord t

end Normalize

/-- The ways to write an operator; the caret is the power sign as well. -/
def Operator.spellings : Operator → List Text
  | power => [power.symbol, "^"]
  | op => [op.symbol]

open Normalize

/-- Only signs and the marks of a call are new in a normalized text. -/
theorem mem_normalize {u : CodeUnit} {t : Text} (member : u ∈ normalize t) :
    u ∈ t ∨ u = 0x2A ∨ u = 0x28 ∨ u = 0x29 := by
  rcases mem_memoryFrom member with rewritten | mark
  · exact (mem_caret rewritten).imp_right .inl
  · exact .inr (.inr mark)

section Marks

variable {v : CodeUnit} (alone : Text.isWordUnit v = false) (plain : v ≠ 0x5E)
include alone plain

theorem normalize_mark (t : Text) : normalize (v :: t) = v :: normalize t := by
  rw [normalize, caret, if_neg plain]
  exact memoryFrom_mark alone false _

theorem normalize_append_mark (visible : v ≠ 0x20 ∧ v ≠ 0x09) (closing : v ≠ 0x28) (s t : Text) :
    normalize (s ++ v :: t) = normalize s ++ v :: normalize t := by
  rw [normalize, caret_append, caret, if_neg plain]
  exact memoryFrom_append alone visible closing false _ _

end Marks

theorem normalize_group (t : Text) : normalize ("(" ++ t ++ ")") = "(" ++ normalize t ++ ")" := by
  have closed : normalize (t ++ [0x29]) = normalize t ++ [0x29] :=
    normalize_append_mark rfl (by decide) (by decide) (by decide) t []
  have whole : normalize (0x28 :: (t ++ [0x29])) = 0x28 :: normalize (t ++ [0x29]) :=
    normalize_mark rfl (by decide) _
  rw [closed] at whole
  exact whole

theorem normalize_negative_group (t : Text) :
    normalize ("-(" ++ t ++ ")") = "-" ++ ("(" ++ normalize t ++ ")") := by
  have operand : normalize (0x28 :: (t ++ [0x29])) = 0x28 :: (normalize t ++ [0x29]) := normalize_group t
  have whole : normalize (0x2D :: 0x28 :: (t ++ [0x29])) = 0x2D :: 0x28 :: (normalize t ++ [0x29]) := by
    rw [normalize_mark rfl (by decide), operand]
  exact whole

theorem normalize_spelling {op : Operator} {sign : Text} (spells : sign ∈ op.spellings) (t : Text) :
    normalize (sign ++ t) = op.symbol ++ normalize t := by
  cases op with
  | power =>
    obtain rfl | rfl : sign = Operator.power.symbol ∨ sign = "^" := by
      simpa [Operator.spellings] using spells
    · rfl
    · rfl
  | _ =>
    cases List.mem_singleton.mp spells
    rfl

theorem normalize_operation {op : Operator} {sign : Text} (spells : sign ∈ op.spellings) (s t : Text) :
    normalize ("(" ++ s ++ ") " ++ sign ++ " (" ++ t ++ ")") =
      "(" ++ normalize s ++ ")" ++ " " ++ op.symbol ++ " " ++ ("(" ++ normalize t ++ ")") := by
  have operand : normalize (0x28 :: (t ++ [0x29])) = 0x28 :: (normalize t ++ [0x29]) := normalize_group t
  have right : normalize (0x20 :: (sign ++ 0x20 :: 0x28 :: (t ++ [0x29]))) =
      0x20 :: (op.symbol ++ 0x20 :: 0x28 :: (normalize t ++ [0x29])) := by
    rw [normalize_mark rfl (by decide), normalize_spelling spells, normalize_mark rfl (by decide),
      operand]
  have whole : normalize (0x28 :: (s ++ 0x29 :: 0x20 :: (sign ++ 0x20 :: 0x28 :: (t ++ [0x29])))) =
      0x28 :: (normalize s ++ 0x29 :: 0x20 :: (op.symbol ++ 0x20 :: 0x28 :: (normalize t ++ [0x29]))) := by
    rw [normalize_mark rfl (by decide), normalize_append_mark rfl (by decide) (by decide) (by decide),
      right]
  simp only [List.append_assoc] at whole ⊢
  exact whole

theorem normalize_join (ts : List Text) :
    normalize (Text.join ", " ts ++ [0x29]) = Text.join ", " (ts.map normalize) ++ [0x29] := by
  induction ts with
  | nil => rfl
  | cons t rest ih =>
    cases rest with
    | nil => exact normalize_append_mark rfl (by decide) (by decide) (by decide) t []
    | cons second rest =>
      have first : normalize (t ++ 0x2C :: 0x20 :: (Text.join ", " (second :: rest) ++ [0x29])) =
          normalize t ++ 0x2C :: 0x20 ::
            (Text.join ", " ((second :: rest).map normalize) ++ [0x29]) := by
        rw [normalize_append_mark rfl (by decide) (by decide) (by decide), normalize_mark rfl (by decide),
          ih]
      simp only [Text.join, List.map_cons, List.append_assoc] at first ⊢
      exact first

theorem normalize_call {name : Text} (units : ∀ u ∈ name, Text.isWordUnit u = true) (ts : List Text) :
    normalize (name ++ "(" ++ Text.join ", " ts ++ ")") =
      name ++ "(" ++ Text.join ", " (ts.map normalize) ++ ")" := by
  have plain : caret name = name := caret_eq_self fun member => by cases units _ member
  have args := normalize_join ts
  have called := memoryFrom_called false units (caret (Text.join ", " ts ++ [0x29]))
  rw [normalize, memory] at args
  have whole : normalize (name ++ 0x28 :: (Text.join ", " ts ++ [0x29])) =
      name ++ 0x28 :: (Text.join ", " (ts.map normalize) ++ [0x29]) := by
    rw [normalize, memory, caret_append, plain, caret, if_neg (by decide), called, args]
  simp only [List.append_assoc] at whole ⊢
  exact whole

end Calculator
