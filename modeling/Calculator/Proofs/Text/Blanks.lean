import Mathlib.Data.List.TakeWhile
import Calculator.Text.Blank

/-!
White space at the ends of a text and between its words. Trimming takes away what is blank at the ends
and nothing else; cutting a text at its blanks and joining the parts with single spaces replaces each run
of them.
-/
namespace Calculator.Text

/-- The text neither begins nor ends with white space. -/
structure Trimmed (t : Text) : Prop where
  first : ∀ u ∈ t.head?, isBlank u = false
  last : ∀ u ∈ t.getLast?, isBlank u = false

theorem dropWhile_blanks {before s : Text} (blank : ∀ u ∈ before, isBlank u = true)
    (first : ∀ u ∈ s.head?, isBlank u = false) : (before ++ s).dropWhile isBlank = s := by
  rw [List.dropWhile_append_of_pos blank]
  cases s with
  | nil => rfl
  | cons u rest => simp [first u rfl]

theorem trimEnd_append {s behind : Text} (last : ∀ u ∈ s.getLast?, isBlank u = false)
    (blank : ∀ u ∈ behind, isBlank u = true) : trimEnd (s ++ behind) = s := by
  rw [trimEnd, List.reverse_append, dropWhile_blanks (by simpa using blank) (by simpa using last),
    List.reverse_reverse]

theorem exists_trimEnd (t : Text) :
    ∃ behind, t = trimEnd t ++ behind ∧ (∀ u ∈ behind, isBlank u = true) ∧
      ∀ u ∈ (trimEnd t).getLast?, isBlank u = false := by
  refine ⟨(t.reverse.takeWhile isBlank).reverse, ?_, ?_, ?_⟩
  · rw [trimEnd, ← List.reverse_append, List.takeWhile_append_dropWhile, List.reverse_reverse]
  · intro u member
    exact List.all_eq_true.mp List.all_takeWhile u (List.mem_reverse.mp member)
  · intro u last
    have stops := List.head?_dropWhile_not isBlank t.reverse
    rw [trimEnd, List.getLast?_reverse, Option.mem_def] at last
    rwa [last] at stops

/-- What trimming takes away is blank and stands at the ends. -/
theorem exists_trim (t : Text) :
    ∃ before behind, t = before ++ t.trim ++ behind ∧ (∀ u ∈ before, isBlank u = true) ∧
      (∀ u ∈ behind, isBlank u = true) ∧ t.trim.Trimmed := by
  obtain ⟨behind, split, blank, last⟩ := exists_trimEnd (trimStart t)
  have whole : t = t.takeWhile isBlank ++ trimStart t := List.takeWhile_append_dropWhile.symm
  refine ⟨t.takeWhile isBlank, behind, ?_, List.all_eq_true.mp List.all_takeWhile, blank, ?_, last⟩
  · rw [List.append_assoc, trim, ← split, ← whole]
  · intro u first
    have stops := List.head?_dropWhile_not isBlank t
    have head : (trimStart t).head? = some u := by
      rw [split, List.head?_append, ← trim, Option.mem_def.mp first]
      rfl
    rw [trimStart] at head
    rwa [head] at stops

theorem Trimmed.trim_enclosed {before s behind : Text} (trimmed : s.Trimmed) (some : s ≠ [])
    (blank : ∀ u ∈ before, isBlank u = true) (blank' : ∀ u ∈ behind, isBlank u = true) :
    (before ++ s ++ behind).trim = s := by
  have first : ∀ u ∈ (s ++ behind).head?, isBlank u = false := by
    obtain ⟨u, rest, rfl⟩ := List.exists_cons_of_ne_nil some
    exact trimmed.first
  rw [trim, trimStart, List.append_assoc, dropWhile_blanks blank first, trimEnd_append trimmed.last blank']

theorem trim_blank {t : Text} (blank : ∀ u ∈ t, isBlank u = true) : t.trim = [] := by
  have none : t.dropWhile isBlank = [] := List.dropWhile_eq_nil_iff.mpr blank
  rw [trim, trimStart, none]
  rfl

/-- Blanks behind a text do not matter to what is left of it. -/
theorem trim_append_blank (s : Text) {behind : Text} (blank : ∀ u ∈ behind, isBlank u = true) :
    (s ++ behind).trim = s.trim := by
  obtain ⟨before, after, split, blank', blank'', trimmed⟩ := exists_trim s
  by_cases none : s.trim = []
  · rw [none]
    refine trim_blank fun u member => ?_
    rw [split, none, List.append_nil, List.mem_append, List.mem_append] at member
    rcases member with (first | last) | added
    · exact blank' u first
    · exact blank'' u last
    · exact blank u added
  · have whole : s ++ behind = before ++ s.trim ++ (after ++ behind) := by
      rw [← List.append_assoc, ← split]
    rw [whole]
    refine trimmed.trim_enclosed none blank' fun u member => ?_
    rcases List.mem_append.mp member with last | added
    · exact blank'' u last
    · exact blank u added

theorem trim_trim (t : Text) : t.trim.trim = t.trim := by
  obtain ⟨_, _, _, _, _, trimmed⟩ := exists_trim t
  by_cases none : t.trim = []
  · rw [none]
    rfl
  · have blank : ∀ u ∈ ([] : Text), isBlank u = true := by simp
    have enclosed := trimmed.trim_enclosed none blank blank
    simpa using enclosed

theorem mem_of_mem_trim {t : Text} {u : CodeUnit} (member : u ∈ t.trim) : u ∈ t := by
  obtain ⟨before, behind, split, _⟩ := exists_trim t
  rw [split]
  simp [member]

theorem splitBlanks_ne_nil (t : Text) : splitBlanks t ≠ [] := by
  fun_induction splitBlanks t with
  | case1 => simp
  | case2 _ _ _ _ _ ih => exact ih
  | case3 => simp
  | case4 => simp
  | case5 u rest visible ih =>
    cases parts : splitBlanks rest with
    | nil => exact absurd parts ih
    | cons t more => simp [prependToHead]

theorem splitBlanks_visible {u : CodeUnit} (visible : isBlank u = false) (rest : Text) :
    splitBlanks (u :: rest) = prependToHead u (splitBlanks rest) := by
  rw [splitBlanks.eq_def]
  simp [visible]

/-- A word and the blanks behind it are the first part. -/
theorem splitBlanks_word {word blanks t : Text} (visible : ∀ u ∈ word, isBlank u = false)
    (blank : ∀ u ∈ blanks, isBlank u = true) (some : blanks ≠ [])
    (first : ∃ u ∈ t.head?, isBlank u = false) :
    splitBlanks (word ++ blanks ++ t) = word :: splitBlanks t := by
  induction word with
  | nil =>
    induction blanks with
    | nil => exact absurd rfl some
    | cons u blanks ih =>
      simp only [List.mem_cons, forall_eq_or_imp] at blank
      cases blanks with
      | nil =>
        obtain ⟨v, head, visible⟩ := first
        obtain ⟨rest, rfl⟩ := List.head?_eq_some_iff.mp head
        simp [splitBlanks, blank.1, visible]
      | cons v blanks =>
        have more := ih blank.2 (by simp)
        have next : isBlank v = true := blank.2 v (by simp)
        rw [List.nil_append] at more ⊢
        rw [← more, List.cons_append, List.cons_append, splitBlanks, if_pos blank.1]
        simp [next]
  | cons u word ih =>
    simp only [List.mem_cons, forall_eq_or_imp] at visible
    rw [List.cons_append, List.cons_append, splitBlanks_visible visible.1, ih visible.2]
    rfl

theorem mem_splitBlanks {t part : Text} (member : part ∈ splitBlanks t) : ∀ u ∈ part, u ∈ t := by
  fun_induction splitBlanks t generalizing part with
  | case1 => simp_all
  | case2 u _ v rest _ ih => exact fun w inPart => List.mem_cons_of_mem u (ih member w inPart)
  | case3 u _ v rest _ ih =>
    rcases List.mem_cons.mp member with rfl | later
    · simp
    · exact fun w inPart => List.mem_cons_of_mem u (ih later w inPart)
  | case4 => simp_all
  | case5 u rest _ ih =>
    cases parts : splitBlanks rest with
    | nil => exact absurd parts (splitBlanks_ne_nil rest)
    | cons first more =>
      rw [parts, prependToHead, List.mem_cons] at member
      rw [parts] at ih
      rcases member with rfl | later
      · intro w inPart
        rcases List.mem_cons.mp inPart with rfl | inFirst
        · exact List.mem_cons_self
        · exact List.mem_cons_of_mem u (ih List.mem_cons_self w inFirst)
      · exact fun w inPart => List.mem_cons_of_mem u (ih (List.mem_cons_of_mem _ later) w inPart)

theorem join_cons {separator part : Text} {parts : List Text} (some : parts ≠ []) :
    join separator (part :: parts) = part ++ separator ++ join separator parts := by
  cases parts with
  | nil => contradiction
  | cons next rest => rfl

theorem mem_join {separator : Text} {parts : List Text} {u : CodeUnit} (member : u ∈ join separator parts) :
    u ∈ separator ∨ ∃ part ∈ parts, u ∈ part := by
  induction parts with
  | nil => cases member
  | cons part rest ih =>
    by_cases last : rest = []
    · subst last
      exact .inr ⟨part, List.mem_cons_self, member⟩
    · rw [join_cons last, List.mem_append, List.mem_append] at member
      rcases member with (here | between) | later
      · exact .inr ⟨part, List.mem_cons_self, here⟩
      · exact .inl between
      · rcases ih later with between | ⟨other, listed, inside⟩
        · exact .inl between
        · exact .inr ⟨other, List.mem_cons_of_mem part listed, inside⟩

end Calculator.Text
