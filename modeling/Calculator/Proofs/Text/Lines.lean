import Calculator.Text.Blank

/-!
The lines of a text. A line feed parts the text it stands in, and the texts on both sides have the same
lines on their own; only a carriage return just before it is lost.
-/
namespace Calculator.Text

/-- The text less a carriage return at its end. -/
def withoutReturn : Text → Text
  | [] => []
  | [u] => if u = 0x0D then [] else [u]
  | u :: v :: rest => u :: withoutReturn (v :: rest)

theorem withoutReturn_cons (u : CodeUnit) {t : Text} (some : t ≠ []) :
    withoutReturn (u :: t) = u :: withoutReturn t := by
  cases t with
  | nil => contradiction
  | cons v rest => rfl

/-- What is taken away is at most a carriage return. -/
theorem eq_withoutReturn_append (t : Text) :
    ∃ behind, t = withoutReturn t ++ behind ∧ (behind = [] ∨ behind = [0x0D]) := by
  fun_induction withoutReturn t with
  | case1 => exact ⟨[], rfl, .inl rfl⟩
  | case2 => exact ⟨[0x0D], rfl, .inr rfl⟩
  | case3 => exact ⟨[], rfl, .inl rfl⟩
  | case4 u v rest ih =>
    obtain ⟨behind, split, atMost⟩ := ih
    exact ⟨behind, by rw [List.cons_append, ← split], atMost⟩

theorem withoutReturn_eq_self {t : Text} (none : 0x0D ∉ t) : withoutReturn t = t := by
  obtain ⟨behind, split, rfl | rfl⟩ := eq_withoutReturn_append t
  · rw [List.append_nil] at split
    exact split.symm
  · rw [split] at none
    simp at none

theorem splitLines_cons {u : CodeUnit} {t : Text} (other : u ≠ 0x0A)
    (kept : u = 0x0D → t.head? ≠ some 0x0A) :
    splitLines (u :: t) = prependToHead u (splitLines t) := by
  rw [splitLines]
  · exact other
  · rintro rest rfl rfl
    exact kept rfl rfl

theorem splitLines_ne_nil (t : Text) : splitLines t ≠ [] := by
  fun_cases splitLines t with
  | case4 u rest =>
    cases lines : splitLines rest <;> simp [prependToHead]
  | _ => simp

/-- Only the empty text is one empty line. -/
theorem eq_nil_of_splitLines {t : Text} (lines : splitLines t = [[]]) : t = [] := by
  revert lines
  fun_cases splitLines t with
  | case1 => exact fun _ => rfl
  | case4 u rest => cases splitLines rest <;> simp [prependToHead]
  | _ => simp [splitLines_ne_nil]

theorem splitLines_no_feed {t : Text} (none : 0x0A ∉ t) : splitLines t = [t] := by
  induction t with
  | nil => rfl
  | cons u rest ih =>
    obtain ⟨other, later⟩ : 0x0A ≠ u ∧ 0x0A ∉ rest := by simpa using none
    have kept : u = 0x0D → rest.head? ≠ some 0x0A :=
      fun _ feed => later (List.mem_of_mem_head? feed)
    rw [splitLines_cons (Ne.symm other) kept, ih later]
    rfl

/-- Before a line feed stand the lines of the text before it, the last of them without a carriage return
that stands at its end; behind it stand the lines of the text behind it. -/
theorem splitLines_append_feed (s t : Text) :
    ∃ before last, splitLines s = before ++ [last] ∧
      splitLines (s ++ 0x0A :: t) = before ++ withoutReturn last :: splitLines t := by
  fun_induction splitLines s with
  | case1 => exact ⟨[], [], rfl, rfl⟩
  | case2 rest ih =>
    obtain ⟨before, last, lines, whole⟩ := ih
    exact ⟨[] :: before, last, by rw [lines, List.cons_append], by
      rw [List.cons_append, splitLines, whole, List.cons_append]⟩
  | case3 rest ih =>
    obtain ⟨before, last, lines, whole⟩ := ih
    exact ⟨[] :: before, last, by rw [lines, List.cons_append], by
      rw [List.cons_append, List.cons_append, splitLines, whole, List.cons_append]⟩
  | case4 u rest other kept ih =>
    by_cases final : rest = []
    · -- a carriage return at the very end of the first text goes with the line feed
      subst final
      refine ⟨[], [u], rfl, ?_⟩
      by_cases back : u = 0x0D
      · subst back
        rfl
      · rw [List.cons_append, splitLines_cons other fun same => absurd same back]
        simp [splitLines, prependToHead, withoutReturn, back]
    · have kept' : u = 0x0D → (rest ++ 0x0A :: t).head? ≠ some 0x0A := by
        intro same feed
        obtain ⟨v, tail, rfl⟩ := List.exists_cons_of_ne_nil final
        obtain rfl : v = 0x0A := by simpa using feed
        exact kept tail same rfl
      obtain ⟨before, last, lines, whole⟩ := ih
      rw [List.cons_append, splitLines_cons other kept', whole, lines]
      cases before with
      | nil =>
        have some : last ≠ [] := by
          rintro rfl
          exact final (eq_nil_of_splitLines lines)
        exact ⟨[], u :: last, rfl, by rw [withoutReturn_cons u some]; rfl⟩
      | cons first before => exact ⟨(u :: first) :: before, last, rfl, rfl⟩

/-- Nothing of a text is in its lines but its units less the line feeds. -/
theorem mem_splitLines {t line : Text} (member : line ∈ splitLines t) :
    0x0A ∉ line ∧ ∀ u ∈ line, u ∈ t := by
  fun_induction splitLines t generalizing line with
  | case1 => simp_all
  | case2 rest ih =>
    rcases List.mem_cons.mp member with rfl | later
    · simp
    · exact ⟨(ih later).1, fun u inside => List.mem_cons_of_mem _ ((ih later).2 u inside)⟩
  | case3 rest ih =>
    rcases List.mem_cons.mp member with rfl | later
    · simp
    · exact ⟨(ih later).1, fun u inside => List.mem_append_right [0x0D, 0x0A] ((ih later).2 u inside)⟩
  | case4 u rest other kept ih =>
    cases lines : splitLines rest with
    | nil => exact absurd lines (splitLines_ne_nil rest)
    | cons first more =>
      rw [lines] at ih member
      rcases List.mem_cons.mp member with rfl | later
      · obtain ⟨unbroken, inside⟩ := ih List.mem_cons_self
        exact ⟨by simpa [unbroken, eq_comm] using other, by simp +contextual [inside]⟩
      · have known := ih (List.mem_cons_of_mem _ later)
        exact ⟨known.1, fun v inside => List.mem_cons_of_mem u (known.2 v inside)⟩

end Calculator.Text
