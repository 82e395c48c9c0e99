import Calculator.Proofs.Expression.Lexemes

/-!
Where words end. The scanner takes as much as belongs together, so what stands right behind a word is
nothing that belongs to it; and a word in front of any such text is taken as a whole and no further.
-/
namespace Calculator

def Lexer.isNumberUnit (u : CodeUnit) : Bool :=
  Text.isDigit u || u == 0x2E || u == 0x65 || u == 0x45 || u == 0x2B || u == 0x2D

namespace Lexeme

/-- Numbers and names are made of their own units. -/
def Spelled : Lexeme → Prop
  | number raw => ∀ u ∈ raw, Lexer.isNumberUnit u = true
  | name text => ∀ u ∈ text, Text.isWordUnit u = true
  | _ => True

/-- Whether a unit right behind the word would belong to it, or spoil it. -/
def extendedBy : Lexeme → CodeUnit → Bool
  | number _, u => Lexer.continuesNumber u
  | name _, u => Text.isWordUnit u
  | operator .times, u => u == 0x2A
  | operator .divide, u => u == 0x2F
  | _, _ => false

/-- The word ends where the text begins. -/
def EndsBefore (lexeme : Lexeme) (t : Text) : Prop :=
  ∀ u ∈ t.head?, lexeme.extendedBy u = false

end Lexeme

namespace Lexer

theorem take_digitCount (t : Text) : t.take (digitCount t) = t.takeWhile Text.isDigit :=
  (List.prefix_iff_eq_take.mp (List.takeWhile_prefix _)).symm

theorem digit_units {t : Text} {u : CodeUnit} (member : u ∈ t.take (digitCount t)) :
    isNumberUnit u = true := by
  rw [take_digitCount] at member
  have digit := List.all_eq_true.mp List.all_takeWhile u member
  simp [isNumberUnit, digit]

theorem mantissa_units {t : Text} {u : CodeUnit} (member : u ∈ t.take (mantissaLength t)) :
    isNumberUnit u = true := by
  unfold mantissaLength at member
  split at member
  · rename_i rest point
    rw [Nat.add_assoc, List.take_add, point, Nat.add_comm 1, List.take_succ_cons, List.mem_append,
      List.mem_cons] at member
    rcases member with whole | rfl | fraction
    · exact digit_units whole
    · rfl
    · exact digit_units fraction
  · exact digit_units member

theorem sign_units {t : Text} {u : CodeUnit} (member : u ∈ t.take (signLength t)) :
    isNumberUnit u = true := by
  cases t with
  | nil => simp at member
  | cons v rest =>
    simp only [signLength] at member
    split at member
    · rename_i signed
      obtain rfl : u = v := by simpa using member
      rcases signed with rfl | rfl <;> rfl
    · simp at member

/-- Also of an exponent that lacks its digits. -/
theorem exponentExtent_units {t : Text} {u : CodeUnit} (member : u ∈ t.take (exponentExtent t).length) :
    isNumberUnit u = true := by
  cases t with
  | nil => simp at member
  | cons v rest =>
    simp only [exponentExtent] at member
    split at member
    · rename_i mark
      have first : isNumberUnit v = true := by rcases mark with rfl | rfl <;> rfl
      split at member
      · rw [Extent.length, Nat.add_comm 1, List.take_succ_cons, List.mem_cons] at member
        rcases member with rfl | sign
        · exact first
        · exact sign_units sign
      · rw [Extent.length, Nat.add_assoc, Nat.add_comm 1, List.take_succ_cons, List.mem_cons,
          List.take_add, List.mem_append] at member
        rcases member with rfl | sign | digits
        · exact first
        · exact sign_units sign
        · exact digit_units digits
    · simp [Extent.length] at member

theorem exponent_units {t : Text} {n : Nat} (extent : exponentExtent t = .whole n) {u : CodeUnit}
    (member : u ∈ t.take n) : isNumberUnit u = true :=
  exponentExtent_units (by rwa [extent])

theorem numberExtent_whole_iff {t : Text} {n : Nat} :
    numberExtent t = .whole n ↔
      ∃ k, exponentExtent (t.drop (mantissaLength t)) = .whole k ∧ mantissaLength t + k = n ∧
        Unfused (t.drop n) := by
  have stops : ∀ t : Text, (t.takeWhile continuesNumber).length = 0 ↔ Unfused t := by
    intro t
    cases t with
    | nil => simp [Unfused]
    | cons u rest => cases continues : continuesNumber u <;> simp [Unfused, continues]
  simp only [numberExtent]
  cases exponentExtent (t.drop (mantissaLength t)) with
  | malformed k => simp
  | whole k =>
    dsimp only
    by_cases none : ((t.drop (mantissaLength t + k)).takeWhile continuesNumber).length = 0
    · have unfused := (stops _).mp none
      rw [if_pos none]
      constructor
      · intro whole
        cases whole
        exact ⟨k, rfl, rfl, unfused⟩
      · rintro ⟨k', same, rfl, _⟩
        cases same
        rfl
    · rw [if_neg none]
      constructor
      · intro whole
        cases whole
      · rintro ⟨k', same, rfl, unfused⟩
        cases same
        exact (none ((stops _).mpr unfused)).elim

theorem number_units {t : Text} {n : Nat} (extent : numberExtent t = .whole n) {u : CodeUnit}
    (member : u ∈ t.take n) : isNumberUnit u = true := by
  obtain ⟨k, exponent, rfl, _⟩ := numberExtent_whole_iff.mp extent
  rw [List.take_add, List.mem_append] at member
  exact member.elim mantissa_units (exponent_units exponent)

/-- What is no number is made of units of numbers and of units that run a number on. -/
theorem numberExtent_units {t : Text} {u : CodeUnit} (member : u ∈ t.take (numberExtent t).length) :
    isNumberUnit u = true ∨ continuesNumber u = true := by
  simp only [numberExtent] at member
  have exponent := @exponentExtent_units (t.drop (mantissaLength t)) u
  cases extent : exponentExtent (t.drop (mantissaLength t)) with
  | malformed k =>
    rw [extent] at exponent
    simp only [extent, Extent.length, List.take_add, List.mem_append] at member
    exact .inl (member.elim mantissa_units exponent)
  | whole k =>
    rw [extent] at exponent
    simp only [extent] at member
    split at member
    · simp only [Extent.length, List.take_add, List.mem_append] at member
      exact .inl (member.elim mantissa_units exponent)
    · simp only [Extent.length, List.take_add, List.mem_append, or_assoc] at member
      rcases member with mantissa | exponent' | behind
      · exact .inl (mantissa_units mantissa)
      · exact .inl (exponent exponent')
      · rw [← List.prefix_iff_eq_take.mp (List.takeWhile_prefix _)] at behind
        exact .inr (List.all_eq_true.mp List.all_takeWhile u behind)

/-- A mark of an exponent and nothing behind it. -/
def LoneMark (t : Text) : Prop :=
  t = [0x65] ∨ t = [0x45]

theorem exponentExtent_unfused {s t : Text} (unfused : Unfused t) (more : ¬ LoneMark s) :
    exponentExtent (s ++ t) = exponentExtent s := by
  cases s with
  | nil =>
    cases t with
    | nil => rfl
    | cons u rest =>
      have word := unfused.not_word u (by simp)
      have mark : ¬ (u = 0x65 ∨ u = 0x45) := by
        rintro (rfl | rfl) <;> cases word
      simp [exponentExtent, mark]
  | cons u rest =>
    by_cases mark : u = 0x65 ∨ u = 0x45
    · cases rest with
      | nil => rcases mark with rfl | rfl <;> simp [LoneMark] at more
      | cons v rest =>
        have sign : signLength (v :: rest ++ t) = signLength (v :: rest) := rfl
        have inside : (v :: rest ++ t).drop (signLength (v :: rest)) =
            (v :: rest).drop (signLength (v :: rest)) ++ t :=
          List.drop_append_of_le_length (signLength_le _)
        rw [List.cons_append]
        simp only [exponentExtent, sign, inside, digitCount_append _ unfused]
    · simp [exponentExtent, mark]

/-- Where a mark stands alone, an exponent would have to take in more. -/
theorem LoneMark.longer {s t : Text} (lone : LoneMark s) {k : Nat}
    (extent : exponentExtent (s ++ t) = .whole k) : s.length < k := by
  have long : ∀ u : CodeUnit, (u = 0x65 ∨ u = 0x45) → exponentExtent (u :: t) = .whole k → 1 < k := by
    intro u mark whole
    simp only [exponentExtent, if_pos mark] at whole
    split at whole
    · cases whole
    · cases whole
      omega
  rcases lone with rfl | rfl
  · exact long _ (.inl rfl) extent
  · exact long _ (.inr rfl) extent

/-- Whether a text is a number does not depend on what it ends in front of. -/
theorem numberExtent_append_iff (s t : Text) :
    numberExtent (s ++ t) = .whole s.length ↔ numberExtent s = .whole s.length ∧ Unfused t := by
  have apart : ∀ unfused : Unfused t,
      (numberExtent (s ++ t) = .whole s.length ↔ numberExtent s = .whole s.length) := by
    intro unfused
    have mantissa : mantissaLength (s ++ t) = mantissaLength s := mantissaLength_append s unfused
    have inside : (s ++ t).drop (mantissaLength s) = s.drop (mantissaLength s) ++ t :=
      List.drop_append_of_le_length (mantissaLength_le s)
    simp only [numberExtent_whole_iff, mantissa, inside, List.drop_left, List.drop_length, unfused]
    have bound := mantissaLength_le s
    by_cases lone : LoneMark (s.drop (mantissaLength s))
    · have length : (s.drop (mantissaLength s)).length = s.length - mantissaLength s :=
        List.length_drop
      constructor
      · rintro ⟨k, extent, whole, _⟩
        have longer := lone.longer extent
        omega
      · rintro ⟨k, extent, whole, _⟩
        have longer := lone.longer (t := []) (by simpa using extent)
        omega
    · rw [exponentExtent_unfused unfused lone]
      simp [Unfused]
  constructor
  · intro extent
    obtain ⟨_, _, _, behind⟩ := numberExtent_whole_iff.mp extent
    rw [List.drop_left] at behind
    exact ⟨(apart behind).mp extent, behind⟩
  · rintro ⟨extent, unfused⟩
    exact (apart unfused).mpr extent

theorem startsNumber_letter {u : CodeUnit} (letter : Text.isLetter u = true) (rest : Text) :
    startsNumber (u :: rest) = false := by
  have bounds : (0x61 ≤ u.toNat ∧ u.toNat ≤ 0x7A) ∨ (0x41 ≤ u.toNat ∧ u.toNat ≤ 0x5A) := by
    simpa [Text.isLetter, Text.isLower, Text.isUpper, UInt16.le_iff_toNat_le] using letter
  have digit : Text.isDigit u = false := by
    simp only [Text.isDigit, UInt16.le_iff_toNat_le, Bool.and_eq_false_iff, decide_eq_false_iff_not]
    right
    show ¬ u.toNat ≤ 0x39
    omega
  have point : u ≠ 0x2E := by
    rintro rfl
    cases letter
  simp [startsNumber, digit, point]

theorem front_number {t : Text} {n : Nat} (starts : startsNumber t = true)
    (extent : numberExtent t = .whole n) : front t = .found (.number (t.take n)) := by
  simp [front, starts, extent]

theorem front_name {u : CodeUnit} (letter : Text.isLetter u = true) (rest : Text) :
    front (u :: rest) = .found (.name ((u :: rest).takeWhile Text.isWordUnit)) := by
  simp [front, startsNumber_letter letter, letter]

theorem front_symbol {t : Text} {op : Operator} (starts : startsNumber t = false)
    (letter : (t.head?.map Text.isLetter).getD false = false) (symbol : operator? t = some op) :
    front t = .found (.operator op) := by
  simp [front, starts, letter, symbol]

def marks : List Lexeme :=
  [.leftParen, .rightParen, .leftBracket, .rightBracket, .comma]

theorem punctuation_marks {u : CodeUnit} {lexeme : Lexeme} (found : punctuation? u = some lexeme) :
    lexeme ∈ marks := by
  unfold punctuation? at found
  repeat' split at found
  all_goals cases found <;> simp [marks]

theorem front_cases {t : Text} {lexeme : Lexeme} (found : front t = .found lexeme) :
    (∃ n, startsNumber t = true ∧ numberExtent t = .whole n ∧ lexeme = .number (t.take n)) ∨
    (∃ u rest, t = u :: rest ∧ Text.isLetter u = true ∧
      lexeme = .name ((u :: rest).takeWhile Text.isWordUnit)) ∨
    (∃ op, operator? t = some op ∧ lexeme = .operator op) ∨
    ∃ u rest, t = u :: rest ∧ lexeme ∈ marks ∧ lexeme.text = [u] := by
  unfold front at found
  split at found
  · rename_i starts
    split at found
    · rename_i n extent
      cases found
      exact .inl ⟨n, starts, extent, rfl⟩
    · cases found
  split at found
  · rename_i letter
    cases found
    cases t with
    | nil => cases letter
    | cons u rest => exact .inr (.inl ⟨u, rest, rfl, by simpa using letter, rfl⟩)
  split at found
  · rename_i op symbol
    cases found
    exact .inr (.inr (.inl ⟨op, symbol, rfl⟩))
  split at found
  · rename_i mark
    cases found
    cases t with
    | nil => cases mark
    | cons u rest =>
      have punctuation : punctuation? u = some lexeme := mark
      exact .inr (.inr (.inr ⟨u, rest, rfl, punctuation_marks punctuation,
        punctuation_text punctuation⟩))
  · cases found

theorem operator_ends {op : Operator} {rest : Text} (found : operator? (op.symbol ++ rest) = some op) :
    (Lexeme.operator op).EndsBefore rest := by
  intro u first
  cases rest with
  | nil => cases first
  | cons v rest =>
    obtain rfl : v = u := by simpa using first
    cases op with
    | times =>
      refine beq_eq_false_iff_ne.mpr ?_
      rintro rfl
      cases found
    | divide =>
      refine beq_eq_false_iff_ne.mpr ?_
      rintro rfl
      cases found
    | _ => rfl

theorem front_operator {op : Operator} {rest : Text} (ends : (Lexeme.operator op).EndsBefore rest) :
    front (op.symbol ++ rest) = .found (.operator op) := by
  cases op with
  | times =>
    cases rest with
    | nil => rfl
    | cons u rest =>
      have other : u ≠ 0x2A := beq_eq_false_iff_ne.mp (ends u rfl)
      have symbol : operator? (0x2A :: u :: rest) = some .times := by
        simp [operator?, Operator.all, Operator.symbol, Text.ofString, Text.ofChar, other.symm]
      exact front_symbol rfl rfl symbol
  | divide =>
    cases rest with
    | nil => rfl
    | cons u rest =>
      have other : u ≠ 0x2F := beq_eq_false_iff_ne.mp (ends u rfl)
      have symbol : operator? (0x2F :: u :: rest) = some .divide := by
        simp [operator?, Operator.all, Operator.symbol, Text.ofString, Text.ofChar, other.symm]
      exact front_symbol rfl rfl symbol
  | _ => rfl

theorem front_mark {lexeme : Lexeme} (mark : lexeme ∈ marks) (rest : Text) :
    front (lexeme.text ++ rest) = .found lexeme := by
  simp only [marks, List.mem_cons, List.not_mem_nil, or_false] at mark
  rcases mark with rfl | rfl | rfl | rfl | rfl <;> rfl

theorem mark_plain {mark : Lexeme} (isMark : mark ∈ marks) (t : Text) :
    mark.Spelled ∧ mark.EndsBefore t := by
  simp only [marks, List.mem_cons, List.not_mem_nil, or_false] at isMark
  rcases isMark with rfl | rfl | rfl | rfl | rfl <;> exact ⟨trivial, fun _ _ => rfl⟩

theorem number_split {s rest : Text} (starts : startsNumber (s ++ rest) = true)
    (extent : numberExtent (s ++ rest) = .whole s.length) (some : s ≠ []) :
    front s = .found (.number s) ∧ Unfused rest := by
  obtain ⟨extent, unfused⟩ := (numberExtent_append_iff s rest).mp extent
  rw [startsNumber_append some unfused] at starts
  have whole := front_number starts extent
  rw [List.take_length] at whole
  exact ⟨whole, unfused⟩

theorem name_split {u : CodeUnit} (letter : Text.isLetter u = true) (rest : Text) :
    front (u :: rest.takeWhile Text.isWordUnit) =
      .found (.name (u :: rest.takeWhile Text.isWordUnit)) := by
  have word : Text.isWordUnit u = true := by simp [Text.isWordUnit, letter]
  have units : ∀ v ∈ u :: rest.takeWhile Text.isWordUnit, Text.isWordUnit v = true := by
    simpa [word] using List.all_eq_true.mp List.all_takeWhile
  have whole : (u :: rest.takeWhile Text.isWordUnit).takeWhile Text.isWordUnit =
      u :: rest.takeWhile Text.isWordUnit := by
    have taken : ((u :: rest.takeWhile Text.isWordUnit) ++ []).takeWhile Text.isWordUnit =
        (u :: rest.takeWhile Text.isWordUnit) ++ [] := List.takeWhile_append_of_pos units
    rwa [List.append_nil] at taken
  rw [front_name letter, whole]

theorem not_word_dropWhile (t : Text) :
    ∀ u ∈ (t.dropWhile Text.isWordUnit).head?, Text.isWordUnit u = false := by
  intro u first
  have stops := List.head?_dropWhile_not Text.isWordUnit t
  rw [Option.mem_def.mp first] at stops
  exact stops

/-- What the scanner finds is a word, and nothing behind it belongs to it. -/
theorem front_split {t : Text} {lexeme : Lexeme} (found : front t = .found lexeme) :
    ∃ rest, t = lexeme.text ++ rest ∧ lexeme.text ≠ [] ∧ front lexeme.text = .found lexeme ∧
      lexeme.Spelled ∧ lexeme.EndsBefore rest := by
  have nonempty : t ≠ [] := by
    rintro rfl
    cases found
  obtain ⟨isPrefix, some⟩ := front_found nonempty found
  rcases front_cases found with ⟨n, starts, extent, rfl⟩ | ⟨u, tail, rfl, letter, rfl⟩ |
    ⟨op, symbol, rfl⟩ | ⟨u, tail, rfl, mark, _⟩
  · have split : t.take n ++ t.drop n = t := List.take_append_drop n t
    have length : (t.take n).length = n := by
      have bound := numberExtent_le t
      rw [extent, Extent.length] at bound
      rw [List.length_take, Nat.min_eq_left bound]
    obtain ⟨word, unfused⟩ :=
      number_split (s := t.take n) (by rwa [split]) (by rwa [split, length]) some
    exact ⟨t.drop n, split.symm, some, word, fun u member => number_units extent member, unfused⟩
  · have word : Text.isWordUnit u = true := by simp [Text.isWordUnit, letter]
    have text : (u :: tail).takeWhile Text.isWordUnit = u :: tail.takeWhile Text.isWordUnit := by
      simp [word]
    have units := List.all_eq_true.mp (List.all_takeWhile (p := Text.isWordUnit) (l := u :: tail))
    have whole := name_split letter tail
    rw [← text] at whole
    refine ⟨(u :: tail).dropWhile Text.isWordUnit, List.takeWhile_append_dropWhile.symm, some, whole,
      units, not_word_dropWhile _⟩
  · obtain ⟨rest, rfl⟩ := isPrefix
    have alone : (Lexeme.operator op).EndsBefore [] := by simp [Lexeme.EndsBefore]
    have word := front_operator alone
    rw [List.append_nil] at word
    exact ⟨rest, rfl, some, word, trivial, operator_ends symbol⟩
  · obtain ⟨rest, same⟩ := isPrefix
    have word := front_mark mark []
    rw [List.append_nil] at word
    exact ⟨rest, same.symm, some, word, mark_plain mark rest⟩

theorem front_join {lexeme : Lexeme} {rest : Text} (word : front lexeme.text = .found lexeme)
    (ends : lexeme.EndsBefore rest) : front (lexeme.text ++ rest) = .found lexeme := by
  rcases front_cases word with ⟨n, starts, extent, same⟩ | ⟨u, tail, text, letter, same⟩ |
    ⟨op, symbol, rfl⟩ | ⟨u, tail, _, mark, _⟩
  · obtain ⟨raw, rfl⟩ : ∃ raw, lexeme = .number raw := ⟨_, same⟩
    have whole : raw.take n = raw := (Lexeme.number.inj same).symm
    have bound := numberExtent_le raw
    have length : n = raw.length := by
      have taken := congrArg List.length whole
      rw [List.length_take] at taken
      simp only [Lexeme.text] at extent
      rw [extent, Extent.length] at bound
      omega
    rw [length] at extent
    have joined := (numberExtent_append_iff raw rest).mpr ⟨extent, ends⟩
    have some : raw ≠ [] := by
      rintro rfl
      cases starts
    have starts' : startsNumber (raw ++ rest) = true := by rwa [startsNumber_append some ends]
    have found := front_number starts' joined
    rwa [List.take_left] at found
  · obtain ⟨name, rfl⟩ : ∃ name, lexeme = .name name := ⟨_, same⟩
    have spelled : name = u :: tail := text
    subst spelled
    have whole : (u :: tail).takeWhile Text.isWordUnit = u :: tail := (Lexeme.name.inj same).symm
    have boundary : ∀ v ∈ rest.head?, Text.isWordUnit v = false := ends
    have found := front_name letter (tail ++ rest)
    rw [← List.cons_append, takeWhile_append_stop _ boundary, whole] at found
    exact found
  · exact front_operator ends
  · exact front_mark mark rest

end Lexer

end Calculator
