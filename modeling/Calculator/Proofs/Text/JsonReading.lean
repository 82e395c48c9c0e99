import Calculator.Proofs.Text.JsonWriting

/-!
What is written as JSON is read back, whatever follows it: strings with every unit they have, numbers up
to the sign of zero. A number that is not finite comes back as null.
-/
namespace Calculator.Json

/-- What is left of a number once it has been written. -/
def settledNumber (x : Binary64) : Json :=
  if x.isFinite then number (if x.isZero then .zero else x) else null

mutual

/-- What is left of a value once it has been written. -/
def settled : Json → Json
  | number x => settledNumber x
  | array items => array (settledItems items)
  | object fields => object (settledFields fields)
  | json => json

def settledItems : List Json → List Json
  | [] => []
  | item :: rest => settled item :: settledItems rest

def settledFields : List (Text × Json) → List (Text × Json)
  | [] => []
  | (key, value) :: rest => (key, settled value) :: settledFields rest

end

def settledField (field : Text × Json) : Text × Json :=
  (field.1, settled field.2)

theorem settledItems_eq_map (items : List Json) : settledItems items = items.map settled := by
  induction items with
  | nil => rfl
  | cons item rest ih => rw [settledItems, ih, List.map_cons]

theorem settledFields_eq_map (fields : List (Text × Json)) :
    settledFields fields = fields.map settledField := by
  induction fields with
  | nil => rfl
  | cons field rest ih => rw [settledFields, ih, List.map_cons, settledField]

/-! ## Strings -/

theorem hexValue_hexDigit : ∀ n < 16, hexValue? (hexDigit n) = some n := by
  decide

theorem readCode_escapeCode (u : CodeUnit) :
    readCode? (hexDigit (u.toNat / 4096)) (hexDigit (u.toNat / 256 % 16))
      (hexDigit (u.toNat / 16 % 16)) (hexDigit (u.toNat % 16)) = some u := by
  have top := u.toNat_lt
  have value : u.toNat / 4096 * 4096 + u.toNat / 256 % 16 * 256 + u.toNat / 16 % 16 * 16 +
    u.toNat % 16 = u.toNat := by omega
  have digit := hexValue_hexDigit
  simp only [readCode?, digit (u.toNat / 4096) (by omega), digit (u.toNat / 256 % 16) (by omega),
    digit (u.toNat / 16 % 16) (by omega), digit (u.toNat % 16) (by omega), Option.bind_eq_bind,
    Option.bind_some, Option.pure_def, value]
  exact congrArg some u.ofNat_toNat

theorem readString_escaped {u : CodeUnit} {e s t rest : Text} (escaped : Escapes u e)
    (behind : readString s = some (t, rest)) : readString (e ++ s) = some (u :: t, rest) := by
  cases escaped with
  | @letter v means visible =>
    have other : v ≠ 0x75 := by
      rintro rfl
      cases means
    simp [readString, means, other, behind]
  | code => simp [escapeCode, readString, readCode_escapeCode, behind]
  | plain visible noQuote noBackslash =>
    have printable : ¬ u < 0x20 := UInt16.not_lt.mpr visible
    simp [readString, noBackslash, printable, behind]

/-- A half of a surrogate pair needs no escape where its other half stands beside it. -/
theorem escapes_half {u : CodeUnit} (half : 0xD800 ≤ u) : Escapes u [u] := by
  refine .plain (UInt16.le_trans (by decide) half) ?_ ?_ <;> rintro rfl <;> exact absurd half (by decide)

theorem readString_escape (t rest : Text) : readString (escape t ++ 0x22 :: rest) = some (t, rest) := by
  fun_induction escape t with
  | case1 => rfl
  | case2 u => exact readString_escaped (escapes_escapeUnit u) rfl
  | case3 u v t pair ih =>
    simp only [Text.isHighHalf, Text.isLowHalf, Bool.and_eq_true, decide_eq_true_eq] at pair
    have low : 0xD800 ≤ v := UInt16.le_trans (by decide) pair.2.1
    have second := readString_escaped (escapes_half low) ih
    have first := readString_escaped (escapes_half pair.1.1) second
    exact first
  | case4 u v t _ ih =>
    rw [List.append_assoc]
    exact readString_escaped (escapes_escapeUnit u) ih

/-! ## Numbers -/

/-- The text begins with nothing that could belong to a number. -/
def EndsNumber (t : Text) : Prop :=
  ∀ u ∈ t.head?, isNumberUnit u = false

theorem isLiteral_text {n : Numeral} (strict : n.Strict) : isLiteral n.text = true := by
  have whole := Text.takeWhile_digits n.whole_decimal n.behind_whole_endsDigits
  have rest := Text.dropWhile_digits n.whole_decimal n.behind_whole_endsDigits
  rw [← List.append_assoc] at whole rest
  have behind : pointsAtDigit (n.fraction.elim [] (0x2E :: ·) ++ n.tail) = true := by
    have digits := n.fraction_decimal
    have some := strict.fraction
    cases fraction : n.fraction with
    | none =>
      rw [Option.elim_none, List.nil_append]
      unfold pointsAtDigit
      split
      · next same => exact absurd same (n.tail_not_point _)
      · rfl
    | some ds =>
      rw [fraction] at digits some
      obtain ⟨u, more, rfl⟩ := List.exists_cons_of_ne_nil fun none => some (congrArg Option.some none)
      simpa [pointsAtDigit] using digits u (by simp)
  rw [isLiteral, Numeral.text, Numeral.mantissa, whole, rest, behind]
  rcases strict.whole with zero | ⟨u, more, split, nonzero⟩
  · rw [zero]
    rfl
  · simp [split, nonzero]

theorem numeral_units (n : Numeral) : ∀ u ∈ n.text, isNumberUnit u = true := by
  intro u member
  rcases n.units member with digit | mark
  · simp [isNumberUnit, digit]
  · have marks : (".eE+-" : Text).all isNumberUnit = true := by decide
    exact List.all_eq_true.mp marks u mark

theorem readLiteral_text {n : Numeral} (strict : n.Strict) (negative : Bool) :
    readLiteral negative n.text = some (number (n.value.toBinary64 negative)) := by
  rw [readLiteral, if_pos (isLiteral_text strict), Decimal.read_text]
  rfl

theorem takeWhile_number {t rest : Text} (units : ∀ u ∈ t, isNumberUnit u = true) (ends : EndsNumber rest) :
    (t ++ rest).takeWhile isNumberUnit = t ∧ (t ++ rest).dropWhile isNumberUnit = rest := by
  rw [List.takeWhile_append_of_pos units, List.dropWhile_append_of_pos units]
  cases rest with
  | nil => simp
  | cons u rest => simp [ends u rfl]

/-- A sign and a numeral. -/
theorem readNumber_numeral {n : Numeral} (strict : n.Strict) (negative : Bool) {rest : Text}
    (ends : EndsNumber rest) :
    readNumber ((if negative then [0x2D] else []) ++ n.text ++ rest) =
      some (number (n.value.toBinary64 negative), rest) := by
  have literal := readLiteral_text strict negative
  have units := numeral_units n
  cases negative with
  | true =>
    have signed : ∀ u ∈ 0x2D :: n.text, isNumberUnit u = true := List.forall_mem_cons.mpr ⟨rfl, units⟩
    obtain ⟨taken, left⟩ := takeWhile_number signed ends
    simp only [readNumber, if_true, List.singleton_append, taken, left, literal, Option.map_some]
  | false =>
    obtain ⟨u, more, same, begins⟩ := n.begins
    have other : u ≠ 0x2D := by
      rintro rfl
      rcases begins with digit | point
      · cases digit
      · cases point
    obtain ⟨taken, left⟩ := takeWhile_number units ends
    simp only [readNumber, Bool.false_eq_true, if_false, List.nil_append, taken, left]
    rw [same] at literal ⊢
    simp [other, literal]

theorem readNumber_toText {x : Binary64} {rest : Text} (finite : x.isFinite = true)
    (ends : EndsNumber rest) :
    readNumber (x.toText ++ rest) = some (number (if x.isZero then .zero else x), rest) := by
  cases x with
  | nan => cases finite
  | infinite negative => cases finite
  | finite negative m fits =>
    obtain ⟨n, text, said, strict⟩ := Binary64.toText_finite negative fits
    have sign : Text.ofString (if negative && decide (m ≠ 0) then "-" else "") =
        if negative && decide (m ≠ 0) then [0x2D] else [] := by
      split <;> rfl
    rw [text, sign, readNumber_numeral strict _ ends]
    by_cases zero : m = 0
    · subst zero
      simp [said, Binary64.isZero, Binary64.zero, Binary64.round_unscaled false fits]
    · have negated : n.value.toBinary64 negative = .finite negative m fits := by
        cases negative with
        | false => exact said
        | true => rw [← Bool.not_false, Decimal.toBinary64_neg, said]; rfl
      simp [zero, negated, Binary64.isZero]

theorem exists_numberUnit {x : Binary64} (finite : x.isFinite = true) :
    ∃ u rest, x.toText = u :: rest ∧ isNumberUnit u = true := by
  have ends : EndsNumber [] := by simp [EndsNumber]
  have read := readNumber_toText finite ends
  rw [List.append_nil] at read
  cases text : x.toText with
  | nil =>
    rw [text] at read
    cases read
  | cons u rest =>
    cases first : isNumberUnit u with
    | true => exact ⟨u, rest, rfl, first⟩
    | false => simp [text, readNumber, first, readLiteral, isLiteral] at read

/-! ## Sequences -/

theorem skipSpace_visible {u : CodeUnit} (visible : isSpace u = false) (t : Text) :
    skipSpace (u :: t) = u :: t := by
  simp [skipSpace, visible]

/-- The units behind the last item. -/
def IsClosing (u : CodeUnit) : Prop :=
  u = 0x5D ∨ u = 0x7D

instance (u : CodeUnit) : Decidable (IsClosing u) :=
  inferInstanceAs (Decidable (u = 0x5D ∨ u = 0x7D))

theorem IsClosing.plain {u : CodeUnit} (closing : IsClosing u) :
    isSpace u = false ∧ isNumberUnit u = false ∧ u ≠ 0x2C := by
  rcases closing with rfl | rfl <;> decide

/-- The text shows what it is in front, and is read whatever follows it. -/
structure Reads {α : Type} (item : Text → Option (α × Text)) (t : Text) (a : α) : Prop where
  begins : ∃ u rest, t = u :: rest ∧ isSpace u = false ∧ ¬ IsClosing u
  reads : ∀ rest, EndsNumber rest → item (t ++ rest) = some (a, rest)

theorem length_le_join (separator : Text) {ts : List Text} (nonempty : ∀ t ∈ ts, t ≠ []) :
    ts.length ≤ (Text.join separator ts).length := by
  fun_induction Text.join separator ts with
  | case1 => simp
  | case2 t => exact List.length_pos_iff.mpr (nonempty t (by simp))
  | case3 t ts _ ih =>
    simp only [List.mem_cons, forall_eq_or_imp] at nonempty
    have first := List.length_pos_iff.mpr nonempty.1
    have others := ih nonempty.2
    simp only [List.length_cons, List.length_append]
    omega

theorem length_le_join_of_mem (separator : Text) {ts : List Text} {t : Text} (member : t ∈ ts) :
    t.length ≤ (Text.join separator ts).length := by
  fun_induction Text.join separator ts with
  | case1 => cases member
  | case2 s => exact Nat.le_of_eq (congrArg List.length (List.mem_singleton.mp member))
  | case3 s ts _ ih =>
    simp only [List.length_append]
    rcases List.mem_cons.mp member with rfl | later
    · omega
    · have others := ih later
      omega

section Sequences

variable {α β : Type} {item : Text → Option (α × Text)} {closing : CodeUnit} (closes : IsClosing closing)
  {spelled : β → Text} {value : β → α} {xs : List β}
include closes

theorem readSequence_join (some : xs ≠ []) (each : ∀ x ∈ xs, Reads item (spelled x) (value x))
    {fuel : Nat} (enough : xs.length ≤ fuel) (rest : Text) :
    readSequence item closing fuel (Text.join "," (xs.map spelled) ++ closing :: rest) =
      Option.some (xs.map value, rest) := by
  have comma : ("," : Text) = [0x2C] := rfl
  obtain ⟨visible, noNumber, noComma⟩ := closes.plain
  induction xs generalizing fuel with
  | nil => exact absurd rfl some
  | cons x xs ih =>
    simp only [List.mem_cons, forall_eq_or_imp] at each
    obtain ⟨fuel, rfl⟩ : ∃ k, fuel = k + 1 := ⟨fuel - 1, by simp at enough; omega⟩
    obtain ⟨u, more, same, shown, _⟩ := each.1.begins
    have front : ∀ t, skipSpace (spelled x ++ t) = spelled x ++ t := by
      intro t
      rw [same, List.cons_append, skipSpace_visible shown]
    cases xs with
    | nil =>
      have ends : EndsNumber (closing :: rest) := by simpa [EndsNumber] using noNumber
      simp only [List.map_cons, List.map_nil, Text.join, readSequence, front, each.1.reads _ ends,
        skipSpace_visible visible, if_true]
    | cons y ys =>
      have behind := ih (by simp) each.2 (Nat.le_of_succ_le_succ enough)
      -- an item may be a number, which only the comma behind it ends
      have ends : ∀ t, EndsNumber (0x2C :: t) := by
        intro t
        simp [EndsNumber, isNumberUnit, Text.isDigit]
      have skip : ∀ t, skipSpace (0x2C :: t) = 0x2C :: t := skipSpace_visible rfl
      simp only [List.map_cons, Text.join, comma, List.append_assoc, List.cons_append,
        List.nil_append] at behind ⊢
      simp only [readSequence, front, each.1.reads _ (ends _), skip, Ne.symm noComma, if_false, if_true,
        behind]

theorem readAll_join (each : ∀ x ∈ xs, Reads item (spelled x) (value x)) (rest : Text) :
    readAll item closing (Text.join "," (xs.map spelled) ++ closing :: rest) =
      some (xs.map value, rest) := by
  cases xs with
  | nil => simp [readAll, Text.join, skipSpace_visible closes.plain.1]
  | cons x xs =>
    have nonempty : ∀ t ∈ (x :: xs).map spelled, t ≠ [] := by
      intro t member
      obtain ⟨y, listed, rfl⟩ := List.mem_map.mp member
      obtain ⟨u, more, same, _⟩ := (each y listed).begins
      exact same ▸ List.cons_ne_nil u more
    have enough : (x :: xs).length ≤
        (Text.join "," ((x :: xs).map spelled) ++ closing :: rest).length := by
      have short := length_le_join "," nonempty
      rw [List.length_map] at short
      rw [List.length_append]
      omega
    have items := readSequence_join closes (List.cons_ne_nil x xs) each enough rest
    obtain ⟨u, more, same, shown, other⟩ := (each x List.mem_cons_self).begins
    obtain ⟨behind, front⟩ : ∃ behind, Text.join "," ((x :: xs).map spelled) ++ closing :: rest =
        u :: behind := by
      cases xs <;> simp [Text.join, same]
    have noClosing : u ≠ closing := by
      rintro rfl
      exact other closes
    rw [front] at items ⊢
    rw [readAll, skipSpace_visible shown]
    simp only [noClosing, if_false, items]

end Sequences

/-! ## Values -/

theorem plain_of_numberUnit {u : CodeUnit} (number : isNumberUnit u = true) :
    isSpace u = false ∧ ¬ IsClosing u := by
  constructor
  · cases space : isSpace u with
    | false => rfl
    | true =>
      simp only [isSpace, Bool.or_eq_true, beq_iff_eq] at space
      rcases space with ((rfl | rfl) | rfl) | rfl <;> cases number
  · rintro (rfl | rfl) <;> cases number

theorem readValue_number {u : CodeUnit} (first : isNumberUnit u = true) (depth : Nat) (t : Text) :
    readValue (depth + 1) (u :: t) = readNumber (u :: t) := by
  rw [readValue]
  all_goals
    intro rest same
    rw [(List.cons.inj same).1] at first
    cases first

theorem begins_write (j : Json) : ∃ u rest, j.write = u :: rest ∧ isSpace u = false ∧ ¬ IsClosing u := by
  cases j with
  | null => exact ⟨0x6E, _, rfl, by decide⟩
  | bool b =>
    cases b with
    | true => exact ⟨0x74, _, rfl, by decide⟩
    | false => exact ⟨0x66, _, rfl, by decide⟩
  | number x =>
    rw [write, numberText]
    split
    · next finite =>
      obtain ⟨u, rest, text, number⟩ := exists_numberUnit finite
      exact ⟨u, rest, text, plain_of_numberUnit number⟩
    · exact ⟨0x6E, _, rfl, by decide⟩
  | string t => exact ⟨0x22, _, rfl, by decide⟩
  | array items => exact ⟨0x5B, _, rfl, by decide⟩
  | object fields => exact ⟨0x7B, _, rfl, by decide⟩

theorem reads_field {depth : Nat} {field : Text × Json}
    (inside : ∀ rest, EndsNumber rest →
      readValue depth (field.2.write ++ rest) = some (settled field.2, rest)) :
    Reads (readField (readValue depth)) (writeField field) (settledField field) where
  begins := ⟨0x22, _, rfl, by decide⟩
  reads rest ends := by
    obtain ⟨key, value⟩ := field
    obtain ⟨u, more, same, shown, _⟩ := begins_write value
    have colon : (":" : Text) = [0x3A] := rfl
    have skip : ∀ t, skipSpace (0x3A :: t) = 0x3A :: t := skipSpace_visible rfl
    have front : skipSpace (value.write ++ rest) = value.write ++ rest := by
      rw [same, List.cons_append, skipSpace_visible shown]
    have key' := readString_escape key (0x3A :: (value.write ++ rest))
    simp only [writeField, quote, colon, List.cons_append, List.append_assoc, List.nil_append]
    rw [readField]
    simp [key', skip, front, inside rest ends, settledField]

theorem exists_depth {j : Json} {depth : Nat} (enough : j.write.length ≤ depth) :
    ∃ k, depth = k + 1 := by
  obtain ⟨u, more, same, _⟩ := begins_write j
  rw [same, List.length_cons] at enough
  exact ⟨depth - 1, by omega⟩

/-- Whatever is written is read back, with anything behind it that could not belong to a number. -/
theorem readValue_write (j : Json) (depth : Nat) (enough : j.write.length ≤ depth) (rest : Text)
    (ends : EndsNumber rest) : readValue depth (j.write ++ rest) = some (settled j, rest) := by
  have brackets : ("[" : Text) = [0x5B] ∧ ("]" : Text) = [0x5D] := ⟨rfl, rfl⟩
  have braces : ("\x7b" : Text) = [0x7B] ∧ ("\x7d" : Text) = [0x7D] := ⟨rfl, rfl⟩
  -- every level has a bracket in the text, so the length of the text bounds the depth
  induction j using induction generalizing depth rest with
  | null =>
    obtain ⟨depth, rfl⟩ := exists_depth enough
    rfl
  | bool b =>
    obtain ⟨depth, rfl⟩ := exists_depth enough
    cases b <;> rfl
  | number x =>
    obtain ⟨depth, rfl⟩ := exists_depth enough
    rw [write, numberText, settled, settledNumber]
    split
    · next finite =>
      obtain ⟨u, more, text, first⟩ := exists_numberUnit finite
      have number := readNumber_toText finite ends
      rw [text, List.cons_append] at number ⊢
      rw [readValue_number first, number]
    · rfl
  | string t =>
    obtain ⟨depth, rfl⟩ := exists_depth enough
    have read := readString_escape t rest
    simp [write, quote, readValue, read, settled]
  | array items ih =>
    obtain ⟨depth, rfl⟩ := exists_depth enough
    rw [write, writeItems_eq_join, brackets.1, brackets.2] at enough ⊢
    have each : ∀ item ∈ items, Reads (readValue depth) item.write (settled item) := by
      intro item member
      have short := length_le_join_of_mem "," (List.mem_map.mpr ⟨item, member, rfl⟩ :
        item.write ∈ items.map write)
      simp only [List.length_append, List.length_singleton] at enough
      exact ⟨begins_write item, ih item member depth (by omega)⟩
    have read := readAll_join (.inl rfl) each rest
    simp [readValue, read, settled, settledItems_eq_map]
  | object fields ih =>
    obtain ⟨depth, rfl⟩ := exists_depth enough
    rw [write, writeFields_eq_join, braces.1, braces.2] at enough ⊢
    have each : ∀ field ∈ fields,
        Reads (readField (readValue depth)) (writeField field) (settledField field) := by
      intro field member
      have short := length_le_join_of_mem "," (List.mem_map.mpr ⟨field, member, rfl⟩ :
        writeField field ∈ fields.map writeField)
      simp only [writeField, List.length_append, List.length_singleton] at enough short
      exact reads_field (ih field member depth (by omega))
    have read := readAll_join (.inr rfl) each rest
    simp [readValue, read, settled, settledFields_eq_map]

/-- Writing and reading back leaves a value as it is, except for numbers that are not finite and the sign
of zero. -/
theorem read_write (j : Json) : read j.write = some (settled j) := by
  obtain ⟨u, rest, same, shown, _⟩ := begins_write j
  have value := readValue_write j (j.write.length + 1) (by omega) [] (by simp [EndsNumber])
  have front : skipSpace j.write = j.write := by rw [same, skipSpace_visible shown]
  rw [List.append_nil] at value
  rw [read, front, value]
  rfl

end Calculator.Json
