import Mathlib.Tactic.SplitIfs
import Calculator.Proofs.Text.Printable
import Calculator.Text.Json

/-!
What JSON is written as: the items and fields one after the other with commas between, and no control
character anywhere.
-/
namespace Calculator.Json

/-- Induction over the values that stand in a value. -/
theorem induction {motive : Json → Prop} (null : motive null) (bool : ∀ b, motive (bool b))
    (number : ∀ x, motive (number x)) (string : ∀ t, motive (string t))
    (array : ∀ items, (∀ item ∈ items, motive item) → motive (array items))
    (object : ∀ fields, (∀ field ∈ fields, motive field.2) → motive (object fields)) :
    ∀ j, motive j := by
  intro j
  refine Json.rec (motive_1 := motive) (motive_2 := fun items => ∀ item ∈ items, motive item)
    (motive_3 := fun fields => ∀ field ∈ fields, motive field.2) (motive_4 := fun field => motive field.2)
    null bool number string array object ?_ ?_ ?_ ?_ ?_ j
  · simp
  · intro item items first rest
    simpa using ⟨first, rest⟩
  · simp
  · intro field fields first rest
    exact List.forall_mem_cons.mpr ⟨first, rest⟩
  · intro key value inside
    exact inside

def writeField (field : Text × Json) : Text :=
  quote field.1 ++ ":" ++ write field.2

theorem writeItems_eq_join (items : List Json) : writeItems items = Text.join "," (items.map write) := by
  induction items with
  | nil => rfl
  | cons item rest ih =>
    cases rest with
    | nil => rfl
    | cons next rest => simp only [writeItems, ih, List.map_cons, Text.join]

theorem writeFields_eq_join (fields : List (Text × Json)) :
    writeFields fields = Text.join "," (fields.map writeField) := by
  induction fields with
  | nil => rfl
  | cons field rest ih =>
    cases rest with
    | nil => rfl
    | cons next rest => simp only [writeFields, ih, List.map_cons, Text.join, writeField]

/-- The three ways in which a unit stands in a string. -/
inductive Escapes (u : CodeUnit) : Text → Prop
  | letter {v : CodeUnit} (means : unescape? v = some u) (visible : 0x20 ≤ v) : Escapes u [0x5C, v]
  | code : Escapes u (escapeCode u)
  | plain (visible : 0x20 ≤ u) (noQuote : u ≠ 0x22) (noBackslash : u ≠ 0x5C) : Escapes u [u]

theorem escapes_escapeUnit (u : CodeUnit) : Escapes u (escapeUnit u) := by
  have letter : ∀ v w : CodeUnit, unescape? v = some w → 0x20 ≤ v → Escapes w [0x5C, v] :=
    fun _ _ => .letter
  unfold escapeUnit
  split_ifs with isQuote isBackslash isBackspace isFeed isLineFeed isReturn isTab control
  · exact isQuote ▸ letter 0x22 0x22 rfl (by decide)
  · exact isBackslash ▸ letter 0x5C 0x5C rfl (by decide)
  · exact isBackspace ▸ letter 0x62 0x08 rfl (by decide)
  · exact isFeed ▸ letter 0x66 0x0C rfl (by decide)
  · exact isLineFeed ▸ letter 0x6E 0x0A rfl (by decide)
  · exact isReturn ▸ letter 0x72 0x0D rfl (by decide)
  · exact isTab ▸ letter 0x74 0x09 rfl (by decide)
  · exact .code
  · simp only [Bool.or_eq_true, decide_eq_true_eq, not_or, UInt16.not_lt] at control
    exact .plain control.1 isQuote isBackslash

theorem printable_hexDigit : ∀ n < 16, 0x20 ≤ hexDigit n := by
  decide

theorem printable_escapeCode (u : CodeUnit) : (escapeCode u).Printable := by
  have digit := printable_hexDigit
  have top := u.toNat_lt
  have mark : (0x20 : CodeUnit) ≤ 0x5C ∧ (0x20 : CodeUnit) ≤ 0x75 := by decide
  simp [escapeCode, mark, digit (u.toNat / 4096) (by omega), digit (u.toNat / 256 % 16) (by omega),
    digit (u.toNat / 16 % 16) (by omega), digit (u.toNat % 16) (by omega)]

theorem printable_escapeUnit (u : CodeUnit) : (escapeUnit u).Printable := by
  have escaped := escapes_escapeUnit u
  generalize escapeUnit u = t at escaped
  cases escaped with
  | letter _ visible => simpa using visible
  | code => exact printable_escapeCode u
  | plain visible _ _ => simpa using visible

theorem printable_escape (t : Text) : (escape t).Printable := by
  fun_induction escape t with
  | case1 => exact Text.printable_nil
  | case2 u => exact printable_escapeUnit u
  | case3 u v rest pair ih =>
    simp only [Text.isHighHalf, Text.isLowHalf, Bool.and_eq_true, decide_eq_true_eq] at pair
    have printable : ∀ w : CodeUnit, 0xD800 ≤ w → 0x20 ≤ w := fun w high =>
      UInt16.le_trans (by decide) high
    simp [printable u pair.1.1, printable v (UInt16.le_trans (by decide) pair.2.1), ih]
  | case4 u v rest _ ih => simp [printable_escapeUnit, ih]

theorem printable_quote (t : Text) : (quote t).Printable := by
  simp [quote, printable_escape]

theorem printable_numberText (x : Binary64) : (numberText x).Printable := by
  unfold numberText
  split
  · exact x.printable_toText
  · decide

/-- A value is written on one line, whatever is in its strings. -/
theorem printable_write (j : Json) : j.write.Printable := by
  have comma : Text.Printable "," := by decide
  have colon : Text.Printable ":" := by decide
  have brackets : Text.Printable "[" ∧ Text.Printable "]" := by decide
  have braces : Text.Printable "\x7b" ∧ Text.Printable "\x7d" := by decide
  induction j using induction with
  | null => decide
  | bool b => cases b <;> decide
  | number x => exact printable_numberText x
  | string t => exact printable_quote t
  | array items ih =>
    rw [write, writeItems_eq_join]
    simp only [Text.printable_append, brackets, true_and, and_true]
    exact Text.printable_join comma (by simpa using ih)
  | object fields ih =>
    rw [write, writeFields_eq_join]
    simp only [Text.printable_append, braces, true_and, and_true]
    refine Text.printable_join comma ?_
    simp only [List.mem_map, forall_exists_index, and_imp, forall_apply_eq_imp_iff₂]
    intro field member
    simp [writeField, printable_quote, colon, ih field member]

end Calculator.Json
