import Mathlib.Data.List.Forall2
import Calculator.Report.Reporter
import Calculator.Proofs.Text.JsonWriting

/-!
Colour changes nothing but colour: a report with its colour sequences deleted is the report of a reporter
that never colours. What two reporters write is compared piece by piece, by a relation that lets colour
sequences stand anywhere between the units of a text.
-/
namespace Calculator

namespace Text

/-- No terminal sequence begins in the text. -/
def Clean (t : Text) : Prop :=
  0x1B ∉ t

instance (t : Text) : Decidable t.Clean :=
  inferInstanceAs (Decidable (0x1B ∉ t))

/-- The length of the colour sequence a text begins with: the escape, a bracket, digits and an `m`. -/
def colorLength : Text → Nat
  | 0x1B :: 0x5B :: rest =>
    match rest.takeWhile isDigit, rest.dropWhile isDigit with
    | u :: digits, 0x6D :: _ => (u :: digits).length + 3
    | _, _ => 0
  | _ => 0

/-- Deletes the colour sequences; `passing` units belong to one already found. -/
def dropColors : (passing : Nat) → Text → Text
  | _, [] => []
  | passing + 1, _ :: rest => dropColors passing rest
  | 0, u :: rest =>
    match colorLength (u :: rest) with
    | 0 => u :: dropColors 0 rest
    | length + 1 => dropColors length rest

def withoutColor (t : Text) : Text :=
  dropColors 0 t

/-- The first text is the second with colour sequences put in, and the second has none of its own. -/
inductive Shows : Text → Text → Prop
  | nil : Shows [] []
  | unit {u : CodeUnit} {c p : Text} (plain : u ≠ 0x1B) (rest : Shows c p) : Shows (u :: c) (u :: p)
  | color {digits c p : Text} (some : digits ≠ []) (decimal : ∀ u ∈ digits, isDigit u = true)
      (rest : Shows c p) : Shows (0x1B :: 0x5B :: (digits ++ 0x6D :: c)) p

variable {t c c' p p' : Text}

theorem clean_append : (c ++ p).Clean ↔ c.Clean ∧ p.Clean := by
  simp [Clean, not_or]

theorem Printable.clean (printable : t.Printable) : t.Clean :=
  printable.not_mem (by decide)

theorem Shows.refl (clean : t.Clean) : Shows t t := by
  induction t with
  | nil => exact .nil
  | cons u rest ih =>
    simp only [Clean, List.mem_cons, not_or] at clean
    exact .unit (Ne.symm clean.1) (ih clean.2)

theorem Shows.append (first : Shows c p) (second : Shows c' p') : Shows (c ++ c') (p ++ p') := by
  induction first with
  | nil => exact second
  | unit plain _ ih => exact .unit plain ih
  | color some decimal _ ih => simpa using Shows.color some decimal ih

theorem Shows.clean (shows : Shows c p) : p.Clean := by
  induction shows with
  | nil => exact List.not_mem_nil
  | unit plain _ ih => simpa [Clean, Ne.symm plain] using ih
  | color _ _ _ ih => exact ih

theorem dropColors_passed (passed : Text) : dropColors passed.length (passed ++ t) = dropColors 0 t := by
  induction passed with
  | nil => rfl
  | cons u rest ih => exact ih

theorem colorLength_color {digits : Text} (some : digits ≠ [])
    (decimal : ∀ u ∈ digits, isDigit u = true) :
    colorLength (0x1B :: 0x5B :: (digits ++ 0x6D :: t)) = digits.length + 3 := by
  have ends : EndsDigits (0x6D :: t) := by
    intro u first
    obtain rfl := Option.some.inj first
    rfl
  obtain ⟨u, rest, rfl⟩ := List.exists_cons_of_ne_nil some
  simp only [colorLength, takeWhile_digits decimal ends, dropWhile_digits decimal ends]

theorem Shows.withoutColor (shows : Shows c p) : c.withoutColor = p := by
  induction shows with
  | nil => rfl
  | @unit u c p plain _ ih =>
    have none : colorLength (u :: c) = 0 := by
      unfold colorLength
      split
      · next same => exact absurd (List.cons.inj same).1 plain
      · rfl
    rw [Text.withoutColor, dropColors, none]
    exact congrArg (u :: ·) ih
  | @color digits c p some decimal _ ih =>
    have passed : (0x5B :: (digits ++ [0x6D]) : Text).length = digits.length + 2 := by simp
    have whole : (0x5B :: (digits ++ 0x6D :: c) : Text) = 0x5B :: (digits ++ [0x6D]) ++ c := by simp
    rw [Text.withoutColor, dropColors, colorLength_color some decimal, whole]
    -- the escape is dropped already, the rest of the sequence is to be passed
    change dropColors (digits.length + 2) _ = p
    rw [← passed, dropColors_passed]
    exact ih

end Text

namespace Style

open Text

variable (s : Style) {t c p : Text}

theorem shows_sequence {code : Text} (some : code ≠ []) (decimal : ∀ u ∈ code, isDigit u = true)
    (rest : Shows c p) : Shows (sequence code ++ c) p := by
  have mark : ("m" : Text) = [0x6D] := rfl
  simpa [sequence, mark] using Shows.color some decimal rest

theorem shows_opening (rest : Shows c p) : Shows (s.opening ++ c) p := by
  have digits : s.openCode ≠ [] ∧ s.openCode.all isDigit = true := by cases s <;> decide
  exact shows_sequence digits.1 (List.all_eq_true.mp digits.2) rest

theorem shows_closing (rest : Shows c p) : Shows (s.closing ++ c) p := by
  have digits : s.closeCode ≠ [] ∧ s.closeCode.all isDigit = true := by cases s <;> decide
  exact shows_sequence digits.1 (List.all_eq_true.mp digits.2) rest

/-- There is nothing to open again in a text that closes nothing. -/
theorem reopen_clean (clean : t.Clean) : s.reopen 0 t = t := by
  induction t with
  | nil => rfl
  | cons u rest ih =>
    simp only [Clean, List.mem_cons, not_or] at clean
    have other : s.closing.isPrefixOf (u :: rest) = false := by
      simp [closing, sequence, List.isPrefixOf, clean.1]
    rw [reopen, other, ih clean.2]
    rfl

theorem shows_acrossLines (clean : t.Clean) : Shows (s.acrossLines t) t := by
  fun_induction acrossLines s t with
  | case1 => exact .nil
  | case2 rest ih =>
    have behind : Clean rest := fun member => clean (by simp [member])
    simpa using s.shows_closing (.unit (by decide) (.unit (by decide) (s.shows_opening (ih behind))))
  | case3 rest ih =>
    have behind : Clean rest := fun member => clean (by simp [member])
    simpa using s.shows_closing (.unit (by decide) (s.shows_opening (ih behind)))
  | case4 u rest _ _ ih =>
    simp only [Clean, List.mem_cons, not_or] at clean
    exact .unit (Ne.symm clean.1) (ih clean.2)

theorem shows_paint (clean : t.Clean) : Shows (s.paint t) t := by
  unfold paint
  split
  · next empty => exact empty ▸ .nil
  · rw [s.reopen_clean clean, List.append_assoc]
    have closed := (s.shows_acrossLines clean).append (s.shows_closing .nil)
    simp only [List.append_nil] at closed
    exact s.shows_opening closed

end Style

structure ResultRecord.Clean (record : ResultRecord) : Prop where
  expression : record.expression.Clean
  normalized : record.normalized.Clean
  problem : ∀ p, record.outcome = .error p → p.kind.Clean ∧ p.message.Clean

structure Diagnostic.Clean (d : Diagnostic) : Prop where
  code : d.code.Clean
  message : d.message.Clean
  file : d.file.Clean

structure Line.Shows (c p : Line) : Prop where
  channel : c.channel = p.channel
  text : Text.Shows c.text p.text

def Line.withoutColor (l : Line) : Line :=
  ⟨l.channel, l.text.withoutColor⟩

theorem Line.Shows.withoutColor {c p : Line} (shows : Line.Shows c p) : c.withoutColor = p := by
  rw [Line.withoutColor, shows.channel, shows.text.withoutColor]

theorem lines_withoutColor {cs ps : List Line} (shows : List.Forall₂ Line.Shows cs ps) :
    cs.map Line.withoutColor = ps ∧ ∀ line ∈ ps, line.text.Clean := by
  induction shows with
  | nil => exact ⟨rfl, by simp⟩
  | cons first _ ih =>
    refine ⟨by rw [List.map_cons, first.withoutColor, ih.1], ?_⟩
    simpa [first.text.clean] using ih.2

namespace Reporter

/-- The reporter with a colour setting in place of its own. -/
def under (r : Reporter) (c : ColorSetting) : Reporter :=
  { r with colored := c.decide r.format }

def plain (r : Reporter) : Reporter :=
  { r with colored := false }

/-- What can be asked of a reporter. -/
inductive Call where
  | formatResult (record : ResultRecord) (index : Option Nat)
  | formatContext (record : ResultRecord)
  | printResult (record : ResultRecord) (index : Option Nat)
  | printBatch (entries : List BatchEntry)
  | printBanner (version : Text) (count : Nat)
  | printSummary (summary : BatchSummary)
  | printDiagnostic (d : Diagnostic)
  | printError (message : Text)
  | printWarning (message : Text)
  | printInfo (message : Text)
  | printDebug (message : Text)

/-- What comes of a call: the lines it writes, the text it returns, and the precision refused. -/
structure Response where
  lines : List Line := []
  returned : Option Text := none
  refused : Option Binary64.DisplayError := none

def perform (r : Reporter) : Call → Response
  | .formatResult record index =>
    match r.formatResult record index with
    | .ok t => { returned := some t }
    | .error e => { refused := some e }
  | .formatContext record => { returned := r.formatContext record }
  | .printResult record index =>
    match r.printResult record index with
    | .ok lines => { lines := lines }
    | .error e => { refused := some e }
  | .printBatch entries => { lines := (r.printBatch entries).1, refused := (r.printBatch entries).2 }
  | .printBanner version count => { lines := r.printBanner version count }
  | .printSummary summary => { lines := r.printSummary summary }
  | .printDiagnostic d => { lines := r.printDiagnostic d }
  | .printError message => { lines := r.printError message }
  | .printWarning message => { lines := r.printWarning message }
  | .printInfo message => { lines := r.printInfo message }
  | .printDebug message => { lines := r.printDebug message }

/-- The texts of the call begin no terminal sequence. -/
def Call.Clean : Call → Prop
  | formatResult record _ => record.Clean
  | formatContext record => record.Clean
  | printResult record _ => record.Clean
  | printBatch entries => ∀ entry ∈ entries, entry.result.record.Clean
  | printBanner version _ => version.Clean
  | printSummary _ => True
  | printDiagnostic d => d.Clean
  | printError message => message.Clean
  | printWarning message => message.Clean
  | printInfo message => message.Clean
  | printDebug message => message.Clean

structure Response.Shows (c p : Response) : Prop where
  lines : List.Forall₂ Line.Shows c.lines p.lines
  returned : Option.Rel Text.Shows c.returned p.returned
  refused : c.refused = p.refused

structure Response.Clean (response : Response) : Prop where
  lines : ∀ line ∈ response.lines, line.text.Clean
  returned : ∀ t ∈ response.returned, t.Clean

def Response.withoutColor (response : Response) : Response where
  lines := response.lines.map Line.withoutColor
  returned := response.returned.map Text.withoutColor
  refused := response.refused

theorem Response.Shows.withoutColor {c p : Response} (shows : Response.Shows c p) :
    c.withoutColor = p ∧ p.Clean := by
  obtain ⟨lines, returned, refused⟩ := c
  obtain ⟨lines', returned', refused'⟩ := p
  obtain ⟨sameLines, sameReturned, rfl⟩ := shows
  obtain ⟨rfl, cleanLines⟩ := lines_withoutColor sameLines
  cases sameReturned with
  | none => exact ⟨rfl, cleanLines, by simp⟩
  | some text =>
    refine ⟨?_, cleanLines, by simpa using text.clean⟩
    rw [Response.withoutColor, ← text.withoutColor]
    rfl

/-- What comes of a refusable step, with colour and without. -/
inductive Alike {α : Type} (shows : α → α → Prop) :
    Except Binary64.DisplayError α → Except Binary64.DisplayError α → Prop
  | ok {c p : α} (same : shows c p) : Alike shows (.ok c) (.ok p)
  | error (e : Binary64.DisplayError) : Alike shows (.error e) (.error e)

section Methods

open Text (Shows)

variable (r : Reporter)

theorem plain_format : r.plain.format = r.format := rfl

theorem shows_paint (style : Style) {t : Text} (clean : t.Clean) :
    Shows (r.paint style t) (r.plain.paint style t) := by
  unfold paint
  split
  · exact style.shows_paint clean
  · exact .refl clean

/-- The texts of a result that are not coloured, or coloured as a whole. -/
theorem alike_value (x : Binary64) (wrap wrap' : Text → Text)
    (shows : ∀ t : Text, t.Clean → Shows (wrap t) (wrap' t)) :
    Alike Shows ((r.formatValue x).map wrap) ((r.plain.formatValue x).map wrap') := by
  have same : r.plain.formatValue x = r.formatValue x := rfl
  rw [same]
  cases shown : r.formatValue x with
  | error e => exact .error e
  | ok t => exact .ok (shows t (Binary64.printable_display shown).clean)

variable {record : ResultRecord}

theorem alike_prettyResult (clean : record.Clean) :
    Alike Shows (r.prettyResult record) (r.plain.prettyResult record) := by
  have blank : Shows "  " "  " := .refl (by decide)
  have space : Shows " " " " := .refl (by decide)
  have equals : Shows "  =  " "  =  " := .refl (by decide)
  have expression := r.shows_paint .cyan clean.expression
  unfold prettyResult
  cases outcome : record.outcome with
  | ok x =>
    have mark := r.shows_paint .green (t := "✓") (by decide)
    refine r.alike_value x _ _ fun t value => ?_
    exact ((((blank.append mark).append space).append expression).append equals).append
      (r.shows_paint .bold value)
  | error p =>
    obtain ⟨kind, message⟩ := clean.problem p outcome
    have mark := r.shows_paint .red (t := "✖") (by decide)
    have label : Text.Clean ("[" ++ p.kind ++ "]") := by
      simp only [Text.clean_append, kind, and_true]
      decide
    exact .ok ((((((blank.append mark).append space).append expression).append blank).append
      (r.shows_paint .red label)).append blank |>.append (.refl message))

theorem alike_compactResult (clean : record.Clean) :
    Alike Shows (r.compactResult record) (r.plain.compactResult record) := by
  unfold compactResult
  cases outcome : record.outcome with
  | ok x =>
    have equals : Text.Clean " = " := by decide
    refine r.alike_value x _ _ fun t value => .refl ?_
    simp only [Text.clean_append, clean.expression, equals, value, and_self]
  | error p =>
    obtain ⟨kind, message⟩ := clean.problem p outcome
    have marks : Text.Clean " [" ∧ Text.Clean "] E: " := by decide
    refine .ok (.refl ?_)
    simp only [Text.clean_append, clean.expression, marks, kind, message, and_self]

theorem alike_formatResult (clean : record.Clean) (index : Option Nat) :
    Alike Shows (r.formatResult record index) (r.plain.formatResult record index) := by
  simp only [formatResult, plain_format]
  cases r.format with
  | json => exact .ok (.refl (Json.printable_write _).clean)
  | compact => exact r.alike_compactResult clean
  | pretty => exact r.alike_prettyResult clean
  | plain => exact r.alike_prettyResult clean

theorem clean_marker (span : Span) : (marker span).Clean := by
  intro member
  rw [marker, List.mem_append, List.mem_replicate, List.mem_replicate] at member
  rcases member with ⟨_, same⟩ | ⟨_, same⟩ <;> cases same

theorem shows_formatContext (clean : record.Clean) :
    Option.Rel Shows (r.formatContext record) (r.plain.formatContext record) := by
  have arrow : Text.Clean "    ↳ " ∧ Text.Clean "\n      " := by decide
  have context : ∀ span, Text.Clean ("    ↳ " ++ record.normalized ++ "\n      " ++ marker span) := by
    intro span
    simp only [Text.clean_append, arrow, clean.normalized, clean_marker, and_self]
  simp only [formatContext, plain_format]
  split
  · exact .none
  · exact .none
  · cases record.outcome with
    | ok x => exact .none
    | error p =>
      obtain ⟨kind, message, span⟩ := p
      cases span with
      | none => exact .none
      | some s => exact .some (r.shows_paint .dim (context s))

theorem shows_log {c p : Text} (shows : Shows c p) : Line.Shows (log c) (log p) :=
  ⟨rfl, shows⟩

theorem alike_printResult (clean : record.Clean) (index : Option Nat) :
    Alike (List.Forall₂ Line.Shows) (r.printResult record index) (r.plain.printResult record index) := by
  have context : List.Forall₂ Line.Shows ((r.formatContext record).map log).toList
      ((r.plain.formatContext record).map log).toList := by
    have shows := r.shows_formatContext clean
    generalize r.formatContext record = colored at shows
    generalize r.plain.formatContext record = uncolored at shows
    cases shows with
    | none => exact .nil
    | some shows => exact .cons (shows_log shows) .nil
  have result := r.alike_formatResult clean index
  unfold printResult
  generalize r.formatResult record index = colored at result
  generalize r.plain.formatResult record index = uncolored at result
  cases result with
  | ok shows => exact .ok (.cons (shows_log shows) context)
  | error e => exact .error e

theorem shows_printBatch (entries : List BatchEntry)
    (clean : ∀ entry ∈ entries, entry.result.record.Clean) :
    List.Forall₂ Line.Shows (r.printBatch entries).1 (r.plain.printBatch entries).1 ∧
      (r.printBatch entries).2 = (r.plain.printBatch entries).2 := by
  induction entries with
  | nil => exact ⟨.nil, rfl⟩
  | cons entry rest ih =>
    simp only [List.mem_cons, forall_eq_or_imp] at clean
    have first := r.alike_printResult clean.1 (some entry.index)
    have behind := ih clean.2
    rw [printBatch, printBatch]
    generalize r.printResult entry.result.record (some entry.index) = colored at first
    generalize r.plain.printResult entry.result.record (some entry.index) = uncolored at first
    cases first with
    | ok lines => exact ⟨List.rel_append lines behind.1, behind.2⟩
    | error e => exact ⟨.nil, rfl⟩

theorem clean_seconds : r.seconds.Clean :=
  (Binary64.printable_toHundredths _).clean

theorem clean_ofNat (n : Nat) : (Text.ofNat n).Clean :=
  (Text.printable_ofNat n).clean

theorem clean_rule (strokes : Nat) : (rule strokes).Clean := by
  intro member
  obtain ⟨stroke, listed, inside⟩ := List.mem_flatten.mp member
  obtain ⟨_, rfl⟩ := List.mem_replicate.mp listed
  exact absurd inside (by decide)

/-- A line that is coloured as a whole. -/
theorem shows_painted (channel : Channel) (style : Style) {t : Text} (clean : t.Clean) :
    Line.Shows ⟨channel, r.paint style t⟩ ⟨channel, r.plain.paint style t⟩ :=
  ⟨rfl, r.shows_paint style clean⟩

theorem shows_printBanner {version : Text} (clean : version.Clean) (count : Nat) :
    List.Forall₂ Line.Shows (r.printBanner version count) (r.plain.printBanner version count) := by
  have front : Text.Clean "┌ safecalc " ∧ Text.Clean "  •  Evaluating " ∧ Text.Clean " expression" ∧
    Text.Clean "└" := by decide
  have plural : Text.Clean (Text.ofString (if count = 1 then "" else "s")) := by split <;> decide
  simp only [printBanner, plain_format]
  split
  · exact .nil
  · exact .nil
  · refine .cons (r.shows_painted .log .bold ?_) (.cons (r.shows_painted .log .dim ?_)
      (.cons (shows_log .nil) .nil))
    · simp only [Text.clean_append, front, clean, clean_ofNat, plural, and_self]
    · simp only [Text.clean_append, front, clean_rule, and_self]

theorem shows_printSummary (s : BatchSummary) :
    List.Forall₂ Line.Shows (r.printSummary s) (r.plain.printSummary s) := by
  have same : r.plain.seconds = r.seconds := rfl
  simp only [printSummary, plain_format, same]
  split
  · exact .cons (shows_log (.refl (Json.printable_write _).clean)) .nil
  · have parts : Text.Clean "Summary: " ∧ Text.Clean " passed, " ∧ Text.Clean " failed (" ∧
      Text.Clean "s)" := by decide
    refine .cons (shows_log (.refl ?_)) .nil
    simp only [Text.clean_append, parts, clean_ofNat, clean_seconds, and_self]
  · have empty : Line.Shows (log []) (log []) := shows_log .nil
    have blank : Shows " " " " := .refl (by decide)
    have blanks : Shows "  " "  " := .refl (by decide)
    have parts : Text.Clean "Passed: " ∧ Text.Clean "Failed: " ∧ Text.Clean "Evaluated " ∧
      Text.Clean " expressions in " ∧ Text.Clean "s" ∧ Text.Clean "Exit code: " := by decide
    have expressions := ((r.shows_paint .cyan (t := "Expressions:") (by decide)).append blank).append
      (.refl (clean_ofNat s.total))
    have passed : Text.Clean ("Passed: " ++ Text.ofNat s.passed) := by
      simp only [Text.clean_append, parts, clean_ofNat, and_self]
    have failed : Text.Clean ("Failed: " ++ Text.ofNat s.failed) := by
      simp only [Text.clean_append, parts, clean_ofNat, and_self]
    have counts := ((blanks.append (r.shows_paint .green passed)).append blanks).append
      (r.shows_paint (if 0 < s.failed then .red else .dim) failed)
    refine .cons empty (.cons (r.shows_painted .log .dim (clean_rule 56))
      (.cons (r.shows_painted .log .bold (by decide)) (.cons empty (.cons (shows_log expressions)
      (.cons (shows_log counts) (.cons empty (.cons (r.shows_painted .log .dim ?_)
      (.cons (r.shows_painted .log _ ?_) .nil))))))))
    · simp only [Text.clean_append, parts, clean_ofNat, clean_seconds, and_self]
    · simp only [Text.clean_append, parts, clean_ofNat, and_self]

theorem clean_location (d : Diagnostic) : (location d).Clean := by
  have colon : Text.Clean ":" := by decide
  unfold location
  split
  · simp only [Text.clean_append, colon, clean_ofNat, and_self]
  · exact List.not_mem_nil

theorem shows_printDiagnostic {d : Diagnostic} (clean : d.Clean) :
    List.Forall₂ Line.Shows (r.printDiagnostic d) (r.plain.printDiagnostic d) := by
  simp only [printDiagnostic, plain_format]
  split
  · exact .cons ⟨rfl, .refl (Json.printable_write _).clean⟩ .nil
  · have blanks : Shows "  " "  " := .refl (by decide)
    have brackets : Text.Clean "[" ∧ Text.Clean "]" := by decide
    have label : d.severity.label.Clean := by cases d.severity <;> decide
    have code : Text.Clean ("[" ++ d.code ++ "]") := by
      simp only [Text.clean_append, brackets, clean.code, and_self]
    have place := Text.clean_append.mpr ⟨clean.file, clean_location d⟩
    have text := ((((((r.shows_paint (severityStyle d.severity) label).append blanks).append
      (r.shows_paint .cyan code)).append blanks).append (r.shows_paint .bold place)).append blanks).append
      (.refl clean.message)
    exact .cons ⟨rfl, text⟩ .nil

/-- A message is one line, behind a word that says what it is. -/
theorem shows_message (channel : Channel) (style : Style) {word message : Text} (known : word.Clean)
    (clean : message.Clean) :
    List.Forall₂ Line.Shows [⟨channel, r.paint style (word ++ message)⟩]
      [⟨channel, r.plain.paint style (word ++ message)⟩] :=
  .cons (r.shows_painted channel style (Text.clean_append.mpr ⟨known, clean⟩)) .nil

/-- What a call to a reporter comes to, beside what it comes to without colour. -/
theorem shows_perform {call : Call} (clean : call.Clean) :
    Response.Shows (r.perform call) (r.plain.perform call) := by
  have json : ∀ (channel : Channel) (j : Json),
      List.Forall₂ Line.Shows [⟨channel, j.write⟩] [⟨channel, j.write⟩] := fun channel j =>
    .cons ⟨rfl, .refl (Json.printable_write j).clean⟩ .nil
  cases call with
  | formatResult record index =>
    have result := r.alike_formatResult clean index
    simp only [perform]
    generalize r.formatResult record index = colored at result
    generalize r.plain.formatResult record index = uncolored at result
    cases result with
    | ok shows => exact ⟨.nil, .some shows, rfl⟩
    | error e => exact ⟨.nil, .none, rfl⟩
  | formatContext record => exact ⟨.nil, r.shows_formatContext clean, rfl⟩
  | printResult record index =>
    have result := r.alike_printResult clean index
    simp only [perform]
    generalize r.printResult record index = colored at result
    generalize r.plain.printResult record index = uncolored at result
    cases result with
    | ok shows => exact ⟨shows, .none, rfl⟩
    | error e => exact ⟨.nil, .none, rfl⟩
  | printBatch entries =>
    obtain ⟨lines, refused⟩ := r.shows_printBatch entries clean
    exact ⟨lines, .none, refused⟩
  | printBanner version count => exact ⟨r.shows_printBanner clean count, .none, rfl⟩
  | printSummary summary => exact ⟨r.shows_printSummary summary, .none, rfl⟩
  | printDiagnostic d => exact ⟨r.shows_printDiagnostic clean, .none, rfl⟩
  | printError message =>
    refine ⟨?_, .none, rfl⟩
    simp only [perform, printError, plain_format]
    split
    · exact json _ _
    · exact r.shows_message _ _ (by decide) clean
  | printWarning message =>
    refine ⟨?_, .none, rfl⟩
    simp only [perform, printWarning, plain_format]
    split
    · exact json _ _
    · exact r.shows_message _ _ (by decide) clean
  | printInfo message =>
    refine ⟨?_, .none, rfl⟩
    simp only [perform, printInfo, plain_format]
    split
    · exact .nil
    · exact .cons (r.shows_painted .log .dim clean) .nil
  | printDebug message =>
    have verbose : r.plain.verbose = r.verbose := rfl
    refine ⟨?_, .none, rfl⟩
    simp only [perform, printDebug, verbose]
    split
    · exact r.shows_message _ _ (by decide) clean
    · exact .nil

/-- Whatever is asked of a reporter, the colour setting adds colour sequences and nothing else; without
colour no terminal sequence is written at all. -/
theorem perform_without_color (r : Reporter) (c : ColorSetting) {never : ColorSetting}
    (off : never.mode = .never) {call : Call} (clean : call.Clean) :
    ((r.under c).perform call).withoutColor = (r.under never).perform call ∧
      ((r.under never).perform call).Clean := by
  have uncolored : r.under never = (r.under c).plain := by simp [under, plain, ColorSetting.decide, off]
  rw [uncolored]
  exact ((r.under c).shows_perform clean).withoutColor

/-- An expression of two lines that cannot be read, with its place below; the environment demands what the
setting rules out. -/
theorem perform_without_color_lines :
    let r : Reporter := ⟨.pretty, false, some 3, false, .zero⟩
    let always : ColorSetting := ⟨.always, true, false, false⟩
    let never : ColorSetting := ⟨.never, false, true, true⟩
    let record : ResultRecord := ⟨"1 +\r\n)", "1 +\r\n)",
      .error ⟨"ParseError", "Expected a value but found \")\"", some ⟨5, 6⟩⟩⟩
    ((r.under always).perform (.printResult record none)).withoutColor =
        (r.under never).perform (.printResult record none) ∧
      ((r.under never).perform (.printResult record none)).Clean ∧
      ((r.under always).perform (.printResult record none)).lines ≠
        ((r.under never).perform (.printResult record none)).lines := by
  intro r always never record
  have clean : (Call.printResult record none).Clean := by
    refine ⟨by decide, by decide, ?_⟩
    rintro p ⟨⟩
    decide
  have off : never.mode = .never := rfl
  obtain ⟨same, plain⟩ := r.perform_without_color always off clean
  exact ⟨same, plain, by decide⟩

end Methods

end Reporter

end Calculator
