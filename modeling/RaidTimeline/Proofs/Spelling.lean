import RaidTimeline.Proofs.CanonicalParts

/-!
# How canonical timelines are read

A canonical text is put together from pieces, and each piece is read as the lexeme that it was
printed for, with two exceptions: an infinite number is read as a word, and a string is read with
what its escapes have lost.

Main results:

- Definitions {lit}`Literal.lexeme`, {lit}`Modifier.lexemes` and {lit}`Statement.lexemes`: the
  lexemes of canonical texts.
- Theorems {lit}`reads_number`, {lit}`reads_fieldText` and {lit}`Modifier.reads_text`: the parts
  of statements.
- Theorem {lit}`Statement.exists_canonical`: a statement that was read has a canonical text, which
  is read as its lexemes.
- Theorem {lit}`Program.exists_canonical`: the same for a program.
-/

namespace RaidTimeline

/-! ## The lexemes of canonical texts -/

/-- A text that is escaped as a string and read again. -/
def respell (t : Text) : Text := unescapeString (escapeString t)

/-- A finite number is read as a number; other numbers are written as words. -/
def numberLexeme (v : Vocabulary) (text : Text) (x : Binary64) : Lexeme :=
  if x.isFinite then ⟨.number, text⟩ else wordLexeme v text

/-- The lexeme of a literal. -/
def Literal.lexeme (v : Vocabulary) : Literal → Lexeme
  | .string s => ⟨.string, respell s.value⟩
  | .number n => numberLexeme v (numberText n.value) n.value

/-- The lexemes of a field. -/
def Field.lexemes (v : Vocabulary) (f : Field) : List Lexeme :=
  [wordLexeme v f.key, ⟨.punctuator, [':']⟩, f.value.lexeme v]

/-- The lexemes of several fields with commas between them. -/
def fieldsLexemes (v : Vocabulary) : List Field → List Lexeme
  | [] => []
  | [f] => f.lexemes v
  | f :: g :: fs => f.lexemes v ++ ⟨.punctuator, [',']⟩ :: fieldsLexemes v (g :: fs)

/-- The lexemes of the second number of a window, unless it repeats the first. -/
def Window.afterLexemes (v : Vocabulary) (w : Window) : List Lexeme :=
  match w.after with
  | some after =>
      if sameNumber after.value w.before.value then []
      else [⟨.punctuator, [',']⟩, numberLexeme v (numberText after.value) after.value]
  | none => []

/-- The lexemes of a modifier. -/
def Modifier.lexemes (v : Vocabulary) : Modifier → List Lexeme
  | .sync (.regex s) => [wordLexeme v "sync".toList, ⟨.regex, s.regex.pattern⟩]
  | .sync (.block b) => wordLexeme v b.logType :: ⟨.brace, ['\x7b']⟩ ::
      (fieldsLexemes v b.fields ++ [⟨.brace, ['\x7d']⟩])
  | .window w => wordLexeme v "window".toList
      :: numberLexeme v (numberText w.before.value) w.before.value :: w.afterLexemes v
  | .jump j => [wordLexeme v "jump".toList,
      numberLexeme v (numberText j.time.value) j.time.value]
  | .duration d => [wordLexeme v "duration".toList,
      numberLexeme v (numberText d.time.value) d.time.value]

/-- The lexemes of a statement, if it has a canonical form. -/
def Statement.lexemes (v : Vocabulary) : Statement → List Lexeme
  | .hideAll h => [wordLexeme v "hideall".toList, ⟨.string, respell h.name.value⟩]
  | .entry e => numberLexeme v (timeText e.time.value) e.time.value
      :: ⟨.string, respell e.name.value⟩ :: e.modifiers.flatMap (Modifier.lexemes v)
  | .alertAll _ => []
  | .define _ => []

/-- Entries and hidden names have a canonical form. -/
def Statement.HasCanonicalForm : Statement → Prop
  | .hideAll _ => True
  | .entry _ => True
  | .alertAll _ => False
  | .define _ => False

instance : (s : Statement) → Decidable s.HasCanonicalForm
  | .hideAll _ => .isTrue trivial
  | .entry _ => .isTrue trivial
  | .alertAll _ => .isFalse id
  | .define _ => .isFalse id

section

variable {v : Vocabulary}

/-! ## Numbers and words -/

/-- A number without sign is read as its lexeme. -/
theorem reads_number (hv : v.HasWords) {spell : Binary64 → Text} (h : IsNumberSpelling spell)
    {x : Binary64} (hx : x.HasSign false) : Reads v (spell x) [numberLexeme v (spell x) x] := by
  cases x with
  | nan => contradiction
  | infinite negative =>
    obtain rfl : negative = false := hx
    rw [h.infinite]
    exact reads_name hv (by decide +kernel)
  | finite n => exact reads_numeral hv.hasNoEmptyWord (h.finite hx).1

/-- A printed number is read as one lexeme. -/
theorem reads_numberText (hv : v.HasWords) {x : Binary64} (hx : x.HasSign false) :
    Reads v (numberText x) [numberLexeme v (numberText x) x] :=
  reads_number hv isNumberSpelling_numberText hx

/-- A piece behind a blank separates itself from what stands in front. -/
theorem separates_blank (t : Text) : Separates (' ' :: t) :=
  .cons rfl (by decide) t

/-- A word and a piece behind it are read one behind the other. -/
theorem Reads.word (hv : v.HasWords) {w t : Text} {ls : List Lexeme} (hw : IsName w)
    (h : Reads v t ls) : Reads v (w ++ ' ' :: t) (wordLexeme v w :: ls) :=
  (reads_name hv hw).append (h.blank hv.hasNoEmptyWord) (separates_blank t)

/-! ## Fields -/

/-- A printed string is read as one lexeme, with its value respelt. -/
theorem reads_stringText (hv : v.HasWords) {s : StringLiteral} (hs : IsDecoded s.value) :
    Reads v (stringText s) [⟨.string, respell s.value⟩] :=
  reads_string hv.hasNoEmptyWord hs

/-- A printed literal is read as one lexeme. -/
theorem Literal.reads_text (hv : v.HasWords) {l : Literal} (h : l.IsRead) :
    Reads v l.text [l.lexeme v] := by
  cases l with
  | string s => exact reads_stringText hv h
  | number n => exact reads_numberText hv h

/-- A key, a colon, and the text of a literal are read as a field. -/
theorem reads_fieldText (hv : v.HasWords) {f : Field} (hkey : IsName f.key)
    (hvalue : f.value.IsRead) : Reads v (fieldText f) (f.lexemes v) := by
  have hcolon := ((Literal.reads_text hv hvalue).blank hv.hasNoEmptyWord).colon hv.hasNoEmptyWord
  rw [fieldText_eq]
  exact (reads_name hv hkey).append hcolon (.cons rfl (by decide) _)

/-- Fields are read one behind the other. -/
theorem reads_join_fieldText (hv : v.HasWords) {fs : List Field}
    (h : ∀ f ∈ fs, IsName f.key ∧ f.value.IsRead) :
    Reads v (Text.join [',', ' '] (fs.map fieldText)) (fieldsLexemes v fs) := by
  fun_induction fieldsLexemes v fs with
  | case1 => exact .nil
  | case2 f =>
    rcases h f List.mem_cons_self with ⟨hkey, hvalue⟩
    exact reads_fieldText hv hkey hvalue
  | case3 f g fs ih =>
    rcases h f List.mem_cons_self with ⟨hkey, hvalue⟩
    have hrest := ih fun f hf => h f (List.mem_cons_of_mem _ hf)
    have hcomma := (hrest.blank hv.hasNoEmptyWord).comma hv.hasNoEmptyWord
    have hjoin := (reads_fieldText hv hkey hvalue).append hcomma (.cons rfl (by decide) _)
    simpa [Text.join] using hjoin

/-- Fields between braces are read one behind the other. -/
theorem reads_bracesText (hv : v.HasWords) {fs : List Field}
    (h : ∀ f ∈ fs, IsName f.key ∧ f.value.IsRead) :
    Reads v (bracesText fs)
      (⟨.brace, ['\x7b']⟩ :: (fieldsLexemes v fs ++ [⟨.brace, ['\x7d']⟩])) := by
  have hclosing : Reads v ['\x7d'] [⟨.brace, ['\x7d']⟩] := Reads.nil.closing hv.hasNoEmptyWord
  cases fs with
  | nil => exact hclosing.opening hv.hasNoEmptyWord
  | cons f fs =>
    have hinside := (reads_join_fieldText hv h).append (hclosing.blank hv.hasNoEmptyWord)
      (separates_blank _)
    exact (hinside.blank hv.hasNoEmptyWord).opening hv.hasNoEmptyWord

/-! ## Modifiers -/

/-- The printed numbers of a window are read as these numbers. -/
theorem reads_numbersText (hv : v.HasWords) {w : Window} (h : w.HasNoSign) :
    Reads v w.numbersText
      (numberLexeme v (numberText w.before.value) w.before.value :: w.afterLexemes v) := by
  have hsecond : w.afterLexemes v = w.second.toList.flatMap fun n =>
      [⟨.punctuator, [',']⟩, numberLexeme v (numberText n.value) n.value] := by
    rw [← Window.elim_after h]
    rcases w with ⟨span, before, _ | after⟩ <;> rfl
  have hnumber := reads_numberText hv h.1
  rw [Window.numbersText, hsecond]
  cases hcases : w.second with
  | none => exact hnumber.append .nil .nil
  | some n =>
    have hcomma := (reads_numberText hv (h.second n hcases)).comma hv.hasNoEmptyWord
    have hboth := hnumber.append hcomma (.cons rfl (by decide) _)
    simpa using hboth

/-- The canonical text of a modifier that was read. -/
theorem Modifier.reads_text (hv : v.HasWords) {m : Modifier} (hnames : m.HasNames v)
    (hliterals : ∀ l ∈ m.literals, l.IsRead) : Reads v m.text (m.lexemes v) := by
  have hword : ∀ {ls : List Lexeme}, Reads v m.behindWord ls →
      Reads v m.text (wordLexeme v m.word :: ls) := by
    intro ls h
    rw [Modifier.text_eq hliterals]
    exact Reads.word hv (Modifier.isName_word hnames) h
  cases m with
  | sync s =>
    cases s with
    | regex s => exact hword (reads_regex hv.hasNoEmptyWord hnames.2.1)
    | block b =>
      apply hword
      apply reads_bracesText hv
      intro f hf
      exact ⟨(hnames.2.2 f hf).2, hliterals f.value (List.mem_map_of_mem hf)⟩
  | window w => exact hword (reads_numbersText hv (Window.hasNoSign hliterals))
  | jump j =>
    exact hword (reads_numberText hv (hliterals (.number j.time) (by simp [Modifier.literals])))
  | duration d =>
    exact hword (reads_numberText hv (hliterals (.number d.time) (by simp [Modifier.literals])))

/-! ## Statements -/

/-- Modifiers stand behind blanks, so what is behind an entry separates itself. -/
theorem separates_flatMap_modifiers (ms : List Modifier) :
    Separates (ms.flatMap fun m => ' ' :: m.text) := by
  cases ms with
  | nil => exact .nil
  | cons m ms => exact separates_blank _

/-- Printed modifiers are read one after the other. -/
theorem reads_modifiers (hv : v.HasWords) {ms : List Modifier}
    (h : ∀ m ∈ ms, m.HasNames v ∧ ∀ l ∈ m.literals, l.IsRead) :
    Reads v (ms.flatMap fun m => ' ' :: m.text) (ms.flatMap (Modifier.lexemes v)) := by
  induction ms with
  | nil => exact .nil
  | cons m ms ih =>
    rcases h m List.mem_cons_self with ⟨hnames, hliterals⟩
    have hfirst := (Modifier.reads_text hv hnames hliterals).blank hv.hasNoEmptyWord
    have hrest := ih fun m hm => h m (List.mem_cons_of_mem _ hm)
    exact hfirst.append hrest (separates_flatMap_modifiers ms)

/-- The canonical text of an entry lists its modifiers. -/
theorem canonicalStatement_entry (e : Entry) :
    (Statement.entry e).toNode.canonicalStatement =
      .ok (timeText e.time.value ++ ' ' :: (stringText e.name
        ++ e.modifiers.flatMap fun m => ' ' :: m.text)) := by
  rcases e with ⟨span, time, name, sync, window, duration, jump⟩
  have hsync : ∃ text, Node.canonicalSync? (sync.map Sync.toNode) = .ok text ∧
      optionalText id text =
        (sync.map Modifier.sync).toList.flatMap fun m => ' ' :: m.text := by
    rcases sync with _ | s | b
    · exact ⟨none, rfl, rfl⟩
    · exact ⟨some (regexText s), rfl, (List.append_nil _).symm⟩
    · exact ⟨some (blockText b), rfl, (List.append_nil _).symm⟩
  have hoptional : ∀ {α : Type} (spell : α → Text) (make : α → Modifier),
      (∀ x, (make x).text = spell x) → ∀ o : Option α, optionalText spell o =
        (o.map make).toList.flatMap fun m => ' ' :: m.text := by
    intro α spell make hmake o
    cases o <;> simp [optionalText, hmake]
  rcases hsync with ⟨text, hok, htext⟩
  rw [Statement.toNode, Entry.toNode, Node.canonicalStatement, hok]
  simp only [Except.map, entryText, Entry.modifiers, List.flatMap_append, htext,
    hoptional durationText .duration (fun _ => rfl), hoptional windowText .window (fun _ => rfl),
    hoptional jumpText .jump (fun _ => rfl), List.append_assoc, List.cons_append]

/-- A statement that was read and has a canonical form has a canonical text, and the text is read
as the lexemes of the statement. -/
theorem Statement.exists_canonical (hv : v.HasWords) {s : Statement} (hread : s.IsRead v)
    (hform : s.HasCanonicalForm) :
    ∃ text, s.toNode.canonicalStatement = .ok text ∧ Reads v text (s.lexemes v) := by
  cases s with
  | alertAll | define => contradiction
  | hideAll h =>
    refine ⟨hideAllText h, rfl, ?_⟩
    have hword : "hideall ".toList = "hideall".toList ++ [' '] := by decide +kernel
    have htext : hideAllText h = "hideall".toList ++ ' ' :: stringText h.name :=
      append_of_blank hword _
    rw [htext]
    exact Reads.word hv (by decide +kernel) (reads_stringText hv hread.hideAll_name)
  | entry e =>
    refine ⟨_, canonicalStatement_entry e, ?_⟩
    have hbehind := (reads_stringText hv hread.entry_name).append
      (reads_modifiers hv fun m hm => hread.entry_modifier hm)
      (separates_flatMap_modifiers e.modifiers)
    exact (reads_number hv isNumberSpelling_timeText hread.entry_time).append
      (hbehind.blank hv.hasNoEmptyWord) (separates_blank _)

/-! ## Programs -/

/-- Statements on lines of their own are read one behind the other. -/
theorem exists_canonicalStatements (hv : v.HasWords) {statements : List Statement}
    (h : ∀ s ∈ statements, s.IsRead v ∧ s.HasCanonicalForm) :
    ∃ lines, Node.canonicalStatements (statements.map Statement.toNode) = .ok lines ∧
      Reads v (Text.join ['\n'] lines) (statements.flatMap (Statement.lexemes v)) := by
  induction statements with
  | nil => exact ⟨[], rfl, .nil⟩
  | cons s statements ih =>
    rcases h s List.mem_cons_self with ⟨hread, hform⟩
    rcases Statement.exists_canonical hv hread hform with ⟨line, hline, hreads⟩
    rcases ih fun s hs => h s (List.mem_cons_of_mem _ hs) with ⟨lines, hlines, hjoin⟩
    refine ⟨line :: lines, ?_, ?_⟩
    · rw [List.map_cons, Node.canonicalStatements, hline, hlines]
      rfl
    · cases lines with
      | nil =>
        have hlast := hreads.append hjoin .nil
        rw [Text.join, List.append_nil] at hlast
        exact hlast
      | cons next lines =>
        have hbehind : Reads v ('\n' :: Text.join ['\n'] (next :: lines)) _ :=
          hjoin.layout hv.hasNoEmptyWord rfl
        have hnext := hreads.append hbehind (.cons rfl (by decide) _)
        rw [Text.join, List.append_assoc]
        exact hnext

/-- A program whose statements were read and have a canonical form has a canonical text, and the
text is read as the lexemes of the statements. -/
theorem Program.exists_canonical (hv : v.HasWords) {p : Program}
    (h : ∀ s ∈ p.body, s.IsRead v ∧ s.HasCanonicalForm) :
    ∃ text, p.canonical = .ok text ∧ Reads v text (p.body.flatMap (Statement.lexemes v)) := by
  rcases exists_canonicalStatements hv h with ⟨lines, hlines, hreads⟩
  refine ⟨_, ?_, hreads⟩
  rw [Program.canonical, Program.toNode, Node.canonical, hlines]
  rfl

end

end RaidTimeline
