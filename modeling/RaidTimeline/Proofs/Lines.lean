import RaidTimeline.Proofs.Commands
import RaidTimeline.Proofs.Patterns

/-!
# One statement on a line

The canonical text of a program that was read has one line for each statement.  Line ends in names
and fields are escaped, the names of fields and the words of the tables have none if the tables have
none, regular expressions end where their line does, and numbers are made of digits.

Main results:

- Definition {lit}`Text.IsLine`: texts without line ends.
- Definition {lit}`Token.StaysOnLine`: tokens whose canonical texts have no line ends.
- Theorem {lit}`Cursor.staysOnLine_of_mem_tokens`: all tokens of a text are such.
- Theorem {lit}`IsStatement.isLine`: statements that are made of such tokens stay on a line.
- Theorem {lit}`generate_line_by_line`: the canonical text of a program, line by line.
-/

namespace RaidTimeline

/-! ## Texts without line ends -/

namespace Text

/-- A text without line ends. -/
def IsLine (t : Text) : Prop := ∀ c ∈ t, c ≠ '\n' ∧ c ≠ '\r'

@[simp]
theorem isLine_nil : IsLine [] := by
  simp [IsLine]

@[simp]
theorem isLine_cons {c : Char} {t : Text} :
    IsLine (c :: t) ↔ (c ≠ '\n' ∧ c ≠ '\r') ∧ IsLine t :=
  List.forall_mem_cons

/-- Two texts make a line exactly if both are lines. -/
@[simp]
theorem isLine_append {s t : Text} : IsLine (s ++ t) ↔ IsLine s ∧ IsLine t :=
  List.forall_mem_append

/-- Texts without line ends are put together to one without line ends. -/
theorem isLine_flatMap {α : Type} {f : α → Text} {xs : List α} (h : ∀ x ∈ xs, IsLine (f x)) :
    IsLine (xs.flatMap f) := by
  intro c hc
  rcases List.mem_flatMap.mp hc with ⟨x, hx, hc⟩
  exact h x hx c hc

/-- What is in a joined text is in a separator or in a part. -/
theorem mem_join {c : Char} {separator : Text} {parts : List Text}
    (h : c ∈ join separator parts) : c ∈ separator ∨ ∃ part ∈ parts, c ∈ part := by
  fun_induction join separator parts with
  | case1 => contradiction
  | case2 part => exact Or.inr ⟨part, List.mem_cons_self, h⟩
  | case3 part next parts ih =>
    rcases List.mem_append.mp h with h | h
    · exact (List.mem_append.mp h).symm.imp_right fun h => ⟨part, List.mem_cons_self, h⟩
    · refine (ih h).imp_right ?_
      rintro ⟨q, hq, hc⟩
      exact ⟨q, List.mem_cons_of_mem part hq, hc⟩

/-- Lines that are put together with a line between them make a line. -/
theorem isLine_join {separator : Text} {parts : List Text} (hseparator : IsLine separator)
    (hparts : ∀ part ∈ parts, IsLine part) : IsLine (join separator parts) := by
  intro c hc
  rcases mem_join hc with hc | ⟨part, hpart, hc⟩
  · exact hseparator c hc
  · exact hparts part hpart c hc

end Text

/-! ## Numbers -/

theorem AreDigits.isLine {t : Text} (h : AreDigits t) : t.IsLine := by
  intro c hc
  have hdigit := h c hc
  constructor <;> rintro rfl <;> contradiction

/-- Digits that are taken apart are digits. -/
theorem Decimal.areDigits_parts (d : Decimal) : AreDigits d.parts.1 ∧ AreDigits d.parts.2 := by
  have hdigits : AreDigits (Text.ofNat d.digits) := (isWholePart_ofNat d.digits).digits
  unfold parts
  simp only
  split_ifs
  · exact ⟨hdigits.append (.zeros _), by simp [AreDigits]⟩
  · exact ⟨isWholePart_zero.digits, (AreDigits.zeros _).append hdigits⟩
  · exact ⟨fun c hc => hdigits c (List.mem_of_mem_take hc),
      fun c hc => hdigits c (List.mem_of_mem_drop hc)⟩

theorem Decimal.isLine_positional (d : Decimal) : d.positional.IsLine := by
  rcases d.areDigits_parts with ⟨hwhole, hfraction⟩
  unfold positional
  split
  · next whole heq =>
    rw [heq] at hwhole
    exact hwhole.isLine
  · next whole fraction _ heq =>
    rw [heq] at hwhole hfraction
    simp [hwhole.isLine, hfraction.isLine]

namespace Binary64

@[simp]
theorem isLine_sign (negative : Bool) : (sign negative).IsLine := by
  cases negative <;> simp [sign]

/-- A number without exponent is a line, whatever its value. -/
@[simp]
theorem isLine_plain (x : Binary64) : x.plain.IsLine := by
  cases x with
  | nan | infinite => simp [plain]
  | finite v => simp [plain, v.shortest.isLine_positional]

end Binary64

@[simp]
theorem isLine_wholeText (v : Binary64.Finite) (negative : Bool) :
    (wholeText v negative).IsLine := by
  simp [wholeText, (isWholePart_ofNat v.whole).digits.isLine]

/-- Numbers stay on a line. -/
@[simp]
theorem isLine_numberText (x : Binary64) : (numberText x).IsLine := by
  cases x with
  | nan | infinite => simp [numberText]
  | finite v =>
    rw [numberText]
    split <;> simp

@[simp]
theorem isLine_timeText (x : Binary64) : (timeText x).IsLine := by
  cases x with
  | nan | infinite => simp [timeText]
  | finite v =>
    rw [timeText]
    split <;> simp

/-! ## Strings and patterns -/

/-- Escaped texts stay on a line, whatever they denote. -/
theorem isLine_escapeString (t : Text) : (escapeString t).IsLine := by
  refine Text.isLine_flatMap fun c _ => ?_
  unfold escapeStringChar
  split_ifs <;> simp_all

/-- A string is printed as a line: its line ends are escaped. -/
@[simp]
theorem isLine_stringText (s : StringLiteral) : (stringText s).IsLine := by
  simp [stringText, isLine_escapeString]

/-- Escaped patterns stay on a line, since regular expressions do. -/
theorem IsPattern.isLine_escapeRegex {t : Text} (h : IsPattern t) : (escapeRegex t).IsLine := by
  intro c hc
  constructor
  · rintro rfl
    rcases h with ⟨d, body, hbody, -, -, rfl⟩
    exact hbody.newline_not_mem (mem_unescapeRegex (mem_escapeRegex (by decide) hc))
  · rintro rfl
    exact h.not_mem_escapeRegex hc

/-! ## Tokens -/

/-- What the canonical text takes from a token stays on a line: words are written as they are, and
patterns are escaped.  Strings and numbers stay on a line in any case. -/
def Token.StaysOnLine (t : Token) : Prop :=
  match t.kind with
  | .keyword | .identifier => t.value.IsLine
  | .regex => (escapeRegex t.value).IsLine
  | _ => True

/-- The value of a word is what the source text has there, and stays on the line. -/
theorem Token.isLine_value {t : Token} (h : t.StaysOnLine)
    (hkind : t.kind = .keyword ∨ t.kind = .identifier) : t.value.IsLine := by
  rcases hkind with hkind | hkind <;> rwa [StaysOnLine, hkind] at h

/-- A pattern that stays on a line is printed as a line. -/
theorem Token.isLine_of_regex {t : Token} (h : t.StaysOnLine) (hkind : t.kind = .regex) :
    (escapeRegex t.value).IsLine := by
  rwa [StaysOnLine, hkind] at h

section

variable {v : Vocabulary}

/-- A keyword has the line ends of its word that the text has. -/
theorem isLine_keyword (hv : ∀ w ∈ v.words, '\n' ∉ w) {before : Option Char} {text : Text} {n : Nat}
    (hreturn : '\r' ∉ text) (h : keywordLength? v before text = some n) :
    Text.IsLine (text.take n) := by
  rcases keywordLength?_eq_some h with ⟨⟨w, hw, hstands, rfl⟩, -⟩
  rw [standsAt, Bool.and_eq_true, List.isPrefixOf_iff_prefix] at hstands
  rcases hstands.1 with ⟨rest, rfl⟩
  rw [List.take_left]
  intro c hc
  constructor
  · rintro rfl
    exact hv w hw hc
  · -- A word may have carriage returns, but such a word stands nowhere in the text.
    rintro rfl
    exact hreturn (List.mem_append_left _ hc)

/-- An identifier is made of word characters. -/
theorem isLine_identifier {text : Text} {n : Nat} (h : runLength? isWord text = some n) :
    Text.IsLine (text.take n) := by
  rcases runLength?_eq_some.mp h with ⟨-, rfl⟩
  intro c hc
  have hword : isWord c = true := by
    rw [← List.prefix_iff_eq_take.mp (List.takeWhile_prefix isWord)] at hc
    exact List.mem_takeWhile_imp hc
  exact ⟨ne_of_isWord hword (by decide), ne_of_isWord hword (by decide)⟩

/-- All tokens of a text without carriage returns stay on a line, if the words of the tables have no
line feed. -/
theorem Cursor.staysOnLine_of_mem_tokens (hv : ∀ w ∈ v.words, '\n' ∉ w) {c : Cursor} {t : Token}
    (hreturn : '\r' ∉ c.rest) (ht : t ∈ c.tokens v) : t.StaysOnLine := by
  rcases exists_scan_of_mem_tokens ht with ⟨d, hd, rfl⟩
  have hreturn' : '\r' ∉ d.rest := fun hmem => hreturn (hd.subset hmem)
  rcases d.scan_cases v with ⟨-, hscan⟩ | ⟨-, -, hscan⟩ | ⟨kind, n, -, hfound, hscan⟩
  · rw [hscan]
    trivial
  · rw [hscan]
    trivial
  · have hlength := (length?_of_recognise? hfound).2
    rw [hscan]
    cases kind with
    | keyword => exact isLine_keyword hv hreturn' hlength
    | identifier => exact isLine_identifier hlength
    | regex => exact (isPattern_of_regexLength? hreturn' hlength).isLine_escapeRegex
    | eof | string | number | punctuator | brace | comment | blank | unknown => trivial

end

/-! ## Parts of statements -/

/-- A window is printed as a line, with one number or two. -/
@[simp]
theorem isLine_windowText (w : Window) : (windowText w).IsLine := by
  rcases w with ⟨span, before, _ | after⟩
  · unfold windowText
    simp
  · unfold windowText
    simp only [Text.isLine_append]
    refine ⟨by simp, ?_⟩
    split <;> simp

@[simp]
theorem isLine_jumpText (j : Jump) : (jumpText j).IsLine := by
  unfold jumpText
  simp

@[simp]
theorem isLine_durationText (d : Duration) : (durationText d).IsLine := by
  unfold durationText
  simp

@[simp]
theorem isLine_hideAllText (h : HideAll) : (hideAllText h).IsLine := by
  unfold hideAllText
  simp

/-- A synchronisation on a regular expression stays on a line if its escaped pattern does. -/
theorem isLine_regexText {s : RegexSync} (h : (escapeRegex s.regex.pattern).IsLine) :
    (regexText s).IsLine := by
  unfold regexText
  simp [h]

/-- A field stays on a line if its key does. -/
theorem isLine_fieldText {f : Field} (h : f.key.IsLine) : (fieldText f).IsLine := by
  rcases f with ⟨key, _ | _⟩ <;> simpa [fieldText] using h

/-- A structured synchronisation stays on a line if its words do. -/
theorem isLine_blockText {b : BlockSync} (hword : b.logType.IsLine)
    (hkeys : ∀ f ∈ b.fields, f.key.IsLine) : (blockText b).IsLine := by
  have hjoin : (Text.join ", ".toList (b.fields.map fieldText)).IsLine :=
    Text.isLine_join (by simp) (List.forall_mem_map.mpr fun f hf => isLine_fieldText (hkeys f hf))
  rw [blockText]
  split
  · simp [hword]
  · simp only [Text.isLine_append, hword, hjoin]
    simp

/-! ## Statements -/

section

variable {logTypes : List Text} {ts : List Token}

/-- The key of a field stays on the line of its token. -/
theorem IsField.isLine_key {f : Field} (h : IsField ts f) (hts : ∀ t ∈ ts, t.StaysOnLine) :
    f.key.IsLine := by
  cases h with
  | @string key _ _ hkey _ _ => exact Token.isLine_value (hts key (by simp)) (Or.inr hkey)
  | @number key _ _ hkey _ _ => exact Token.isLine_value (hts key (by simp)) (Or.inr hkey)

/-- The canonical text of a modifier stays on a line if its tokens do. -/
theorem IsModifier.isLine {m : Modifier} (h : IsModifier logTypes ts m)
    (hts : ∀ t ∈ ts, t.StaysOnLine) : m.text.IsLine := by
  cases h with
  | @block keyword opening closing us fs hkind _ _ hslots _ =>
    refine isLine_blockText (Token.isLine_value (hts keyword (by simp)) (Or.inl hkind)) ?_
    intro f hf
    rcases hslots.along.exists_piece f hf with ⟨vs, hfield, hrow⟩
    exact hfield.isLine_key fun t ht => hts t (by simp [hrow.subset ht])
  | @regex keyword pattern _ _ hkind =>
    exact isLine_regexText (Token.isLine_of_regex (hts pattern (by simp)) hkind)
  | window => exact isLine_windowText _
  | windowAfter => exact isLine_windowText _
  | jump => exact isLine_jumpText _
  | duration => exact isLine_durationText _

/-- The canonical text of a statement stays on a line if its tokens do. -/
theorem IsStatement.isLine {s : Statement} (h : IsStatement logTypes ts s)
    (hts : ∀ t ∈ ts, t.StaysOnLine) : s.text.IsLine := by
  cases h with
  | alertAll | define => exact Text.isLine_nil
  | hideAll => exact isLine_hideAllText _
  | @entry time name us parts _ _ hparts =>
    generalize he : Entry.ofParts (spanOf (time :: name :: us)) time name parts = e
    have hmodifiers : ∀ m ∈ e.modifiers, Text.IsLine (' ' :: m.text) := by
      intro m hm
      have hmem := Entry.modifiers_ofParts_subset _ time name parts (he ▸ hm)
      rcases hparts.along.exists_piece m hmem with ⟨vs, hvs, hrow⟩
      have hline := hvs.isLine fun t ht => hts t (by simp [hrow.subset ht])
      simpa using hline
    simp [Statement.text, Text.isLine_flatMap hmodifiers]

end

/-! ## Programs -/

/-- The statements of an accepted source text stay on a line each, if the words of the tables have
no line feed. -/
theorem isLine_of_parseSource {v : Vocabulary} (hv : ∀ w ∈ v.words, '\n' ∉ w) {source file : Text}
    {p : Program} (h : parseSource v source file = .ok p) : ∀ s ∈ p.body, s.text.IsLine := by
  rcases exists_derives_of_parseSource h with ⟨body, last, ts, hvisible, -, -, hsubset, hderives⟩
  have hts : ∀ t ∈ ts, t.StaysOnLine := by
    intro t ht
    have hmem := hsubset ht
    rw [← hvisible] at hmem
    exact Cursor.staysOnLine_of_mem_tokens hv (not_mem_normalize source)
      (List.mem_filter.mp hmem).1
  intro s hs
  rcases hderives.many.along.exists_piece s hs with ⟨us, hstatement, hrow⟩
  exact hstatement.isLine fun t ht => hts t (hrow.subset ht)

section

variable {options : Option Options} {settings : Option Settings} {target : Value}

/-- Rendering a program joins the canonical texts of its statements. -/
theorem generate_eq (htarget : targetOf options settings = .ok target)
    (hknown : isTarget target = true) {p : Program} (hforms : ∀ s ∈ p.body, s.HasCanonicalForm) :
    generate p.toNode options settings =
      .ok (Text.join ['\n'] (p.body.map Statement.text)) := by
  have hcanonical : p.toNode.canonical = _ := Program.canonical_eq hforms
  rw [generate, htarget]
  simp only [hknown, if_true, hcanonical]
  rfl

/-- A line is the canonical text of a statement: what is rendered for the statement, and for a
program that has no other statement. -/
structure RendersAlone (p : Program) (options : Option Options) (settings : Option Settings)
    (s : Statement) (line : Text) : Prop where
  statement : s.toNode.canonicalStatement = .ok line
  program : generate (Program.toNode { p with body := [s] }) options settings = .ok line

/-- The canonical text of a program that was read has one line for each statement: there are no
carriage returns in it, one line feed less than there are statements, and each of its lines is the
canonical text of the statement in its place. -/
theorem generate_line_by_line {v : Vocabulary} (hv : ∀ w ∈ v.words, '\n' ∉ w) {source file : Text}
    {p : Program} (hparse : parseSource v source file = .ok p) (hne : p.body ≠ [])
    (hforms : ∀ s ∈ p.body, s.HasCanonicalForm)
    (htarget : targetOf options settings = .ok target) (hknown : isTarget target = true) :
    ∃ text, generate p.toNode options settings = .ok text ∧ '\r' ∉ text ∧
      text.count '\n' + 1 = p.body.length ∧
        List.Forall₂ (RendersAlone p options settings) p.body (Text.splitOn '\n' text) := by
  have hlines : ∀ line ∈ p.body.map Statement.text, line.IsLine :=
    List.forall_mem_map.mpr (isLine_of_parseSource hv hparse)
  -- The texts that are joined have no line feeds, so they can be told apart again.
  have hsplit : Text.splitOn '\n' (Text.join ['\n'] (p.body.map Statement.text)) =
      p.body.map Statement.text :=
    Text.splitOn_join (by simpa using hne) fun line hline hmem => (hlines line hline _ hmem).1 rfl
  refine ⟨_, generate_eq htarget hknown hforms, ?_, ?_, ?_⟩
  · intro hmem
    rcases Text.mem_join hmem with hmem | ⟨line, hline, hmem⟩
    · simp at hmem
    · exact (hlines line hline _ hmem).2 rfl
  · rw [← Text.length_splitOn, hsplit, List.length_map]
  · rw [hsplit]
    refine List.forall₂_map_right_iff.mpr (List.forall₂_same.mpr fun s hs => ?_)
    have hform : ∀ u ∈ [s], u.HasCanonicalForm := by simpa using hforms s hs
    exact ⟨Statement.canonicalStatement_eq (hforms s hs),
      generate_eq (p := { p with body := [s] }) htarget hknown hform⟩

/-- A line feed in a name, a carriage return in the source text and in a word of the tables, and the
empty word among them do not change the lines. -/
theorem generate_line_by_line_strangeWords :
    let v : Vocabulary := ⟨["hideall".toList], ["a b".toList, "c\rd".toList, []]⟩
    let source := "1 \"x\\ny\" a b \x7b \x7d\r\nhideall 'z'".toList
    (∀ w ∈ v.words, '\n' ∉ w) ∧ ∃ p, parseSource v source [] = .ok p ∧ p.body ≠ [] ∧
      (∀ s ∈ p.body, s.HasCanonicalForm) ∧ targetOf none none = .ok (.string "cactbot".toList) ∧
        isTarget (.string "cactbot".toList) = true ∧
          ∃ text, generate p.toNode none none = .ok text ∧ '\r' ∉ text ∧
            text.count '\n' + 1 = p.body.length ∧
              List.Forall₂ (RendersAlone p none none) p.body (Text.splitOn '\n' text) := by
  intro v source
  have hv : ∀ w ∈ v.words, '\n' ∉ w := by decide
  have htarget : targetOf none none = .ok (.string "cactbot".toList) := rfl
  have hknown : isTarget (.string "cactbot".toList) = true := by decide
  have htext : ((parseSource v source []).toOption.bind fun p => p.canonical.toOption) =
      some "1.0 \"x\\ny\" a b \x7b\x7d\nhideall \"z\"".toList := by
    decide +kernel
  rcases exists_canonical_of_toOption htext with ⟨p, hparse, hcanonical⟩
  have hforms := Program.hasCanonicalForm hcanonical
  have hne : p.body ≠ [] := by
    intro hnil
    rw [Program.canonical_eq hforms, hnil] at hcanonical
    contradiction
  exact ⟨hv, p, hparse, hne, hforms, htarget, hknown,
    generate_line_by_line hv hparse hne hforms htarget hknown⟩

end

end RaidTimeline
