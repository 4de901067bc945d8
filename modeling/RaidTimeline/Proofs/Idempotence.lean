import RaidTimeline.Proofs.CanonicalText
import RaidTimeline.Transform

/-!
# Canonical texts in canonical form

The canonical form of a canonical text is that text again exactly if all numbers are finite and no
string has a backslash in front of an apostrophe.  An infinite number is written as a word, and
every other word of a timeline that is no keyword has a colon behind it.  A string that loses a
backslash has a shorter text, and no other part of the text can make up for it.

Main results:

- Theorem {lit}`Statement.areKeyed_lexemes_iff`: words that are no keywords show infinite numbers.
- Theorem {lit}`Statement.shrinks_text`: changed strings make the canonical text shorter.
- Theorem {lit}`exists_canonical_eq_iff`: which canonical texts are read as programs with the same
  canonical text.
- Theorem {lit}`transformText_idempotent_iff`: which canonical texts are their own canonical form.
-/

namespace RaidTimeline

/-! ## Infinite numbers -/

/-- No colon stands in front. -/
def NoColon (ls : List Lexeme) : Prop := ls.head? ≠ some ⟨.punctuator, [':']⟩

theorem NoColon.append {ls ms : List Lexeme} (hls : NoColon ls) (hms : NoColon ms) :
    NoColon (ls ++ ms) := by
  cases ls with
  | nil => exact hms
  | cons l ls => exact hls

theorem NoColon.flatMap {α : Type} {lexemes : α → List Lexeme} {xs : List α}
    (h : ∀ x ∈ xs, NoColon (lexemes x)) : NoColon (xs.flatMap lexemes) := by
  induction xs with
  | nil => simp [NoColon]
  | cons x xs ih =>
    exact (h x List.mem_cons_self).append (ih fun x hx => h x (List.mem_cons_of_mem _ hx))

/-- Every word that is no keyword has a colon behind it. -/
def AreKeyed : List Lexeme → Prop
  | [] => True
  | l :: ls => (l.kind = .identifier → ls.head? = some ⟨.punctuator, [':']⟩) ∧ AreKeyed ls

theorem areKeyed_cons {l : Lexeme} {ls : List Lexeme} (h : l.kind ≠ .identifier) :
    AreKeyed (l :: ls) ↔ AreKeyed ls := by
  simp [AreKeyed, h]

/-- Where no colon stands, lexemes are checked part by part. -/
theorem areKeyed_append {ls ms : List Lexeme} (h : NoColon ms) :
    AreKeyed (ls ++ ms) ↔ AreKeyed ls ∧ AreKeyed ms := by
  induction ls with
  | nil => simp [AreKeyed]
  | cons l ls ih =>
    rw [List.cons_append, AreKeyed, AreKeyed, ih, and_assoc]
    cases ls with
    | nil => simp [AreKeyed, show ms.head? ≠ _ from h]
    | cons next ls => rfl

/-- Where no part has a colon in front, lexemes are checked part by part. -/
theorem areKeyed_flatMap {α : Type} {lexemes : α → List Lexeme} {P : α → Prop} {xs : List α}
    (hfront : ∀ x ∈ xs, NoColon (lexemes x)) (h : ∀ x ∈ xs, AreKeyed (lexemes x) ↔ P x) :
    AreKeyed (xs.flatMap lexemes) ↔ ∀ x ∈ xs, P x := by
  induction xs with
  | nil => simp [AreKeyed]
  | cons x xs ih =>
    rcases List.forall_mem_cons.mp hfront with ⟨-, hfront⟩
    rcases List.forall_mem_cons.mp h with ⟨hx, h⟩
    rw [List.flatMap_cons, areKeyed_append (NoColon.flatMap hfront), hx, ih hfront h,
      List.forall_mem_cons]

theorem noColon_wordLexeme {v : Vocabulary} (w : Text) (ls : List Lexeme) :
    NoColon (wordLexeme v w :: ls) := by
  simp only [NoColon, wordLexeme, List.head?_cons]
  split <;> simp

theorem noColon_numberLexeme {v : Vocabulary} (text : Text) (x : Binary64) (ls : List Lexeme) :
    NoColon (numberLexeme v text x :: ls) := by
  rw [numberLexeme]
  split
  · simp [NoColon]
  · exact noColon_wordLexeme text ls

theorem Modifier.noColon_lexemes {v : Vocabulary} (m : Modifier) : NoColon (m.lexemes v) := by
  rcases m with (s | b) | w | j | d <;> exact noColon_wordLexeme _ _

theorem Statement.noColon_lexemes {v : Vocabulary} (s : Statement) : NoColon (s.lexemes v) := by
  cases s with
  | alertAll | define => simp [Statement.lexemes, NoColon]
  | hideAll h => exact noColon_wordLexeme _ _
  | entry e => exact noColon_numberLexeme _ _ _

/-- A number that is the same as a finite one is finite. -/
theorem Literal.isFinite_of_sameNumber {a b : NumberLiteral}
    (h : sameNumber a.value b.value = true) (hb : (Literal.number b).IsFinite) :
    (Literal.number a).IsFinite := by
  intro x hx
  cases hx
  have hfinite : b.value.isFinite = true := hb b.value rfl
  cases ha : a.value with
  | finite n => rfl
  | nan | infinite =>
    cases hb' : b.value <;> simp_all [sameNumber, Binary64.isFinite]

section

variable {v : Vocabulary} (hinfinity : "Infinity".toList ∉ v.words)
include hinfinity

/-- An infinite number is a word without a colon behind it. -/
theorem areKeyed_number {spell : Binary64 → Text} (h : IsNumberSpelling spell) {x : Binary64}
    {ls : List Lexeme} (hls : NoColon ls) (hsign : x.HasSign false) :
    AreKeyed (numberLexeme v (spell x) x :: ls) ↔ x.isFinite = true ∧ AreKeyed ls := by
  cases x with
  | nan => contradiction
  | finite n => simp [numberLexeme, Binary64.isFinite, AreKeyed]
  | infinite negative =>
    obtain rfl : negative = false := hsign
    have hword : numberLexeme v (spell (.infinite false)) (.infinite false) =
        ⟨.identifier, "Infinity".toList⟩ := by
      rw [h.infinite, numberLexeme, if_neg (by decide), wordLexeme, if_neg hinfinity]
    rw [hword, AreKeyed]
    simp [Binary64.isFinite, show ls.head? ≠ _ from hls]

/-- An infinite number is read back as a word, and no colon stands behind it. -/
theorem areKeyed_numberText {n : NumberLiteral} {ls : List Lexeme} (hls : NoColon ls)
    (hread : (Literal.number n).IsRead) :
    AreKeyed (numberLexeme v (numberText n.value) n.value :: ls) ↔
      (Literal.number n).IsFinite ∧ AreKeyed ls := by
  rw [areKeyed_number hinfinity isNumberSpelling_numberText hls hread]
  simp [Literal.IsFinite, Literal.number?]

/-- The key of a field has its colon; its literal has none, and so must be no infinite number. -/
theorem areKeyed_field {f : Field} (hread : f.value.IsRead) :
    AreKeyed (f.lexemes v) ↔ f.value.IsFinite := by
  have hkey : AreKeyed (f.lexemes v) ↔ AreKeyed [f.value.lexeme v] := by
    simp [Field.lexemes, AreKeyed]
  rw [hkey]
  rcases f with ⟨key, s | n⟩
  · simp [Literal.lexeme, AreKeyed, Literal.IsFinite, Literal.number?]
  · rw [Literal.lexeme, areKeyed_numberText hinfinity (by simp [NoColon]) hread]
    simp [AreKeyed]

/-- Fields are checked one by one: none of them may hold an infinite number. -/
theorem areKeyed_fieldsLexemes {fs : List Field} (hread : ∀ f ∈ fs, f.value.IsRead) :
    AreKeyed (fieldsLexemes v fs) ↔ ∀ f ∈ fs, f.value.IsFinite := by
  fun_induction fieldsLexemes v fs with
  | case1 => simp [AreKeyed]
  | case2 f => simpa using areKeyed_field hinfinity (hread f List.mem_cons_self)
  | case3 f g fs ih =>
    rcases List.forall_mem_cons.mp hread with ⟨hf, hread⟩
    rw [areKeyed_append (by simp [NoColon]), areKeyed_cons (by simp), ih hread,
      areKeyed_field hinfinity hf, List.forall_mem_cons (a := f)]

/-- The words of a modifier show its infinite numbers. -/
theorem Modifier.areKeyed_lexemes_iff {m : Modifier} (hnames : m.HasNames v)
    (hread : ∀ l ∈ m.literals, l.IsRead) :
    AreKeyed (m.lexemes v) ↔ ∀ l ∈ m.literals, l.IsFinite := by
  have hword : ∀ {w : Text} {ls : List Lexeme}, w ∈ v.words →
      (AreKeyed (wordLexeme v w :: ls) ↔ AreKeyed ls) := by
    intro w ls hw
    rw [wordLexeme_of_mem hw, areKeyed_cons (by simp)]
  have hpair : ∀ {w : Text} {n : NumberLiteral}, v.HasModifier w → (Literal.number n).IsRead →
      (AreKeyed [wordLexeme v w, numberLexeme v (numberText n.value) n.value] ↔
        (Literal.number n).IsFinite) := by
    intro w n hw hn
    rw [hword hw.1, areKeyed_numberText hinfinity (by simp [NoColon]) hn]
    simp [AreKeyed]
  cases m with
  | sync s =>
    cases s with
    | regex s =>
      rw [Modifier.lexemes, hword hnames.1.1, areKeyed_cons (by simp)]
      simp [AreKeyed, Modifier.literals]
    | block b =>
      have hfields : ∀ f ∈ b.fields, f.value.IsRead :=
        fun f hf => hread f.value (List.mem_map_of_mem hf)
      rw [Modifier.lexemes, hword (List.mem_append_right _ hnames.1), areKeyed_cons (by simp),
        areKeyed_append (by simp [NoColon]), areKeyed_cons (by simp),
        areKeyed_fieldsLexemes hinfinity hfields]
      simp [AreKeyed, Modifier.literals]
  | window w =>
    rcases w with ⟨span, before, _ | after⟩
    · simpa [Modifier.literals, Modifier.lexemes, Window.afterLexemes] using
        hpair hnames (hread _ List.mem_cons_self)
    · have hbefore : (Literal.number before).IsRead := hread _ List.mem_cons_self
      have hafter : (Literal.number after).IsRead := hread _ (by simp [Modifier.literals])
      have hboth : (∀ l ∈ (Modifier.window ⟨span, before, some after⟩).literals, l.IsFinite) ↔
          (Literal.number before).IsFinite ∧ (Literal.number after).IsFinite := by
        simp [Modifier.literals]
      rw [hboth, Modifier.lexemes]
      by_cases hsame : sameNumber after.value before.value = true
      · -- The second number is left out, but it is infinite only if the first one is.
        simp only [Window.afterLexemes, if_pos hsame]
        rw [hpair hnames hbefore, iff_self_and]
        exact Literal.isFinite_of_sameNumber hsame
      · simp only [Window.afterLexemes, if_neg hsame]
        rw [hword hnames.1, areKeyed_numberText hinfinity (by simp [NoColon]) hbefore,
          areKeyed_cons (by simp), areKeyed_numberText hinfinity (by simp [NoColon]) hafter]
        simp [AreKeyed]
  | jump j =>
    simpa [Modifier.literals, Modifier.lexemes] using hpair hnames (hread _ List.mem_cons_self)
  | duration d =>
    simpa [Modifier.literals, Modifier.lexemes] using hpair hnames (hread _ List.mem_cons_self)

/-- The words of a statement show its infinite numbers. -/
theorem Statement.areKeyed_lexemes_iff {s : Statement} (hread : s.IsRead v)
    (hform : s.HasCanonicalForm) :
    AreKeyed (s.lexemes v) ↔ ∀ l ∈ s.literals, l.IsFinite := by
  cases s with
  | alertAll | define => contradiction
  | hideAll h =>
    rw [Statement.lexemes, wordLexeme_of_mem (hread.keyword _ rfl), areKeyed_cons (by simp),
      areKeyed_cons (by simp)]
    simp [AreKeyed, Statement.literals, Literal.IsFinite, Literal.number?]
  | entry e =>
    have hmodifiers : AreKeyed (e.modifiers.flatMap (Modifier.lexemes v)) ↔
        ∀ m ∈ e.modifiers, ∀ l ∈ m.literals, l.IsFinite := by
      apply areKeyed_flatMap fun m _ => m.noColon_lexemes
      intro m hm
      rcases hread.entry_modifier hm with ⟨hnames, hliterals⟩
      exact Modifier.areKeyed_lexemes_iff hinfinity hnames hliterals
    have hliterals : (∀ l ∈ (Statement.entry e).literals, l.IsFinite) ↔
        e.time.value.isFinite = true ∧ ∀ m ∈ e.modifiers, ∀ l ∈ m.literals, l.IsFinite := by
      rw [Statement.literals, List.forall_mem_cons, List.forall_mem_cons, List.forall_mem_flatMap]
      simp [Literal.IsFinite, Literal.number?]
    rw [hliterals, Statement.lexemes, areKeyed_number hinfinity isNumberSpelling_timeText
      (by simp [NoColon]) hread.entry_time, areKeyed_cons (by simp), hmodifiers]

end

/-! ## Shorter texts -/

/-- A text is at most as long as another one, and as long only under a condition. -/
structure Shrinks (a b : Text) (P : Prop) : Prop where
  le : a.length ≤ b.length
  of_length_eq : a.length = b.length → P

namespace Shrinks

variable {a b c d : Text} {P Q : Prop}

theorem refl (a : Text) : Shrinks a a True :=
  ⟨Nat.le_refl _, fun _ => trivial⟩

theorem imp (h : Shrinks a b P) (himp : P → Q) : Shrinks a b Q :=
  ⟨h.le, fun heq => himp (h.of_length_eq heq)⟩

/-- Two parts are as long as two others only if each of them is. -/
theorem append (h : Shrinks a b P) (h' : Shrinks c d Q) : Shrinks (a ++ c) (b ++ d) (P ∧ Q) := by
  have hle := h.le
  have hle' := h'.le
  refine ⟨?_, fun heq => ?_⟩
  · rw [List.length_append, List.length_append]
    omega
  · rw [List.length_append, List.length_append] at heq
    exact ⟨h.of_length_eq (by omega), h'.of_length_eq (by omega)⟩

theorem behind (t : Text) (h : Shrinks a b P) : Shrinks (t ++ a) (t ++ b) P :=
  ((refl t).append h).imp And.right

theorem before (h : Shrinks a b P) (t : Text) : Shrinks (a ++ t) (b ++ t) P :=
  (h.append (refl t)).imp And.left

section

variable {α : Type} {f g : α → Text} {R : α → Prop} {xs : List α}

/-- Texts that shrink part by part shrink together. -/
theorem flatMap (h : ∀ x ∈ xs, Shrinks (f x) (g x) (R x)) :
    Shrinks (xs.flatMap f) (xs.flatMap g) (∀ x ∈ xs, R x) := by
  induction xs with
  | nil => exact (refl []).imp (by simp)
  | cons x xs ih =>
    rcases List.forall_mem_cons.mp h with ⟨hx, h⟩
    exact (hx.append (ih h)).imp List.forall_mem_cons.mpr

/-- Texts that shrink part by part shrink together, whatever separates the parts. -/
theorem join (separator : Text) (h : ∀ x ∈ xs, Shrinks (f x) (g x) (R x)) :
    Shrinks (Text.join separator (xs.map f)) (Text.join separator (xs.map g))
      (∀ x ∈ xs, R x) := by
  induction xs with
  | nil => exact (refl []).imp (by simp)
  | cons x xs ih =>
    rcases List.forall_mem_cons.mp h with ⟨hx, h⟩
    cases xs with
    | nil => exact hx.imp (by simp)
    | cons next xs =>
      exact ((hx.before separator).append (ih h)).imp List.forall_mem_cons.mpr

end

end Shrinks

/-- A string that loses a backslash has a shorter text. -/
theorem shrinks_escapeString_respell {t : Text} (h : IsDecoded t) :
    Shrinks (escapeString (respell t)) (escapeString t) (respell t = t) := by
  induction t with
  | nil => exact (Shrinks.refl []).imp fun _ => rfl
  | cons c t ih =>
    by_cases hc : c = '\\'
    · subst hc
      cases t with
      | nil => exact absurd rfl h
      | cons d t =>
        by_cases hd : d = '\''
        · subst hd
          have hlost : respell ('\\' :: '\'' :: t) = respell ('\'' :: t) :=
            (unescapeString_escapeString_apostrophe t).trans
              (unescapeString_escapeString_cons (by decide) t).symm
          have hle := (ih h.tail).le
          have hlength : (escapeString ('\\' :: '\'' :: t)).length =
              (escapeString ('\'' :: t)).length + 1 := by
            simp [escapeStringChar]
          rw [hlost]
          exact ⟨by omega, fun heq => by omega⟩
        · have hkept : respell ('\\' :: d :: t) = '\\' :: respell (d :: t) :=
            unescapeString_escapeString_backslash (h.1 rfl) hd t
          rw [hkept, escapeString_cons, escapeString_cons]
          exact ((ih h.tail).behind _).imp (congrArg _)
    · have hkept : respell (c :: t) = c :: respell t := unescapeString_escapeString_cons hc t
      rw [hkept, escapeString_cons, escapeString_cons]
      exact ((ih h.tail).behind _).imp (congrArg _)

/-- A respelt string is not longer, and equally long only if it is the same. -/
theorem shrinks_stringText {s : StringLiteral} (h : IsDecoded s.value) :
    Shrinks (stringText (s.map respell)) (stringText s) (respell s.value = s.value) :=
  ((shrinks_escapeString_respell h).behind ['"']).before ['"']

/-- A respelt field is not longer, and equally long only if its string is the same. -/
theorem shrinks_fieldText {f : Field} (h : f.value.IsRead) :
    Shrinks (fieldText (f.mapStrings respell)) (fieldText f)
      (∀ t ∈ f.value.string?, respell t = t) := by
  rcases f with ⟨key, s | n⟩
  · have hstring := ((shrinks_stringText (s := s) h).behind [':', ' ']).behind key
    exact hstring.imp (by simp [Literal.string?])
  · exact (Shrinks.refl _).imp (by simp [Literal.string?])

/-- A respelt modifier is not longer, and equally long only if its strings are the same. -/
theorem Modifier.shrinks_text {m : Modifier} (h : ∀ l ∈ m.literals, l.IsRead) :
    Shrinks (m.mapStrings respell).text m.text
      (∀ l ∈ m.literals, ∀ t ∈ l.string?, respell t = t) := by
  cases m with
  | sync s =>
    cases s with
    | regex s => exact (Shrinks.refl _).imp (by simp [Modifier.literals])
    | block b =>
      have hfields : Shrinks
          (Text.join ", ".toList (b.fields.map (fieldText ∘ Field.mapStrings respell)))
          (Text.join ", ".toList (b.fields.map fieldText))
          (∀ f ∈ b.fields, ∀ t ∈ f.value.string?, respell t = t) :=
        Shrinks.join ", ".toList fun f hf =>
          shrinks_fieldText (h f.value (List.mem_map_of_mem hf))
      by_cases hempty : b.fields = []
      · simp only [Modifier.mapStrings, Sync.mapStrings, Modifier.text, blockText, hempty]
        exact (Shrinks.refl _).imp (by simp [Modifier.literals, hempty])
      · have hblock := (hfields.behind (b.logType ++ " \x7b ".toList)).before " \x7d".toList
        simpa [Modifier.mapStrings, Sync.mapStrings, Modifier.text, blockText, hempty,
          Modifier.literals] using hblock
  | window w =>
    exact (Shrinks.refl _).imp (by
      rcases w with ⟨span, before, _ | after⟩ <;> simp [Modifier.literals, Literal.string?])
  | jump | duration => exact (Shrinks.refl _).imp (by simp [Modifier.literals, Literal.string?])

/-- Strings that lose backslashes make the text of a statement shorter. -/
theorem Statement.shrinks_text {v : Vocabulary} {s : Statement} (hread : s.IsRead v)
    (hform : s.HasCanonicalForm) :
    Shrinks (s.mapStrings respell).text s.text (∀ t ∈ s.strings, respell t = t) := by
  simp only [Statement.forall_mem_strings]
  cases s with
  | alertAll | define => contradiction
  | hideAll h =>
    have hname := (shrinks_stringText hread.hideAll_name).behind "hideall ".toList
    exact hname.imp (by simp [Statement.literals, Literal.string?])
  | entry e =>
    have hmodifiers := Shrinks.flatMap fun m (hm : m ∈ e.modifiers) =>
      (Modifier.shrinks_text (hread.entry_modifier hm).2).behind [' ']
    have hentry := (((shrinks_stringText hread.entry_name).append hmodifiers).behind [' ']).behind
      (timeText e.time.value)
    simp only [Statement.mapStrings, Statement.text, Entry.modifiers_mapStrings, List.flatMap_map]
    refine hentry.imp ?_
    rintro ⟨hname, hmodifiers⟩
    rw [Statement.literals, List.forall_mem_cons, List.forall_mem_cons, List.forall_mem_flatMap]
    exact ⟨by simp [Literal.string?], by simpa [Literal.string?] using hname, hmodifiers⟩

/-! ## Canonical texts that are read again -/

section

variable {v : Vocabulary}

/-- Strings that were read come back exactly if none has a backslash in front of an apostrophe. -/
theorem Statement.respell_strings_iff {s : Statement} (hread : s.IsRead v) :
    (∀ t ∈ s.strings, respell t = t) ↔ ∀ t ∈ s.strings, ¬['\\', '\''] <:+: t := by
  have hdecoded : ∀ t ∈ s.strings, IsDecoded t := by
    rw [Statement.forall_mem_strings]
    intro l hl t ht
    cases l with
    | string literal =>
      cases ht
      exact hread.literals _ hl
    | number n => contradiction
  exact forall₂_congr fun t ht => unescapeString_escapeString_iff (hdecoded t ht)

/-- The canonical text is that of the changed strings exactly if no string changes. -/
theorem join_text_respell_iff {statements : List Statement}
    (h : ∀ s ∈ statements, s.IsRead v ∧ s.HasCanonicalForm)
    (hplain : ∀ s ∈ statements, ∀ l ∈ s.literals, l.IsPlain) :
    Text.join ['\n'] (statements.map fun s => (s.mapStrings respell).text) =
        Text.join ['\n'] (statements.map Statement.text) ↔
      ∀ s ∈ statements, ∀ t ∈ s.strings, respell t = t := by
  constructor
  · intro heq
    have hshrinks := Shrinks.join ['\n'] fun s hs => Statement.shrinks_text (h s hs).1 (h s hs).2
    exact hshrinks.of_length_eq (congrArg List.length heq)
  · intro hstrings
    have htext : ∀ s ∈ statements, (s.mapStrings respell).text = s.text := by
      intro s hs
      rw [← Statement.text_bare (Statement.isPlain_mapStrings (hplain s hs) respell),
        s.bare_mapStrings_iff.mpr (hstrings s hs), Statement.text_bare (hplain s hs)]
    rw [List.map_congr_left htext]

variable (hv : v.HasWords) {source file text : Text} {p : Program}
  (hparse : parseSource v source file = .ok p) (hcanonical : p.canonical = .ok text)
include hv hparse hcanonical

/-- If its numbers are finite, the canonical text of a program is read as a program whose canonical
text has the changed strings. -/
theorem exists_canonical_respell (hfinite : ∀ s ∈ p.body, ∀ x ∈ s.numbers, x.isFinite = true)
    (file' : Text) : ∃ q, parseSource v text file' = .ok q ∧ q.canonical =
      .ok (Text.join ['\n'] (p.body.map fun s => (s.mapStrings respell).text)) := by
  rcases isRead_of_parseSource hv hparse with ⟨hread, hchain⟩
  have hform := Program.hasCanonicalForm hcanonical
  have hreads := reads_canonical hv hparse hcanonical
  obtain ⟨q, hq, hbare⟩ := exists_parseSource_of_reads hv hreads
    (fun s hs => ⟨hread s hs, hform s hs⟩) hchain hfinite file'
  have hsame : q.body.map Statement.bare =
      (p.body.map (Statement.mapStrings respell)).map Statement.bare := by
    rw [hbare, List.map_map]
    rfl
  have hform' : ∀ s ∈ q.body, s.HasCanonicalForm := by
    intro s hs
    have hmem : s.bare ∈ p.body.map fun s => (s.mapStrings respell).bare :=
      hbare ▸ List.mem_map_of_mem hs
    rcases List.mem_map.mp hmem with ⟨s', hs', heq⟩
    have hs' := hform s' hs'
    cases s <;> cases s' <;> trivial
  have hplain : ∀ s ∈ q.body, ∀ l ∈ s.literals, l.IsPlain := fun s hs =>
    Statement.isPlain_literals ((isRead_of_parseSource hv hq).1 s hs)
      (isFinite_of_parseSource hv hreads hread hq s hs)
  have hplain' : ∀ s ∈ p.body.map (Statement.mapStrings respell), ∀ l ∈ s.literals,
      l.IsPlain := by
    rw [List.forall_mem_map]
    exact fun s hs => Statement.isPlain_mapStrings
      (Statement.isPlain_literals (hread s hs) (hfinite s hs)) respell
  refine ⟨q, hq, ?_⟩
  rw [Program.canonical_eq hform', map_text_of_map_bare hplain hplain' hsame, List.map_map]
  rfl

/-- The numbers of a program are finite if its canonical text is one of what is read from it. -/
theorem isFinite_of_canonical (hinfinity : "Infinity".toList ∉ v.words) {file' : Text}
    {q : Program} (hq : parseSource v text file' = .ok q) (hsame : q.canonical = .ok text) :
    ∀ s ∈ p.body, ∀ x ∈ s.numbers, x.isFinite = true := by
  have hreads := reads_canonical hv hparse hcanonical
  have hlexemes : p.body.flatMap (Statement.lexemes v) = q.body.flatMap (Statement.lexemes v) :=
    (List.append_inj' ((hreads.lexemes_normalize hv).symm.trans
      ((reads_canonical hv hq hsame).lexemes_normalize hv)) rfl).1
  have hkeyed : ∀ {file source : Text} {r : Program}, parseSource v source file = .ok r →
      r.canonical = .ok text → (AreKeyed (r.body.flatMap (Statement.lexemes v)) ↔
        ∀ s ∈ r.body, ∀ x ∈ s.numbers, x.isFinite = true) := by
    intro file source r hr hform
    apply areKeyed_flatMap fun s _ => s.noColon_lexemes
    intro s hs
    rw [Statement.areKeyed_lexemes_iff hinfinity ((isRead_of_parseSource hv hr).1 s hs)
      (Program.hasCanonicalForm hform s hs), s.forall_mem_numbers]
    rfl
  have hfinite := isFinite_of_parseSource hv hreads (isRead_of_parseSource hv hparse).1 hq
  rwa [← hkeyed hparse hcanonical, hlexemes, hkeyed hq hsame]

/-- The canonical text of a program is read as a program with this canonical text exactly if all
numbers are finite and no string has a backslash in front of an apostrophe. -/
theorem exists_canonical_eq_iff (hinfinity : "Infinity".toList ∉ v.words) (file' : Text) :
    (∃ q, parseSource v text file' = .ok q ∧ q.canonical = .ok text) ↔
      ∀ s ∈ p.body, (∀ x ∈ s.numbers, x.isFinite = true) ∧
        ∀ t ∈ s.strings, ¬['\\', '\''] <:+: t := by
  have hread := (isRead_of_parseSource hv hparse).1
  have hform := Program.hasCanonicalForm hcanonical
  have htext : Text.join ['\n'] (p.body.map Statement.text) = text :=
    Except.ok.inj ((Program.canonical_eq hform).symm.trans hcanonical)
  have hjoin := fun hfinite : ∀ s ∈ p.body, ∀ x ∈ s.numbers, x.isFinite = true =>
    join_text_respell_iff (fun s hs => ⟨hread s hs, hform s hs⟩) fun s hs =>
      Statement.isPlain_literals (hread s hs) (hfinite s hs)
  constructor
  · rintro ⟨q, hq, hsame⟩
    have hfinite := isFinite_of_canonical hv hparse hcanonical hinfinity hq hsame
    obtain ⟨q', hq', hrespell⟩ := exists_canonical_respell hv hparse hcanonical hfinite file'
    obtain rfl : q = q' := Except.ok.inj (hq.symm.trans hq')
    have heq := Except.ok.inj (hrespell.symm.trans hsame)
    have hstrings := (hjoin hfinite).mp (heq.trans htext.symm)
    exact fun s hs => ⟨hfinite s hs, (Statement.respell_strings_iff (hread s hs)).mp
      (hstrings s hs)⟩
  · intro h
    have hfinite : ∀ s ∈ p.body, ∀ x ∈ s.numbers, x.isFinite = true := fun s hs => (h s hs).1
    obtain ⟨q, hq, hrespell⟩ := exists_canonical_respell hv hparse hcanonical hfinite file'
    have heq := (hjoin hfinite).mpr fun s hs =>
      (Statement.respell_strings_iff (hread s hs)).mpr (h s hs).2
    exact ⟨q, hq, by rw [hrespell, heq, htext]⟩

end

/-! ## Canonical forms of canonical forms -/

/-- Without options and settings, the canonical form of a text is the canonical text of its
program. -/
theorem transformText_eq_ok_iff {source text : Text} :
    transformText source none none = .ok text ↔
      ∃ p, parseSource .default source [] = .ok p ∧ p.canonical = .ok text := by
  have htarget : isTarget (.string "cactbot".toList) = true := by decide
  rw [transformText, parseText, vocabularyOf]
  cases parseSource .default source [] with
  | error error => simp
  | ok p =>
    simp only [generate, targetOf, htarget, if_true, Except.ok.injEq, exists_eq_left',
      Program.canonical]
    cases p.toNode.canonical <;> simp [Except.mapError]

/-- The spelling of an infinite number is no word of the usual tables. -/
theorem infinity_not_mem_words : "Infinity".toList ∉ Vocabulary.default.words := by
  decide +kernel

/-- The canonical form of a canonical form is that text again exactly if all numbers are finite and
no string has a backslash in front of an apostrophe. -/
theorem transformText_idempotent_iff {source text : Text}
    (h : transformText source none none = .ok text) :
    ∃ p, parseSource .default source [] = .ok p ∧
      (transformText text none none = .ok text ↔
        ∀ s ∈ p.body, (∀ x ∈ s.numbers, x.isFinite = true) ∧
          ∀ t ∈ s.strings, ¬['\\', '\''] <:+: t) := by
  rcases transformText_eq_ok_iff.mp h with ⟨p, hp, hcanonical⟩
  refine ⟨p, hp, ?_⟩
  rw [transformText_eq_ok_iff]
  exact exists_canonical_eq_iff Vocabulary.hasWords_default hp hcanonical infinity_not_mem_words []

/-- The canonical form of a hidden name in single quotes. -/
theorem transformText_idempotent_hideAll :
    transformText "hideall 'a'".toList none none = .ok "hideall \"a\"".toList ∧
      transformText "hideall \"a\"".toList none none = .ok "hideall \"a\"".toList := by
  have hparse : parseSource .default "hideall 'a'".toList [] =
      .ok ⟨⟨0, 11, ⟨1, 0⟩, ⟨1, 11⟩⟩, [.hideAll ⟨⟨0, 11, ⟨1, 0⟩, ⟨1, 11⟩⟩,
        ⟨⟨8, 11, ⟨1, 8⟩, ⟨1, 11⟩⟩, ['a'], "'a'".toList⟩⟩], [], [], "module".toList⟩ := by
    decide +kernel
  have htext : transformText "hideall 'a'".toList none none = .ok "hideall \"a\"".toList :=
    transformText_eq_ok_iff.mpr ⟨_, hparse, rfl⟩
  rcases transformText_idempotent_iff htext with ⟨p, hp, hiff⟩
  obtain rfl := Except.ok.inj (hp.symm.trans hparse)
  exact ⟨htext, hiff.mpr (by decide)⟩

/-- The name of an entry that is a backslash and an apostrophe loses the backslash when the
canonical form is transformed again. -/
theorem transformText_backslash_apostrophe :
    transformText "0 \"\\\\'\"".toList none none = .ok "0.0 \"\\'\"".toList ∧
      transformText "0.0 \"\\'\"".toList none none = .ok "0.0 \"'\"".toList ∧
        "0.0 \"'\"".toList ≠ "0.0 \"\\'\"".toList := by
  have hcanonical : ∀ {source text : Text},
      ((parseSource .default source []).toOption.bind fun p => p.canonical.toOption) = some text →
        transformText source none none = .ok text :=
    fun h => transformText_eq_ok_iff.mpr (exists_canonical_of_toOption h)
  exact ⟨hcanonical (by decide +kernel), hcanonical (by decide +kernel), by decide⟩

end RaidTimeline
