import RaidTimeline.Proofs.Acceptance
import RaidTimeline.Proofs.Spelling

/-!
# Canonical timelines are read again

A program that was read, and whose canonical text is read again, comes back with the same content
exactly if its numbers are finite and none of its strings has a backslash in front of an
apostrophe.

The lexemes of the canonical text make up the statements of the program again, with strings that
have lost what their escapes have lost.  An infinite number has no numeral, and no number that is
read from numerals of finite numbers is infinite.

Main results:

- Theorem {lit}`exists_derives`: the lexemes of canonical statements derive statements.
- Theorem {lit}`parseSource_canonical_iff`: which programs come back.
-/

namespace RaidTimeline

variable {v : Vocabulary}

/-! ## Tokens with the lexemes of literals -/

/-- A literal is no infinite or undefined number. -/
def Literal.IsFinite (l : Literal) : Prop := ∀ x ∈ l.number?, x.isFinite = true

theorem Token.holds_of_lexeme {t : Token} {kind : Kind} {value : Text}
    (h : t.lexeme = ⟨kind, value⟩) : t.holds kind value = true :=
  (Token.holds_iff ..).mpr (Token.lexeme_eq_iff.mp h)

/-- A table word is seen as a keyword. -/
theorem wordLexeme_of_mem {w : Text} (h : w ∈ v.words) : wordLexeme v w = ⟨.keyword, w⟩ := by
  rw [wordLexeme, if_pos h]

theorem wordLexeme_of_not_mem {w : Text} (h : w ∉ v.words) :
    wordLexeme v w = ⟨.identifier, w⟩ := by
  rw [wordLexeme, if_neg h]

/-- Two lexemes are those of two tokens. -/
theorem exists_pair_of_lexemes {ts : List Token} {a b : Lexeme}
    (h : ts.map Token.lexeme = [a, b]) :
    ∃ first second, ts = [first, second] ∧ first.lexeme = a ∧ second.lexeme = b := by
  rcases List.map_eq_cons_iff.mp h with ⟨first, ts, rfl, hfirst, h⟩
  rcases List.map_eq_cons_iff.mp h with ⟨second, ts, rfl, hsecond, h⟩
  rw [List.map_eq_nil_iff.mp h]
  exact ⟨first, second, rfl, hfirst, hsecond⟩

/-- A token with the lexeme of a finite number is that number. -/
theorem Token.number_of_lexeme {t : Token} {n : NumberLiteral} {text : Text}
    (h : t.lexeme = numberLexeme v text n.value) (hfinite : n.value.isFinite = true)
    (htext : Binary64.ofLiteral text = n.value) :
    t.kind = .number ∧ t.toNumber.bare = n.bare := by
  rw [numberLexeme, if_pos hfinite] at h
  rcases Token.lexeme_eq_iff.mp h with ⟨hkind, hvalue⟩
  refine ⟨hkind, ?_⟩
  rw [NumberLiteral.bare, Token.toNumber, hvalue, htext]
  rfl

/-- A token that is seen as a respelt string has the content of the respelt string. -/
theorem Token.string_of_lexeme {t : Token} {s : StringLiteral}
    (h : t.lexeme = ⟨.string, respell s.value⟩) :
    t.kind = .string ∧ t.toString.bare = (s.map respell).bare := by
  rcases Token.lexeme_eq_iff.mp h with ⟨hkind, hvalue⟩
  refine ⟨hkind, ?_⟩
  rw [StringLiteral.bare, Token.toString, hvalue]
  rfl

/-- A number in a modifier, read again. -/
theorem Token.number_of_lexeme_numberText {t : Token} {n : NumberLiteral}
    (h : t.lexeme = numberLexeme v (numberText n.value) n.value)
    (hread : (Literal.number n).IsRead) (hfinite : (Literal.number n).IsFinite) :
    t.kind = .number ∧ t.toNumber.bare = n.bare := by
  have hvalue : n.value.isFinite = true := hfinite n.value rfl
  exact Token.number_of_lexeme h hvalue (isNumberSpelling_numberText.ofLiteral_eq hread hvalue)

/-! ## Fields -/

/-- A field in front of slots. -/
theorem IsSlots.cons {us ts : List Token} {comma : Token} {f : Field} {fs : List Field}
    (hf : IsField us f) (hcomma : comma.holds .punctuator [','] = true) (h : IsSlots ts fs) :
    IsSlots (us ++ comma :: ts) (f :: fs) := by
  induction h with
  | first hslot => exact (IsSlots.first (.field hf)).next hcomma hslot
  | @next ts ws comma' fs gs _ hcomma' hslot ih =>
    have hnext := ih.next hcomma' hslot
    rwa [List.append_assoc, List.cons_append] at hnext

/-- The lexemes of a field are read as the field with its string respelt. -/
theorem exists_isField {f : Field} (hkey : f.key ∉ v.words) (hread : f.value.IsRead)
    (hfinite : f.value.IsFinite) {ts : List Token} (h : ts.map Token.lexeme = f.lexemes v) :
    ∃ g, IsField ts g ∧ g.bare = (f.mapStrings respell).bare := by
  rcases List.map_eq_cons_iff.mp h with ⟨key, ts, rfl, hkeyLexeme, h⟩
  rcases List.map_eq_cons_iff.mp h with ⟨colon, ts, rfl, hcolon, h⟩
  rcases List.map_eq_cons_iff.mp h with ⟨value, ts, rfl, hvalue, h⟩
  obtain rfl := List.map_eq_nil_iff.mp h
  rw [wordLexeme_of_not_mem hkey] at hkeyLexeme
  rcases Token.lexeme_eq_iff.mp hkeyLexeme with ⟨hkind, hname⟩
  rcases f with ⟨name, l⟩
  cases l with
  | string s =>
    rcases Token.string_of_lexeme hvalue with ⟨hstring, hbare⟩
    refine ⟨_, .string hkind (Token.holds_of_lexeme hcolon) hstring, ?_⟩
    simp only [Field.bare, Literal.bare, hbare, hname]
    rfl
  | number n =>
    rcases Token.number_of_lexeme_numberText hvalue hread hfinite with ⟨hnumber, hbare⟩
    refine ⟨_, .number hkind (Token.holds_of_lexeme hcolon) hnumber, ?_⟩
    simp only [Field.bare, Literal.bare, hbare, hname]
    rfl

/-- The lexemes of fields are read as the fields with their strings respelt. -/
theorem exists_isSlots {fs : List Field}
    (hfs : ∀ f ∈ fs, f.key ∉ v.words ∧ f.value.IsRead ∧ f.value.IsFinite) {ts : List Token}
    (h : ts.map Token.lexeme = fieldsLexemes v fs) :
    ∃ gs, IsSlots ts gs ∧
      gs.map Field.bare = fs.map fun f => (f.mapStrings respell).bare := by
  fun_induction fieldsLexemes v fs generalizing ts with
  | case1 =>
    obtain rfl := List.map_eq_nil_iff.mp h
    exact ⟨[], .first .empty, rfl⟩
  | case2 f =>
    rcases hfs f List.mem_cons_self with ⟨hkey, hread, hfinite⟩
    rcases exists_isField hkey hread hfinite h with ⟨g, hg, hbare⟩
    exact ⟨[g], .first (.field hg), by rw [List.map_singleton, List.map_singleton, hbare]⟩
  | case3 f next fs ih =>
    rcases List.map_eq_append_iff.mp h with ⟨us, ts, rfl, hus, h⟩
    rcases List.map_eq_cons_iff.mp h with ⟨comma, ts, rfl, hcomma, h⟩
    rcases hfs f List.mem_cons_self with ⟨hkey, hread, hfinite⟩
    rcases exists_isField hkey hread hfinite hus with ⟨g, hg, hbare⟩
    rcases ih (fun f hf => hfs f (List.mem_cons_of_mem _ hf)) h with ⟨gs, hgs, hrest⟩
    refine ⟨g :: gs, hgs.cons hg (Token.holds_of_lexeme hcomma), ?_⟩
    rw [List.map_cons, List.map_cons, hbare, hrest]

/-! ## Modifiers -/

/-- A keyword that begins modifiers. -/
theorem Token.keyword_of_lexeme {t : Token} {word : Text} (h : t.lexeme = wordLexeme v word)
    (hword : v.HasModifier word) : t.holds .keyword word = true ∧ t.value ∉ v.logTypes := by
  rw [wordLexeme_of_mem hword.1] at h
  refine ⟨Token.holds_of_lexeme h, ?_⟩
  rw [(Token.lexeme_eq_iff.mp h).2]
  exact hword.2

/-- The lexemes of a structured synchronisation are read as one with its strings respelt. -/
theorem exists_isModifier_block {b : BlockSync} (hnames : (Modifier.sync (.block b)).HasNames v)
    (hfs : ∀ f ∈ b.fields, f.key ∉ v.words ∧ f.value.IsRead ∧ f.value.IsFinite)
    {ts : List Token} (h : ts.map Token.lexeme = Modifier.lexemes v (.sync (.block b))) :
    ∃ m, IsModifier v.logTypes ts m ∧
      m.bare = ((Modifier.sync (.block b)).mapStrings respell).bare := by
  rcases hnames with ⟨hmem, -, -⟩
  rcases List.map_eq_cons_iff.mp h with ⟨keyword, ts, rfl, hkeyword, h⟩
  rcases List.map_eq_cons_iff.mp h with ⟨opening, ts, rfl, hopening, h⟩
  rcases List.map_eq_append_iff.mp h with ⟨us, ts, rfl, hus, h⟩
  rcases List.map_eq_cons_iff.mp h with ⟨closing, ts, rfl, hclosing, h⟩
  obtain rfl := List.map_eq_nil_iff.mp h
  rw [wordLexeme_of_mem (List.mem_append_right _ hmem)] at hkeyword
  rcases Token.lexeme_eq_iff.mp hkeyword with ⟨hkind, hvalue⟩
  rcases exists_isSlots hfs hus with ⟨gs, hgs, hbare⟩
  refine ⟨_, .block hkind (hvalue ▸ hmem) (Token.holds_of_lexeme hopening) hgs
    (Token.holds_of_lexeme hclosing), ?_⟩
  simp only [Modifier.mapStrings, Sync.mapStrings, Modifier.bare, Sync.bare, hvalue, hbare,
    List.map_map]
  rfl

/-- The lexemes of a synchronisation on a regular expression are read as it was. -/
theorem exists_isModifier_regex {s : RegexSync} (hnames : (Modifier.sync (.regex s)).HasNames v)
    {ts : List Token} (h : ts.map Token.lexeme = Modifier.lexemes v (.sync (.regex s))) :
    ∃ m, IsModifier v.logTypes ts m ∧ m.bare = (Modifier.sync (.regex s)).bare := by
  rcases hnames with ⟨hword, -, hflags⟩
  rcases exists_pair_of_lexemes h with ⟨keyword, pattern, rfl, hkeyword, hpattern⟩
  rcases Token.keyword_of_lexeme hkeyword hword with ⟨hholds, hmem⟩
  rcases Token.lexeme_eq_iff.mp hpattern with ⟨hkind, hvalue⟩
  refine ⟨_, .regex hholds hmem hkind, ?_⟩
  simp only [Modifier.bare, Sync.bare, RegexLiteral.bare, Token.toRegex, hvalue, hflags]

/-- The lexemes of a window are read as it was. -/
theorem exists_isModifier_window {w : Window} (hnames : (Modifier.window w).HasNames v)
    (hliterals : ∀ l ∈ (Modifier.window w).literals, l.IsRead ∧ l.IsFinite)
    {ts : List Token} (h : ts.map Token.lexeme = Modifier.lexemes v (.window w)) :
    ∃ m, IsModifier v.logTypes ts m ∧ m.bare = (Modifier.window w).bare := by
  rcases w with ⟨span, before, after⟩
  rcases List.map_eq_cons_iff.mp h with ⟨keyword, ts, rfl, hkeyword, h⟩
  rcases List.map_eq_cons_iff.mp h with ⟨first, ts, rfl, hfirst, h⟩
  rcases Token.keyword_of_lexeme hkeyword hnames with ⟨hholds, hmem⟩
  rcases hliterals (.number before) (by simp [Modifier.literals]) with ⟨hread, hfinite⟩
  rcases Token.number_of_lexeme_numberText hfirst hread hfinite with ⟨hkind, hbare⟩
  have hfirstValue : first.toNumber.value = before.value :=
    show first.toNumber.bare.value = before.bare.value from congrArg NumberLiteral.value hbare
  cases after with
  | none =>
    obtain rfl := List.map_eq_nil_iff.mp h
    refine ⟨_, .window hholds hmem hkind, ?_⟩
    simp [Modifier.bare, Window.bare, hbare]
  | some after =>
    rcases hliterals (.number after) (by simp [Modifier.literals]) with ⟨hread', hfinite'⟩
    have hsame := sameNumber_iff hread' hread
    by_cases heq : after.value = before.value
    · simp only [Window.afterLexemes, if_pos (hsame.mpr heq)] at h
      obtain rfl := List.map_eq_nil_iff.mp h
      refine ⟨_, .window hholds hmem hkind, ?_⟩
      simp [Modifier.bare, Window.bare, hbare, heq]
    · simp only [Window.afterLexemes, if_neg (mt hsame.mp heq)] at h
      rcases List.map_eq_cons_iff.mp h with ⟨comma, ts, rfl, hcomma, h⟩
      rcases List.map_eq_cons_iff.mp h with ⟨second, ts, rfl, hsecond, h⟩
      obtain rfl := List.map_eq_nil_iff.mp h
      rcases Token.number_of_lexeme_numberText hsecond hread' hfinite' with ⟨hkind', hbare'⟩
      have hsecondValue : second.toNumber.value = after.value :=
        show second.toNumber.bare.value = after.bare.value from
          congrArg NumberLiteral.value hbare'
      refine ⟨_, .windowAfter hholds hmem hkind (Token.holds_of_lexeme hcomma) hkind', ?_⟩
      simp [Modifier.bare, Window.bare, Option.filter, hbare, hbare', hfirstValue,
        hsecondValue, heq]

/-- The lexemes of a modifier that was read make up the modifier again. -/
theorem exists_isModifier {m : Modifier} (hnames : m.HasNames v)
    (hliterals : ∀ l ∈ m.literals, l.IsRead ∧ l.IsFinite) {ts : List Token}
    (h : ts.map Token.lexeme = m.lexemes v) :
    ∃ m', IsModifier v.logTypes ts m' ∧ m'.bare = (m.mapStrings respell).bare := by
  -- A keyword and a number, which is all of a jump or a duration.
  have hpair : ∀ {n : NumberLiteral} {word : Text}, v.HasModifier word →
      (Literal.number n).IsRead ∧ (Literal.number n).IsFinite →
        ts.map Token.lexeme =
          [wordLexeme v word, numberLexeme v (numberText n.value) n.value] →
            ∃ keyword time, ts = [keyword, time] ∧ keyword.holds .keyword word = true ∧
              keyword.value ∉ v.logTypes ∧ time.kind = .number ∧
                time.toNumber.bare = n.bare := by
    intro n word hword hn h
    rcases exists_pair_of_lexemes h with ⟨keyword, time, rfl, hkeyword, htime⟩
    rcases Token.keyword_of_lexeme hkeyword hword with ⟨hholds, hmem⟩
    rcases Token.number_of_lexeme_numberText htime hn.1 hn.2 with ⟨hkind, hbare⟩
    exact ⟨keyword, time, rfl, hholds, hmem, hkind, hbare⟩
  cases m with
  | sync s =>
    cases s with
    | regex s => exact exists_isModifier_regex hnames h
    | block b =>
      refine exists_isModifier_block hnames (fun f hf => ?_) h
      exact ⟨(hnames.2.2 f hf).1, hliterals f.value (List.mem_map_of_mem hf)⟩
  | window w => exact exists_isModifier_window hnames hliterals h
  | jump j =>
    obtain ⟨keyword, time, rfl, hholds, hmem, hkind, hbare⟩ :=
      hpair hnames (hliterals (.number j.time) (by simp [Modifier.literals])) h
    refine ⟨_, .jump hholds hmem hkind, ?_⟩
    simp only [Modifier.bare, Modifier.mapStrings, Jump.bare, hbare]
  | duration d =>
    obtain ⟨keyword, time, rfl, hholds, hmem, hkind, hbare⟩ :=
      hpair hnames (hliterals (.number d.time) (by simp [Modifier.literals])) h
    refine ⟨_, .duration hholds hmem hkind, ?_⟩
    simp only [Modifier.bare, Modifier.mapStrings, Duration.bare, hbare]

/-! ## Statements -/

/-- If the lexemes of each of several constructs make it up again, so do all of them together. -/
theorem exists_many {α β : Type} {IsItem : List Token → α → Prop} {lexemes : α → List Lexeme}
    {result expected : α → β} {xs : List α}
    (hitem : ∀ x ∈ xs, ∀ us : List Token, us.map Token.lexeme = lexemes x →
      ∃ y, IsItem us y ∧ result y = expected x)
    {ts : List Token} (h : ts.map Token.lexeme = xs.flatMap lexemes) :
    ∃ ys, Many IsItem ts ys ∧ ys.map result = xs.map expected := by
  induction xs using List.reverseRecOn generalizing ts with
  | nil =>
    obtain rfl := List.map_eq_nil_iff.mp h
    exact ⟨[], .nil, rfl⟩
  | append_singleton xs x ih =>
    rw [List.flatMap_append, List.flatMap_singleton] at h
    rcases List.map_eq_append_iff.mp h with ⟨ts, us, rfl, hts, hus⟩
    obtain ⟨ys, hys, hmap⟩ :=
      ih (fun x hx => hitem x (List.mem_append_left _ hx)) hts
    rcases hitem x (List.mem_append_right _ List.mem_cons_self) us hus with ⟨y, hy, hresult⟩
    refine ⟨ys ++ [y], hys.concat hy, ?_⟩
    rw [List.map_append, List.map_append, hmap, List.map_singleton, List.map_singleton, hresult]

/-- The lexemes of a statement that was read make up the statement again. -/
theorem exists_isStatement {s : Statement} (hread : s.IsRead v) (hform : s.HasCanonicalForm)
    (hfinite : ∀ l ∈ s.literals, l.IsFinite) {ts : List Token}
    (h : ts.map Token.lexeme = s.lexemes v) :
    ∃ s', IsStatement v.logTypes ts s' ∧ s'.bare = (s.mapStrings respell).bare := by
  cases s with
  | alertAll | define => contradiction
  | hideAll hidden =>
    rcases exists_pair_of_lexemes h with ⟨keyword, name, rfl, hkeyword, hname⟩
    rw [wordLexeme_of_mem (hread.keyword _ rfl)] at hkeyword
    rcases Token.string_of_lexeme hname with ⟨hstring, hbare⟩
    refine ⟨_, .hideAll (Token.holds_of_lexeme hkeyword) hstring, ?_⟩
    simp only [Statement.bare, HideAll.bare, Statement.mapStrings, hbare]
  | entry e =>
    rcases List.map_eq_cons_iff.mp h with ⟨time, ts, rfl, htime, h⟩
    rcases List.map_eq_cons_iff.mp h with ⟨name, ts, rfl, hname, h⟩
    have htimeFinite : e.time.value.isFinite = true :=
      hfinite (.number e.time) (by simp [Statement.literals]) e.time.value rfl
    obtain ⟨hnumber, htimeBare⟩ := Token.number_of_lexeme htime htimeFinite
      (isNumberSpelling_timeText.ofLiteral_eq hread.entry_time htimeFinite)
    rcases Token.string_of_lexeme hname with ⟨hstring, hnameBare⟩
    have hmodifier : ∀ m ∈ e.modifiers, ∀ us : List Token, us.map Token.lexeme = m.lexemes v →
        ∃ m', IsModifier v.logTypes us m' ∧ m'.bare = (m.mapStrings respell).bare := by
      intro m hm us hus
      refine exists_isModifier (hread.modifiers m hm) (fun l hl => ?_) hus
      have hmem : l ∈ (Statement.entry e).literals := Entry.mem_literals hm hl
      exact ⟨hread.literals l hmem, hfinite l hmem⟩
    rcases exists_many hmodifier h with ⟨parts, hparts, hbare⟩
    refine ⟨_, .entry hnumber hstring hparts, congrArg Statement.entry ?_⟩
    apply Entry.bare_ofParts
    · exact htimeBare
    · exact hnameBare
    · rw [hbare, Entry.modifiers_mapStrings, List.map_map]
      rfl

/-! ## Programs -/

/-- Whether statements may follow each other depends on their content alone. -/
theorem isChain_mayFollow_bare {logTypes : List Text} (statements : List Statement) :
    (statements.map Statement.bare).IsChain (MayFollow logTypes) ↔
      statements.IsChain (MayFollow logTypes) := by
  have hbare : ∀ s next : Statement,
      MayFollow logTypes s.bare next.bare ↔ MayFollow logTypes s next := by
    intro s next
    cases s <;> cases next <;> rfl
  rw [List.isChain_map]
  simp only [hbare]

/-- Which statements may follow each other does not depend on their strings. -/
theorem isChain_mayFollow_mapStrings {logTypes : List Text} (f : Text → Text)
    (statements : List Statement) :
    (statements.map (Statement.mapStrings f)).IsChain (MayFollow logTypes) ↔
      statements.IsChain (MayFollow logTypes) := by
  have hmap : ∀ s next : Statement, MayFollow logTypes (s.mapStrings f) (next.mapStrings f) ↔
      MayFollow logTypes s next := by
    intro s next
    cases s <;> cases next <;> rfl
  rw [List.isChain_map]
  simp only [hmap]

/-- The lexemes of statements that were read derive the statements again, if their numbers are
finite; what their strings lose is lost. -/
theorem exists_derives {statements : List Statement}
    (hread : ∀ s ∈ statements, s.IsRead v ∧ s.HasCanonicalForm)
    (hfinite : ∀ s ∈ statements, ∀ l ∈ s.literals, l.IsFinite)
    (hchain : statements.IsChain (MayFollow v.logTypes)) {ts : List Token}
    (h : ts.map Token.lexeme = statements.flatMap (Statement.lexemes v)) :
    ∃ again, Derives v.logTypes ts again ∧
      again.map Statement.bare = statements.map fun s => (s.mapStrings respell).bare := by
  obtain ⟨again, hmany, hbare⟩ := exists_many (fun s hs us hus =>
    exists_isStatement (hread s hs).1 (hread s hs).2 (hfinite s hs) hus) h
  refine ⟨again, ⟨hmany, ?_⟩, hbare⟩
  rw [← isChain_mayFollow_bare, hbare]
  have hmapped := (isChain_mayFollow_bare _).mpr
    ((isChain_mayFollow_mapStrings respell statements).mpr hchain)
  rwa [List.map_map] at hmapped

/-! ## Numbers in canonical texts -/

/-- A lexeme that is a number is a finite one. -/
def Lexeme.IsFinite (l : Lexeme) : Prop :=
  l.kind = .number → (Binary64.ofLiteral l.value).isFinite = true

theorem Lexeme.isFinite_of_kind_ne {kind : Kind} {value : Text} (h : kind ≠ .number) :
    (Lexeme.mk kind value).IsFinite :=
  fun hkind => absurd hkind h

theorem isFinite_wordLexeme (w : Text) : (wordLexeme v w).IsFinite := by
  intro hkind
  rw [wordLexeme] at hkind
  split at hkind <;> contradiction

/-- The lexeme of a number that is read back is a finite number, if it is one at all. -/
theorem isFinite_numberLexeme {x : Binary64} {text : Text}
    (h : x.isFinite = true → Binary64.ofLiteral text = x) : (numberLexeme v text x).IsFinite := by
  rw [numberLexeme]
  by_cases hfinite : x.isFinite = true
  · rw [if_pos hfinite]
    intro _
    rw [h hfinite, hfinite]
  · rw [if_neg hfinite]
    exact isFinite_wordLexeme text

/-- A literal that was read is seen as no infinite number: that is seen as a word. -/
theorem Literal.isFinite_lexeme {l : Literal} (h : l.IsRead) : (l.lexeme v).IsFinite := by
  cases l with
  | string s => exact Lexeme.isFinite_of_kind_ne (by decide)
  | number n => exact isFinite_numberLexeme (isNumberSpelling_numberText.ofLiteral_eq h)

theorem isFinite_fieldsLexemes {fs : List Field} (h : ∀ f ∈ fs, f.value.IsRead) :
    ∀ l ∈ fieldsLexemes v fs, l.IsFinite := by
  have hfield : ∀ {f : Field}, f.value.IsRead → ∀ l ∈ f.lexemes v, l.IsFinite := by
    intro f hf l hl
    simp only [Field.lexemes, List.mem_cons, List.not_mem_nil, or_false] at hl
    rcases hl with rfl | rfl | rfl
    · exact isFinite_wordLexeme f.key
    · exact Lexeme.isFinite_of_kind_ne (by decide)
    · exact Literal.isFinite_lexeme hf
  fun_induction fieldsLexemes v fs with
  | case1 => simp
  | case2 f => exact hfield (h f List.mem_cons_self)
  | case3 f next fs ih =>
    intro l hl
    rcases List.mem_append.mp hl with hl | hl
    · exact hfield (h f List.mem_cons_self) l hl
    · rcases List.mem_cons.mp hl with rfl | hl
      · exact Lexeme.isFinite_of_kind_ne (by decide)
      · exact ih (fun f hf => h f (List.mem_cons_of_mem _ hf)) l hl

theorem Modifier.isFinite_lexemes {m : Modifier} (h : ∀ l ∈ m.literals, l.IsRead) :
    ∀ l ∈ m.lexemes v, l.IsFinite := by
  have hnumber : ∀ {n : NumberLiteral}, (Literal.number n) ∈ m.literals →
      (numberLexeme v (numberText n.value) n.value).IsFinite :=
    fun hn => Literal.isFinite_lexeme (h _ hn)
  intro l hl
  cases m with
  | sync s =>
    cases s with
    | regex s =>
      simp only [Modifier.lexemes, List.mem_cons, List.not_mem_nil, or_false] at hl
      rcases hl with rfl | rfl
      · exact isFinite_wordLexeme _
      · exact Lexeme.isFinite_of_kind_ne (by decide)
    | block b =>
      simp only [Modifier.lexemes, List.mem_cons, List.mem_append, List.not_mem_nil,
        or_false] at hl
      rcases hl with rfl | rfl | hl | rfl
      · exact isFinite_wordLexeme _
      · exact Lexeme.isFinite_of_kind_ne (by decide)
      · exact isFinite_fieldsLexemes (fun f hf => h _ (List.mem_map_of_mem hf)) l hl
      · exact Lexeme.isFinite_of_kind_ne (by decide)
  | window w =>
    rcases w with ⟨span, before, after⟩
    simp only [Modifier.lexemes, List.mem_cons] at hl
    rcases hl with rfl | rfl | hl
    · exact isFinite_wordLexeme _
    · exact hnumber (by simp [Modifier.literals])
    · cases after with
      | none => contradiction
      | some after =>
        simp only [Window.afterLexemes] at hl
        split at hl
        · contradiction
        · simp only [List.mem_cons, List.not_mem_nil, or_false] at hl
          rcases hl with rfl | rfl
          · exact Lexeme.isFinite_of_kind_ne (by decide)
          · exact hnumber (by simp [Modifier.literals])
  | jump j =>
    simp only [Modifier.lexemes, List.mem_cons, List.not_mem_nil, or_false] at hl
    rcases hl with rfl | rfl
    · exact isFinite_wordLexeme _
    · exact hnumber (by simp [Modifier.literals])
  | duration d =>
    simp only [Modifier.lexemes, List.mem_cons, List.not_mem_nil, or_false] at hl
    rcases hl with rfl | rfl
    · exact isFinite_wordLexeme _
    · exact hnumber (by simp [Modifier.literals])

/-- The numbers in the canonical text of a statement are finite. -/
theorem Statement.isFinite_lexemes {s : Statement} (hread : s.IsRead v) :
    ∀ l ∈ s.lexemes v, l.IsFinite := by
  intro l hl
  cases s with
  | alertAll | define => contradiction
  | hideAll hidden =>
    simp only [Statement.lexemes, List.mem_cons, List.not_mem_nil, or_false] at hl
    rcases hl with rfl | rfl
    · exact isFinite_wordLexeme _
    · exact Lexeme.isFinite_of_kind_ne (by decide)
  | entry e =>
    simp only [Statement.lexemes, List.mem_cons, List.mem_flatMap] at hl
    rcases hl with rfl | rfl | ⟨m, hm, hl⟩
    · exact isFinite_numberLexeme (isNumberSpelling_timeText.ofLiteral_eq hread.entry_time)
    · exact Lexeme.isFinite_of_kind_ne (by decide)
    · exact Modifier.isFinite_lexemes
        (hread.entry_modifier hm).2 l hl

/-- The numbers of a statement are those of its tokens. -/
theorem IsStatement.isFinite_numbers {logTypes : List Text} {ts : List Token} {s : Statement}
    (h : IsStatement logTypes ts s) (hts : ∀ t ∈ ts, t.lexeme.IsFinite) :
    ∀ x ∈ s.numbers, x.isFinite = true := by
  intro x hx
  rcases List.mem_filterMap.mp hx with ⟨l, hl, hnumber⟩
  rcases h.exists_literal l hl with ⟨t, ht, hliteral⟩
  unfold Token.literal? at hliteral
  split at hliteral
  next =>
    cases hliteral
    contradiction
  next hkind =>
    cases hliteral
    cases hnumber
    exact hts t ht hkind
  next => contradiction

/-! ## The round trip -/

/-- The statements of a source text can be read, and each may follow the one before. -/
theorem isRead_of_parseSource (hv : v.HasWords) {source file : Text} {p : Program}
    (h : parseSource v source file = .ok p) :
    (∀ s ∈ p.body, s.IsRead v) ∧ p.body.IsChain (MayFollow v.logTypes) := by
  obtain ⟨us, last, htokens, -, hderives⟩ :=
    (parseSource_ok_iff_derives hv.hasNoEmptyWord source file p.body).mp ⟨p, h, rfl⟩
  refine ⟨?_, hderives.chain⟩
  intro s hs
  rcases hderives.many.along.exists_piece s hs with ⟨ts, hstatement, hrow⟩
  apply hstatement.isRead
  intro t ht
  apply significantTokens_isRead hv source
  rw [htokens]
  exact List.mem_append_left _ (hrow.subset ht)

/-- A text that is read as the lexemes of statements is accepted if their numbers are finite, and
its statements have lost what the strings lose. -/
theorem exists_parseSource_of_reads (hv : v.HasWords) {text : Text} {statements : List Statement}
    (hreads : Reads v text (statements.flatMap (Statement.lexemes v)))
    (hread : ∀ s ∈ statements, s.IsRead v ∧ s.HasCanonicalForm)
    (hchain : statements.IsChain (MayFollow v.logTypes))
    (hfinite : ∀ s ∈ statements, ∀ x ∈ s.numbers, x.isFinite = true) (file : Text) :
    ∃ q, parseSource v text file = .ok q ∧
      q.body.map Statement.bare = statements.map fun s => (s.mapStrings respell).bare := by
  have hlexemes := map_lexeme_significantTokens hv.hasNoEmptyWord text
  rw [hreads.lexemes_normalize hv] at hlexemes
  rcases List.map_eq_append_iff.mp hlexemes with ⟨us, ts, htokens, hus, hts⟩
  rcases List.map_eq_cons_iff.mp hts with ⟨last, ts, rfl, hlast, hts⟩
  obtain rfl := List.map_eq_nil_iff.mp hts
  have hliterals : ∀ s ∈ statements, ∀ l ∈ s.literals, l.IsFinite :=
    fun s hs => s.forall_mem_numbers.mp (hfinite s hs)
  rcases exists_derives hread hliterals hchain hus with ⟨again, hderives, hbare⟩
  obtain ⟨q, hq, rfl⟩ := (parseSource_ok_iff_derives hv.hasNoEmptyWord text file again).mpr
    ⟨us, last, htokens, (Token.lexeme_eq_iff.mp hlast).1, hderives⟩
  exact ⟨q, hq, hbare⟩

/-- All numbers that are read from a text of canonical statements are finite. -/
theorem isFinite_of_parseSource (hv : v.HasWords) {text file : Text}
    {statements : List Statement}
    (hreads : Reads v text (statements.flatMap (Statement.lexemes v)))
    (hread : ∀ s ∈ statements, s.IsRead v) {q : Program}
    (h : parseSource v text file = .ok q) :
    ∀ s ∈ q.body, ∀ x ∈ s.numbers, x.isFinite = true := by
  obtain ⟨us, last, htokens, -, hderives⟩ :=
    (parseSource_ok_iff_derives hv.hasNoEmptyWord text file q.body).mp ⟨q, h, rfl⟩
  have hlexemes := map_lexeme_significantTokens hv.hasNoEmptyWord text
  rw [hreads.lexemes_normalize hv, htokens, List.map_append, List.map_singleton] at hlexemes
  have hus : us.map Token.lexeme = statements.flatMap (Statement.lexemes v) :=
    (List.append_inj' hlexemes rfl).1
  intro s hs
  rcases hderives.many.along.exists_piece s hs with ⟨ts, hstatement, hrow⟩
  apply hstatement.isFinite_numbers
  intro t ht
  have hmem := List.mem_map_of_mem (hrow.subset ht) (f := Token.lexeme)
  rw [hus] at hmem
  rcases List.mem_flatMap.mp hmem with ⟨printed, hprinted, hlexeme⟩
  exact Statement.isFinite_lexemes (hread printed hprinted) t.lexeme hlexeme

/-- A program of entries and hidden names that was read from any source text has a canonical text.
Reading that text gives a program of the same content exactly if all numbers are finite and no
string has a backslash in front of an apostrophe. -/
theorem parseSource_canonical_iff (hv : v.HasWords) {source file : Text} {p : Program}
    (hparse : parseSource v source file = .ok p) (hform : ∀ s ∈ p.body, s.HasCanonicalForm) :
    ∃ text, p.canonical = .ok text ∧ ∀ file' : Text,
      ((∃ q, parseSource v text file' = .ok q ∧
          q.body.map Statement.bare = p.body.map Statement.bare) ↔
        ∀ s ∈ p.body, (∀ x ∈ s.numbers, x.isFinite = true) ∧
          ∀ t ∈ s.strings, ¬['\\', '\''] <:+: t) := by
  rcases isRead_of_parseSource hv hparse with ⟨hread, hchain⟩
  have hboth : ∀ s ∈ p.body, s.IsRead v ∧ s.HasCanonicalForm :=
    fun s hs => ⟨hread s hs, hform s hs⟩
  rcases Program.exists_canonical hv hboth with ⟨text, hcanonical, hreads⟩
  -- A string survives if it has no backslash in front of an apostrophe.
  have hstrings : ∀ s ∈ p.body, (s.mapStrings respell).bare = s.bare ↔
      ∀ t ∈ s.strings, ¬['\\', '\''] <:+: t := by
    intro s hs
    rw [Statement.bare_mapStrings_iff]
    have hdecoded : ∀ t ∈ s.strings, IsDecoded t := by
      intro t ht
      rcases List.mem_filterMap.mp ht with ⟨l, hl, hstring⟩
      have hl := (hread s hs).literals l hl
      cases l with
      | string literal =>
        cases hstring
        exact hl
      | number n => contradiction
    exact forall₂_congr fun t ht => unescapeString_escapeString_iff (hdecoded t ht)
  refine ⟨text, hcanonical, fun file' => ?_⟩
  constructor
  · rintro ⟨q, hq, hbare⟩
    have hfinite : ∀ s ∈ p.body, ∀ x ∈ s.numbers, x.isFinite = true := by
      intro s hs x hx
      have hmem : s.bare ∈ q.body.map Statement.bare := by
        rw [hbare]
        exact List.mem_map_of_mem hs
      rcases List.mem_map.mp hmem with ⟨s', hs', heq⟩
      apply isFinite_of_parseSource hv hreads hread hq s' hs' x
      rwa [← Statement.mem_numbers_bare, heq, Statement.mem_numbers_bare]
    obtain ⟨q', hq', hbare'⟩ :=
      exists_parseSource_of_reads hv hreads hboth hchain hfinite file'
    obtain rfl : q = q' := Except.ok.inj (hq.symm.trans hq')
    rw [hbare] at hbare'
    intro s hs
    exact ⟨hfinite s hs, (hstrings s hs).mp (List.map_inj_left.mp hbare' s hs).symm⟩
  · intro h
    obtain ⟨q, hq, hbare⟩ := exists_parseSource_of_reads hv hreads hboth hchain
      (fun s hs => (h s hs).1) file'
    refine ⟨q, hq, hbare.trans ?_⟩
    exact List.map_inj_left.mpr fun s hs => (hstrings s hs).mpr (h s hs).2

/-- An entry whose window repeats its first number comes back. -/
theorem parseSource_canonical_window :
    Vocabulary.default.HasWords ∧ ∃ p,
      parseSource .default "7 'it' window 2,2".toList [] = .ok p ∧
        (∀ s ∈ p.body, s.HasCanonicalForm) ∧ ∃ text, p.canonical = .ok text ∧
          ∃ q, parseSource .default text [] = .ok q ∧
            q.body.map Statement.bare = p.body.map Statement.bare := by
  let e : Entry :=
    { span := ⟨0, 17, ⟨1, 0⟩, ⟨1, 17⟩⟩
      time := ⟨⟨0, 1, ⟨1, 0⟩, ⟨1, 1⟩⟩, .ofLiteral ['7'], ['7']⟩
      name := ⟨⟨2, 6, ⟨1, 2⟩, ⟨1, 6⟩⟩, "it".toList, "'it'".toList⟩
      sync := none
      window := some
        ⟨⟨7, 17, ⟨1, 7⟩, ⟨1, 17⟩⟩, ⟨⟨14, 15, ⟨1, 14⟩, ⟨1, 15⟩⟩, .ofLiteral ['2'], ['2']⟩,
          some ⟨⟨16, 17, ⟨1, 16⟩, ⟨1, 17⟩⟩, .ofLiteral ['2'], ['2']⟩⟩
      duration := none
      jump := none }
  have hparse : parseSource .default "7 'it' window 2,2".toList [] =
      .ok ⟨⟨0, 17, ⟨1, 0⟩, ⟨1, 17⟩⟩, [.entry e], [], [], "module".toList⟩ := by
    decide +kernel
  have hform : ∀ s ∈ [Statement.entry e], s.HasCanonicalForm := by decide
  have hcontent : ∀ s ∈ [Statement.entry e], (∀ x ∈ s.numbers, x.isFinite = true) ∧
      ∀ t ∈ s.strings, ¬['\\', '\''] <:+: t := by
    decide +kernel
  rcases parseSource_canonical_iff Vocabulary.hasWords_default hparse hform with
    ⟨text, hcanonical, hiff⟩
  exact ⟨Vocabulary.hasWords_default, _, hparse, hform, text, hcanonical, (hiff []).mpr hcontent⟩

end RaidTimeline
