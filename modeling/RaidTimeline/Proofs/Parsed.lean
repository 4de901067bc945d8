import RaidTimeline.Proofs.Content
import RaidTimeline.Proofs.Derivation
import RaidTimeline.Proofs.Lexemes

/-!
# What can be read

Not every statement can be read from a text: words are names of the right tables, strings and
patterns are decoded, and numbers have no sign.  These facts hold of every token, and so of the
parts of every statement that is made of tokens.

Main results:

- Definition {lit}`Lexeme.IsRead`: what is known of a lexeme of any text.
- Theorem {lit}`lexemes_isRead`: all lexemes of a text are such.
- Definition {lit}`Along`: constructs that stand along a list of tokens.
- Definitions {lit}`Literal.IsRead`, {lit}`Modifier.HasNames` and {lit}`Statement.IsRead`: what is
  known of the parts of statements.
- Theorem {lit}`IsStatement.isRead`: statements that are made of lexemes of a text are such.
-/

namespace RaidTimeline

/-! ## Line ends -/

/-- Where all line ends are line feeds there is no carriage return. -/
theorem not_mem_foldLineEnds (t : Text) : '\r' ∉ Text.foldLineEnds t := by
  fun_induction Text.foldLineEnds t with
  | case1 => simp
  | case2 rest ih => simpa using ih
  | case3 c rest _ ih =>
    by_cases hc : c = '\r'
    · simpa [hc] using ih
    · simpa [hc, Ne.symm hc] using ih

/-- There is none in the form in which a text is read. -/
theorem not_mem_normalize (source : Text) : '\r' ∉ normalize source :=
  not_mem_foldLineEnds _

/-! ## Lexemes -/

/-- What is known of a lexeme of any text. -/
def Lexeme.IsRead (v : Vocabulary) (l : Lexeme) : Prop :=
  match l.kind with
  | .keyword => l.value ∈ v.words ∧ IsName l.value
  | .identifier => l.value ∉ v.words ∧ IsName l.value
  | .string => IsDecoded l.value
  | .regex => IsPattern l.value
  | _ => True

/-- A kind that is recognised shows that no kind tried before it matches. -/
theorem length?_eq_none_of_recognise? {v : Vocabulary} {before : Option Char} {text : Text}
    {kind : Kind} {n : Nat} (earlier : List Kind) {later : List Kind}
    (hsplit : Kind.precedence = earlier ++ later)
    (h : recognise? v before text = some (kind, n)) (hkind : kind ∉ earlier) :
    ∀ k ∈ earlier, k.length? v before text = none := by
  rw [recognise?, hsplit, List.findSome?_append] at h
  cases hfound : earlier.findSome? fun kind => (kind.length? v before text).map (kind, ·) with
  | none =>
    intro k hk
    exact Option.map_eq_none_iff.mp (List.findSome?_eq_none_iff.mp hfound k hk)
  | some found =>
    rw [hfound, Option.some_or, Option.some.injEq] at h
    rcases List.exists_of_findSome?_eq_some hfound with ⟨k, hk, heq⟩
    rcases Option.map_eq_some_iff.mp heq with ⟨m, -, rfl⟩
    cases h
    exact absurd hk hkind

/-- Where a word is recognised there is no digit. -/
theorem isDigit_eq_false_of_numberLength? {c : Char} {rest : Text}
    (h : numberLength? (c :: rest) = none) : c.isDigit = false := by
  rw [← Bool.not_eq_true]
  intro hdigit
  rw [numberLength?] at h
  split at h
  · contradiction
  · contradiction

/-- The text of a keyword is a table word, and a name. -/
theorem isRead_keyword {v : Vocabulary} (hv : v.HasWords) {before : Option Char} {text : Text}
    {n : Nat} (h : recognise? v before text = some (.keyword, n)) :
    text.take n ∈ v.words ∧ IsName (text.take n) := by
  have hnumber := length?_eq_none_of_recognise? [.blank, .comment, .punctuator, .brace,
    .number] rfl h (by decide) .number (by decide)
  rcases keywordLength?_eq_some (length?_of_recognise? h).2 with ⟨⟨w, hw, hstands, rfl⟩, -⟩
  rcases hv w hw with ⟨hne, hword⟩
  rw [standsAt, Bool.and_eq_true, List.isPrefixOf_iff_prefix] at hstands
  rcases hstands with ⟨⟨rest, rfl⟩, -⟩
  rw [List.take_left]
  refine ⟨hw, hne, hword, ?_⟩
  intro c hc
  rcases List.exists_cons_of_ne_nil hne with ⟨d, w, rfl⟩
  rw [List.head?_cons, Option.mem_some_iff] at hc
  exact hc ▸ isDigit_eq_false_of_numberLength? hnumber

/-- The text of an identifier is a name, and no table word. -/
theorem isRead_identifier {v : Vocabulary} (hv : v.HasWords) {text : Text} {n : Nat}
    (h : recognise? v none text = some (.identifier, n)) :
    text.take n ∉ v.words ∧ IsName (text.take n) := by
  have hearlier := length?_eq_none_of_recognise? [.blank, .comment, .punctuator,
    .brace, .number, .string, .regex, .keyword] rfl h (by decide)
  have hnumber : numberLength? text = none := hearlier .number (by decide)
  have hkeyword : keywordLength? v none text = none := hearlier .keyword (by decide)
  rcases runLength?_eq_some.mp (length?_of_recognise? h).2 with ⟨hpos, hlength⟩
  have hsplit := List.takeWhile_append_dropWhile (p := isWord) (l := text)
  have htake : text.take n = text.takeWhile isWord := by
    nth_rewrite 1 [← hsplit]
    rw [← hlength, List.take_left]
  have hword : ∀ c ∈ text.takeWhile isWord, isWord c = true :=
    fun c hc => List.mem_takeWhile_imp hc
  have hstop : ∀ c ∈ (text.dropWhile isWord).head?, isWord c = false := by
    intro c hc
    have := List.head?_dropWhile_not isWord text
    rw [Option.mem_def.mp hc] at this
    simpa using this
  rw [htake]
  refine ⟨?_, List.length_pos_iff.mp (by omega), hword, ?_⟩
  · intro hmem
    have hfound := keywordLength?_append hv hword hstop
    rw [hsplit, hkeyword, if_pos hmem] at hfound
    contradiction
  · intro c hc
    rw [List.head?_takeWhile] at hc
    cases text with
    | nil => simp at hc
    | cons d text =>
      rcases by simpa [Option.filter_eq_some_iff] using hc with ⟨rfl, -⟩
      exact isDigit_eq_false_of_numberLength? hnumber

/-- The text between the quotes of a string denotes a decoded text. -/
theorem isDecoded_of_stringLength? {text : Text} {n : Nat} (h : stringLength? text = some n) :
    IsDecoded (unescapeString (inner (text.take n))) := by
  unfold stringLength? at h
  split at h
  · contradiction
  · rename_i c rest
    split at h
    · rename_i hquote
      rcases Option.map_eq_some_iff.mp h with ⟨m, hm, rfl⟩
      have hline : c ≠ '\n' := by
        rintro rfl
        revert hquote
        decide
      rcases (closingLength?_eq_some hline).mp hm with ⟨body, tail, rfl, hcloses, rfl⟩
      have htake : (c :: (body ++ c :: tail)).take (body.length + 1 + 1) = c :: (body ++ [c]) := by
        simp [List.take_append]
      rw [htake, inner_delimited]
      exact isDecoded_unescapeString hcloses.getLast?_ne
    · contradiction

/-- The text between the slashes of a regular expression denotes a pattern. -/
theorem isPattern_of_regexLength? {text : Text} {n : Nat} (hreturn : '\r' ∉ text)
    (h : regexLength? text = some n) : IsPattern (unescapeRegex (inner (text.take n))) := by
  unfold regexLength? at h
  split at h
  · rename_i c rest
    split at h
    · contradiction
    · rename_i hbar
      rcases Option.map_eq_some_iff.mp h with ⟨m, hm, rfl⟩
      rcases exists_isRegexBody hm with ⟨body, tail, htext, hbody, rfl⟩
      have htake : ('/' :: c :: rest).take (body.length + 1 + 1) = '/' :: (body ++ ['/']) := by
        rw [htext]
        simp [List.take_append]
      rw [htake, inner_delimited]
      rw [htext] at hreturn
      cases body with
      | nil =>
        rcases List.cons.inj htext with ⟨rfl, -⟩
        exact absurd rfl hbar
      | cons d body =>
        rcases List.cons.inj htext with ⟨rfl, -⟩
        refine ⟨c, body, hbody, by simpa using hbar, ?_, rfl⟩
        intro hmem
        apply hreturn
        simp only [List.mem_cons, List.mem_append] at hmem ⊢
        exact Or.inr (Or.inl hmem)
  · contradiction

/-- What is recognised in a text is a lexeme that can be read. -/
theorem isRead_of_recognise? {v : Vocabulary} (hv : v.HasWords) {text : Text} {kind : Kind}
    {n : Nat} (hreturn : '\r' ∉ text) (h : recognise? v none text = some (kind, n)) :
    Lexeme.IsRead v ⟨kind, kind.valueOf (text.take n)⟩ := by
  have hlength := (length?_of_recognise? h).2
  cases kind with
  | keyword => exact isRead_keyword hv h
  | identifier => exact isRead_identifier hv h
  | string => exact isDecoded_of_stringLength? hlength
  | regex => exact isPattern_of_regexLength? hreturn hlength
  | blank | comment | punctuator | brace | number | eof | unknown => trivial

/-- All lexemes of a text without carriage returns can be read. -/
theorem lexemes_isRead {v : Vocabulary} (hv : v.HasWords) {text : Text} (hreturn : '\r' ∉ text) :
    ∀ l ∈ lexemes v text, l.IsRead v := by
  induction hlength : text.length using Nat.strongRecOn generalizing text with
  | _ length ih =>
  by_cases hne : text = []
  · subst hne
    rw [lexemes_nil]
    simp [Lexeme.IsRead]
  · cases hfound : recognise? v none text with
    | none =>
      have hscan : (Cursor.ofText text).scan v =
          ((Cursor.ofText text).emptyToken .unknown, Cursor.ofText text) := by
        simp [Cursor.scan, Cursor.ofText, hne, hfound]
      rw [lexemes, Cursor.lexemes_of_isLast (Or.inr rfl) hscan]
      simp [Lexeme.IsRead]
    | some found =>
      rcases found with ⟨kind, n⟩
      have hpos := recognise?_pos hv.hasNoEmptyWord hfound
      have hnonempty := List.length_pos_iff.mpr hne
      have hbehind : ∀ l ∈ lexemes v (text.drop n), l.IsRead v := by
        refine ih (text.drop n).length ?_ (fun h => hreturn (List.mem_of_mem_drop h)) rfl
        rw [List.length_drop]
        omega
      rw [lexemes_of_recognise? hv.hasNoEmptyWord hne hfound]
      intro l hl
      rcases List.mem_append.mp hl with hl | hl
      · split at hl
        · contradiction
        · rw [List.mem_singleton.mp hl]
          exact isRead_of_recognise? hv hreturn hfound
      · exact hbehind l hl

/-- All significant tokens of a source text can be read. -/
theorem significantTokens_isRead {v : Vocabulary} (hv : v.HasWords) (source : Text) :
    ∀ t ∈ significantTokens v source, t.lexeme.IsRead v := by
  intro t ht
  apply lexemes_isRead hv (not_mem_normalize source)
  rw [← map_lexeme_significantTokens hv.hasNoEmptyWord]
  exact List.mem_map_of_mem ht

/-! ## Parts of constructs -/

/-- Constructs that stand along a list of tokens: each is made of some tokens in a row, and in
front of, between and behind them there may be others. -/
inductive Along {α : Type} (IsPiece : List Token → α → Prop) : List Token → List α → Prop where
  | nil (gap : List Token) : Along IsPiece gap []
  | cons (gap : List Token) {us ts : List Token} {x : α} {xs : List α} :
      IsPiece us x → Along IsPiece ts xs → Along IsPiece (gap ++ us ++ ts) (x :: xs)

namespace Along

variable {α β : Type} {IsPiece : List Token → α → Prop} {IsPart : List Token → β → Prop}
  {ts us : List Token} {xs ys : List α}

theorem single {x : α} (h : IsPiece ts x) : Along IsPiece ts [x] := by
  simpa using cons [] h (.nil [])

/-- More tokens in front of the constructs are another gap. -/
theorem behind (h : Along IsPiece ts xs) (gap : List Token) : Along IsPiece (gap ++ ts) xs := by
  cases h with
  | nil => exact .nil (gap ++ ts)
  | @cons next us ts x xs hpiece hrest =>
    have hcons := cons (gap ++ next) hpiece hrest
    rwa [List.append_assoc gap, List.append_assoc gap] at hcons

/-- What stands along two lists of tokens stands along both together. -/
theorem append (hts : Along IsPiece ts xs) (hus : Along IsPiece us ys) :
    Along IsPiece (ts ++ us) (xs ++ ys) := by
  induction hts with
  | nil gap => exact hus.behind gap
  | cons gap hpiece _ ih =>
    rw [List.append_assoc, List.cons_append]
    exact .cons gap hpiece ih

/-- What stands along the pieces stands along the whole. -/
theorem flatMap {parts : α → List β} (h : Along IsPiece ts xs)
    (hparts : ∀ {us x}, IsPiece us x → Along IsPart us (parts x)) :
    Along IsPart ts (xs.flatMap parts) := by
  induction h with
  | nil gap => exact .nil gap
  | cons gap hpiece _ ih => exact ((hparts hpiece).behind gap).append ih

/-- What the constructs become stands along the same tokens. -/
theorem map {f : α → β} (h : Along IsPiece ts xs)
    (hpart : ∀ {us x}, IsPiece us x → IsPart us (f x)) : Along IsPart ts (xs.map f) := by
  rw [List.map_eq_flatMap]
  exact h.flatMap fun hpiece => .single (hpart hpiece)

/-- Each of the constructs is made of tokens in a row. -/
theorem exists_piece (h : Along IsPiece ts xs) : ∀ x ∈ xs, ∃ us, IsPiece us x ∧ us <:+: ts := by
  induction h with
  | nil gap => simp
  | @cons gap us ts x xs hpiece _ ih =>
    intro y hy
    rcases List.mem_cons.mp hy with rfl | hy
    · exact ⟨us, hpiece, List.infix_append gap us ts⟩
    · rcases ih y hy with ⟨vs, hvs, hrow⟩
      exact ⟨vs, hvs, hrow.trans (List.suffix_append _ _).isInfix⟩

end Along

/-- Constructs one behind the other stand along their tokens. -/
theorem Many.along {α : Type} {IsItem : List Token → α → Prop} {ts : List Token} {xs : List α}
    (h : Many IsItem ts xs) : Along IsItem ts xs := by
  induction h with
  | nil => exact .nil []
  | concat _ hitem ih => exact ih.append (.single hitem)

/-- Fields stand along the tokens of their slots. -/
theorem IsSlots.along {ts : List Token} {fs : List Field} (h : IsSlots ts fs) :
    Along IsField ts fs := by
  have hslot : ∀ {us : List Token} {gs : List Field}, IsSlot us gs → Along IsField us gs := by
    intro us gs hslot
    cases hslot with
    | empty => exact .nil []
    | field hfield => exact .single hfield
  induction h with
  | first hfirst => exact hslot hfirst
  | @next ts us comma _ _ _ _ hnext ih => exact ih.append ((hslot hnext).behind [comma])

/-- The last part of a kind is one of the parts. -/
theorem exists_of_lastOf_eq_some {α β : Type} {pick : α → Option β} {parts : List α} {x : β}
    (h : lastOf pick parts = some x) : ∃ part ∈ parts, pick part = some x :=
  List.mem_filterMap.mp (List.mem_of_getLast? h)

/-- The last part of a kind, made a part again, is one of the parts. -/
theorem lastOf_subset {α β : Type} {pick : α → Option β} {make : β → α}
    (hmake : ∀ part x, pick part = some x → part = make x) (parts : List α) :
    ((lastOf pick parts).map make).toList ⊆ parts := by
  intro part hpart
  rcases Option.map_eq_some_iff.mp (Option.mem_toList.mp hpart) with ⟨x, hx, rfl⟩
  rcases exists_of_lastOf_eq_some hx with ⟨part, hpart, hpick⟩
  rwa [← hmake part x hpick]

/-- The modifiers of an entry are among its parts. -/
theorem Entry.modifiers_ofParts_subset (span : Span) (time name : Token)
    (parts : List Modifier) : (Entry.ofParts span time name parts).modifiers ⊆ parts := by
  intro m hm
  simp only [Entry.modifiers, Entry.ofParts, List.mem_append] at hm
  rcases hm with ((hm | hm) | hm) | hm
  · exact lastOf_subset (fun m x h => by cases m <;> cases h; rfl) parts hm
  · exact lastOf_subset (fun m x h => by cases m <;> cases h; rfl) parts hm
  · exact lastOf_subset (fun m x h => by cases m <;> cases h; rfl) parts hm
  · exact lastOf_subset (fun m x h => by cases m <;> cases h; rfl) parts hm

/-! ## Literals -/

/-- The literal that a token is. -/
def Token.literal? (t : Token) : Option Literal :=
  match t.kind with
  | .string => some (.string t.toString)
  | .number => some (.number t.toNumber)
  | _ => none

theorem Token.literal?_of_string {t : Token} (h : t.kind = .string) :
    t.literal? = some (.string t.toString) := by
  rw [literal?, h]

theorem Token.literal?_of_number {t : Token} (h : t.kind = .number) :
    t.literal? = some (.number t.toNumber) := by
  rw [literal?, h]

/-- The literal of a field is one of its tokens. -/
theorem IsField.exists_literal {ts : List Token} {f : Field} (h : IsField ts f) :
    ∃ t ∈ ts, t.literal? = some f.value := by
  cases h with
  | @string key colon value _ _ hvalue =>
    exact ⟨value, by simp, Token.literal?_of_string hvalue⟩
  | @number key colon value _ _ hvalue =>
    exact ⟨value, by simp, Token.literal?_of_number hvalue⟩

/-- The literals of a modifier are tokens of it. -/
theorem IsModifier.exists_literal {logTypes : List Text} {ts : List Token} {m : Modifier}
    (h : IsModifier logTypes ts m) : ∀ l ∈ m.literals, ∃ t ∈ ts, t.literal? = some l := by
  cases h with
  | @block keyword opening closing ts fs _ _ _ hslots _ =>
    intro l hl
    rcases List.mem_map.mp hl with ⟨f, hf, rfl⟩
    rcases hslots.along.exists_piece f hf with ⟨us, hfield, hrow⟩
    rcases hfield.exists_literal with ⟨t, ht, hliteral⟩
    exact ⟨t, by simp [hrow.subset ht], hliteral⟩
  | regex => simp [Modifier.literals]
  | @window _ before _ _ hbefore =>
    simp [Modifier.literals, Token.literal?_of_number hbefore]
  | @windowAfter _ before _ after _ _ hbefore _ hafter =>
    simp [Modifier.literals, Token.literal?_of_number hbefore,
      Token.literal?_of_number hafter]
  | @jump _ time _ _ htime => simp [Modifier.literals, Token.literal?_of_number htime]
  | @duration _ time _ _ htime => simp [Modifier.literals, Token.literal?_of_number htime]

/-- The literals of an alert part are tokens of it. -/
theorem IsAlertPart.exists_literal {ts : List Token} {part : AlertPart}
    (h : IsAlertPart ts part) :
    (∀ b ∈ part.before?, ∃ t ∈ ts, t.literal? = some (.number b.time)) ∧
      ∀ s ∈ part.sound?, ∃ t ∈ ts, t.literal? = some (.string s.file) := by
  cases h with
  | before _ htime =>
    simp [AlertPart.before?, AlertPart.sound?, Token.literal?_of_number htime]
  | sound _ hfile =>
    simp [AlertPart.before?, AlertPart.sound?, Token.literal?_of_string hfile]

/-- The literals of a statement are tokens of it. -/
theorem IsStatement.exists_literal {logTypes : List Text} {ts : List Token} {s : Statement}
    (h : IsStatement logTypes ts s) : ∀ l ∈ s.literals, ∃ t ∈ ts, t.literal? = some l := by
  cases h with
  | hideAll _ hname => simp [Statement.literals, Token.literal?_of_string hname]
  | @alertAll keyword name ts parts _ hname hparts =>
    have hpart : ∀ {β : Type} {pick : AlertPart → Option β} {make : β → Literal},
        (∀ {us part}, IsAlertPart us part → ∀ x ∈ pick part,
          ∃ t ∈ us, t.literal? = some (make x)) →
          ∀ l ∈ (lastOf pick parts).toList.map make, ∃ t ∈ ts, t.literal? = some l := by
      intro β pick make hmake l hl
      rcases List.mem_map.mp hl with ⟨x, hx, rfl⟩
      rcases exists_of_lastOf_eq_some (Option.mem_toList.mp hx) with ⟨part, hmem, hpick⟩
      rcases hparts.along.exists_piece part hmem with ⟨us, hus, hrow⟩
      rcases hmake hus x hpick with ⟨t, ht, hliteral⟩
      exact ⟨t, hrow.subset ht, hliteral⟩
    intro l hl
    simp only [Statement.literals, AlertAll.ofParts, List.cons_append, List.mem_cons,
      List.mem_append] at hl
    rcases hl with rfl | hl | hl
    · exact ⟨name, by simp, Token.literal?_of_string hname⟩
    · rcases hpart (fun hus => hus.exists_literal.1) l hl with ⟨t, ht, hliteral⟩
      exact ⟨t, by simp [ht], hliteral⟩
    · rcases hpart (fun hus => hus.exists_literal.2) l hl with ⟨t, ht, hliteral⟩
      exact ⟨t, by simp [ht], hliteral⟩
  | define _ _ hname hfile =>
    simp [Statement.literals, Token.literal?_of_string hname, Token.literal?_of_string hfile]
  | @entry time name ts parts htime hname hparts =>
    intro l hl
    simp only [Statement.literals, List.mem_cons, List.mem_flatMap] at hl
    rcases hl with rfl | rfl | ⟨m, hm, hl⟩
    · exact ⟨time, by simp, Token.literal?_of_number htime⟩
    · exact ⟨name, by simp, Token.literal?_of_string hname⟩
    · have hmem := Entry.modifiers_ofParts_subset _ time name parts hm
      rcases hparts.along.exists_piece m hmem with ⟨us, hus, hrow⟩
      rcases hus.exists_literal l hl with ⟨t, ht, hliteral⟩
      exact ⟨t, by simp [hrow.subset ht], hliteral⟩

/-! ## What is known of statements -/

/-- What is known of a literal that was read: strings are decoded, and numbers have no sign. -/
def Literal.IsRead : Literal → Prop
  | .string s => IsDecoded s.value
  | .number n => n.value.HasSign false

/-- A word begins modifiers, and not structured synchronisations. -/
def Vocabulary.HasModifier (v : Vocabulary) (word : Text) : Prop :=
  word ∈ v.words ∧ word ∉ v.logTypes

/-- What is known of the words in a modifier that was read: each is in the table of its use. -/
def Modifier.HasNames (v : Vocabulary) : Modifier → Prop
  | .sync (.regex s) => v.HasModifier "sync".toList ∧ IsPattern s.regex.pattern ∧
      s.regex.flags = []
  | .sync (.block b) => b.logType ∈ v.logTypes ∧ IsName b.logType ∧
      ∀ f ∈ b.fields, f.key ∉ v.words ∧ IsName f.key
  | .window _ => v.HasModifier "window".toList
  | .jump _ => v.HasModifier "jump".toList
  | .duration _ => v.HasModifier "duration".toList

/-- The modifiers of a statement. -/
def Statement.modifiers : Statement → List Modifier
  | .entry e => e.modifiers
  | _ => []

/-- What is known of a statement that was read. -/
structure Statement.IsRead (v : Vocabulary) (s : Statement) : Prop where
  literals : ∀ l ∈ s.literals, l.IsRead
  keyword : ∀ w ∈ s.keyword?, w ∈ v.words
  modifiers : ∀ m ∈ s.modifiers, m.HasNames v

section

variable {v : Vocabulary}

theorem Statement.IsRead.hideAll_name {h : HideAll} (hread : (Statement.hideAll h).IsRead v) :
    IsDecoded h.name.value :=
  hread.literals (.string h.name) (by simp [Statement.literals])

namespace Statement.IsRead

variable {e : Entry} (hread : (Statement.entry e).IsRead v)
include hread

theorem entry_time : e.time.value.HasSign false :=
  hread.literals (.number e.time) (by simp [Statement.literals])

theorem entry_name : IsDecoded e.name.value :=
  hread.literals (.string e.name) (by simp [Statement.literals])

/-- The modifiers of an entry that was read have been read, with their literals. -/
theorem entry_modifier {m : Modifier} (hm : m ∈ e.modifiers) :
    m.HasNames v ∧ ∀ l ∈ m.literals, l.IsRead :=
  ⟨hread.modifiers m hm, fun l hl => hread.literals l (Entry.mem_literals hm hl)⟩

end Statement.IsRead

/-- A keyword that was read is a table word and a name. -/
theorem Token.mem_words {t : Token} (h : t.lexeme.IsRead v) (hkind : t.kind = .keyword) :
    t.value ∈ v.words ∧ IsName t.value := by
  simpa [Lexeme.IsRead, hkind] using h

/-- The literal of a token that was read has been read. -/
theorem Token.isRead_literal {t : Token} (h : t.lexeme.IsRead v) {l : Literal}
    (hl : t.literal? = some l) : l.IsRead := by
  unfold Token.literal? at hl
  split at hl
  · rename_i hkind
    cases hl
    have hdecoded : IsDecoded t.value := by
      simpa [Lexeme.IsRead, hkind] using h
    exact hdecoded
  · cases hl
    exact Binary64.hasSign_ofLiteral t.value
  · contradiction

/-- A modifier that is made of lexemes of a text has names. -/
theorem IsModifier.hasNames {ts : List Token} {m : Modifier} (h : IsModifier v.logTypes ts m)
    (hts : ∀ t ∈ ts, t.lexeme.IsRead v) : m.HasNames v := by
  have hword : ∀ {t : Token} {word : Text}, t ∈ ts → t.holds .keyword word = true →
      t.value ∉ v.logTypes → v.HasModifier word := by
    intro t word ht hholds hmem
    rcases (Token.holds_iff ..).mp hholds with ⟨hkind, rfl⟩
    exact ⟨(Token.mem_words (hts t ht) hkind).1, hmem⟩
  cases h with
  | @block keyword opening closing us fs hkind hmem _ hslots _ =>
    refine ⟨hmem, (Token.mem_words (hts keyword (by simp)) hkind).2, ?_⟩
    intro f hf
    rcases hslots.along.exists_piece f hf with ⟨vs, hfield, hrow⟩
    have hkey : ∀ {key : Token}, key ∈ vs → key.kind = .identifier →
        key.value ∉ v.words ∧ IsName key.value := by
      intro key hkey hkind
      have hread := hts key (by simp [hrow.subset hkey])
      simpa [Lexeme.IsRead, hkind] using hread
    cases hfield with
    | string hkind => exact hkey (by simp) hkind
    | number hkind => exact hkey (by simp) hkind
  | @regex keyword pattern hkeyword hmem hkind =>
    have hread := hts pattern (by simp)
    have hpattern : IsPattern pattern.value := by
      simpa [Lexeme.IsRead, hkind] using hread
    exact ⟨hword (by simp) hkeyword hmem, hpattern, rfl⟩
  | window hkeyword hmem => exact hword (by simp) hkeyword hmem
  | windowAfter hkeyword hmem => exact hword (by simp) hkeyword hmem
  | jump hkeyword hmem => exact hword (by simp) hkeyword hmem
  | duration hkeyword hmem => exact hword (by simp) hkeyword hmem

/-- A statement that is made of lexemes of a text can be read. -/
theorem IsStatement.isRead {ts : List Token} {s : Statement} (h : IsStatement v.logTypes ts s)
    (hts : ∀ t ∈ ts, t.lexeme.IsRead v) : s.IsRead v where
  literals := by
    intro l hl
    rcases h.exists_literal l hl with ⟨t, ht, hliteral⟩
    exact Token.isRead_literal (hts t ht) hliteral
  keyword := by
    intro w hw
    rcases h.exists_first with ⟨first, rest, rfl, ⟨-, hnone⟩ | ⟨hkind, hsome⟩⟩
    · rw [hnone] at hw
      contradiction
    · rw [hsome, Option.mem_some_iff] at hw
      exact hw ▸ (Token.mem_words (hts first List.mem_cons_self) hkind).1
  modifiers := by
    intro m hm
    cases h with
    | hideAll | alertAll | define => contradiction
    | @entry time name us parts _ _ hparts =>
      have hmem := Entry.modifiers_ofParts_subset _ time name parts hm
      rcases hparts.along.exists_piece m hmem with ⟨vs, hvs, hrow⟩
      exact hvs.hasNames fun t ht => hts t (by simp [hrow.subset ht])

end

end RaidTimeline
