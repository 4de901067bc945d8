import RaidTimeline.Proofs.Escapes
import RaidTimeline.Proofs.Feeding
import RaidTimeline.Proofs.Numerals

/-!
# Lexemes

The grammar sees the kinds and the values of significant tokens, and these depend on the text
alone, not on where it stands.  A text that is put together from pieces is read piece by piece.

Main results:

- Definition {lit}`Vocabulary.HasWords`: tables whose entries are runs of word characters.
- Definition {lit}`lexemes`: the kinds and values of the significant tokens of a text.
- Definition {lit}`Reads`: a piece of text is read as a list of lexemes, whatever follows.
- Theorems {lit}`Reads.append`, {lit}`reads_name`, {lit}`reads_numeral`, {lit}`reads_string` and
  {lit}`reads_regex`: what pieces of text are read as.
-/

namespace RaidTimeline

/-! ## Vocabularies of words -/

/-- Tables whose every entry is a run of word characters. -/
def Vocabulary.HasWords (v : Vocabulary) : Prop :=
  ∀ w ∈ v.words, w ≠ [] ∧ ∀ c ∈ w, isWord c = true

-- The check runs over the letters of the words, not over all characters.
instance (v : Vocabulary) : Decidable v.HasWords :=
  decidable_of_iff (v.words.all (fun w => !w.isEmpty && w.all isWord) = true) <| by
    simp [Vocabulary.HasWords]

theorem Vocabulary.hasWords_default : Vocabulary.default.HasWords := by
  decide +kernel

theorem Vocabulary.HasWords.hasNoEmptyWord {v : Vocabulary} (hv : v.HasWords) :
    v.HasNoEmptyWord :=
  fun h => (hv [] h).1 rfl

/-- Where a word ends does not depend on what stands in front of it. -/
theorem standsAt_eq {word : Text} (h : word ≠ []) (before : Option Char) (text : Text) :
    standsAt before text word = standsAt none text word := by
  rw [standsAt, standsAt, lastOr, lastOr, List.getLast?_eq_some_getLast h]
  rfl

/-- What is recognised does not depend on what stands in front of it. -/
theorem recognise?_eq {v : Vocabulary} (hv : v.HasNoEmptyWord) (before : Option Char)
    (text : Text) : recognise? v before text = recognise? v none text := by
  have hkeyword : keywordLength? v before text = keywordLength? v none text :=
    keywordLength?_congr fun w hw => standsAt_eq (fun hnil => hv (hnil ▸ hw)) before text
  have hkind : ∀ kind : Kind, kind.length? v before text = kind.length? v none text := by
    intro kind
    cases kind <;> first | rfl | exact hkeyword
  simp only [recognise?, hkind]

/-! ## The lexemes of a text -/

/-- What the grammar sees of a token: its kind and its value. -/
structure Lexeme where
  kind : Kind
  value : Text
deriving DecidableEq, Repr

/-- What the grammar sees of a token. -/
def Token.lexeme (t : Token) : Lexeme := ⟨t.kind, t.value⟩

@[simp]
theorem Token.lexeme_kind (t : Token) : t.lexeme.kind = t.kind :=
  rfl

@[simp]
theorem Token.lexeme_value (t : Token) : t.lexeme.value = t.value :=
  rfl

theorem Token.lexeme_eq_iff {t : Token} {kind : Kind} {value : Text} :
    t.lexeme = ⟨kind, value⟩ ↔ t.kind = kind ∧ t.value = value :=
  Lexeme.mk.injEq .. ▸ Iff.rfl

namespace Cursor

/-- The lexemes from a place on. -/
def lexemes (v : Vocabulary) (c : Cursor) : List Lexeme :=
  ((c.tokens v).filter Token.isSignificant).map Token.lexeme

/-- The lexemes from a place on are those of its token and those behind it. -/
theorem lexemes_of_recognise? {v : Vocabulary} (hv : v.HasNoEmptyWord) {c : Cursor} {kind : Kind}
    {n : Nat} (hrest : c.rest ≠ []) (h : recognise? v c.before c.rest = some (kind, n)) :
    c.lexemes v = (if kind = .blank ∨ kind = .comment then []
      else [⟨kind, kind.valueOf (c.rest.take n)⟩]) ++ (c.advance n).lexemes v := by
  have hscan : c.scan v = (⟨kind, kind.valueOf (c.rest.take n), c.rest.take n,
      c.spanTo (c.advance n)⟩, c.advance n) := by
    simp [scan, hrest, h]
  have hlast : (c.scan v).1.isLast = false := by
    have hkind := ne_last_of_recognise? h
    simp [hscan, Token.isLast, hkind]
  rw [lexemes, tokens_of_not_isLast hv hlast, hscan]
  by_cases hkind : kind = .blank ∨ kind = .comment
  · rw [if_pos hkind, List.filter_cons_of_neg]
    · rfl
    · simpa [Token.isSignificant] using fun h => hkind.resolve_left h
  · rw [if_neg hkind, List.filter_cons_of_pos]
    · rfl
    · simpa [Token.isSignificant] using hkind

/-- Where nothing can follow, there is one lexeme. -/
theorem lexemes_of_isLast {v : Vocabulary} {c : Cursor} {kind : Kind}
    (hkind : kind = .eof ∨ kind = .unknown) (h : c.scan v = (c.emptyToken kind, c)) :
    c.lexemes v = [⟨kind, []⟩] := by
  have htokens : c.tokens v = [c.emptyToken kind] := by
    rw [tokens, if_neg, h]
    rw [h, emptyToken_width]
    exact Nat.lt_irrefl 0
  have hsignificant : (c.emptyToken kind).isSignificant = true := by
    rcases hkind with rfl | rfl <;> rfl
  rw [lexemes, htokens, List.filter_cons_of_pos hsignificant]
  rfl

/-- The lexemes from a place on depend on the text alone. -/
theorem lexemes_congr {v : Vocabulary} (hv : v.HasNoEmptyWord) {c d : Cursor}
    (h : c.rest = d.rest) : c.lexemes v = d.lexemes v := by
  induction hlength : c.rest.length using Nat.strongRecOn generalizing c d with
  | _ length ih =>
  have hfound : recognise? v c.before c.rest = recognise? v d.before d.rest := by
    rw [h, recognise?_eq hv, ← recognise?_eq hv d.before]
  rcases c.scan_cases v with ⟨hrest, hscan⟩ | ⟨hrest, hnone, hscan⟩ | ⟨kind, n, hrest, hsome, -⟩
  · have hscan' : d.scan v = (d.emptyToken .eof, d) := by
      simp [scan, ← h, hrest]
    rw [lexemes_of_isLast (Or.inl rfl) hscan, lexemes_of_isLast (Or.inl rfl) hscan']
  · have hscan' : d.scan v = (d.emptyToken .unknown, d) := by
      rw [hfound] at hnone
      rw [h] at hrest
      simp [scan, hrest, hnone]
    rw [lexemes_of_isLast (Or.inr rfl) hscan, lexemes_of_isLast (Or.inr rfl) hscan']
  · have hpos := recognise?_pos hv hsome
    have hnonempty := List.length_pos_iff.mpr hrest
    have hbehind : (c.advance n).lexemes v = (d.advance n).lexemes v := by
      refine ih (c.advance n).rest.length ?_ ?_ rfl
      · rw [rest_advance, List.length_drop]
        omega
      · rw [rest_advance, rest_advance, h]
    rw [lexemes_of_recognise? hv hrest hsome, hbehind, h]
    rw [hfound] at hsome
    rw [h] at hrest
    rw [lexemes_of_recognise? hv hrest hsome]

end Cursor

/-- The lexemes of a text. -/
def lexemes (v : Vocabulary) (text : Text) : List Lexeme := (Cursor.ofText text).lexemes v

/-- The significant tokens of a source text have the lexemes of its normal form. -/
theorem map_lexeme_significantTokens {v : Vocabulary} (hv : v.HasNoEmptyWord) (source : Text) :
    (significantTokens v source).map Token.lexeme = lexemes v (normalize source) := by
  rw [significantTokens, tokensOf_eq_tokens hv]
  rfl

/-- Of the empty text only the end is seen. -/
theorem lexemes_nil (v : Vocabulary) : lexemes v [] = [⟨.eof, []⟩] := by
  rw [lexemes, Cursor.lexemes_of_isLast (Or.inl rfl) (by simp [Cursor.scan, Cursor.ofText])]

/-- The lexemes of a text are that of its first token and those behind it. -/
theorem lexemes_of_recognise? {v : Vocabulary} (hv : v.HasNoEmptyWord) {text : Text} {kind : Kind}
    {n : Nat} (hne : text ≠ []) (h : recognise? v none text = some (kind, n)) :
    lexemes v text = (if kind = .blank ∨ kind = .comment then []
      else [⟨kind, kind.valueOf (text.take n)⟩]) ++ lexemes v (text.drop n) := by
  rw [lexemes, Cursor.lexemes_of_recognise? hv hne h]
  congr 1
  exact Cursor.lexemes_congr hv rfl

/-- A piece of text that is recognised is read as one lexeme. -/
theorem lexemes_piece {v : Vocabulary} (hv : v.HasNoEmptyWord) {piece rest : Text} {kind : Kind}
    (hkind : ¬(kind = .blank ∨ kind = .comment)) (hne : piece ≠ [])
    (h : recognise? v none (piece ++ rest) = some (kind, piece.length)) :
    lexemes v (piece ++ rest) = ⟨kind, kind.valueOf piece⟩ :: lexemes v rest := by
  rw [lexemes_of_recognise? hv (by simp [hne]) h, if_neg hkind, List.take_left, List.drop_left]
  rfl

/-- Layout is not seen. -/
theorem lexemes_layout {v : Vocabulary} (hv : v.HasNoEmptyWord) {c : Char}
    (hc : isLayout c = true) (rest : Text) : lexemes v (c :: rest) = lexemes v rest := by
  have hblank : ∀ {d : Char} {t : Text}, isLayout d = true →
      lexemes v (d :: t) = lexemes v (t.dropWhile isLayout) := by
    intro d t hd
    have hfound : recognise? v none (d :: t) =
        some (.blank, (t.takeWhile isLayout).length + 1) := by
      simp [recognise?, Kind.precedence, Kind.length?, runLength?, hd]
    rw [lexemes_of_recognise? hv (List.cons_ne_nil d t) hfound, if_pos (Or.inl rfl),
      List.nil_append, List.drop_succ_cons]
    have hsplit := List.takeWhile_append_dropWhile (p := isLayout) (l := t)
    nth_rewrite 2 [← hsplit]
    rw [List.drop_left]
  rw [hblank hc]
  cases rest with
  | nil => rfl
  | cons d rest =>
    cases hd : isLayout d with
    | true => rw [hblank hd, List.dropWhile_cons_of_pos hd]
    | false => rw [List.dropWhile_cons_of_neg (by simp [hd])]

/-! ## Pieces of text -/

/-- A piece of text without carriage returns is read as a list of lexemes, whatever follows, as
long as it goes on with neither a word nor a fraction. -/
structure Reads (v : Vocabulary) (piece : Text) (ls : List Lexeme) : Prop where
  normal : '\r' ∉ piece
  lexemes_append : ∀ rest, Separates rest → lexemes v (piece ++ rest) = ls ++ lexemes v rest

/-- A separating text goes on to separate when something separating follows. -/
theorem Separates.append {s t : Text} (hs : Separates s) (ht : Separates t) :
    Separates (s ++ t) := by
  cases s with
  | nil => exact ht
  | cons c s => exact hs

namespace Reads

variable {v : Vocabulary} {s t : Text} {ls ms : List Lexeme}

theorem nil : Reads v [] [] :=
  ⟨by simp, fun _ _ => rfl⟩

/-- Pieces are read one behind the other where the second separates itself from the first. -/
theorem append (hs : Reads v s ls) (ht : Reads v t ms) (hsep : Separates t) :
    Reads v (s ++ t) (ls ++ ms) := by
  refine ⟨by simp [hs.normal, ht.normal], ?_⟩
  intro rest hrest
  rw [List.append_assoc, hs.lexemes_append (t ++ rest) (hsep.append hrest),
    ht.lexemes_append rest hrest, List.append_assoc]

/-- A whole text is read as the lexemes of its pieces and the end. -/
theorem lexemes_eq (h : Reads v t ls) : lexemes v t = ls ++ [⟨.eof, []⟩] := by
  rw [← List.append_nil t, h.lexemes_append [] Separates.nil, lexemes_nil]

/-- Layout in front of a piece is not seen. -/
theorem layout (hv : v.HasNoEmptyWord) {c : Char} (hc : isLayout c = true) (h : Reads v t ls) :
    Reads v (c :: t) ls := by
  have hreturn : '\r' ≠ c := by
    rintro rfl
    contradiction
  refine ⟨by simp [hreturn, h.normal], ?_⟩
  intro rest hrest
  rw [List.cons_append, lexemes_layout hv hc, h.lexemes_append rest hrest]

theorem blank (hv : v.HasNoEmptyWord) (h : Reads v t ls) : Reads v (' ' :: t) ls :=
  h.layout hv rfl

/-- A punctuator or a brace is a lexeme of its own. -/
theorem mark (hv : v.HasNoEmptyWord) {c : Char} {kind : Kind}
    (hfound : ∀ rest, recognise? v none (c :: rest) = some (kind, 1))
    (hvalue : kind.valueOf [c] = [c]) (hkind : ¬(kind = .blank ∨ kind = .comment))
    (hreturn : '\r' ≠ c) (h : Reads v t ls) : Reads v (c :: t) (⟨kind, [c]⟩ :: ls) := by
  refine ⟨by simp [hreturn, h.normal], ?_⟩
  intro rest hrest
  have hpiece : lexemes v ([c] ++ (t ++ rest)) =
      ⟨kind, kind.valueOf [c]⟩ :: lexemes v (t ++ rest) :=
    lexemes_piece hv hkind (List.cons_ne_nil c []) (hfound (t ++ rest))
  rw [hvalue, h.lexemes_append rest hrest] at hpiece
  exact hpiece

theorem comma (hv : v.HasNoEmptyWord) (h : Reads v t ls) :
    Reads v (',' :: t) (⟨.punctuator, [',']⟩ :: ls) :=
  h.mark hv (fun _ => rfl) rfl (by decide) (by decide)

theorem colon (hv : v.HasNoEmptyWord) (h : Reads v t ls) :
    Reads v (':' :: t) (⟨.punctuator, [':']⟩ :: ls) :=
  h.mark hv (fun _ => rfl) rfl (by decide) (by decide)

theorem opening (hv : v.HasNoEmptyWord) (h : Reads v t ls) :
    Reads v ('\x7b' :: t) (⟨.brace, ['\x7b']⟩ :: ls) :=
  h.mark hv (fun _ => rfl) rfl (by decide) (by decide)

theorem closing (hv : v.HasNoEmptyWord) (h : Reads v t ls) :
    Reads v ('\x7d' :: t) (⟨.brace, ['\x7d']⟩ :: ls) :=
  h.mark hv (fun _ => rfl) rfl (by decide) (by decide)

end Reads

/-! ## Words -/

/-- A run of word characters that does not begin with a digit. -/
structure IsName (w : Text) : Prop where
  ne_nil : w ≠ []
  word : ∀ c ∈ w, isWord c = true
  head : ∀ c ∈ w.head?, c.isDigit = false

/-- Names that are written out in the library. -/
instance (w : Text) : Decidable (IsName w) :=
  decidable_of_iff (w ≠ [] ∧ w.all isWord = true ∧ w.head?.all (fun c => !c.isDigit) = true)
    ⟨fun h => ⟨h.1, by simpa using h.2.1, by simpa [Option.all_eq_true] using h.2.2⟩,
      fun h => ⟨h.ne_nil, by simpa using h.word, by simpa [Option.all_eq_true] using h.head⟩⟩

theorem ne_of_isWord {c d : Char} (hc : isWord c = true) (hd : isWord d = false) : c ≠ d := by
  rintro rfl
  rw [hc] at hd
  contradiction

/-- No word character is layout. -/
theorem isLayout_of_isWord {c : Char} (hc : isWord c = true) : isLayout c = false := by
  have hne : ∀ d, isWord d = false → c ≠ d := fun d => ne_of_isWord hc
  simp [isLayout, hne ' ' rfl, hne '\t' rfl, hne '\n' rfl]

/-- Where a word character stands there is no string. -/
theorem stringLength?_eq_none {c : Char} (hc : isWord c = true) (rest : Text) :
    stringLength? (c :: rest) = none := by
  simp [stringLength?, ne_of_isWord hc (d := '"') rfl, ne_of_isWord hc (d := '\'') rfl]

/-- Where a word character stands there is no regular expression. -/
theorem regexLength?_eq_none {c : Char} (hc : isWord c = true) (rest : Text) :
    regexLength? (c :: rest) = none := by
  have hslash : c ≠ '/' := ne_of_isWord hc rfl
  unfold regexLength?
  split
  · next heq => exact absurd (List.cons.inj heq).1 hslash
  · rfl

/-- Where a word character stands there is a number, a keyword or an identifier. -/
theorem recognise?_of_isWord {v : Vocabulary} {c : Char} (hc : isWord c = true) (rest : Text) :
    recognise? v none (c :: rest) =
      [Kind.number, .keyword, .identifier].findSome? fun kind =>
        (kind.length? v none (c :: rest)).map (kind, ·) := by
  have hne : ∀ d, isWord d = false → c ≠ d := fun d => ne_of_isWord hc
  have hblank : Kind.length? v none (c :: rest) .blank = none := by
    simp [Kind.length?, runLength?, isLayout_of_isWord hc]
  have hcomment : Kind.length? v none (c :: rest) .comment = none := by
    simp [Kind.length?, commentLength?, hne '#' rfl]
  have hpunctuator : Kind.length? v none (c :: rest) .punctuator = none := by
    simp [Kind.length?, oneOf?, hne ',' rfl, hne ':' rfl]
  have hbrace : Kind.length? v none (c :: rest) .brace = none := by
    simp [Kind.length?, oneOf?, hne '\x7b' rfl, hne '\x7d' rfl]
  have hstring : Kind.length? v none (c :: rest) .string = none := stringLength?_eq_none hc rest
  have hregex : Kind.length? v none (c :: rest) .regex = none := regexLength?_eq_none hc rest
  simp only [recognise?, Kind.precedence, List.findSome?_cons, hblank, hcomment, hpunctuator,
    hbrace, hstring, hregex, Option.map_none]

/-- There is no number where neither a digit nor a point stands. -/
theorem numberLength?_eq_none {c : Char} (hdigit : c.isDigit = false) (hpoint : c ≠ '.')
    (rest : Text) : numberLength? (c :: rest) = none := by
  have hzero : c ≠ '0' := by
    rintro rfl
    contradiction
  have hfraction : fractionLength (c :: rest) = 0 := by
    simp [fractionLength, hpoint]
  simp [numberLength?, hzero, hdigit, hfraction]

/-- A word that stands at the start of a text of word characters is all of it. -/
theorem standsAt_append_iff {v : Vocabulary} (hv : v.HasWords) {w rest u : Text}
    (hw : ∀ c ∈ w, isWord c = true) (hrest : ∀ c ∈ rest.head?, isWord c = false)
    (hu : u ∈ v.words) :
    standsAt none (w ++ rest) u = true ↔ u = w := by
  rcases hv u hu with ⟨hne, hword⟩
  have hlast : isWordAt (lastOr none u) = true := by
    rw [lastOr, List.getLast?_eq_some_getLast hne]
    exact hword _ (List.getLast_mem hne)
  have hbehind : isWordAt rest.head? = false := by
    cases rest with
    | nil => rfl
    | cons d rest => exact hrest d rfl
  simp only [standsAt, isBoundary, hlast, Bool.and_eq_true, List.isPrefixOf_iff_prefix]
  constructor
  · rintro ⟨⟨tail, htail⟩, hboundary⟩
    rw [← htail, List.drop_left] at hboundary
    -- The word ends where the run of word characters does.
    have htake := takeWhile_append_of_head? hw hrest
    rw [← htail, List.takeWhile_append_of_pos hword] at htake
    have hstop : tail.takeWhile isWord = [] := by
      cases tail with
      | nil => rfl
      | cons d tail =>
        apply List.takeWhile_cons_of_neg
        intro hd
        simp [isWordAt, hd] at hboundary
    rwa [hstop, List.append_nil] at htake
  · rintro rfl
    rw [List.drop_left, hbehind]
    exact ⟨List.prefix_append u rest, rfl⟩

/-- Where no word character stands there is no keyword. -/
theorem keywordLength?_cons_eq_none {v : Vocabulary} (hv : v.HasWords) (before : Option Char)
    {c : Char} (hc : isWord c = false) (rest : Text) :
    keywordLength? v before (c :: rest) = none := by
  apply keywordLength?_eq_none_iff.mpr
  intro w hw
  rcases hv w hw with ⟨hne, hword⟩
  rcases List.exists_cons_of_ne_nil hne with ⟨d, w, rfl⟩
  have hd : d ≠ c := ne_of_isWord (hword d List.mem_cons_self) hc
  simp [standsAt, hd]

/-- Where no word character stands there is neither a keyword nor an identifier. -/
theorem recognise?_of_not_isWord {v : Vocabulary} (hv : v.HasWords) (before : Option Char)
    {c : Char} (hc : isWord c = false) (rest : Text) :
    recognise? v before (c :: rest) =
      [Kind.blank, .comment, .punctuator, .brace, .number, .string, .regex].findSome? fun kind =>
        (kind.length? v before (c :: rest)).map (kind, ·) := by
  have hkeyword : Kind.length? v before (c :: rest) .keyword = none :=
    keywordLength?_cons_eq_none hv before hc rest
  have hidentifier : Kind.length? v before (c :: rest) .identifier = none := by
    simp [Kind.length?, runLength?, hc]
  simp only [recognise?, Kind.precedence, List.findSome?_cons, hkeyword, hidentifier,
    Option.map_none]

/-- A run of word characters is a keyword exactly if it is a table word. -/
theorem keywordLength?_append {v : Vocabulary} (hv : v.HasWords) {w rest : Text}
    (hw : ∀ c ∈ w, isWord c = true) (hrest : ∀ c ∈ rest.head?, isWord c = false) :
    keywordLength? v none (w ++ rest) = if w ∈ v.words then some w.length else none := by
  have hstands : ∀ u ∈ v.words, standsAt none (w ++ rest) u = true ↔ u = w :=
    fun u hu => standsAt_append_iff hv hw hrest hu
  by_cases hmem : w ∈ v.words
  · rcases exists_keywordLength?_eq hmem ((hstands w hmem).mpr rfl) with ⟨n, hn⟩
    rcases keywordLength?_eq_some hn with ⟨⟨u, hu, hstands', rfl⟩, -⟩
    rw [if_pos hmem, hn, (hstands u hu).mp hstands']
  · rw [if_neg hmem]
    apply keywordLength?_eq_none_iff.mpr
    intro u hu
    rw [← Bool.not_eq_true, hstands u hu]
    rintro rfl
    exact hmem hu

/-- A name is a keyword or an identifier. -/
def wordLexeme (v : Vocabulary) (w : Text) : Lexeme :=
  ⟨if w ∈ v.words then .keyword else .identifier, w⟩

/-- A name is read as one word. -/
theorem reads_name {v : Vocabulary} (hv : v.HasWords) {w : Text} (hw : IsName w) :
    Reads v w [wordLexeme v w] := by
  refine ⟨fun hmem => ne_of_isWord (hw.word _ hmem) rfl rfl, ?_⟩
  intro rest hrest
  have hkeyword := keywordLength?_append hv hw.word hrest.isWord_head
  have hrun : runLength? isWord (w ++ rest) = some w.length := by
    rw [runLength?_eq_some, takeWhile_append_of_head? hw.word hrest.isWord_head]
    exact ⟨List.length_pos_iff.mpr hw.ne_nil, rfl⟩
  have hnumber : numberLength? (w ++ rest) = none := by
    rcases List.exists_cons_of_ne_nil hw.ne_nil with ⟨c, w, rfl⟩
    have hpoint : c ≠ '.' := ne_of_isWord (hw.word c List.mem_cons_self) rfl
    exact numberLength?_eq_none (hw.head c rfl) hpoint (w ++ rest)
  have hfound : recognise? v none (w ++ rest) = some ((wordLexeme v w).kind, w.length) := by
    rcases List.exists_cons_of_ne_nil hw.ne_nil with ⟨c, u, rfl⟩
    rw [List.cons_append] at hkeyword hrun hnumber ⊢
    rw [recognise?_of_isWord (hw.word c List.mem_cons_self)]
    simp only [List.findSome?_cons, Kind.length?, hnumber, hkeyword, hrun, wordLexeme,
      Option.map_none]
    by_cases hmem : c :: u ∈ v.words
    · simp [hmem]
    · simp [hmem]
  have hkind : ¬((wordLexeme v w).kind = .blank ∨ (wordLexeme v w).kind = .comment) := by
    rw [wordLexeme]
    split <;> simp
  have hvalue : (wordLexeme v w).kind.valueOf w = w := by
    rw [wordLexeme]
    split <;> rfl
  rw [lexemes_piece hv.hasNoEmptyWord hkind hw.ne_nil hfound, hvalue]
  rfl

/-! ## Literals -/

/-- A numeral is recognised where neither a digit nor a point follows it. -/
theorem IsNumeral.recognise?_append {t rest : Text} (ht : IsNumeral t) (h : EndsNumber rest)
    (v : Vocabulary) : recognise? v none (t ++ rest) = some (.number, t.length) := by
  have hlength := ht.numberLength?_append h
  rcases ht.exists_head with ⟨c, u, rfl, hc⟩
  rw [List.cons_append] at hlength ⊢
  rw [recognise?_of_isWord (isWord_of_isDigit hc)]
  simp only [List.findSome?_cons, Kind.length?, hlength]
  rfl

/-- A numeral is read as one number. -/
theorem reads_numeral {v : Vocabulary} (hv : v.HasNoEmptyWord) {t : Text} (ht : IsNumeral t) :
    Reads v t [⟨.number, t⟩] := by
  refine ⟨ht.not_mem, ?_⟩
  intro rest hrest
  exact lexemes_piece hv (by decide) ht.ne_nil (ht.recognise?_append hrest.endsNumber v)

/-- A text without its first and last character. -/
theorem inner_delimited (a b : Char) (t : Text) : inner (a :: (t ++ [b])) = t := by
  simp [inner]

/-- A decoded text that is escaped between double quotes is read as one string. -/
theorem reads_string {v : Vocabulary} (hv : v.HasNoEmptyWord) {t : Text} (ht : IsDecoded t) :
    Reads v ('"' :: (escapeString t ++ ['"']))
      [⟨.string, unescapeString (escapeString t)⟩] := by
  refine ⟨by simp [not_mem_escapeString], ?_⟩
  intro rest _
  have hfound : recognise? v none ('"' :: (escapeString t ++ ['"']) ++ rest) =
      some (.string, ('"' :: (escapeString t ++ ['"'])).length) := by
    rw [List.cons_append, List.append_assoc, List.singleton_append]
    have hstring := ht.stringLength?_eq rest
    simp [recognise?, Kind.precedence, Kind.length?, runLength?, isLayout, commentLength?, oneOf?,
      numberLength?, fractionLength, hstring]
  rw [lexemes_piece hv (by decide) (List.cons_ne_nil _ _) hfound, Kind.valueOf, inner_delimited]
  rfl

/-- A pattern that is escaped between slashes is recognised, whatever follows it. -/
theorem IsPattern.recognise?_append {t : Text} (ht : IsPattern t) (v : Vocabulary) (rest : Text) :
    recognise? v none ('/' :: (escapeRegex t ++ ['/']) ++ rest) =
      some (.regex, ('/' :: (escapeRegex t ++ ['/'])).length) := by
  rw [List.cons_append, List.append_assoc, List.singleton_append]
  have hregex := ht.regexLength?_eq rest
  simp [recognise?, Kind.precedence, Kind.length?, runLength?, isLayout, commentLength?, oneOf?,
    numberLength?, fractionLength, stringLength?, hregex]

/-- A pattern that is escaped between slashes is read as one regular expression. -/
theorem reads_regex {v : Vocabulary} (hv : v.HasNoEmptyWord) {t : Text} (ht : IsPattern t) :
    Reads v ('/' :: (escapeRegex t ++ ['/'])) [⟨.regex, t⟩] := by
  refine ⟨by simp [ht.not_mem_escapeRegex], ?_⟩
  intro rest _
  rw [lexemes_piece hv (by decide) (List.cons_ne_nil _ _) (ht.recognise?_append v rest),
    Kind.valueOf, inner_delimited, ht.unescapeRegex_escapeRegex]
  rfl

/-! ## Whole texts -/

/-- A text without carriage returns has line feeds only. -/
theorem foldLineEnds_eq_self {t : Text} (hreturn : '\r' ∉ t) : Text.foldLineEnds t = t := by
  fun_induction Text.foldLineEnds t with
  | case1 => rfl
  | case2 rest ih => simp at hreturn
  | case3 c rest _ ih =>
    rw [List.mem_cons, not_or] at hreturn
    rw [ih hreturn.2, if_neg (Ne.symm hreturn.1)]

/-- A text without carriage returns and byte order mark is read as it is. -/
theorem normalize_eq_self {t : Text} (hreturn : '\r' ∉ t) (hmark : t.head? ≠ some byteOrderMark) :
    normalize t = t := by
  have hdrop : Text.dropMark t = t := by
    cases t with
    | nil => rfl
    | cons c t =>
      rw [Text.dropMark, if_neg]
      rintro rfl
      exact hmark rfl
  rw [normalize, hdrop, foldLineEnds_eq_self hreturn]

theorem isWord_byteOrderMark : isWord byteOrderMark = false := by
  decide +kernel

/-- A text cannot be read from a byte order mark on. -/
theorem lexemes_byteOrderMark {v : Vocabulary} (hv : v.HasWords) (rest : Text) :
    lexemes v (byteOrderMark :: rest) = [⟨.unknown, []⟩] := by
  have hfound : recognise? v none (byteOrderMark :: rest) = none := by
    rw [recognise?_of_not_isWord hv none isWord_byteOrderMark]
    rfl
  apply Cursor.lexemes_of_isLast (Or.inr rfl)
  simp [Cursor.scan, Cursor.ofText, hfound]

/-- A text that is put together from pieces is read as it is. -/
theorem Reads.lexemes_normalize {v : Vocabulary} (hv : v.HasWords) {t : Text} {ls : List Lexeme}
    (h : Reads v t ls) : lexemes v (normalize t) = ls ++ [⟨.eof, []⟩] := by
  rw [normalize_eq_self h.normal, h.lexemes_eq]
  intro hmark
  rcases List.head?_eq_some_iff.mp hmark with ⟨rest, rfl⟩
  have hlast := congrArg List.getLast? (h.lexemes_eq.symm.trans (lexemes_byteOrderMark hv rest))
  simp at hlast

end RaidTimeline
