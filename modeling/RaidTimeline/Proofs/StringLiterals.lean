import Mathlib.Order.Bounds.Defs
import RaidTimeline.Proofs.PrintedStrings

/-!
# String literals

A string goes from its quote to the first quote of the same kind on the same line that no
backslash directly precedes; how many backslashes there are does not matter.  Within it every
backslash in front of a quote or of one of three letters makes an escape with the character behind
it, also where another backslash stands in front, and all other characters stand for themselves.

Main results:

- Definition {lit}`Closes`: the quotes that close a string.
- Theorem {lit}`closingLength?_eq_some_iff`: the length of a string counts up to the first of them.
- Definition {lit}`decoded`: what a body denotes, character by character.
- Theorem {lit}`decoded_eq`: reading a body from left to right gives the same.
- Theorem {lit}`unescapeString_flatMap_spell`: every decoded text is denoted by a body.
- Definition {lit}`Lexer.DelimitsString`: how a lexer reads a string.
- Theorem {lit}`stringLiterals_exact`: which strings are read, and which texts they denote.
-/

namespace RaidTimeline

/-! ## Closing quotes -/

/-- A quote in a text closes the string that a quote of its kind in front of the text opens: it
stands on the same line, and the character directly in front of it is no backslash.
{lit}`front` is the character in front of the text. -/
structure Closes (quote front : Char) (text : Text) (i : Nat) : Prop where
  isQuote : text[i]? = some quote
  sameLine : '\n' ∉ text.take i
  bare : (front :: text)[i]? ≠ some '\\'

section

variable {quote front c : Char} {text : Text} {i n : Nat}

/-- The first character closes a string if it is the quote and not escaped. -/
theorem closes_zero_iff : Closes quote front (c :: text) 0 ↔ c = quote ∧ front ≠ '\\' := by
  constructor
  · intro h
    exact ⟨Option.some.inj h.isQuote, fun heq => h.bare (congrArg some heq)⟩
  · rintro ⟨rfl, hfront⟩
    exact ⟨rfl, by simp, by simpa using hfront⟩

/-- Another position closes a string if it does so behind the first character. -/
theorem closes_succ_iff :
    Closes quote front (c :: text) (i + 1) ↔ c ≠ '\n' ∧ Closes quote c text i := by
  constructor
  · rintro ⟨hquote, hline, hbare⟩
    rw [List.take_succ_cons, List.mem_cons, not_or] at hline
    exact ⟨Ne.symm hline.1, hquote, hline.2, hbare⟩
  · rintro ⟨hc, hquote, hline, hbare⟩
    refine ⟨hquote, ?_, hbare⟩
    rw [List.take_succ_cons, List.mem_cons, not_or]
    exact ⟨Ne.symm hc, hline⟩

/-- Where the first character closes nothing, the first closing quote is one behind it. -/
theorem isLeast_closes_cons (hline : c ≠ '\n') (hfirst : ¬Closes quote front (c :: text) 0) :
    IsLeast {j | Closes quote front (c :: text) j} n ↔
      ∃ i, n = i + 1 ∧ IsLeast {j | Closes quote c text j} i := by
  cases n with
  | zero =>
    constructor
    · exact fun h => absurd h.1 hfirst
    · rintro ⟨i, hi, -⟩
      contradiction
  | succ n =>
    have hshift : ∀ {j}, Closes quote front (c :: text) (j + 1) ↔ Closes quote c text j :=
      closes_succ_iff.trans (and_iff_right hline)
    constructor
    · rintro ⟨hcloses, hleast⟩
      refine ⟨n, rfl, hshift.mp hcloses, fun j hj => ?_⟩
      exact Nat.le_of_succ_le_succ (hleast (hshift.mpr hj))
    · rintro ⟨i, hi, hcloses, hleast⟩
      obtain rfl := Nat.succ.inj hi
      refine ⟨hshift.mpr hcloses, fun j hj => ?_⟩
      cases j with
      | zero => exact absurd hj hfirst
      | succ j => exact Nat.succ_le_succ (hleast (hshift.mp hj))

/-- The length of a text through the quote that closes it counts up to the first such quote. -/
theorem closingLength?_eq_some_iff (hquote : quote ≠ '\n') :
    closingLength? quote (front == '\\') text = some n ↔
      ∃ i, n = i + 1 ∧ IsLeast {j | Closes quote front text j} i := by
  induction text generalizing front n with
  | nil =>
    rw [closingLength?]
    constructor
    · intro h
      contradiction
    · rintro ⟨i, -, hcloses, -⟩
      exact absurd hcloses.isQuote (by simp)
  | cons c text ih =>
    rw [closingLength?]
    by_cases hline : c = '\n'
    · rw [if_pos hline]
      constructor
      · intro h
        contradiction
      · rintro ⟨i, -, hcloses, -⟩
        cases i with
        | zero => exact absurd ((closes_zero_iff.mp hcloses).1.symm.trans hline) hquote
        | succ i => exact absurd hline (closes_succ_iff.mp hcloses).1
    rw [if_neg hline]
    have hzero : c = quote ∧ (front == '\\') = false ↔ Closes quote front (c :: text) 0 := by
      rw [closes_zero_iff, beq_eq_false_iff_ne]
    by_cases hfirst : Closes quote front (c :: text) 0
    · rw [if_pos (hzero.mpr hfirst)]
      have hleast : IsLeast {j | Closes quote front (c :: text) j} 0 :=
        ⟨hfirst, fun j _ => Nat.zero_le j⟩
      constructor
      · rintro ⟨⟩
        exact ⟨0, rfl, hleast⟩
      · rintro ⟨i, rfl, hi⟩
        rw [hi.unique hleast]
    · rw [if_neg (mt hzero.mp hfirst), Option.map_eq_some_iff]
      simp only [ih, isLeast_closes_cons hline hfirst]
      constructor
      · rintro ⟨m, ⟨i, rfl, hi⟩, rfl⟩
        exact ⟨i + 1, rfl, i, rfl, hi⟩
      · rintro ⟨m, rfl, i, rfl, hi⟩
        exact ⟨i + 1, ⟨i, rfl, hi⟩, rfl⟩

/-- There is a first closing quote if there is any. -/
theorem exists_isLeast_closes (h : Closes quote front text i) :
    ∃ j, IsLeast {j | Closes quote front text j} j := by
  classical
  have hsome : ∃ j, Closes quote front text j := ⟨i, h⟩
  exact ⟨Nat.find hsome, Nat.find_spec hsome, fun j hj => Nat.find_min' hsome hj⟩

end

/-! ## Escapes -/

/-- What the characters behind a backslash stand for. -/
def escapes : List (Char × Char) :=
  [('"', '"'), ('\'', '\''), ('n', '\n'), ('t', '\t'), ('r', '\r')]

theorem escapedChar?_eq_lookup (c : Char) : escapedChar? c = escapes.lookup c := by
  have hcons : ∀ (name meaning : Char) (others : List (Char × Char)),
      ((name, meaning) :: others).lookup c =
        if c = name then some meaning else others.lookup c := by
    intro name meaning others
    by_cases h : c = name
    · rw [List.lookup_cons, if_pos h, beq_iff_eq.mpr h]
    · rw [List.lookup_cons, if_neg h, beq_eq_false_iff_ne.mpr h]
  simp only [escapes, hcons, List.lookup_nil, escapedChar?]

/-- A backslash directly in front of a character that it gives another meaning. -/
def IsEscape (body : Text) (i : Nat) : Prop :=
  body[i]? = some '\\' ∧ (body[i + 1]?.bind fun c => escapes.lookup c).isSome

instance (body : Text) (i : Nat) : Decidable (IsEscape body i) :=
  inferInstanceAs (Decidable (_ ∧ _))

/-- What becomes of a character of a body: the backslash of an escape is dropped, the character
behind it becomes the one it stands for, and every other character is left as it is. -/
def decodedAt (body : Text) (i : Nat) : Option Char :=
  if IsEscape body i then none
  else if 0 < i ∧ IsEscape body (i - 1) then body[i]?.bind fun c => escapes.lookup c
  else body[i]?

/-- What a body denotes, character by character. -/
def decoded (body : Text) : Text := (List.range body.length).filterMap (decodedAt body)

section

variable {c d e : Char} {body : Text} {i : Nat}

@[simp]
theorem isEscape_succ : IsEscape (c :: body) (i + 1) ↔ IsEscape body i :=
  Iff.rfl

/-- A backslash begins no escape behind which nothing or another character stands. -/
theorem isEscape_zero_iff :
    IsEscape (c :: body) 0 ↔ c = '\\' ∧ (body.head?.bind fun d => escapes.lookup d).isSome := by
  rw [IsEscape, List.getElem?_cons_zero, Option.some.injEq, List.getElem?_cons_succ,
    List.head?_eq_getElem?]

/-- An escape in front of a character has no part in those behind it. -/
theorem decodedAt_succ (h : 0 < i ∨ ¬IsEscape (c :: body) 0) :
    decodedAt (c :: body) (i + 1) = decodedAt body i := by
  simp only [decodedAt, isEscape_succ, Nat.add_sub_cancel, List.getElem?_cons_succ]
  cases i with
  | zero => simp [h.resolve_left (Nat.lt_irrefl 0)]
  | succ i => simp

/-- The first character of a body and those behind it. -/
theorem decoded_cons : decoded (c :: body) =
    (decodedAt (c :: body) 0).toList ++
      (List.range body.length).filterMap fun i => decodedAt (c :: body) (i + 1) := by
  rw [decoded, List.length_cons, List.range_succ_eq_map, List.filterMap_cons, List.filterMap_map]
  cases decodedAt (c :: body) 0 <;> rfl

/-- A character that begins no escape denotes itself. -/
theorem decoded_cons_of_not_isEscape (h : ¬IsEscape (c :: body) 0) :
    decoded (c :: body) = c :: decoded body := by
  have hfirst : decodedAt (c :: body) 0 = some c := by
    simp [decodedAt, h]
  rw [decoded_cons, hfirst]
  simp only [decodedAt_succ (Or.inr h)]
  rfl

/-- An escape becomes the character that it stands for. -/
theorem decoded_escape (h : escapes.lookup d = some e) :
    decoded ('\\' :: d :: body) = e :: decoded body := by
  have hescape : IsEscape ('\\' :: d :: body) 0 := isEscape_zero_iff.mpr ⟨rfl, by simp [h]⟩
  have hd : ¬IsEscape (d :: body) 0 := by
    rintro ⟨hbackslash, -⟩
    rw [Option.some.inj hbackslash] at h
    contradiction
  have hfirst : decodedAt ('\\' :: d :: body) 0 = none := by
    simp [decodedAt, hescape]
  have hsecond : decodedAt ('\\' :: d :: body) 1 = some e := by
    rw [decodedAt, if_neg (mt isEscape_succ.mp hd), if_pos ⟨Nat.one_pos, hescape⟩]
    exact h
  have hrest : ∀ i, decodedAt ('\\' :: d :: body) (i + 1 + 1) = decodedAt body i := by
    intro i
    rw [decodedAt_succ (Or.inl i.succ_pos), decodedAt_succ (Or.inr hd)]
  rw [decoded_cons, hfirst, List.length_cons, List.range_succ_eq_map, List.filterMap_cons,
    List.filterMap_map]
  simp only [Nat.zero_add, hsecond, Function.comp_def, Nat.succ_eq_add_one, hrest]
  rfl

/-- Reading a body from left to right finds every escape, and changes nothing else. -/
theorem decoded_eq (body : Text) : decoded body = unescapeString body := by
  have hplain : ∀ {c : Char} {body : Text}, c ≠ '\\' → ¬IsEscape (c :: body) 0 :=
    fun hc h => hc (isEscape_zero_iff.mp h).1
  fun_induction unescapeString body with
  | case1 => rfl
  | case2 c =>
    rw [decoded_cons_of_not_isEscape]
    · rfl
    · simp [isEscape_zero_iff]
  | case3 d tail e he ih =>
    rw [escapedChar?_eq_lookup] at he
    rw [decoded_escape he, ih]
  | case4 d tail he ih =>
    rw [escapedChar?_eq_lookup] at he
    have hnone : ¬IsEscape ('\\' :: d :: tail) 0 := by
      simp [isEscape_zero_iff, he]
    rw [decoded_cons_of_not_isEscape hnone, ih]
  | case5 c d tail hc ih => rw [decoded_cons_of_not_isEscape (hplain hc), ih]

end

/-! ## A body for every decoded text -/

/-- One character between quotes of either kind: with an escape if there is one for it. -/
def spell (c : Char) : Text := if c = '\'' then ['\\', '\''] else escapeStringChar c

/-- A character is spelt by its escape, and those that have none are left as they are. -/
theorem spell_cases (c : Char) :
    (∃ name, spell c = ['\\', name] ∧ escapedChar? name = some c ∧ name ≠ '\n' ∧ name ≠ '\r' ∧
      name ≠ '\\') ∨
      (spell c = [c] ∧ c ≠ '\'' ∧ c ≠ '"' ∧ c ≠ '\n' ∧ c ≠ '\r') := by
  unfold spell
  by_cases hc : c = '\''
  · subst hc
    exact Or.inl ⟨'\'', by simp [escapedChar?]⟩
  · rw [if_neg hc]
    rcases escapeStringChar_cases c with hname | ⟨hname, hquote, hline, hreturn, -⟩
    · exact Or.inl hname
    · exact Or.inr ⟨hname, hc, hquote, hline, hreturn⟩

/-- This spelling can be read between quotes of both kinds. -/
theorem isSpelling_spell {quote : Char} (hquote : quote = '"' ∨ quote = '\'') :
    IsSpelling quote spell := by
  intro c
  rcases spell_cases c with ⟨name, hname, hescaped, hline, -, hbackslash⟩ |
    ⟨hname, hsingle, hdouble, hline, -⟩
  · exact Or.inl ⟨name, hname, hescaped, hline, hbackslash⟩
  · refine Or.inr ⟨hname, ?_, hline⟩
    rcases hquote with rfl | rfl
    · exact hdouble
    · exact hsingle

/-- This spelling has no carriage return. -/
theorem not_mem_flatMap_spell (text : Text) : '\r' ∉ text.flatMap spell := by
  rw [List.mem_flatMap]
  rintro ⟨c, -, hmem⟩
  rcases spell_cases c with ⟨name, hname, -, -, hreturn, -⟩ | ⟨hname, -, -, -, hreturn⟩
  · simp [hname, Ne.symm hreturn] at hmem
  · simp [hname, Ne.symm hreturn] at hmem

/-- A decoded text comes back from its spelling. -/
theorem unescapeString_flatMap_spell {text : Text} (h : IsDecoded text) :
    unescapeString (text.flatMap spell) = text := by
  induction text with
  | nil => rfl
  | cons c text ih =>
    rw [List.flatMap_cons]
    rcases spell_cases c with ⟨name, hname, hescaped, -⟩ | ⟨hname, -⟩
    · rw [hname, List.cons_append, List.singleton_append, unescapeString_escape hescaped,
        ih h.tail]
    rw [hname, List.singleton_append]
    by_cases hc : c = '\\'
    · -- Neither an escape nor a character without one makes an escape with this backslash.
      subst hc
      cases text with
      | nil => exact absurd rfl h
      | cons d text =>
        have hrest := ih h.tail
        rw [List.flatMap_cons] at hrest ⊢
        rcases spell_cases d with ⟨name, hd, -⟩ | ⟨hd, hsingle, hdouble, -⟩
        · rw [hd] at hrest ⊢
          rw [List.cons_append] at hrest ⊢
          rw [unescapeString_backslash rfl, hrest]
        · have hnone : escapedChar? d = none := by
            have hletter := h.1 rfl
            simp only [IsEscapeLetter, not_or] at hletter
            simp [escapedChar?, hsingle, hdouble, hletter]
          rw [hd] at hrest ⊢
          rw [List.singleton_append] at hrest ⊢
          rw [unescapeString_backslash hnone, hrest]
    · rw [unescapeString_cons hc, ih h.tail]

/-! ## Reading strings -/

section

variable {v : Vocabulary} {quote : Char} {tail : Text}

/-- Where a quote stands there is a string or nothing. -/
theorem recognise?_quote (hv : v.HasWords) (hquote : quote = '"' ∨ quote = '\'')
    (before : Option Char) (tail : Text) :
    recognise? v before (quote :: tail) =
      (closingLength? quote false tail).map fun n => (.string, n + 1) := by
  have hword : isWord quote = false := by
    rcases hquote with rfl | rfl <;> rfl
  have hregex : regexLength? (quote :: tail) = none := by
    rcases hquote with rfl | rfl <;> rfl
  have hstring : stringLength? (quote :: tail) =
      (closingLength? quote false tail).map (· + 1) := by
    rw [stringLength?, if_pos hquote]
  have hearlier : ∀ kind ∈ [Kind.blank, .comment, .punctuator, .brace, .number],
      kind.length? v before (quote :: tail) = none := by
    rcases hquote with rfl | rfl <;>
      simp [Kind.length?, runLength?, isLayout, commentLength?, oneOf?, numberLength?,
        fractionLength]
  simp only [List.forall_mem_cons, List.not_mem_nil] at hearlier
  rcases hearlier with ⟨hblank, hcomment, hpunctuator, hbrace, hnumber, -⟩
  simp only [recognise?_of_not_isWord hv before hword, List.findSome?_cons, hblank, hcomment,
    hpunctuator, hbrace, hnumber, Option.map_none]
  simp only [Kind.length?, hstring, hregex]
  cases closingLength? quote false tail <;> rfl

/-- Behind a quote, the length of a string counts up to the first quote that closes it. -/
theorem closingLength?_quote (hquote : quote = '"' ∨ quote = '\'') {n : Nat} :
    closingLength? quote false tail = some n ↔
      ∃ i, n = i + 1 ∧ IsLeast {j | Closes quote quote tail j} i := by
  have hbackslash : (quote == '\\') = false := by
    rcases hquote with rfl | rfl <;> rfl
  have hline : quote ≠ '\n' := by
    rcases hquote with rfl | rfl <;> decide
  rw [← hbackslash]
  exact closingLength?_eq_some_iff hline

/-- Behind a quote there is no string if no quote closes it. -/
theorem not_closes_of_closingLength? (hquote : quote = '"' ∨ quote = '\'')
    (h : closingLength? quote false tail = none) (i : Nat) : ¬Closes quote quote tail i := by
  intro hcloses
  rcases exists_isLeast_closes hcloses with ⟨j, hj⟩
  have hlong := (closingLength?_quote hquote).mpr ⟨j, rfl, hj⟩
  rw [h] at hlong
  contradiction

namespace Lexer

/-- A lexer in front of a quote reads a string exactly if some quote closes it, and then up to
the first such quote; otherwise it reads nothing.  The string denotes its decoded body. -/
structure DelimitsString (l : Lexer) (quote : Char) (tail : Text) : Prop where
  sameToken : l.next = l.nextRaw
  kind_iff : l.nextRaw.1.kind = .string ↔ ∃ i, Closes quote quote tail i
  unread : l.nextRaw.1.kind ≠ .string → l.nextRaw.1.kind = .unknown
  start : l.nextRaw.1.span.start = l.cursor.offset
  closed : ∀ i, IsLeast {j | Closes quote quote tail j} i →
    l.nextRaw.1.span.stop = l.cursor.offset + i + 2 ∧
      l.nextRaw.1.raw = quote :: tail.take (i + 1) ∧
      l.nextRaw.1.value = decoded (tail.take i)

/-- The text between two quotes. -/
theorem inner_take_of_closes {i : Nat} (h : tail[i]? = some quote) :
    inner (quote :: tail.take (i + 1)) = tail.take i := by
  rw [List.take_add_one, h, Option.toList_some, inner_delimited]

/-- A lexer that keeps no token reads strings in this way, wherever it is. -/
theorem delimitsString (hv : v.HasWords) (hquote : quote = '"' ∨ quote = '\'') {l : Lexer}
    (hvocabulary : l.vocabulary = v) (hpending : l.pending = none)
    (hrest : l.cursor.rest = quote :: tail) : l.DelimitsString quote tail := by
  have hlayout : l.cursor.rest.takeWhile isLayout = [] := by
    rw [hrest]
    rcases hquote with rfl | rfl <;> rfl
  have hnext : l.next = l.nextRaw := (nextRaw_eq_next hlayout).symm
  have hraw : l.nextRaw.1 = (l.cursor.scan v).1 := by
    rw [nextRaw_eq hpending, hvocabulary]
  have hfound := recognise?_quote hv hquote l.cursor.before tail
  rw [← hrest] at hfound
  rcases l.cursor.scan_cases v with ⟨hnil, -⟩ | ⟨-, hnone, hscan⟩ | ⟨kind, n, -, hsome, hscan⟩
  · rw [hrest] at hnil
    contradiction
  · -- No quote closes the string.
    rw [hnone, eq_comm, Option.map_eq_none_iff] at hfound
    have hopen := not_closes_of_closingLength? hquote hfound
    rw [hscan] at hraw
    constructor
    · exact hnext
    · simp [hraw, Cursor.emptyToken, hopen]
    · simp [hraw, Cursor.emptyToken]
    · simp [hraw, Cursor.emptyToken, Cursor.spanTo]
    · exact fun i hi => absurd hi.1 (hopen i)
  · rw [hsome, eq_comm, Option.map_eq_some_iff] at hfound
    rcases hfound with ⟨m, hm, heq⟩
    cases heq
    rcases (closingLength?_quote hquote).mp hm with ⟨i, rfl, hi⟩
    rw [hscan] at hraw
    constructor
    · exact hnext
    · simp only [hraw, true_iff]
      exact ⟨i, hi.1⟩
    · simp [hraw]
    · simp [hraw, Cursor.spanTo]
    · intro j hj
      obtain rfl := hj.unique hi
      have hlt : j < tail.length := (List.getElem?_eq_some_iff.mp hj.1.isQuote).1
      have htake : l.cursor.rest.take (j + 1 + 1) = quote :: tail.take (j + 1) := by
        rw [hrest, List.take_succ_cons]
      rw [hraw]
      refine ⟨?_, htake, ?_⟩
      · simp only [Cursor.spanTo, Cursor.offset_advance, htake, List.length_cons, List.length_take]
        omega
      · simp only [Kind.valueOf, htake]
        rw [inner_take_of_closes hj.1.isQuote, decoded_eq]

end Lexer

/-- A decoded text is denoted by a string of some source text. -/
theorem exists_string_of_isDecoded (hv : v.HasWords) {text : Text} (h : IsDecoded text) :
    ∃ source, ∃ t ∈ tokensOf v source ⟨true, true⟩, t.kind = .string ∧ t.value = text := by
  have hquote : '"' = '"' ∨ '"' = '\'' := Or.inl rfl
  have hcloses := (isSpelling_spell hquote).closesAt (by decide) h fun _ => rfl
  have hclosing : closingLength? '"' false (text.flatMap spell ++ ['"']) =
      some ((text.flatMap spell).length + 1) :=
    (closingLength?_eq_some (by decide)).mpr ⟨_, [], rfl, hcloses, rfl⟩
  -- The source text is the spelling between double quotes.
  obtain ⟨raw, hraw⟩ : ∃ raw, raw = '"' :: (text.flatMap spell ++ ['"']) := ⟨_, rfl⟩
  have hreturn : '\r' ∉ raw := by
    rw [hraw, List.mem_cons, List.mem_append, not_or, not_or]
    exact ⟨by decide, not_mem_flatMap_spell text, by decide⟩
  have hfound : recognise? v none (raw ++ []) = some (.string, raw.length) := by
    rw [List.append_nil, hraw, recognise?_quote hv hquote, hclosing]
    simp
  refine ⟨raw ++ [], .ofPiece [] raw .string, ?_, rfl, ?_⟩
  · exact Lexer.mem_tokensOf_append hv.hasNoEmptyWord (by simp [hraw]) hreturn
      (by simp [hraw, byteOrderMark]) hfound
  · change unescapeString (inner raw) = text
    rw [hraw, inner_delimited, unescapeString_flatMap_spell h]

/-- Only decoded texts are denoted by strings. -/
theorem isDecoded_of_mem_tokensOf (hv : v.HasWords) {source : Text} {t : Token}
    (ht : t ∈ tokensOf v source ⟨true, true⟩) (hkind : t.kind = .string) : IsDecoded t.value := by
  have hsignificant : t ∈ significantTokens v source :=
    List.mem_filter.mpr ⟨ht, by simp [Token.isSignificant, hkind]⟩
  have hread := significantTokens_isRead hv source t hsignificant
  rw [Lexeme.IsRead, Token.lexeme_kind, hkind] at hread
  exact hread

/-- Strings are delimited and decoded exactly, wherever a lexer is in its text; and the texts that
strings denote are those that do not end in a backslash and have none in front of one of the
letters of an escape. -/
theorem stringLiterals_exact (hv : v.HasWords) :
    (∀ (l : Lexer) (quote : Char) (tail : Text), l.vocabulary = v → l.pending = none →
      quote = '"' ∨ quote = '\'' → l.cursor.rest = quote :: tail → l.DelimitsString quote tail) ∧
    ∀ text : Text,
      (∃ source, ∃ t ∈ tokensOf v source ⟨true, true⟩, t.kind = .string ∧ t.value = text) ↔
        text.getLast? ≠ some '\\' ∧ ∀ c ∈ ['n', 't', 'r'], ¬['\\', c] <:+: text := by
  refine ⟨fun l quote tail hvocabulary hpending hquote hrest =>
    Lexer.delimitsString hv hquote hvocabulary hpending hrest, fun text => ?_⟩
  have hletters : (∀ c ∈ ['n', 't', 'r'], ¬['\\', c] <:+: text) ↔
      ∀ c, IsEscapeLetter c → ¬['\\', c] <:+: text := by
    simp [IsEscapeLetter]
  rw [hletters, ← isDecoded_iff]
  constructor
  · rintro ⟨source, t, ht, hkind, rfl⟩
    exact isDecoded_of_mem_tokensOf hv ht hkind
  · exact exists_string_of_isDecoded hv

/-- The apostrophe behind the backslash does not close this string, the one behind it does. -/
theorem stringLiterals_exact_apostrophe :
    let l := Lexer.ofSource .default "'it\\'s' x".toList
    Vocabulary.default.HasWords ∧ l.cursor.rest = '\'' :: "it\\'s' x".toList ∧
      l.next.1.raw = "'it\\'s'".toList ∧ l.next.1.value = "it's".toList ∧
      l.next.1.span.stop = 7 ∧
      ∃ source, ∃ t ∈ tokensOf .default source ⟨true, true⟩,
        t.kind = .string ∧ t.value = "it's".toList := by
  intro l
  rcases stringLiterals_exact Vocabulary.hasWords_default with ⟨hread, himage⟩
  have hdelimits := hread l '\'' "it\\'s' x".toList rfl rfl (Or.inr rfl) (by decide)
  have hclosing : closingLength? '\'' ('\'' == '\\') "it\\'s' x".toList = some (5 + 1) := by
    decide
  rcases (closingLength?_eq_some_iff (by decide)).mp hclosing with ⟨i, hi, hleast⟩
  obtain rfl := Nat.succ.inj hi
  rcases hdelimits.closed 5 hleast with ⟨hstop, hraw, hvalue⟩
  rw [← hdelimits.sameToken] at hstop hraw hvalue
  have hbare : '\\' ∉ "it's".toList := by
    decide
  exact ⟨Vocabulary.hasWords_default, by decide, hraw, hvalue.trans (by decide), hstop,
    (himage "it's".toList).mpr ⟨by decide, fun c _ h => hbare (h.subset List.mem_cons_self)⟩⟩

end

end RaidTimeline
