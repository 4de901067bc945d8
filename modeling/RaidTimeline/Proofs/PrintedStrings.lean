import RaidTimeline.Proofs.Parsed
import RaidTimeline.Proofs.Scans
import RaidTimeline.Proofs.StoredTexts

/-!
# Printed strings

A text is printed between double quotes with quotes, line ends and tabs escaped, but with its
backslashes as they are.  So a backslash at its end would take the closing quote with it, and one
in front of certain characters would be read as an escape.  All other texts survive, whatever
follows the printed string.

Main results:

- Theorem {lit}`isDecoded_iff`: the texts that strings denote, by what they do not contain.
- Theorem {lit}`normalize_append`: what follows a piece of text does not change how it is read.
- Theorem {lit}`Lexer.next_ofSource_append`: what is recognised at the start is the first token.
- Theorem {lit}`Lexer.next_printed_iff`: which texts survive printing.
-/

namespace RaidTimeline

/-! ## Decoded texts -/

/-- A text is denoted by a string exactly if it does not end in a backslash and no letter of an
escape follows a backslash in it. -/
theorem isDecoded_iff {t : Text} :
    IsDecoded t ↔ t.getLast? ≠ some '\\' ∧ ∀ c, IsEscapeLetter c → ¬['\\', c] <:+: t := by
  induction t with
  | nil => simp [IsDecoded]
  | cons c t ih =>
    cases t with
    | nil => simp [IsDecoded, List.infix_cons_iff]
    | cons d t =>
      rw [IsDecoded, ih, List.getLast?_cons_cons]
      constructor
      · rintro ⟨hfirst, hlast, hnone⟩
        refine ⟨hlast, fun e he hinfix => ?_⟩
        rcases List.infix_cons_iff.mp hinfix with hprefix | hbehind
        · rcases List.cons_prefix_cons.mp hprefix with ⟨hc, hletter⟩
          obtain rfl : e = d := (List.cons_prefix_cons.mp hletter).1
          exact hfirst hc.symm he
        · exact hnone e he hbehind
      · rintro ⟨hlast, hnone⟩
        refine ⟨?_, hlast, fun e he hinfix => hnone e he (List.infix_cons hinfix)⟩
        rintro rfl hd
        exact hnone d hd ⟨[], t, rfl⟩

/-- A text survives being escaped and read again exactly if it does not end in a backslash and has
no backslash in front of an apostrophe or a letter of an escape. -/
theorem isDecoded_and_unescapeString_iff {t : Text} :
    IsDecoded t ∧ unescapeString (escapeString t) = t ↔
      t.getLast? ≠ some '\\' ∧ ∀ c ∈ ['\'', 'n', 't', 'r'], ¬['\\', c] <:+: t := by
  rw [and_congr_right unescapeString_escapeString_iff, isDecoded_iff, and_assoc]
  apply and_congr_right'
  simp only [IsEscapeLetter, List.forall_mem_cons, List.not_mem_nil]
  grind

/-! ## Printed texts -/

/-- Texts without carriage returns keep their line ends in front of any text. -/
theorem foldLineEnds_append {s : Text} (hs : '\r' ∉ s) (t : Text) :
    Text.foldLineEnds (s ++ t) = s ++ Text.foldLineEnds t := by
  induction s with
  | nil => rfl
  | cons c s ih =>
    rw [List.mem_cons, not_or] at hs
    rw [List.cons_append, foldLineEnds_cons (Ne.symm hs.1), ih hs.2, List.cons_append]

/-- A piece of text that begins with no byte order mark is read as it stands, and only what
follows it is put into normal form. -/
theorem normalize_append {raw : Text} (hraw : raw ≠ []) (hreturn : '\r' ∉ raw)
    (hmark : raw.head? ≠ some byteOrderMark) (suffix : Text) :
    normalize (raw ++ suffix) = raw ++ Text.foldLineEnds suffix := by
  cases raw with
  | nil => contradiction
  | cons c raw =>
    have hc : c ≠ byteOrderMark := fun heq => hmark (congrArg some heq)
    rw [normalize, List.cons_append, Text.dropMark, if_neg hc, ← List.cons_append,
      foldLineEnds_append hreturn]

/-- What follows a printed string does not change how it is read. -/
theorem normalize_printed (t suffix : Text) :
    normalize ('"' :: (escapeString t ++ '"' :: suffix)) =
      '"' :: (escapeString t ++ '"' :: Text.foldLineEnds suffix) := by
  have hreturn : '\r' ∉ '"' :: (escapeString t ++ ['"']) := by
    simp [not_mem_escapeString]
  simpa using normalize_append (List.cons_ne_nil _ _) hreturn (by simp [byteOrderMark]) suffix

/-- A text that begins with a quote begins with a string exactly if the rule for strings matches. -/
theorem recognise?_quote_iff {v : Vocabulary} {before : Option Char} {rest : Text} {n : Nat} :
    recognise? v before ('"' :: rest) = some (.string, n) ↔
      stringLength? ('"' :: rest) = some n := by
  constructor
  · exact fun h => (length?_of_recognise? h).2
  · intro h
    simp [recognise?, Kind.precedence, Kind.length?, runLength?, isLayout, commentLength?, oneOf?,
      numberLength?, fractionLength, h]

namespace Lexer

/-- The first token of a source text whose normal form does not begin with layout. -/
theorem next_ofSource {v : Vocabulary} {source : Text}
    (h : (normalize source).takeWhile isLayout = []) :
    (ofSource v source).next.1 = ((Cursor.ofText (normalize source)).scan v).1 := by
  rw [next_eq rfl, ofSource, Cursor.skipLayout_of_takeWhile h]

/-- A piece of text that is recognised at the start of a source text is its first token. -/
theorem next_ofSource_append {v : Vocabulary} {raw suffix : Text} {kind : Kind} (hraw : raw ≠ [])
    (hreturn : '\r' ∉ raw) (hhead : ∀ c ∈ raw.head?, isLayout c = false ∧ c ≠ byteOrderMark)
    (hfound : recognise? v none (raw ++ Text.foldLineEnds suffix) = some (kind, raw.length)) :
    (ofSource v (raw ++ suffix)).next.1 = .ofPiece [] raw kind := by
  have hmark : raw.head? ≠ some byteOrderMark := fun heq => (hhead _ heq).2 rfl
  have hnormal := normalize_append hraw hreturn hmark suffix
  have hlayout : (normalize (raw ++ suffix)).takeWhile isLayout = [] := by
    rw [hnormal]
    cases raw with
    | nil => contradiction
    | cons c raw => simp [(hhead c rfl).1]
  rw [next_ofSource hlayout, hnormal, Cursor.ofText_eq_between,
    Cursor.scan_between [] hraw hfound]

/-- A piece of text that is recognised at the start of a source text is one of its tokens. -/
theorem mem_tokensOf_append {v : Vocabulary} (hv : v.HasNoEmptyWord) {raw suffix : Text}
    {kind : Kind} (hraw : raw ≠ []) (hreturn : '\r' ∉ raw) (hmark : raw.head? ≠ some byteOrderMark)
    (hfound : recognise? v none (raw ++ Text.foldLineEnds suffix) = some (kind, raw.length)) :
    .ofPiece [] raw kind ∈ tokensOf v (raw ++ suffix) ⟨true, true⟩ := by
  rw [tokensOf_eq_tokens hv, normalize_append hraw hreturn hmark, Cursor.ofText_eq_between]
  have hmem := (Cursor.between [] (raw ++ Text.foldLineEnds suffix)).scan_mem_tokens v
  rwa [Cursor.scan_between [] hraw hfound] at hmem

/-- The first token of a source text that begins with a quote. -/
theorem next_ofSource_quote {v : Vocabulary} {source rest : Text}
    (h : normalize source = '"' :: rest) :
    (ofSource v source).next.1 = ((Cursor.ofText ('"' :: rest)).scan v).1 := by
  rw [next_ofSource, h]
  simp [h, isLayout]

/-- A printed text is read back, and up to the quote behind it, exactly if it does not end in a
backslash and has no backslash in front of an apostrophe or one of three letters. -/
theorem next_printed_iff (v : Vocabulary) (text suffix : Text) :
    let t := (ofSource v ('"' :: (escapeString text ++ '"' :: suffix))).next.1
    t.kind = .string ∧ t.value = text ∧ t.raw = '"' :: (escapeString text ++ ['"']) ↔
      text.getLast? ≠ some '\\' ∧ ∀ c ∈ ['\'', 'n', 't', 'r'], ¬['\\', c] <:+: text := by
  rw [← isDecoded_and_unescapeString_iff, next_ofSource_quote (normalize_printed text suffix)]
  generalize hrest : escapeString text ++ '"' :: Text.foldLineEnds suffix = rest
  constructor
  · rintro ⟨hkind, hvalue, hraw⟩
    rcases (Cursor.ofText ('"' :: rest)).scan_cases v with
      ⟨hnil, -⟩ | ⟨-, -, hscan⟩ | ⟨kind, n, -, hfound, hscan⟩
    · contradiction
    · simp [hscan, Cursor.emptyToken] at hkind
    · rw [hscan] at hkind hvalue hraw
      obtain rfl : kind = .string := hkind
      have hdecoded := isDecoded_of_stringLength? (recognise?_quote_iff.mp hfound)
      change ('"' :: rest).take n = _ at hraw
      change unescapeString (inner (('"' :: rest).take n)) = text at hvalue
      rw [hvalue] at hdecoded
      rw [hraw, inner_delimited] at hvalue
      exact ⟨hdecoded, hvalue⟩
  · rintro ⟨hdecoded, hvalue⟩
    have hlength := hdecoded.stringLength?_eq (Text.foldLineEnds suffix)
    rw [hrest] at hlength
    have hraw : ('"' :: rest).take ((escapeString text).length + 2) =
        '"' :: (escapeString text ++ ['"']) := by
      simp [← hrest, List.take_append]
    have hfound : recognise? v none ('"' :: rest) =
        some (.string, (escapeString text).length + 2) :=
      recognise?_quote_iff.mpr hlength
    have hscan : ((Cursor.ofText ('"' :: rest)).scan v).1.kind = .string ∧
        ((Cursor.ofText ('"' :: rest)).scan v).1.value =
          unescapeString (inner (('"' :: rest).take ((escapeString text).length + 2))) ∧
        ((Cursor.ofText ('"' :: rest)).scan v).1.raw =
          ('"' :: rest).take ((escapeString text).length + 2) := by
      simp [Cursor.scan, Cursor.ofText, hfound, Kind.valueOf]
    rw [hraw, inner_delimited, hvalue] at hscan
    exact hscan

end Lexer

end RaidTimeline
