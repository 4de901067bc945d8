import RaidTimeline.Proofs.PrintedStrings

/-!
# Printed patterns

A text is read from left to right in pieces: a backslash takes the character behind it with it,
unless that is a line feed, and every other character is a piece of its own.  Reading a pattern
makes bare slashes of the pairs with a slash, and printing makes such pairs of the bare slashes.
Neither changes where the other pieces begin and end, so each undoes the other up to the spelling
of slashes, in every text.  The patterns of regular expressions survive being printed between
slashes, whatever follows them.

Main results:

- Definition {lit}`PatternPiece.ofText`: the pieces of a text.
- Theorem {lit}`PatternPiece.IsReading.ofText_toText`: pieces that may stand side by side are found
  again in their text.
- Theorems {lit}`PatternPiece.ofText_escapeRegex` and {lit}`PatternPiece.ofText_unescapeRegex`: what
  printing and reading do to the pieces.
- Theorem {lit}`Cursor.isPattern_of_mem_tokens`: what regular expressions denote.
- Theorem {lit}`printedPatterns_exact`: patterns survive, and the laws of printing and reading.
-/

namespace RaidTimeline

/-! ## Pieces -/

/-- A backslash with the character behind it, or a character by itself. -/
inductive PatternPiece where
  | pair (d : Char)
  | single (c : Char)
deriving DecidableEq

namespace PatternPiece

/-- The characters of a piece. -/
def text : PatternPiece → Text
  | .pair d => ['\\', d]
  | .single c => [c]

/-- The text of several pieces. -/
def toText (ps : List PatternPiece) : Text := ps.flatMap text

/-- The pieces of a text, read from left to right.  A backslash in front of a line feed or at the
end stands by itself. -/
def ofText : Text → List PatternPiece
  | [] => []
  | [c] => [.single c]
  | c :: d :: tail =>
      if c = '\\' ∧ d ≠ '\n' then .pair d :: ofText tail else .single c :: ofText (d :: tail)

/-- A piece that is a slash, with or without a backslash. -/
def IsSlash (p : PatternPiece) : Prop := p = .pair '/' ∨ p = .single '/'

/-- A slash gets a backslash. -/
def escaped (p : PatternPiece) : PatternPiece := if p = .single '/' then .pair '/' else p

/-- A slash loses its backslash. -/
def bare (p : PatternPiece) : PatternPiece := if p = .pair '/' then .single '/' else p

/-- A change of slashes leaves all other pieces as they are, and a slash a slash. -/
def ChangesSlashes (f : PatternPiece → PatternPiece) : Prop :=
  ∀ p, f p = p ∨ (p.IsSlash ∧ (f p).IsSlash)

theorem changesSlashes_escaped : ChangesSlashes escaped := by
  intro p
  unfold escaped
  by_cases h : p = .single '/'
  · rw [if_pos h]
    exact Or.inr ⟨Or.inr h, Or.inl rfl⟩
  · exact Or.inl (if_neg h)

theorem changesSlashes_bare : ChangesSlashes bare := by
  intro p
  unfold bare
  by_cases h : p = .pair '/'
  · rw [if_pos h]
    exact Or.inr ⟨Or.inl h, Or.inr rfl⟩
  · exact Or.inl (if_neg h)

/-- An escaped piece is escaped once. -/
@[simp]
theorem escaped_escaped (p : PatternPiece) : p.escaped.escaped = p.escaped := by
  unfold escaped
  by_cases h : p = .single '/' <;> simp [h]

/-- Taking an escape off and putting it back makes no difference to an escaped piece. -/
@[simp]
theorem escaped_bare (p : PatternPiece) : p.bare.escaped = p.escaped := by
  unfold escaped bare
  by_cases h : p = .pair '/' <;> simp [h]

/-- Putting an escape on and taking it off makes no difference to a bare piece. -/
@[simp]
theorem bare_escaped (p : PatternPiece) : p.escaped.bare = p.bare := by
  unfold escaped bare
  by_cases h : p = .single '/' <;> simp [h]

/-! ## Pieces that stand side by side -/

/-- A piece may stand in front of others: a pair has no line feed, and a backslash by itself stands
at the end or in front of a line feed. -/
def Fits : PatternPiece → List PatternPiece → Prop
  | .pair d, _ => d ≠ '\n'
  | .single c, behind => c = '\\' → ∀ p ∈ behind.head?, p = .single '\n'

/-- Pieces as they are read from a text. -/
inductive IsReading : List PatternPiece → Prop where
  | nil : IsReading []
  | cons {p : PatternPiece} {ps : List PatternPiece} :
      p.Fits ps → IsReading ps → IsReading (p :: ps)

section

variable {p : PatternPiece} {ps : List PatternPiece} {f : PatternPiece → PatternPiece} {c : Char}

@[simp]
theorem toText_cons (p : PatternPiece) (ps : List PatternPiece) :
    toText (p :: ps) = p.text ++ toText ps :=
  rfl

theorem ofText_pair {d : Char} (hd : d ≠ '\n') (tail : Text) :
    ofText ('\\' :: d :: tail) = .pair d :: ofText tail := by
  rw [ofText, if_pos ⟨rfl, hd⟩]

/-- A character that is no backslash is a piece of its own. -/
theorem ofText_single (hc : c ≠ '\\') (tail : Text) :
    ofText (c :: tail) = .single c :: ofText tail := by
  cases tail with
  | nil => rfl
  | cons d tail => rw [ofText, if_neg fun h => hc h.1]

/-- The pieces of a text make up the text. -/
theorem toText_ofText (t : Text) : toText (ofText t) = t := by
  fun_induction ofText t with
  | case1 => rfl
  | case2 c => rfl
  | case3 c d tail h ih => rw [toText_cons, ih, h.1, text, List.cons_append, List.singleton_append]
  | case4 c d tail _ ih => rw [toText_cons, ih, text, List.singleton_append]

/-- The pieces of a text may stand side by side. -/
theorem isReading_ofText (t : Text) : IsReading (ofText t) := by
  fun_induction ofText t with
  | case1 => exact .nil
  | case2 c => exact .cons (fun _ p hp => by contradiction) .nil
  | case3 c d tail h ih => exact .cons h.2 ih
  | case4 c d tail h ih =>
    refine .cons ?_ ih
    intro hc p hp
    obtain rfl : d = '\n' := by
      by_contra hd
      exact h ⟨hc, hd⟩
    rw [ofText_single (by decide)] at hp
    exact (Option.some.inj hp).symm

/-- Pieces that may stand side by side are found again in their text. -/
theorem IsReading.ofText_toText (h : IsReading ps) : ofText (toText ps) = ps := by
  induction h with
  | nil => rfl
  | @cons p ps hfits _ ih =>
    cases p with
    | pair d =>
      change ofText ('\\' :: d :: toText ps) = _
      rw [ofText_pair hfits, ih]
    | single c =>
      change ofText (c :: toText ps) = _
      by_cases hc : c = '\\'
      · -- The backslash does not take the piece behind it with it.
        cases ps with
        | nil => rfl
        | cons q ps =>
          obtain rfl : q = .single '\n' := hfits hc q rfl
          change ofText (c :: '\n' :: toText ps) = _
          rw [ofText, if_neg fun h => h.2 rfl]
          exact congrArg _ ih
      · rw [ofText_single hc, ih]

/-- A change of slashes keeps a piece in its place. -/
theorem Fits.map (hf : ChangesSlashes f) (h : p.Fits ps) : (f p).Fits (ps.map f) := by
  rcases hf p with hsame | ⟨-, hpair | hsingle⟩
  · rw [hsame]
    cases p with
    | pair d => exact h
    | single c =>
      intro hc q hq
      rw [List.head?_map] at hq
      rcases Option.map_eq_some_iff.mp hq with ⟨first, hfirst, rfl⟩
      obtain rfl := h hc first hfirst
      refine (hf _).resolve_right ?_
      rintro ⟨hslash | hslash, -⟩ <;> cases hslash
  · rw [hpair]
    exact (by decide : '/' ≠ '\n')
  · rw [hsingle]
    intro hc
    contradiction

/-- A change of slashes does not shift the other pieces. -/
theorem IsReading.map (hf : ChangesSlashes f) (h : IsReading ps) : IsReading (ps.map f) := by
  induction h with
  | nil => exact .nil
  | cons hfits _ ih => exact .cons (hfits.map hf) ih

/-! ## Printing and reading -/

/-- Printing puts a backslash in front of every slash that has none. -/
theorem escapeRegex_eq (t : Text) : escapeRegex t = toText ((ofText t).map escaped) := by
  have hsingle : ∀ {c : Char} (t : Text), c ≠ '\\' →
      escapeRegex (c :: t) = (escaped (.single c)).text ++ escapeRegex t := by
    intro c t hc
    by_cases hslash : c = '/'
    · subst hslash
      exact escapeRegex_slash t
    · simp [escaped, hslash, text, escapeRegex_cons hc hslash]
  fun_induction ofText t with
  | case1 => rfl
  | case2 c =>
    by_cases hc : c = '\\'
    · rw [hc]
      rfl
    · rw [hsingle [] hc]
      rfl
  | case3 c d tail h ih =>
    rw [h.1, escapeRegex_pair, ih]
    rfl
  | case4 c d tail h ih =>
    rw [List.map_cons, toText_cons, ← ih]
    by_cases hc : c = '\\'
    · subst hc
      obtain rfl : d = '\n' := by
        by_contra hd
        exact h ⟨rfl, hd⟩
      rw [escapeRegex_pair, escapeRegex_cons (by decide) (by decide)]
      rfl
    · exact hsingle (d :: tail) hc

/-- Reading takes the backslash from every slash that has one. -/
theorem unescapeRegex_eq (t : Text) : unescapeRegex t = toText ((ofText t).map bare) := by
  fun_induction ofText t with
  | case1 => rfl
  | case2 c => rfl
  | case3 c d tail h ih =>
    rw [h.1, List.map_cons, toText_cons, ← ih]
    by_cases hslash : d = '/'
    · subst hslash
      exact unescapeRegex_slash tail
    · rw [unescapeRegex_pair hslash]
      simp [bare, hslash, text]
  | case4 c d tail h ih =>
    rw [List.map_cons, toText_cons, ← ih]
    by_cases hc : c = '\\'
    · subst hc
      obtain rfl : d = '\n' := by
        by_contra hd
        exact h ⟨rfl, hd⟩
      rw [unescapeRegex_pair (by decide), unescapeRegex_cons (by decide)]
      rfl
    · exact unescapeRegex_cons hc (d :: tail)

/-- The pieces of a printed text. -/
theorem ofText_escapeRegex (t : Text) : ofText (escapeRegex t) = (ofText t).map escaped := by
  rw [escapeRegex_eq, ((isReading_ofText t).map changesSlashes_escaped).ofText_toText]

/-- The pieces of what a text denotes. -/
theorem ofText_unescapeRegex (t : Text) : ofText (unescapeRegex t) = (ofText t).map bare := by
  rw [unescapeRegex_eq, ((isReading_ofText t).map changesSlashes_bare).ofText_toText]

end

end PatternPiece

open PatternPiece

/-- A text that is printed has nothing left to escape. -/
theorem escapeRegex_escapeRegex (t : Text) : escapeRegex (escapeRegex t) = escapeRegex t := by
  rw [escapeRegex_eq (escapeRegex t), ofText_escapeRegex, List.map_map, escapeRegex_eq t]
  simp only [Function.comp_def, escaped_escaped]

/-- Printing does not change what a text denotes. -/
theorem unescapeRegex_escapeRegex (t : Text) :
    unescapeRegex (escapeRegex t) = unescapeRegex t := by
  rw [unescapeRegex_eq (escapeRegex t), ofText_escapeRegex, List.map_map, unescapeRegex_eq t]
  simp only [Function.comp_def, bare_escaped]

/-- What a text denotes is printed like the text. -/
theorem escapeRegex_unescapeRegex (t : Text) :
    escapeRegex (unescapeRegex t) = escapeRegex t := by
  rw [escapeRegex_eq (unescapeRegex t), ofText_unescapeRegex, List.map_map, escapeRegex_eq t]
  simp only [Function.comp_def, escaped_bare]

/-! ## Printed patterns -/

/-- Whatever the tables hold, a regular expression denotes a pattern. -/
theorem Cursor.isPattern_of_mem_tokens {v : Vocabulary} {c : Cursor} {t : Token}
    (hreturn : '\r' ∉ c.rest) (ht : t ∈ c.tokens v) (hkind : t.kind = .regex) :
    IsPattern t.value := by
  rcases exists_scan_of_mem_tokens ht with ⟨d, hd, rfl⟩
  rcases d.scan_cases v with ⟨-, hscan⟩ | ⟨-, -, hscan⟩ | ⟨kind, n, -, hfound, hscan⟩
  · simp [hscan, emptyToken] at hkind
  · simp [hscan, emptyToken] at hkind
  · rw [hscan] at hkind ⊢
    obtain rfl : kind = .regex := hkind
    exact isPattern_of_regexLength? (fun hmem => hreturn (hd.subset hmem))
      (length?_of_recognise? hfound).2

section

variable {p : Text}

/-- A printed pattern holds no carriage return. -/
theorem IsPattern.not_mem_printed (h : IsPattern p) : '\r' ∉ '/' :: (escapeRegex p ++ ['/']) := by
  simp [h.not_mem_escapeRegex]

/-- A pattern between slashes is the first token of every text that begins with it. -/
theorem IsPattern.next_ofSource_eq (h : IsPattern p) (v : Vocabulary) (suffix : Text) :
    (Lexer.ofSource v ('/' :: (escapeRegex p ++ ['/']) ++ suffix)).next.1 =
      .ofPiece [] ('/' :: (escapeRegex p ++ ['/'])) .regex := by
  apply Lexer.next_ofSource_append (List.cons_ne_nil _ _) h.not_mem_printed
  · simp [isLayout, byteOrderMark]
  · exact h.recognise?_append v _

/-- A printed pattern is read as one token, whatever stands behind it. -/
theorem IsPattern.mem_tokensOf (h : IsPattern p) {v : Vocabulary} (hv : v.HasNoEmptyWord)
    (suffix : Text) :
    .ofPiece [] ('/' :: (escapeRegex p ++ ['/'])) .regex ∈
      tokensOf v ('/' :: (escapeRegex p ++ ['/']) ++ suffix) ⟨true, true⟩ := by
  apply Lexer.mem_tokensOf_append hv (List.cons_ne_nil _ _) h.not_mem_printed
  · simp [byteOrderMark]
  · exact h.recognise?_append v _

/-- A printed pattern denotes the pattern. -/
theorem IsPattern.value_ofPiece (h : IsPattern p) :
    (Token.ofPiece [] ('/' :: (escapeRegex p ++ ['/'])) .regex).value = p := by
  change unescapeRegex (inner ('/' :: (escapeRegex p ++ ['/']))) = p
  rw [inner_delimited, h.unescapeRegex_escapeRegex]

/-- The texts that regular expressions denote are the patterns. -/
theorem exists_regex_iff_isPattern {v : Vocabulary} (hv : v.HasNoEmptyWord) :
    (∃ source, ∃ t ∈ tokensOf v source ⟨true, true⟩, t.kind = .regex ∧ t.value = p) ↔
      IsPattern p := by
  constructor
  · rintro ⟨source, t, ht, hkind, rfl⟩
    exact Cursor.isPattern_of_mem_tokens (not_mem_normalize source) (tokensOf_subset v source _ ht)
      hkind
  · exact fun h => ⟨_, _, h.mem_tokensOf hv [], rfl, h.value_ofPiece⟩

end

/-- The patterns of all regular expressions survive being printed, whatever follows them; and in
every text printing and reading change nothing but the backslashes of slashes. -/
theorem printedPatterns_exact :
    (∀ (v w : Vocabulary) (source suffix : Text), ∀ t ∈ tokensOf v source ⟨true, true⟩,
      t.kind = .regex →
      let first := (Lexer.ofSource w ('/' :: (escapeRegex t.value ++ ['/']) ++ suffix)).next.1
      first.kind = .regex ∧ first.value = t.value ∧
        first.raw = '/' :: (escapeRegex t.value ++ ['/']) ∧
        first.span.start = 0 ∧ first.span.stop = (escapeRegex t.value).length + 2) ∧
    ∀ p : Text, escapeRegex (escapeRegex p) = escapeRegex p ∧
      unescapeRegex (escapeRegex p) = unescapeRegex p ∧
      escapeRegex (unescapeRegex (escapeRegex p)) = escapeRegex p := by
  constructor
  · intro v w source suffix t ht hkind
    have hpattern : IsPattern t.value :=
      Cursor.isPattern_of_mem_tokens (not_mem_normalize source) (tokensOf_subset v source _ ht)
        hkind
    rw [hpattern.next_ofSource_eq w suffix]
    exact ⟨rfl, hpattern.value_ofPiece, rfl, rfl, by simp [Token.ofPiece]⟩
  · intro p
    refine ⟨escapeRegex_escapeRegex p, unescapeRegex_escapeRegex p, ?_⟩
    rw [unescapeRegex_escapeRegex, escapeRegex_unescapeRegex]

/-- A slash between brackets is printed with a backslash, and is the same slash when it is read. -/
theorem printedPatterns_exact_bracket :
    ∃ t ∈ tokensOf .default ('/' :: ("[\\/]\\/".toList ++ ['/']) ++ " # a".toList) ⟨true, true⟩,
      t.kind = .regex ∧ t.value = "[/]/".toList ∧
        (Lexer.ofSource .default
          ('/' :: ("[\\/]\\/".toList ++ ['/']) ++ "sync".toList)).next.1.value =
            "[/]/".toList := by
  have hpattern : IsPattern "[/]/".toList := by
    refine ⟨'[', "/]\\/".toList, ?_, rfl, by decide, by decide⟩
    exact .outside (by decide) (by decide) (by decide) (.inside (by decide) (by decide)
      (.inside (by decide) (by decide) (.pair (by decide) .nil)))
  have hescaped : escapeRegex "[/]/".toList = "[\\/]\\/".toList := by
    decide
  have hmem := hpattern.mem_tokensOf Vocabulary.hasNoEmptyWord_default " # a".toList
  have hfirst := (printedPatterns_exact.1 .default .default _ "sync".toList _ hmem rfl).2.1
  rw [hpattern.value_ofPiece, hescaped] at hfirst
  rw [hescaped] at hmem
  exact ⟨_, hmem, rfl, hescaped ▸ hpattern.value_ofPiece, hfirst⟩

end RaidTimeline
