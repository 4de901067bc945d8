import Mathlib.Data.List.Find
import Mathlib.Data.List.Sort
import RaidTimeline.Token.Lexer

/-!
# What the rules for tokens recognise

Facts about one reading of one token, whatever stands in the source text: a rule that matches has
a length, the length is positive unless a table holds the empty word, and the kinds of the end and
of unreadable text are never recognised.

Main results:

- Definition {lit}`Vocabulary.HasNoEmptyWord`: tables whose every entry has a character.
- Definition {lit}`IsAlternation`: the words of a table in an order in which they may be tried.
- Theorems {lit}`IsAlternation.find?_eq_some_iff` and {lit}`IsAlternation.find?_eq`: in any such
  order the first word that stands at a place is the longest one that does, so it is the same word.
- Theorem {lit}`keyword?_eq_some_iff`: the keyword at a place is the longest table word there.
- Theorem {lit}`recognise?_pos`: with such tables every recognised token has a character.
- Theorem {lit}`Cursor.scan_cases`: everything that a scan can do.
-/

namespace RaidTimeline

/-! ## Vocabularies -/

/-- Tables without the empty word. -/
def Vocabulary.HasNoEmptyWord (v : Vocabulary) : Prop := [] ∉ v.words

instance (v : Vocabulary) : Decidable v.HasNoEmptyWord :=
  inferInstanceAs (Decidable ([] ∉ v.words))

theorem Vocabulary.hasNoEmptyWord_default : Vocabulary.default.HasNoEmptyWord := by
  decide +kernel

/-! ## The order in which words are tried -/

/-- Longer words stand in front of shorter ones. -/
def LongerFirst (words : List Text) : Prop :=
  words.Pairwise fun first second => second.length ≤ first.length

/-- A list has the words of a table, each once, and longer ones in front of shorter ones.  The
words of one length stand in any order. -/
structure IsAlternation (words ordered : List Text) : Prop where
  mem_iff : ∀ word, word ∈ ordered ↔ word ∈ words
  nodup : ordered.Nodup
  longerFirst : LongerFirst ordered

theorem insertByLength_eq (word : Text) (ordered : List Text) :
    insertByLength word ordered =
      ordered.orderedInsert (fun first second => second.length ≤ first.length) word := by
  induction ordered with
  | nil => rfl
  | cons other rest ih => rw [insertByLength, List.orderedInsert, ih]

/-- Inserting words one after the other is insertion sort. -/
theorem foldr_insertByLength (words : List Text) :
    words.foldr insertByLength [] =
      words.insertionSort fun first second => second.length ≤ first.length := by
  induction words with
  | nil => rfl
  | cons word words ih =>
    rw [List.foldr_cons, ih, insertByLength_eq, List.insertionSort_cons]

/-- Erasing repetitions leaves none. -/
theorem nodup_eraseDups : ∀ words : List Text, words.eraseDups.Nodup
  | [] => List.nodup_nil
  | word :: words => by
    rw [List.eraseDups_cons, List.nodup_cons]
    exact ⟨by simp, nodup_eraseDups (words.filter fun other => !other == word)⟩
termination_by words => words.length
decreasing_by exact Nat.lt_succ_of_le (List.length_filter_le _ _)

instance : Std.Total fun first second : Text => second.length ≤ first.length :=
  ⟨fun first second => Nat.le_total second.length first.length⟩

instance : IsTrans Text fun first second => second.length ≤ first.length :=
  ⟨fun _ _ _ hfirst hsecond => Nat.le_trans hsecond hfirst⟩

/-- The words that are tried are those of the tables, each once, and longer ones first. -/
theorem Vocabulary.isAlternation_alternation (v : Vocabulary) :
    IsAlternation v.words v.alternation := by
  rw [alternation, foldr_insertByLength]
  exact ⟨fun word => (List.mem_insertionSort _).trans List.mem_eraseDups,
    (List.perm_insertionSort _ _).nodup_iff.mpr (nodup_eraseDups v.words),
    List.pairwise_insertionSort _ _⟩

/-- At one place there stands at most one word of a length. -/
theorem eq_of_standsAt {before : Option Char} {text word other : Text}
    (hword : standsAt before text word = true) (hother : standsAt before text other = true)
    (hlength : word.length = other.length) : word = other := by
  simp only [standsAt, Bool.and_eq_true, List.isPrefixOf_iff_prefix] at hword hother
  rw [List.prefix_iff_eq_take.mp hword.1, List.prefix_iff_eq_take.mp hother.1, hlength]

namespace IsAlternation

variable {words ordered : List Text} {before : Option Char} {text : Text}

/-- The first word that stands at a place is one of the table, and those that stand there behind it
are not longer. -/
theorem longest_of_find?_eq (h : IsAlternation words ordered) {word : Text}
    (hfound : ordered.find? (standsAt before text) = some word) :
    word ∈ words ∧ standsAt before text word = true ∧
      ∀ other ∈ words, standsAt before text other = true → other.length ≤ word.length := by
  rcases List.find?_eq_some_iff_append.mp hfound with ⟨hstands, tried, rest, rfl, htried⟩
  refine ⟨(h.mem_iff word).mp (by simp), hstands, fun other hother hother' => ?_⟩
  rcases List.mem_append.mp ((h.mem_iff other).mpr hother) with hmem | hmem
  · -- The words that are tried before it do not stand there.
    have hnot := htried other hmem
    simp [hother'] at hnot
  · rcases List.mem_cons.mp hmem with rfl | hmem
    · exact Nat.le_refl _
    · have hbehind := (List.pairwise_append.mp h.longerFirst).2.1
      exact (List.pairwise_cons.mp hbehind).1 other hmem

/-- Of words that are tried longer ones first, the first one that stands at a place is the longest
one that does. -/
theorem find?_eq_some_iff (h : IsAlternation words ordered) {word : Text} :
    ordered.find? (standsAt before text) = some word ↔
      word ∈ words ∧ standsAt before text word = true ∧
        ∀ other ∈ words, standsAt before text other = true → other.length ≤ word.length := by
  refine ⟨h.longest_of_find?_eq, fun ⟨hmem, hstands, hlongest⟩ => ?_⟩
  have hsome : (ordered.find? (standsAt before text)).isSome = true :=
    List.find?_isSome.mpr ⟨word, (h.mem_iff word).mpr hmem, hstands⟩
  rcases Option.isSome_iff_exists.mp hsome with ⟨found, hfound⟩
  rcases h.longest_of_find?_eq hfound with ⟨hmem', hstands', hlongest'⟩
  have hlength : found.length = word.length :=
    Nat.le_antisymm (hlongest found hmem' hstands') (hlongest' word hmem hstands)
  rw [hfound, eq_of_standsAt hstands' hstands hlength]

/-- Which word is found does not depend on the order of the words of one length. -/
theorem find?_eq (h : IsAlternation words ordered) {other : List Text}
    (hother : IsAlternation words other) :
    other.find? (standsAt before text) = ordered.find? (standsAt before text) := by
  apply Option.ext
  intro word
  rw [h.find?_eq_some_iff, hother.find?_eq_some_iff]

end IsAlternation

section

variable {v : Vocabulary} {before : Option Char} {text : Text}

/-- A keyword is a table word that stands there, and no longer table word does. -/
theorem keyword?_eq_some_iff {word : Text} :
    keyword? v before text = some word ↔
      word ∈ v.words ∧ standsAt before text word = true ∧
        ∀ other ∈ v.words, standsAt before text other = true → other.length ≤ word.length :=
  v.isAlternation_alternation.find?_eq_some_iff

/-- Which keyword stands at a place depends on nothing but the table words that stand there. -/
theorem keywordLength?_congr {before' : Option Char} {text' : Text}
    (h : ∀ word ∈ v.words, standsAt before' text' word = standsAt before text word) :
    keywordLength? v before' text' = keywordLength? v before text := by
  rw [keywordLength?, keywordLength?, keyword?, keyword?, List.find?_congr]
  exact fun word hmem => h word ((v.isAlternation_alternation.mem_iff word).mp hmem)

/-- The length of a keyword is the length of a table word that stands there, and no longer table
word does. -/
theorem keywordLength?_eq_some {n : Nat} (h : keywordLength? v before text = some n) :
    (∃ w ∈ v.words, standsAt before text w ∧ w.length = n) ∧
      ∀ w ∈ v.words, standsAt before text w → w.length ≤ n := by
  rcases Option.map_eq_some_iff.mp h with ⟨word, hword, rfl⟩
  rcases keyword?_eq_some_iff.mp hword with ⟨hmem, hstands, hlongest⟩
  exact ⟨⟨word, hmem, hstands, rfl⟩, hlongest⟩

/-- There is no keyword exactly where no table word stands. -/
theorem keywordLength?_eq_none_iff :
    keywordLength? v before text = none ↔
      ∀ word ∈ v.words, standsAt before text word = false := by
  simp [keywordLength?, keyword?, v.isAlternation_alternation.mem_iff]

/-- Where a table word stands there is a keyword. -/
theorem exists_keywordLength?_eq {word : Text} (hmem : word ∈ v.words)
    (hstands : standsAt before text word = true) : ∃ n, keywordLength? v before text = some n := by
  cases hfound : keywordLength? v before text with
  | none => simp [keywordLength?_eq_none_iff.mp hfound word hmem] at hstands
  | some n => exact ⟨n, rfl⟩

end

/-! ## Lengths -/

/-- A run is as long as it can be, and not empty. -/
theorem runLength?_eq_some {p : Char → Bool} {text : Text} {n : Nat} :
    runLength? p text = some n ↔ 0 < n ∧ (text.takeWhile p).length = n := by
  simp only [runLength?]
  split
  · simp
    omega
  · simp
    omega

theorem oneOf?_eq_some {a b : Char} {text : Text} {n : Nat} :
    oneOf? a b text = some n ↔ n = 1 ∧ ∃ c rest, text = c :: rest ∧ (c = a ∨ c = b) := by
  unfold oneOf?
  split
  · split <;> simp_all [eq_comm]
  · simp

theorem numberLength?_pos {text : Text} {n : Nat} (h : numberLength? text = some n) : 0 < n := by
  unfold numberLength? at h
  split at h
  · contradiction
  · simp only at h
    split at h
    · simp only [Option.some.injEq] at h
      omega
    · split at h
      · simp only [Option.some.injEq] at h
        omega
      · split at h
        · contradiction
        · simp only [Option.some.injEq] at h
          omega

/-- A rule that matches has matched a character, unless a table holds the empty word. -/
theorem Kind.length?_pos {v : Vocabulary} (hv : v.HasNoEmptyWord) {before : Option Char}
    {text : Text} {kind : Kind} {n : Nat} (h : kind.length? v before text = some n) : 0 < n := by
  cases kind with
  | blank => exact (runLength?_eq_some.mp h).1
  | comment =>
    simp only [Kind.length?, commentLength?] at h
    split at h
    · simp only [Option.some.injEq] at h
      omega
    · contradiction
  | punctuator => exact (oneOf?_eq_some.mp h).1 ▸ Nat.one_pos
  | brace => exact (oneOf?_eq_some.mp h).1 ▸ Nat.one_pos
  | number => exact numberLength?_pos h
  | string =>
    simp only [Kind.length?, stringLength?] at h
    split at h
    · contradiction
    · split at h
      · rcases Option.map_eq_some_iff.mp h with ⟨m, -, rfl⟩
        omega
      · contradiction
  | regex =>
    simp only [Kind.length?, regexLength?] at h
    split at h
    · split at h
      · contradiction
      · rcases Option.map_eq_some_iff.mp h with ⟨m, -, rfl⟩
        omega
    · contradiction
  | keyword =>
    rcases keywordLength?_eq_some h with ⟨⟨w, hw, -, rfl⟩, -⟩
    rcases w with _ | ⟨c, w⟩
    · exact absurd hw hv
    · simp
  | identifier => exact (runLength?_eq_some.mp h).1
  | eof => contradiction
  | unknown => contradiction

/-- What is recognised is one of the kinds with text, and its rule gives its length. -/
theorem length?_of_recognise? {v : Vocabulary} {before : Option Char} {text : Text} {kind : Kind}
    {n : Nat} (h : recognise? v before text = some (kind, n)) :
    kind ∈ Kind.precedence ∧ kind.length? v before text = some n := by
  rcases List.exists_of_findSome?_eq_some h with ⟨found, hmem, hfound⟩
  rcases Option.map_eq_some_iff.mp hfound with ⟨m, hm, heq⟩
  cases heq
  exact ⟨hmem, hm⟩

/-- A recognised token has a character, unless a table holds the empty word. -/
theorem recognise?_pos {v : Vocabulary} (hv : v.HasNoEmptyWord) {before : Option Char}
    {text : Text} {kind : Kind} {n : Nat} (h : recognise? v before text = some (kind, n)) :
    0 < n :=
  Kind.length?_pos hv (length?_of_recognise? h).2

/-- Nothing follows the end of the text and unreadable text. -/
theorem Token.isLast_iff {t : Token} : t.isLast = true ↔ t.kind = .eof ∨ t.kind = .unknown := by
  simp [Token.isLast]

/-- The end of the text and unreadable text are not recognised by any rule. -/
theorem ne_last_of_recognise? {v : Vocabulary} {before : Option Char} {text : Text} {kind : Kind}
    {n : Nat} (h : recognise? v before text = some (kind, n)) :
    kind ≠ .eof ∧ kind ≠ .unknown := by
  have hmem := (length?_of_recognise? h).1
  constructor <;> rintro rfl <;> simp [Kind.precedence] at hmem

namespace Cursor

/-! ## One scan -/

/-- Everything that a scan can do: it stays at the end of the text, it stays where no rule
matches, or it passes the text of the token that is recognised. -/
theorem scan_cases (v : Vocabulary) (c : Cursor) :
    (c.rest = [] ∧ c.scan v = (c.emptyToken .eof, c)) ∨
      (c.rest ≠ [] ∧ recognise? v c.before c.rest = none ∧
        c.scan v = (c.emptyToken .unknown, c)) ∨
      ∃ kind n, c.rest ≠ [] ∧ recognise? v c.before c.rest = some (kind, n) ∧
        c.scan v = (⟨kind, kind.valueOf (c.rest.take n), c.rest.take n,
          c.spanTo (c.advance n)⟩, c.advance n) := by
  unfold scan
  cases hrest : c.rest with
  | nil => simp
  | cons d rest =>
    cases hfound : recognise? v c.before (d :: rest) with
    | none => simp
    | some found => exact Or.inr (Or.inr ⟨found.1, found.2, by simp⟩)

@[simp]
theorem emptyToken_width (c : Cursor) (kind : Kind) : (c.emptyToken kind).span.width = 0 := by
  simp [emptyToken, spanTo, Span.width]

/-- The span of what is passed is as wide as the text that is passed. -/
@[simp]
theorem spanTo_advance_width (c : Cursor) (n : Nat) :
    (c.spanTo (c.advance n)).width = (c.rest.take n).length := by
  simp [spanTo, Span.width]

/-- A token has no width exactly if nothing can follow it, unless a table holds the empty word. -/
theorem isLast_scan_iff {v : Vocabulary} (hv : v.HasNoEmptyWord) (c : Cursor) :
    (c.scan v).1.isLast = true ↔ (c.scan v).1.span.width = 0 := by
  rcases c.scan_cases v with ⟨-, hscan⟩ | ⟨-, -, hscan⟩ | ⟨kind, n, hrest, hfound, hscan⟩
  · rw [hscan]
    simp [Token.isLast, emptyToken, spanTo, Span.width]
  · rw [hscan]
    simp [Token.isLast, emptyToken, spanTo, Span.width]
  · rw [hscan]
    have hpos := recognise?_pos hv hfound
    have hlast := ne_last_of_recognise? hfound
    have hlength := List.length_pos_iff.mpr hrest
    simp [Token.isLast, hlast, hrest]
    omega

end Cursor

end RaidTimeline
