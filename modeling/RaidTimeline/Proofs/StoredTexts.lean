import RaidTimeline.Proofs.Octets
import RaidTimeline.Proofs.Parsed
import RaidTimeline.Transform

/-!
# Texts in files

A file is read in two steps: its octets are decoded, without a byte order mark and with line feeds
only, and the text that comes out is normalised as every source text is.  So line ends are folded
twice, which changes nothing, but a byte order mark is dropped twice as well.

Main results:

- Theorem {lit}`Store.decodeText_encode`: the text of a file is the normal form of what was stored.
- Theorem {lit}`normalize_normalize`: the normal form of a normal form lacks one more mark.
- Definition {lit}`Store.ReadsAs`: a file is read as a text is.
- Theorem {lit}`Store.readsAs_iff`: a file is read as the text that was stored in it, unless that
  begins with two byte order marks.
-/

namespace RaidTimeline

/-! ## Marks and line ends -/

theorem foldLineEnds_cons {c : Char} (hc : c ≠ '\r') (t : Text) :
    Text.foldLineEnds (c :: t) = c :: Text.foldLineEnds t := by
  rw [Text.foldLineEnds.eq_3, if_neg hc]
  exact fun _ hreturn => absurd hreturn hc

theorem byteOrderMark_ne_return : byteOrderMark ≠ '\r' := by
  decide

/-- Line ends have no part in byte order marks. -/
theorem dropMark_foldLineEnds (t : Text) :
    Text.dropMark (Text.foldLineEnds t) = Text.foldLineEnds (Text.dropMark t) := by
  have hfeed : '\n' ≠ byteOrderMark := by
    decide
  fun_cases Text.foldLineEnds t with
  | case1 => rfl
  | case2 rest =>
    simp [Text.dropMark, hfeed, byteOrderMark_ne_return.symm, Text.foldLineEnds]
  | case3 c rest hpair =>
    by_cases hmark : c = byteOrderMark
    · simp [Text.dropMark, hmark, byteOrderMark_ne_return]
    · rw [Text.dropMark, Text.dropMark, if_neg hmark, Text.foldLineEnds.eq_3 _ _ hpair, if_neg]
      split_ifs
      · exact hfeed
      · exact hmark

/-- The normal form of a normal form is that of the text without a mark in front. -/
theorem normalize_normalize (s : Text) : normalize (normalize s) = normalize (Text.dropMark s) := by
  rw [normalize, normalize, dropMark_foldLineEnds,
    foldLineEnds_eq_self (not_mem_foldLineEnds _), normalize]

/-- A mark in front does not show in the normal form, unless another one follows it. -/
theorem normalize_dropMark_iff (s : Text) :
    normalize (Text.dropMark s) = normalize s ↔ ¬[byteOrderMark, byteOrderMark] <+: s := by
  rcases s with _ | ⟨c, s⟩
  · simp [Text.dropMark]
  by_cases hc : c = byteOrderMark
  · rcases s with _ | ⟨d, s⟩
    · simp [Text.dropMark, hc, normalize]
    by_cases hd : d = byteOrderMark
    · simp [Text.dropMark, hc, hd, normalize, foldLineEnds_cons byteOrderMark_ne_return]
    · simp [Text.dropMark, hc, hd, Ne.symm hd, normalize]
  · simp [Text.dropMark, hc, Ne.symm hc]

/-! ## Octets -/

/-- The byte order mark is stored as its three octets. -/
theorem encodeChar_byteOrderMark : Text.encodeChar byteOrderMark = Store.markOctets := by
  decide

/-- The octets of a text are those of the mark only if the text begins with it. -/
theorem eq_of_markOctets_prefix {c : Char} {s : Text}
    (h : Store.markOctets <+: Text.encode (c :: s)) : c = byteOrderMark := by
  rcases h with ⟨octets, hoctets⟩
  rcases Text.decodeFrom_encodeChar 0 0 byteOrderMark octets with ⟨offset, first, hread⟩
  rw [encodeChar_byteOrderMark, hoctets] at hread
  have hdecode := Text.decode_encode (c :: s)
  rw [Text.decode, hread] at hdecode
  cases hrest : Text.decodeFrom offset first 0 0 0 0 0 octets with
  | error fault => simp [hrest, Except.map] at hdecode
  | ok t =>
    rw [hrest] at hdecode
    cases hdecode
    rfl

/-- The beginning of a mark is no text. -/
theorem eq_of_prefix_markOctets {c : Char} {s : Text}
    (h : Text.encode (c :: s) <+: Store.markOctets) : c = byteOrderMark := by
  rw [List.prefix_iff_eq_take] at h
  have hlength : (Text.encode (c :: s)).length ≤ 3 := by
    have hle := congrArg List.length h
    rw [List.length_take] at hle
    exact (le_of_eq hle).trans (Nat.min_le_right _ _)
  have hdecode := Text.decode_encode (c :: s)
  rw [h] at hdecode
  -- The first octets of the mark are undecodable, but for none and for all of them.
  interval_cases (Text.encode (c :: s)).length
  · cases hdecode
  · cases hdecode
  · cases hdecode
  · cases hdecode
    rfl

/-- The mark of a text is dropped with its octets. -/
theorem Store.dropMark_encode (s : Text) :
    dropMark (Text.encode s) = Text.encode (Text.dropMark s) := by
  rcases s with _ | ⟨c, s⟩
  · rfl
  by_cases hc : c = byteOrderMark
  · rw [dropMark, Text.dropMark, if_pos hc, hc, Text.encode, List.flatMap_cons,
      encodeChar_byteOrderMark]
    simp [markOctets, Text.encode]
  · have hbegins : ¬markOctets.isPrefixOf (Text.encode (c :: s)) := by
      rw [List.isPrefixOf_iff_prefix]
      exact mt eq_of_markOctets_prefix hc
    have hwithin : ¬(Text.encode (c :: s)).isPrefixOf markOctets := by
      rw [List.isPrefixOf_iff_prefix]
      exact mt eq_of_prefix_markOctets hc
    rw [dropMark, if_neg hbegins, if_neg hwithin, Text.dropMark, if_neg hc]

/-- The text of a file is the normal form of the text that was stored in it. -/
theorem Store.decodeText_encode (s : Text) : decodeText (Text.encode s) = .ok (normalize s) := by
  rw [decodeText, dropMark_encode, Text.decode_encode]
  rfl

/-! ## Files -/

/-- A source text is read by its normal form. -/
theorem Lexer.ofSource_congr {v : Vocabulary} {s t : Text} (h : normalize s = normalize t) :
    ofSource v s = ofSource v t := by
  rw [ofSource, ofSource, h]

/-- The name of the file is a label of the program, and has no part in how it is read. -/
theorem parseSource_sourceFile (v : Vocabulary) (source file : Text) :
    parseSource v source file =
      (parseSource v source []).map fun p => { p with sourceFile := file } := by
  rw [parseSource_eq, parseSource_eq]
  cases ProgramEnd.result (sourceRun v source).outcome <;> rfl

/-- A file is read as a text is: it has the same program, but for the name of the file, the same
canonical form and the same tokens, or the same error. -/
structure Store.ReadsAs (store : Store) (path s : Text) : Prop where
  parse : ∀ settings, parseFile store path settings =
    ((parseText s settings []).map fun p => { p with sourceFile := path }).mapError .parse
  transform : ∀ options settings,
    transformFile store path options settings = transformText s options settings
  tokens : ∀ v view, tokensOfFile store path v view = .ok (tokensOf v s view)

namespace Store

variable {store : Store} {path s t : Text}

/-- A file is read as every text that has the normal form of its text. -/
theorem readsAs_of_readText (hread : store.readText path = .ok t)
    (hnormal : normalize t = normalize s) : store.ReadsAs path s := by
  have hparse : ∀ settings file, parseText t settings file =
      (parseText s settings []).map fun p => { p with sourceFile := file } := by
    intro settings file
    rw [parseText, parseText, ← parseSource_sourceFile, parseSource, parseSource,
      Reader.ofSource, Reader.ofSource, Lexer.ofSource_congr hnormal]
  constructor
  case parse =>
    intro settings
    simp only [parseFile, hread, hparse]
  case transform =>
    intro options settings
    simp only [transformFile, parseFile, transformText, hread, hparse]
    cases parseText s settings [] <;> rfl
  case tokens =>
    intro v view
    have htokens : tokensOf v t view = tokensOf v s view := by
      rw [tokensOf, tokensOf, Lexer.ofSource_congr hnormal]
    rw [tokensOfFile, hread, ← htokens]
    rfl

/-- A text and a file that is read as it have the same normal form. -/
theorem ReadsAs.normalize_eq (hs : store.ReadsAs path s) (ht : store.ReadsAs path t) :
    normalize s = normalize t := by
  have htokens := (hs.tokens .default ⟨true, true⟩).symm.trans (ht.tokens .default ⟨true, true⟩)
  have hwhole : ∀ text, (tokensOf .default text ⟨true, true⟩).flatMap Token.raw =
      normalize text := fun text =>
    (tokensOf_covers Vocabulary.hasNoEmptyWord_default text).whole
  rw [← hwhole s, ← hwhole t, Except.ok.inj htokens]

/-- A file is read as the text that was stored in it, without the byte order mark in front; and it
is read as that text itself unless two byte order marks stand in front. -/
theorem readsAs_iff (h : store.readOctets path = .ok (Text.encode s)) :
    store.ReadsAs path (Text.dropMark s) ∧
      (store.ReadsAs path s ↔ ¬[byteOrderMark, byteOrderMark] <+: s) := by
  have hread : store.readText path = .ok (normalize s) := by
    rw [readText, h]
    exact decodeText_encode s
  have hdropped : store.ReadsAs path (Text.dropMark s) :=
    readsAs_of_readText hread (normalize_normalize s)
  refine ⟨hdropped, ?_⟩
  rw [← normalize_dropMark_iff]
  exact ⟨hdropped.normalize_eq,
    fun hsame => readsAs_of_readText hread ((normalize_normalize s).trans hsame)⟩

/-- A file with a byte order mark and both kinds of line ends is read as its text. -/
theorem readsAs_crlf :
    let s := "\uFEFF# a\r\nhideall 'b'\r".toList
    let store : Store := [("t.txt".toList, .file (Text.encode s))]
    store.readOctets "t.txt".toList = .ok (Text.encode s) ∧ store.ReadsAs "t.txt".toList s := by
  intro s store
  have hread : store.readOctets "t.txt".toList = .ok (Text.encode s) := by
    rfl
  exact ⟨hread, (readsAs_iff hread).2.mpr (by decide)⟩

/-- Two byte order marks in front of a hidden name: the file has a canonical form, and the text
cannot be read. -/
theorem transformFile_twoMarks :
    let s := "\uFEFF\uFEFFhideall \"a\"".toList
    let store : Store := [("t.txt".toList, .file (Text.encode s))]
    store.readOctets "t.txt".toList = .ok (Text.encode s) ∧
      (transformFile store "t.txt".toList none none).toOption = some "hideall \"a\"".toList ∧
      (transformText s none none).toOption = none ∧ ¬store.ReadsAs "t.txt".toList s := by
  intro s store
  have hfile : (transformFile store "t.txt".toList none none).toOption =
      some "hideall \"a\"".toList := by
    decide +kernel
  have htext : (transformText s none none).toOption = none := by
    decide +kernel
  refine ⟨rfl, hfile, htext, ?_⟩
  intro hreads
  rw [hreads.transform, htext] at hfile
  contradiction

end Store

end RaidTimeline
