import Mathlib.Data.List.TFAE
import RaidTimeline.Proofs.Lexemes
import RaidTimeline.Proofs.Positions

/-!
# Progress

A scan that finds a token moves on, so the tokens of a text come to an end.  The one exception is
the empty word: as an entry of a table it stands at every word boundary, it is found where no
longer word is, and a lexer that has found it stays where it is.

Main results:

- Definition {lit}`Vocabulary.Advances`: no scan of a source text stays at a token.
- Definition {lit}`Vocabulary.Ends`: the tokens of a source text come to an end.
- Theorem {lit}`Vocabulary.hasNoEmptyWord_tfae`: both hold of every source text exactly for tables
  without the empty word.
- Theorem {lit}`take_emptyWord`: with the empty word in a table, a lexer stays for ever.
-/

namespace RaidTimeline

/-- Every scan of a source text moves on, except at its end and in front of unreadable text. -/
def Vocabulary.Advances (v : Vocabulary) (source : Text) : Prop :=
  ∀ c : Cursor, c.IsIn (normalize source) →
    (c.scan v).1.isLast = false → c.offset < (c.scan v).2.offset

/-- The tokens of a source text come to an end: there are no more of them than characters in
front of the last one, and no others come however many are asked for. -/
def Vocabulary.Ends (v : Vocabulary) (source : Text) : Prop :=
  ∃ body last, body.length ≤ (normalize source).length ∧ last.isLast = true ∧
    tokensOf v source ⟨true, true⟩ = body ++ [last] ∧
      ∀ n, ((Lexer.ofSource v source).take ⟨true, true⟩ n).1 = (body ++ [last]).take n

/-! ## Tables without the empty word -/

section

variable {v : Vocabulary} (hv : v.HasNoEmptyWord)
include hv

/-- A scan that finds a token moves on. -/
theorem Cursor.offset_lt_scan (c : Cursor) (h : (c.scan v).1.isLast = false) :
    c.offset < (c.scan v).2.offset := by
  rcases c.scan_cases v with ⟨-, hscan⟩ | ⟨-, -, hscan⟩ | ⟨kind, n, hrest, hfound, hscan⟩
  · rw [hscan] at h
    contradiction
  · rw [hscan] at h
    contradiction
  · have hpos := recognise?_pos hv hfound
    have hlength := List.length_pos_iff.mpr hrest
    rw [hscan, offset_advance, List.length_take]
    omega

/-- Without the empty word every scan that finds a token moves on. -/
theorem Vocabulary.advances (source : Text) : v.Advances source :=
  fun c _ => c.offset_lt_scan hv

/-- Without the empty word the tokens of every source text come to an end. -/
theorem Vocabulary.ends (source : Text) : v.Ends source := by
  rcases Cursor.tokens_eq_concat hv (Cursor.ofText (normalize source)) with
    ⟨body, last, htokens, hlast, -⟩
  have hlength := (Cursor.ofText (normalize source)).length_tokens_le v
  refine ⟨body, last, ?_, hlast, by rw [tokensOf_eq_tokens hv, htokens], fun n => ?_⟩
  · rw [htokens, List.length_append, List.length_singleton] at hlength
    exact Nat.le_of_succ_le_succ hlength
  · rw [Lexer.take_fst hv, tokensOf_eq_tokens hv, htokens]

end

/-! ## The empty word -/

/-- A lexer that stays at a token hands it out as often as it is asked. -/
theorem Lexer.take_of_stays {l : Lexer} {t : Token} (hpending : l.pending = none)
    (hscan : l.cursor.scan l.vocabulary = (t, l.cursor)) (hlast : t.isLast = false) (n : Nat) :
    (l.take ⟨true, true⟩ n).1 = List.replicate n t := by
  have hraw : l.nextRaw = (t, l) := by
    rw [nextRaw_eq hpending, hscan]
  have hcollect : ∀ fuel, n ≤ fuel → (collect ⟨true, true⟩ fuel n l).1 = List.replicate n t := by
    induction n with
    | zero =>
      intro fuel _
      cases fuel <;> rfl
    | succ n ih =>
      intro fuel hfuel
      rcases fuel with _ | fuel
      · omega
      · have hrest := ih fuel (by omega)
        simp [collect, hraw, hlast, hrest, List.replicate_succ]
  exact hcollect _ (Nat.le_add_left _ _)

/-- In a run of one letter that is longer than a word, the word stands only if it is empty. -/
theorem standsAt_replicate_iff {w : Text} {n : Nat} (h : w.length ≤ n) :
    standsAt none (List.replicate (n + 1) 'x') w = true ↔ w = [] := by
  constructor
  · intro hstands
    rw [standsAt, Bool.and_eq_true, List.isPrefixOf_iff_prefix] at hstands
    rcases hstands with ⟨hbegins, hboundary⟩
    by_contra hne
    have hlast : lastOr none w = some 'x' := by
      have hmem := hbegins.subset (List.getLast_mem hne)
      rw [lastOr, List.getLast?_eq_some_getLast hne, List.eq_of_mem_replicate hmem]
      rfl
    have hnext : ((List.replicate (n + 1) 'x').drop w.length).head? = some 'x' := by
      rw [List.drop_replicate, List.head?_replicate, if_neg (by omega)]
    rw [hlast, hnext] at hboundary
    contradiction
  · rintro rfl
    rfl

/-- With the empty word in a table there is a text at whose start every scan stays. -/
theorem exists_scan_stays {v : Vocabulary} (hv : ¬v.HasNoEmptyWord) :
    ∃ (source : Text) (t : Token), t.isLast = false ∧
      (Cursor.ofText (normalize source)).scan v = (t, Cursor.ofText (normalize source)) := by
  have hmem : [] ∈ v.words := not_not.mp hv
  -- No word but the empty one stands in front of a run that is longer than all words.
  have hstands : ∀ w ∈ v.words,
      standsAt none (List.replicate (v.words.flatten.length + 1) 'x') w = true → w = [] :=
    fun w hw => (standsAt_replicate_iff (List.sublist_flatten_of_mem hw).length_le).mp
  generalize v.words.flatten.length = length at hstands
  have hkeyword : keywordLength? v none (List.replicate (length + 1) 'x') = some 0 := by
    rcases exists_keywordLength?_eq hmem ((standsAt_replicate_iff (Nat.zero_le length)).mpr rfl)
      with ⟨n, hn⟩
    rcases keywordLength?_eq_some hn with ⟨⟨w, hw, hstands', rfl⟩, -⟩
    rw [hn, hstands w hw hstands', List.length_nil]
  have hnormal : normalize (List.replicate (length + 1) 'x') = List.replicate (length + 1) 'x' := by
    apply normalize_eq_self (by simp)
    rw [List.head?_replicate, if_neg (Nat.succ_ne_zero _)]
    decide
  have hfound : recognise? v none (List.replicate (length + 1) 'x') = some (.keyword, 0) := by
    have hnumber : numberLength? (List.replicate (length + 1) 'x') = none :=
      numberLength?_eq_none rfl (by decide) _
    rw [List.replicate_succ] at hkeyword hnumber ⊢
    rw [recognise?_of_isWord rfl]
    simp only [List.findSome?_cons, Kind.length?, hnumber, hkeyword, Option.map_none,
      Option.map_some]
  refine ⟨List.replicate (length + 1) 'x', ⟨.keyword, [], [], ⟨0, 0, .start, .start⟩⟩, rfl, ?_⟩
  rw [hnormal, Cursor.scan, if_neg (by simp [Cursor.ofText])]
  simp only [Cursor.ofText, hfound]
  rfl

/-! ## Progress in every text -/

/-- Tables make a lexer move on in every source text, and come to an end of every source text,
exactly if the empty word is not in them. -/
theorem Vocabulary.hasNoEmptyWord_tfae (v : Vocabulary) :
    [v.HasNoEmptyWord, ∀ source, v.Advances source, ∀ source, v.Ends source].TFAE := by
  tfae_have 1 → 2 := fun hv => Vocabulary.advances hv
  tfae_have 1 → 3 := fun hv => Vocabulary.ends hv
  tfae_have 2 → 1 := by
    intro hadvances
    by_contra hv
    rcases exists_scan_stays hv with ⟨source, t, hlast, hscan⟩
    have hlt := hadvances source _ (Cursor.isIn_ofText _)
    rw [hscan] at hlt
    exact Nat.lt_irrefl _ (hlt hlast)
  tfae_have 3 → 1 := by
    intro hends
    by_contra hv
    rcases exists_scan_stays hv with ⟨source, t, hlast, hscan⟩
    rcases hends source with ⟨body, last, -, -, -, htake⟩
    -- One token more than there are would still come.
    have hlength := congrArg List.length (htake (body.length + 2))
    rw [Lexer.take_of_stays rfl hscan hlast] at hlength
    simp at hlength
  tfae_finish

/-- With the empty word as a keyword, a lexer stays in front of a letter and hands out a keyword
without text for ever. -/
theorem take_emptyWord :
    let v : Vocabulary := ⟨[[]], []⟩
    let t : Token := ⟨.keyword, [], [], ⟨0, 0, .start, .start⟩⟩
    t.isLast = false ∧ ¬v.Advances ['a'] ∧ ¬v.Ends ['a'] ∧
      ∀ n, ((Lexer.ofSource v ['a']).take ⟨true, true⟩ n).1 = List.replicate n t := by
  intro v t
  have hscan : (Cursor.ofText (normalize ['a'])).scan v =
      (t, Cursor.ofText (normalize ['a'])) := by
    decide
  have htake : ∀ n, ((Lexer.ofSource v ['a']).take ⟨true, true⟩ n).1 = List.replicate n t :=
    Lexer.take_of_stays rfl hscan rfl
  refine ⟨rfl, ?_, ?_, htake⟩
  · intro hadvances
    have hlt := hadvances _ (Cursor.isIn_ofText _)
    rw [hscan] at hlt
    exact Nat.lt_irrefl _ (hlt rfl)
  · rintro ⟨body, last, -, -, -, hends⟩
    have hlength := congrArg List.length (hends (body.length + 2))
    rw [htake] at hlength
    simp at hlength

end RaidTimeline
