import RaidTimeline.Proofs.Seams

/-!
# Tokens of a part of a text

A text is cut between two of its tokens.  The tokens in front of the cut are read from the text in
front of it, and they stay the same with many other texts behind the cut.

Main results:

- Definition {lit}`Scans`: tokens that are read one behind the other, with a text behind them.
- Theorem {lit}`exists_scans`: a cut in a list of tokens is a cut in the text.
- Definition {lit}`Interchanges`: a text may take the place of another one behind a text.
- Theorem {lit}`Scans.visible_eq`: the tokens in front of a cut stay the same.
-/

namespace RaidTimeline

/-! ## Tokens and their text -/

/-- The text of tokens that stand one behind the other. -/
def written (ts : List Token) : Text := ts.flatMap Token.raw

@[simp]
theorem written_nil : written [] = [] :=
  rfl

@[simp]
theorem written_cons (t : Token) (ts : List Token) : written (t :: ts) = t.raw ++ written ts :=
  rfl

@[simp]
theorem written_append (ts us : List Token) : written (ts ++ us) = written ts ++ written us := by
  simp [written]

/-- The token that a piece of text is read as behind a passed text. -/
def Token.ofPiece (passed raw : Text) (kind : Kind) : Token :=
  ⟨kind, kind.valueOf raw, raw,
    ⟨passed.length, (passed ++ raw).length, Position.start.after passed,
      Position.start.after (passed ++ raw)⟩⟩

@[simp]
theorem Token.ofPiece_raw (passed raw : Text) (kind : Kind) :
    (Token.ofPiece passed raw kind).raw = raw :=
  rfl

@[simp]
theorem Token.ofPiece_kind (passed raw : Text) (kind : Kind) :
    (Token.ofPiece passed raw kind).kind = kind :=
  rfl

/-- What a rule matches is not longer than the text. -/
theorem Kind.length?_le {v : Vocabulary} {before : Option Char} {text : Text} {kind : Kind}
    {n : Nat} (h : kind.length? v before text = some n) : n ≤ text.length := by
  have hrun : ∀ p : Char → Bool, (text.takeWhile p).length ≤ text.length :=
    fun p => (List.takeWhile_sublist p).length_le
  have hfraction : ∀ t : Text, fractionLength t ≤ t.length := by
    intro t
    unfold fractionLength
    split
    · next rest =>
      have := (List.takeWhile_sublist (l := rest) Char.isDigit).length_le
      simp only [List.length_cons]
      split <;> omega
    · omega
  have hone : ∀ {a b : Char}, oneOf? a b text = some n → n ≤ text.length := by
    intro a b hone
    rcases oneOf?_eq_some.mp hone with ⟨rfl, c, rest, rfl, -⟩
    simp
  have hclosed : ∀ {length? : Text → Option Nat}, ClosesItself length? →
      length? text = some n → n ≤ text.length := by
    intro length? hclose hfound
    rcases hclose hfound with ⟨piece, rest, rfl, rfl, -, -⟩
    simp
  cases kind with
  | blank => exact (runLength?_eq_some.mp h).2 ▸ hrun isLayout
  | comment =>
    simp only [Kind.length?] at h
    unfold commentLength? at h
    split at h
    · next rest =>
      have := (List.takeWhile_sublist (l := rest) (· != '\n')).length_le
      cases h
      simp only [List.length_cons]
      omega
    · contradiction
  | punctuator => exact hone h
  | brace => exact hone h
  | number =>
    simp only [Kind.length?] at h
    unfold numberLength? at h
    split at h
    · contradiction
    · next c rest =>
      have hrest := hfraction rest
      have hwhole := hfraction (c :: rest)
      have hdrop := hfraction (rest.drop (rest.takeWhile Char.isDigit).length)
      have hdigits := (List.takeWhile_sublist (l := rest) Char.isDigit).length_le
      simp only [List.length_cons, List.length_drop] at hwhole hdrop ⊢
      simp only at h
      split_ifs at h <;> simp only [Option.some.injEq] at h <;> omega
  | string => exact hclosed closesItself_stringLength? h
  | regex => exact hclosed closesItself_regexLength? h
  | keyword =>
    rcases keywordLength?_eq_some h with ⟨⟨word, -, hstands, rfl⟩, -⟩
    rw [standsAt, Bool.and_eq_true, List.isPrefixOf_iff_prefix] at hstands
    exact hstands.1.length_le
  | identifier => exact (runLength?_eq_some.mp h).2 ▸ hrun isWord
  | eof => contradiction
  | unknown => contradiction

/-- A piece of text that is recognised in its place is the next token. -/
theorem Cursor.scan_between {v : Vocabulary} (passed : Text) {raw rest : Text} {kind : Kind}
    (hraw : raw ≠ [])
    (h : recognise? v passed.getLast? (raw ++ rest) = some (kind, raw.length)) :
    (between passed (raw ++ rest)).scan v =
      (.ofPiece passed raw kind, between (passed ++ raw) rest) := by
  have hfound : recognise? v (between passed (raw ++ rest)).before (raw ++ rest) =
      some (kind, raw.length) := h
  have hempty : (raw ++ rest).isEmpty = false := by
    simp [hraw]
  simp only [scan, between_rest, hempty, hfound, Bool.false_eq_true, if_false, between_advance,
    List.take_left, List.drop_left]
  rfl

/-- Without empty words the place does not matter. -/
theorem Cursor.scan_piece {v : Vocabulary} (hv : v.HasNoEmptyWord) (passed : Text) {raw rest : Text}
    {kind : Kind} (hraw : raw ≠ [])
    (h : recognise? v none (raw ++ rest) = some (kind, raw.length)) :
    (between passed (raw ++ rest)).scan v =
      (.ofPiece passed raw kind, between (passed ++ raw) rest) :=
  scan_between passed hraw (by rw [recognise?_eq hv, h])

/-! ## Reading with a text behind -/

/-- Tokens that are read one behind the other, from behind a passed text, with a text behind
them. -/
inductive Scans (v : Vocabulary) (behind : Text) : Text → List Token → Prop where
  | nil (passed : Text) : Scans v behind passed []
  | cons {passed raw : Text} {kind : Kind} {ts : List Token} : raw ≠ [] →
      recognise? v none (raw ++ (written ts ++ behind)) = some (kind, raw.length) →
        Scans v behind (passed ++ raw) ts → Scans v behind passed (.ofPiece passed raw kind :: ts)

namespace Scans

variable {v : Vocabulary} {behind passed : Text} {ts us : List Token}

/-- The tokens of the text are those that are read, and those of the text behind. -/
theorem tokens_eq (hv : v.HasNoEmptyWord) (h : Scans v behind passed ts) :
    (Cursor.between passed (written ts ++ behind)).tokens v =
      ts ++ (Cursor.between (passed ++ written ts) behind).tokens v := by
  induction h with
  | nil => simp
  | @cons passed raw kind ts hraw hfound _ ih =>
    have hscan := Cursor.scan_piece hv passed hraw hfound
    have hlast : ((Cursor.between passed (raw ++ (written ts ++ behind))).scan v).1.isLast =
        false := by
      have hkind := ne_last_of_recognise? hfound
      simp [hscan, Token.isLast, hkind]
    rw [written_cons, Token.ofPiece_raw, List.append_assoc, Cursor.tokens_of_not_isLast hv hlast,
      hscan, ih, ← List.append_assoc passed]
    rfl

/-- So are those that are not layout. -/
theorem visible_append (hv : v.HasNoEmptyWord) (h : Scans v behind passed ts) :
    (Cursor.between passed (written ts ++ behind)).visible v =
      ts.filter (·.kind != .blank) ++
        (Cursor.between (passed ++ written ts) behind).visible v := by
  rw [Cursor.visible, h.tokens_eq hv, List.filter_append, Cursor.visible]

/-- A token that is read is the first of its text. -/
theorem exists_recognise? {t : Token} (h : Scans v behind passed (t :: ts)) :
    t.raw ≠ [] ∧ t.span.start = passed.length ∧
      recognise? v none (t.raw ++ (written ts ++ behind)) = some (t.kind, t.raw.length) ∧
        Scans v behind (passed ++ t.raw) ts := by
  cases h with
  | cons hraw hfound hrest => exact ⟨hraw, rfl, hfound, hrest⟩

/-- Tokens without text are none. -/
theorem eq_nil (h : Scans v behind passed ts) (hts : written ts = []) : ts = [] := by
  cases h with
  | nil => rfl
  | cons hraw => simp [Token.ofPiece, hraw] at hts

/-- Tokens in two parts are read part by part. -/
theorem of_append (h : Scans v behind passed (ts ++ us)) :
    Scans v (written us ++ behind) passed ts ∧ Scans v behind (passed ++ written ts) us := by
  induction ts generalizing passed with
  | nil => exact ⟨.nil passed, by simpa using h⟩
  | cons t ts ih =>
    cases h with
    | @cons _ raw kind _ hraw hfound hrest =>
      rcases ih hrest with ⟨hts, hus⟩
      rw [List.append_eq, written_append, List.append_assoc] at hfound
      exact ⟨.cons hraw hfound hts, by simpa using hus⟩

/-- No token that is read is one that nothing can follow. -/
theorem not_isLast (h : Scans v behind passed ts) : ∀ t ∈ ts, t.isLast = false := by
  induction h with
  | nil => simp
  | @cons passed raw kind ts hraw hfound _ ih =>
    have hkind := ne_last_of_recognise? hfound
    simpa [Token.isLast, hkind] using ih

end Scans

/-- A cut in the tokens of a text is a cut in the text. -/
theorem exists_scans {v : Vocabulary} (hv : v.HasNoEmptyWord) {passed text : Text}
    {ts us : List Token} (h : (Cursor.between passed text).tokens v = ts ++ us) (hus : us ≠ []) :
    ∃ behind, text = written ts ++ behind ∧ Scans v behind passed ts ∧
      us = (Cursor.between (passed ++ written ts) behind).tokens v := by
  induction ts generalizing passed text with
  | nil => exact ⟨text, rfl, .nil passed, by simpa using h.symm⟩
  | cons t ts ih =>
    have hlast : ((Cursor.between passed text).scan v).1.isLast = false := by
      rw [← Bool.not_eq_true]
      intro hlast
      rw [Cursor.tokens_of_isLast hv hlast, List.cons_append] at h
      exact hus (List.append_eq_nil_iff.mp (List.cons.inj h).2.symm).2
    rw [Cursor.tokens_of_not_isLast hv hlast, List.cons_append] at h
    rcases List.cons.inj h with ⟨rfl, hrest⟩
    rcases (Cursor.between passed text).scan_cases v with
      ⟨-, hscan⟩ | ⟨-, -, hscan⟩ | ⟨kind, n, hne, hfound, hscan⟩
    · simp [hscan, Cursor.emptyToken, Token.isLast] at hlast
    · simp [hscan, Cursor.emptyToken, Token.isLast] at hlast
    · have hle := Kind.length?_le (length?_of_recognise? hfound).2
      rw [recognise?_eq hv, Cursor.between_rest] at hfound
      rw [Cursor.between_rest] at hle
      have htext := List.take_append_drop n text
      have hlength : (text.take n).length = n := List.length_take_of_le hle
      have hraw : text.take n ≠ [] := by
        have := recognise?_pos hv hfound
        exact List.length_pos_iff.mp (by omega)
      generalize text.take n = raw at htext hlength hraw
      generalize text.drop n = rest at htext
      subst htext hlength
      have hpiece := Cursor.scan_piece hv passed hraw hfound
      rw [hpiece] at hrest ⊢
      obtain ⟨behind, rfl, hscans, rfl⟩ := ih hrest
      exact ⟨behind, by simp, .cons hraw hfound hscans, by simp⟩

/-! ## Another text behind -/

/-- Behind the tokens of a text, another text may take the place of the one that follows; tokens
that end with the text must be of certain kinds. -/
def Interchanges (v : Vocabulary) (last : Kind → Prop) (text w w' : Text) : Prop :=
  ∀ ⦃t : Text⦄ ⦃kind : Kind⦄ ⦃n : Nat⦄, t ≠ [] → t <:+ text →
    recognise? v none (t ++ w) = some (kind, n) → n ≤ t.length → (n = t.length → last kind) →
      recognise? v none (t ++ w') = some (kind, n)

namespace Interchanges

variable {v : Vocabulary} {last : Kind → Prop} {text w w' : Text}

/-- Behind the end of a text less has to be looked at. -/
theorem of_suffix {u : Text} (h : Interchanges v last text w w') (hu : u <:+ text) :
    Interchanges v last u w w' :=
  fun _ _ _ ht hsuffix => h ht (hsuffix.trans hu)

/-- No token ends with a text if more of what follows stays the same. -/
theorem append_left {u : Text} (h : Interchanges v last (text ++ u) w w') (hu : u ≠ []) :
    Interchanges v (fun _ => True) text (u ++ w) (u ++ w') := by
  rintro t kind n ht ⟨x, rfl⟩ hfound hn -
  have hpos := List.length_pos_iff.mpr hu
  rw [← List.append_assoc] at hfound ⊢
  apply h (by simp [ht]) ⟨x, by simp⟩ hfound
  · rw [List.length_append]
    omega
  · rw [List.length_append]
    omega

/-- With tables of words, a text that separates itself may follow. -/
theorem of_hasWords (hv : v.HasWords) (hw : Separates w') :
    Interchanges v (fun kind => (kind = .blank → ∀ c ∈ w'.head?, isLayout c = false) ∧
      (kind = .comment → EndsLine w')) text w w' :=
  fun _ _ _ ht _ hfound hn hlast => recognise?_append_of_hasWords hv ht hfound hn hw
    (fun hkind hend => (hlast hend).1 hkind) (fun hkind hend => (hlast hend).2 hkind)

/-- With tables that have no line feeds, a line may end in the place of the text, and the other
way round. -/
theorem of_endsLine (hlines : ∀ word ∈ v.words, '\n' ∉ word) (hw : EndsLine w)
    (hw' : EndsLine w') :
    Interchanges v (fun kind => kind = .blank → w' = []) text w w' :=
  fun _ _ _ ht _ hfound hn hlast => recognise?_append_of_endsLine hlines ht hfound hn hw hw'
    fun hkind hend => hlast hend hkind

/-- Nothing may follow, unless a word would go on; a keyword may not end with the text. -/
theorem of_boundary (hboundary : isWordAt text.getLast? = true → isWordAt w.head? = false) :
    Interchanges v (· ≠ .keyword) text w [] := by
  intro t kind n ht hsuffix hfound hn hlast
  rw [List.append_nil]
  apply recognise?_of_append ht hfound hn hlast
  rcases hsuffix with ⟨u, rfl⟩
  simpa [List.getLast?_append, List.getLast?_eq_some_getLast ht] using hboundary

end Interchanges

namespace Scans

variable {v : Vocabulary} {last : Kind → Prop} {w w' passed : Text} {ts : List Token}

/-- The tokens that are read stay the same with another text behind them. -/
theorem interchange (h : Scans v w passed ts) (hseam : Interchanges v last (written ts) w w')
    (hlast : ∀ t ∈ ts.getLast?, last t.kind) : Scans v w' passed ts := by
  induction h with
  | nil => exact .nil _
  | @cons passed raw kind ts hraw hfound hrest ih =>
    have hsuffix : written ts <:+ written (.ofPiece passed raw kind :: ts) :=
      List.suffix_append _ _
    refine .cons hraw ?_ (ih (hseam.of_suffix hsuffix) fun t ht => hlast t ?_)
    · rw [← List.append_assoc] at hfound ⊢
      apply hseam (by simp [hraw]) List.suffix_rfl hfound (by simp)
      intro hend
      have hnil : written ts = [] := by
        simpa using hend
      obtain rfl := hrest.eq_nil hnil
      exact hlast _ rfl
    · rw [List.getLast?_cons, Option.mem_def.mp ht]
      rfl

end Scans

/-! ## Layout at a cut -/

/-- Layout is not seen among the tokens that are not layout. -/
theorem Cursor.visible_layout (v : Vocabulary) {layout : Text}
    (h : ∀ c ∈ layout, isLayout c = true) (passed rest : Text) :
    (between passed (layout ++ rest)).visible v = (between (passed ++ layout) rest).visible v := by
  have hskip : (between passed (layout ++ rest)).skipLayout =
      (between (passed ++ layout) rest).skipLayout := by
    simp [skipLayout, List.takeWhile_append_of_pos h, List.take_append, List.drop_append,
      List.take_of_length_le, List.drop_of_length_le]
  rw [visible_eq, visible_eq v (between (passed ++ layout) rest), hskip]

namespace Scans

variable {v : Vocabulary} {last : Kind → Prop} {w w' passed : Text} {ts : List Token}

/-- Layout is made up of layout characters. -/
theorem isLayout_raw {t : Token} (h : Scans v w passed (t :: ts)) (hkind : t.kind = .blank) :
    ∀ c ∈ t.raw, isLayout c = true := by
  rcases h.exists_recognise? with ⟨-, -, hfound, -⟩
  have hlength := (length?_of_recognise? hfound).2
  rw [hkind] at hlength
  have hrun := (runLength?_eq_some.mp hlength).2
  have htake : (t.raw ++ (written ts ++ w)).takeWhile isLayout = t.raw :=
    (List.prefix_of_prefix_length_le (List.takeWhile_prefix isLayout) (List.prefix_append ..)
      hrun.le).eq_of_length hrun
  intro c hc
  rw [← htake] at hc
  exact List.mem_takeWhile_imp hc

/-- The tokens in front of a cut that are not layout stay the same with another text behind the
cut; layout at the cut may go on there. -/
theorem visible_eq (hv : v.HasNoEmptyWord) (h : Scans v w passed ts)
    (hseam : Interchanges v last (written ts) w w')
    (hlast : ∀ t ∈ ts.getLast?, t.kind = .blank ∨ last t.kind) :
    (Cursor.between passed (written ts ++ w')).visible v =
      ts.filter (·.kind != .blank) ++
        (Cursor.between (passed ++ written ts) w').visible v := by
  by_cases hblank : ∃ t ∈ ts.getLast?, t.kind = .blank
  · -- Layout at the cut belongs to what may follow the tokens before it.
    rcases hblank with ⟨t, ht, hkind⟩
    rcases List.getLast?_eq_some_iff.mp ht with ⟨us, rfl⟩
    rcases h.of_append with ⟨hus, ht⟩
    rw [written_append] at hseam
    have hraw : written [t] ≠ [] := by
      simpa using ht.exists_recognise?.1
    have hscans := hus.interchange (hseam.append_left hraw) fun _ _ => trivial
    have hlayout : ∀ c ∈ written [t], isLayout c = true := by
      simpa using ht.isLayout_raw hkind
    rw [written_append, List.append_assoc, hscans.visible_append hv, List.filter_append,
      Cursor.visible_layout v hlayout, ← List.append_assoc]
    simp [hkind]
  · have hlast' : ∀ t ∈ ts.getLast?, last t.kind :=
      fun t ht => (hlast t ht).resolve_left fun hkind => hblank ⟨t, ht, hkind⟩
    exact (h.interchange hseam hlast').visible_append hv

end Scans

end RaidTimeline
