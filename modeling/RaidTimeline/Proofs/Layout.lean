import RaidTimeline.Proofs.Relocation
import RaidTimeline.Proofs.Stopping

/-!
# Padding between tokens

Layout and comments may stand between any two tokens.  If padding is put there, the other tokens
and the statements stay the same but for their places, and the comments of the padding come to
the comments of the program where they stand.

Main results:

- Definition {lit}`IsPadding`: layout and whole comments.
- Theorem {lit}`IsPadding.visible_eq`: the tokens of padding are its comments.
- Theorem {lit}`exists_padded_tokens`: the tokens of a text with padding in it.
- Theorem {lit}`parseSource_pad`: what padding makes of a source text.
-/

namespace RaidTimeline

/-! ## Padding -/

/-- A comment of one line, without its place. -/
def Comment.ofBody (body : Text) : Comment := ⟨.none, body, '#' :: body⟩

/-- Padding: layout characters, and comments with the ends of their lines. -/
inductive IsPadding : Text → List Comment → Prop where
  | nil : IsPadding [] []
  | layout {c : Char} {x : Text} {comments : List Comment} :
      isLayout c = true → IsPadding x comments → IsPadding (c :: x) comments
  | comment {body x : Text} {comments : List Comment} :
      '\n' ∉ body → IsPadding x comments →
        IsPadding ('#' :: (body ++ '\n' :: x)) (.ofBody body :: comments)

namespace IsPadding

variable {x : Text} {comments : List Comment}

/-- Padding begins with layout or a comment. -/
theorem head?_cases (h : IsPadding x comments) :
    ∀ c ∈ x.head?, isLayout c = true ∨ c = '#' := by
  cases h with
  | nil => simp
  | layout hc => simp [hc]
  | comment => simp

/-- A token does not go on into padding. -/
theorem separates (h : IsPadding x comments) : Separates x := by
  intro c hc
  rcases h.head?_cases c hc with hlayout | rfl
  · simp only [isLayout, Bool.or_eq_true, beq_iff_eq] at hlayout
    rcases hlayout with (rfl | rfl) | rfl <;> decide
  · decide

/-- Padding does not begin with a byte order mark. -/
theorem head?_ne_mark (h : IsPadding x comments) : x.head? ≠ some byteOrderMark := by
  intro hmark
  rcases h.head?_cases _ hmark with hlayout | hsign
  · exact absurd hlayout (by decide)
  · exact absurd hsign (by decide)

/-- Of padding, the comments are seen, and what stands behind it. -/
theorem visible_eq {v : Vocabulary} (hv : v.HasNoEmptyWord) (h : IsPadding x comments)
    (passed w : Text) :
    ∃ ts, (Cursor.between passed (x ++ w)).visible v =
        ts ++ (Cursor.between (passed ++ x) w).visible v ∧
      (∀ t ∈ ts, t.kind = .comment) ∧
        (commentsOf ts).map (Comment.relocate .erase) = comments := by
  induction h generalizing passed with
  | nil => exact ⟨[], by simp, by simp, rfl⟩
  | @layout c x comments hc _ ih =>
    rcases ih (passed ++ [c]) with ⟨ts, hvisible, hkind, hcomments⟩
    have hlayout : ∀ d ∈ [c], isLayout d = true := by
      simpa using hc
    have hstep := Cursor.visible_layout v hlayout passed (x ++ w)
    refine ⟨ts, ?_, hkind, hcomments⟩
    rw [List.append_assoc, List.singleton_append] at hvisible
    rw [List.cons_append, ← hvisible, ← hstep, List.singleton_append]
  | @comment body x comments hbody _ ih =>
    rcases ih (passed ++ '#' :: body ++ ['\n']) with ⟨ts, hvisible, hkind, hcomments⟩
    have hfound : recognise? v none (('#' :: body) ++ ('\n' :: (x ++ w))) =
        some (.comment, ('#' :: body).length) := by
      have hline : (body ++ '\n' :: (x ++ w)).takeWhile (· != '\n') = body := by
        rw [List.takeWhile_append_of_pos, List.takeWhile_cons_of_neg (by simp), List.append_nil]
        intro c hc
        simpa using fun heq : c = '\n' => hbody (heq ▸ hc)
      simp [recognise?, Kind.precedence, Kind.length?, runLength?, isLayout, commentLength?,
        hline, Nat.add_comm]
    have hscans : Scans v ('\n' :: (x ++ w)) passed [.ofPiece passed ('#' :: body) .comment] :=
      .cons (by simp) hfound (.nil _)
    have hlayout : ∀ d ∈ ['\n'], isLayout d = true := by
      simp [isLayout]
    have hstep := Cursor.visible_layout v hlayout (passed ++ '#' :: body) (x ++ w)
    have htext : '#' :: (body ++ '\n' :: x) ++ w =
        written [.ofPiece passed ('#' :: body) .comment] ++ '\n' :: (x ++ w) := by
      simp
    have hpassed : passed ++ '#' :: (body ++ '\n' :: x) =
        passed ++ '#' :: body ++ ['\n'] ++ x := by
      simp
    refine ⟨.ofPiece passed ('#' :: body) .comment :: ts, ?_, by simpa using hkind, ?_⟩
    · rw [htext, hpassed, hscans.visible_append hv, List.cons_append, ← hvisible, ← hstep,
        written_cons, written_nil, Token.ofPiece_raw, List.append_nil]
      rfl
    · rw [← hcomments]
      rfl

end IsPadding

/-! ## Padded texts -/

/-- With tables of words, padding in front of a token leaves the tokens around it the same but
for their places, unless it follows a comment. -/
theorem exists_padded_tokens {v : Vocabulary} (hv : v.HasWords) {x w : Text}
    {comments : List Comment} (hx : IsPadding x comments) {pre : List Token}
    (hscans : Scans v w [] pre) (hpre : ∀ t ∈ pre.getLast?, t.kind ≠ .comment) :
    ∃ ts us, (Cursor.ofText (written pre ++ x ++ w)).visible v =
        pre.filter (·.kind != .blank) ++ ts ++ us ∧
      (∀ t ∈ ts, t.kind = .comment) ∧
      (commentsOf ts).map (Comment.relocate .erase) = comments ∧
      us.map (Token.relocate .erase) =
        ((Cursor.between (written pre) w).visible v).map (Token.relocate .erase) := by
  have hv' := hv.hasNoEmptyWord
  have hfront : (Cursor.between [] (written pre ++ (x ++ w))).visible v =
      pre.filter (·.kind != .blank) ++ (Cursor.between (written pre) (x ++ w)).visible v := by
    by_cases hnil : x = []
    · rw [hnil, List.nil_append]
      exact hscans.visible_append hv'
    · have hseparates : Separates (x ++ w) := by
        rcases List.exists_cons_of_ne_nil hnil with ⟨c, x, rfl⟩
        exact hx.separates
      apply hscans.visible_eq hv' (Interchanges.of_hasWords hv hseparates)
      intro t ht
      by_cases hblank : t.kind = .blank
      · exact Or.inl hblank
      · exact Or.inr ⟨fun h => absurd h hblank, fun h => absurd h (hpre t ht)⟩
  rcases hx.visible_eq hv' (written pre) w with ⟨ts, hvisible, hkind, hcomments⟩
  refine ⟨ts, (Cursor.between (written pre ++ x) w).visible v, ?_, hkind, hcomments,
    Cursor.visible_relocate hv' (Cursor.alike_erase rfl)⟩
  rw [List.append_assoc, Cursor.ofText_eq_between, hfront, hvisible, List.append_assoc]

/-- The source text with padding put at an offset. -/
def Text.pad (source : Text) (offset : Nat) (x : Text) : Text :=
  source.take offset ++ x ++ source.drop offset

/-- Padded source texts without carriage returns and byte order marks are read as they are. -/
theorem normalize_pad {source x : Text} {comments : List Comment} (hx : IsPadding x comments)
    (hmark : byteOrderMark ∉ source) (hreturn : '\r' ∉ source) (hxreturn : '\r' ∉ x)
    (offset : Nat) : normalize (source.pad offset x) = source.pad offset x := by
  rw [← List.take_append_drop offset source] at hmark hreturn
  simp only [List.mem_append, not_or] at hmark hreturn
  apply normalize_eq_self
  · simp [Text.pad, hreturn, hxreturn]
  · -- The text begins with the source text, or with the padding.
    intro hhead
    simp only [Text.pad, List.head?_append, Option.or_eq_some_iff] at hhead
    rcases hhead with (hhead | ⟨-, hhead⟩) | ⟨-, hhead⟩
    · exact hmark.1 (List.mem_of_mem_head? hhead)
    · exact hx.head?_ne_mark hhead
    · exact hmark.2 (List.mem_of_mem_head? hhead)

/-- The tokens of a padded source text that are not layout: those in front of the padding, the
comments of the padding, and those behind it, moved. -/
theorem exists_visible_pad {v : Vocabulary} (hv : v.HasWords) {source x : Text}
    {comments : List Comment} (hmark : byteOrderMark ∉ source) (hreturn : '\r' ∉ source)
    (hx : IsPadding x comments) (hxreturn : '\r' ∉ x) {pre post : List Token} {next : Token}
    (htokens : (Cursor.ofText (normalize source)).tokens v = pre ++ next :: post)
    (hpre : ∀ t ∈ pre.getLast?, t.kind ≠ .comment) :
    ∃ ts us, (Cursor.ofText (normalize (source.pad next.span.start x))).visible v =
        pre.filter (·.kind != .blank) ++ ts ++ us ∧
      (∀ t ∈ ts, t.kind = .comment) ∧
      (commentsOf ts).map (Comment.relocate .erase) = comments ∧
      us.map (Token.relocate .erase) =
        ((next :: post).filter (·.kind != .blank)).map (Token.relocate .erase) := by
  have hv' := hv.hasNoEmptyWord
  have hsource : normalize source = source :=
    normalize_eq_self hreturn fun hhead => hmark (List.mem_of_mem_head? hhead)
  rw [normalize_pad hx hmark hreturn hxreturn]
  rw [hsource, Cursor.ofText_eq_between] at htokens
  rcases exists_scans hv' htokens (by simp) with ⟨w, rfl, hscans, hrest⟩
  rw [List.nil_append] at hrest
  have hstart : next.span.start = (written pre).length :=
    (Cursor.tokens_covers hv' (written pre) w).starts next (by simp [← hrest])
  rw [Text.pad, hstart, List.take_left, List.drop_left, hrest]
  exact exists_padded_tokens hv hx hscans hpre

/-- Padding between two tokens of a source text, in front of `next` and not behind a comment, has
no part in its other tokens but for their places.  So the padded text is accepted with the same
statements, or rejected for the same cause at the same token, and the comments of the padding
stand between those in front of it and those behind. -/
theorem parseSource_pad {v : Vocabulary} (hv : v.HasWords) {source x : Text}
    {comments : List Comment} (hmark : byteOrderMark ∉ source) (hreturn : '\r' ∉ source)
    (hx : IsPadding x comments) (hxreturn : '\r' ∉ x) {pre post : List Token} {next : Token}
    (htokens : tokensOf v source ⟨true, true⟩ = pre ++ next :: post)
    (hpre : ∀ t ∈ pre.getLast?, t.kind ≠ .comment) (file : Text) :
    (significantTokens v (source.pad next.span.start x)).map (Token.relocate .erase) =
        (significantTokens v source).map (Token.relocate .erase) ∧
      (∀ p, parseSource v source file = .ok p →
        ∃ q inserted behind, parseSource v (source.pad next.span.start x) file = .ok q ∧
          q.body.map (Statement.relocate .erase) = p.body.map (Statement.relocate .erase) ∧
          p.comments = commentsOf pre ++ commentsOf (next :: post) ∧
          q.comments = commentsOf pre ++ inserted ++ behind ∧
          inserted.map (Comment.relocate .erase) = comments ∧
          behind.map (Comment.relocate .erase) =
            (commentsOf (next :: post)).map (Comment.relocate .erase)) ∧
      ∀ e, parseSource v source file = .error e →
        ∃ e', parseSource v (source.pad next.span.start x) file = .error e' ∧
          e'.relocate .erase = e.relocate .erase ∧ e'.report.kind = e.report.kind := by
  have hv' := hv.hasNoEmptyWord
  rw [tokensOf_eq_tokens hv'] at htokens
  have hvisible : (Cursor.ofText (normalize source)).visible v =
      pre.filter (·.kind != .blank) ++ (next :: post).filter (·.kind != .blank) := by
    rw [Cursor.visible, htokens, List.filter_append]
  obtain ⟨ts, us, hpadded, hkind, hcomments, hus⟩ :=
    exists_visible_pad hv hmark hreturn hx hxreturn htokens hpre
  have hsame : (significantTokens v (source.pad next.span.start x)).map (Token.relocate .erase) =
      (significantTokens v source).map (Token.relocate .erase) := by
    have hts : ts.filter (·.kind != .comment) = [] := by
      simpa using hkind
    rw [significantTokens_eq hv', significantTokens_eq hv', hpadded, hvisible]
    simp only [List.filter_append, List.map_append, hts, List.append_nil,
      filter_relocate .erase (· != .comment), hus]
  have hresult := parseSource_relocate_congr hv' .erase file hsame
  refine ⟨hsame, ?_, ?_⟩
  · intro p hp
    cases hq : parseSource v (source.pad next.span.start x) file with
    | error e => simp [hp, hq, relocateResult, Except.map] at hresult
    | ok q =>
      rw [hp, hq] at hresult
      have hpcomments := comments_of_parseSource hv' hp
      have hqcomments := comments_of_parseSource hv' hq
      simp only [hvisible, commentsOf_append, commentsOf_filter_blank] at hpcomments
      simp only [hpadded, commentsOf_append, commentsOf_filter_blank] at hqcomments
      refine ⟨q, _, _, rfl, Except.ok.inj hresult, hpcomments, hqcomments, hcomments, ?_⟩
      rw [← commentsOf_relocate, hus, commentsOf_relocate, commentsOf_filter_blank]
  · intro e he
    cases hq : parseSource v (source.pad next.span.start x) file with
    | ok q => simp [he, hq, relocateResult, Except.map] at hresult
    | error e' =>
      rw [he, hq] at hresult
      have herror : e'.relocate .erase = e.relocate .erase := Except.error.inj hresult
      have hfault : e'.fault = e.fault := (ParseError.mk.inj herror).1
      exact ⟨e', rfl, herror, by simp [ParseError.report, ParseError.kind, hfault]⟩

/-- A comment may be put between the keyword and the name of a statement. -/
theorem parseSource_pad_hideAll :
    let source := "hideall\"a\"".toList
    let keyword : Token := ⟨.keyword, "hideall".toList, "hideall".toList, ⟨0, 7, ⟨1, 0⟩, ⟨1, 7⟩⟩⟩
    let name : Token := ⟨.string, ['a'], "\"a\"".toList, ⟨7, 10, ⟨1, 7⟩, ⟨1, 10⟩⟩⟩
    Vocabulary.default.HasWords ∧ byteOrderMark ∉ source ∧ '\r' ∉ source ∧
      IsPadding "#b\n".toList [.ofBody ['b']] ∧ '\r' ∉ "#b\n".toList ∧
      (∃ post, tokensOf .default source ⟨true, true⟩ = [keyword] ++ name :: post) ∧
      (∀ t ∈ [keyword].getLast?, t.kind ≠ .comment) ∧
      ∃ q inserted behind, parseSource .default (Text.pad source 7 "#b\n".toList) [] = .ok q ∧
        q.comments = inserted ++ behind ∧
        inserted.map (Comment.relocate .erase) = [.ofBody ['b']] := by
  intro source keyword name
  have hmark : byteOrderMark ∉ source := by
    decide
  have hreturn : '\r' ∉ source := by
    decide
  have hx : IsPadding "#b\n".toList [.ofBody ['b']] :=
    .comment (show '\n' ∉ ['b'] by decide) .nil
  have hxreturn : '\r' ∉ "#b\n".toList := by
    decide
  have htokens : tokensOf .default source ⟨true, true⟩ =
      [keyword] ++ name :: (tokensOf .default source ⟨true, true⟩).drop 2 := by
    decide +kernel
  have hpre : ∀ t ∈ [keyword].getLast?, t.kind ≠ .comment := by
    decide
  have hok : (parseSource .default source []).isOk = true := by
    decide +kernel
  refine ⟨Vocabulary.hasWords_default, hmark, hreturn, hx, hxreturn, ⟨_, htokens⟩, hpre, ?_⟩
  rcases exists_parseSource_of_isOk hok with ⟨p, hp⟩
  obtain ⟨q, inserted, behind, hq, -, -, hcomments, hinserted, -⟩ :=
    (parseSource_pad Vocabulary.hasWords_default hmark hreturn hx hxreturn htokens hpre []).2.1 p hp
  exact ⟨q, inserted, behind, hq, hcomments, hinserted⟩

end RaidTimeline
