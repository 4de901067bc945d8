import Mathlib.Data.List.Chain
import RaidTimeline.Proofs.Recognition

/-!
# The tokens of a text

The tokens from a place on are a list: it follows the scans as long as they move.  Every way of
reading many tokens shows a part of this list, and the list loses nothing of the text.

Main results:

- Definition {lit}`Cursor.tokens`: the tokens from a place on.
- Theorem {lit}`tokensOf_eq_filter`: what a view shows of a source text.
- Definition {lit}`Covers`: a list of tokens covers a text without loss.
- Theorem {lit}`tokensOf_covers`: the tokens of a source text cover it.
-/

namespace RaidTimeline

namespace Cursor

/-! ## Places in a text -/

/-- The place between two pieces of a text. -/
def between (passed rest : Text) : Cursor :=
  ⟨passed.length, Position.start.after passed, passed.getLast?, rest⟩

@[simp]
theorem between_rest (passed rest : Text) : (between passed rest).rest = rest :=
  rfl

@[simp]
theorem between_offset (passed rest : Text) : (between passed rest).offset = passed.length :=
  rfl

/-- The first place of a text lies in front of all of it. -/
theorem ofText_eq_between (text : Text) : ofText text = between [] text :=
  rfl

/-- Characters that are passed move from one piece of the text to the other. -/
@[simp]
theorem between_advance (passed rest : Text) (n : Nat) :
    (between passed rest).advance n = between (passed ++ rest.take n) (rest.drop n) := by
  simp [between, advance, lastOr, List.getLast?_append]

/-! ## The tokens from a place on -/

/-- The tokens from a place on, up to and including the first without width. -/
def tokens (v : Vocabulary) (c : Cursor) : List Token :=
  if 0 < (c.scan v).1.span.width then (c.scan v).1 :: tokens v (c.scan v).2 else [(c.scan v).1]
termination_by c.rest.length
decreasing_by
  have := c.length_rest_scan v
  omega

/-- There is always a token. -/
theorem tokens_ne_nil (v : Vocabulary) (c : Cursor) : c.tokens v ≠ [] := by
  rw [tokens]
  split <;> simp

/-- Where nothing can follow, there is one token. -/
theorem tokens_of_isLast {v : Vocabulary} (hv : v.HasNoEmptyWord) {c : Cursor}
    (h : (c.scan v).1.isLast = true) : c.tokens v = [(c.scan v).1] := by
  rw [tokens, if_neg]
  simpa using (isLast_scan_iff hv c).mp h

/-- At the end of a text there is one token. -/
theorem tokens_nil (v : Vocabulary) (passed : Text) :
    (between passed []).tokens v = [(between passed []).emptyToken .eof] := by
  rw [tokens]
  simp [scan, emptyToken, spanTo, Span.width]

/-- Where something can follow, the first token is followed by those behind it. -/
theorem tokens_of_not_isLast {v : Vocabulary} (hv : v.HasNoEmptyWord) {c : Cursor}
    (h : (c.scan v).1.isLast = false) :
    c.tokens v = (c.scan v).1 :: (c.scan v).2.tokens v := by
  rw [tokens, if_pos]
  have hwidth := mt (isLast_scan_iff hv c).mpr
  simp only [h, Bool.false_eq_true, not_false_eq_true, forall_const] at hwidth
  omega

/-- A scan goes on in the text behind a place. -/
theorem rest_scan_suffix (v : Vocabulary) (c : Cursor) : (c.scan v).2.rest <:+ c.rest := by
  rcases c.scan_cases v with ⟨-, hscan⟩ | ⟨-, -, hscan⟩ | ⟨kind, n, -, -, hscan⟩
  · simp [hscan]
  · simp [hscan]
  · simpa [hscan] using List.drop_suffix n c.rest

/-- Every token from a place on is scanned somewhere behind it. -/
theorem exists_scan_of_mem_tokens {v : Vocabulary} {c : Cursor} {t : Token}
    (ht : t ∈ c.tokens v) : ∃ d : Cursor, d.rest <:+ c.rest ∧ (d.scan v).1 = t := by
  fun_induction tokens v c with
  | case1 c hwidth ih =>
    rcases List.mem_cons.mp ht with rfl | ht
    · exact ⟨c, List.suffix_rfl, rfl⟩
    · rcases ih ht with ⟨d, hd, rfl⟩
      exact ⟨d, hd.trans (c.rest_scan_suffix v), rfl⟩
  | case2 c hwidth => exact ⟨c, List.suffix_rfl, (List.mem_singleton.mp ht).symm⟩

/-- There are not more tokens than characters, apart from the last token. -/
theorem length_tokens_le (v : Vocabulary) (c : Cursor) :
    (c.tokens v).length ≤ c.rest.length + 1 := by
  fun_induction tokens v c with
  | case1 c hwidth ih =>
    have := c.length_rest_scan v
    simp only [List.length_cons]
    omega
  | case2 c hwidth => simp

/-- The last token of a list of tokens, and no other, is one that nothing can follow. -/
theorem tokens_eq_concat {v : Vocabulary} (hv : v.HasNoEmptyWord) (c : Cursor) :
    ∃ body last, c.tokens v = body ++ [last] ∧ last.isLast = true ∧
      ∀ t ∈ body, t.isLast = false := by
  fun_induction tokens v c with
  | case1 c hwidth ih =>
    rcases ih with ⟨body, last, htokens, hlast, hbody⟩
    refine ⟨(c.scan v).1 :: body, last, by rw [htokens, List.cons_append], hlast, ?_⟩
    have hfirst : (c.scan v).1.isLast = false := by
      rw [← Bool.not_eq_true, isLast_scan_iff hv c]
      omega
    simpa [hfirst] using hbody
  | case2 c hwidth =>
    refine ⟨[], (c.scan v).1, rfl, ?_, by simp⟩
    rw [isLast_scan_iff hv c]
    omega

end Cursor

/-- Behind the only token that nothing can follow stands nothing. -/
theorem eq_nil_of_isLast {body us vs : List Token} {last t : Token}
    (hbody : ∀ t ∈ body, t.isLast = false) (h : body ++ [last] = us ++ t :: vs)
    (ht : t.isLast = true) : vs = [] := by
  rcases List.eq_nil_or_concat vs with rfl | ⟨ws, w, rfl⟩
  · rfl
  · have hsplit : body ++ [last] = (us ++ t :: ws) ++ [w] := by
      rw [h]
      simp
    have hmem : t ∈ body := by
      rw [(List.append_inj' hsplit rfl).1]
      simp
    rw [hbody t hmem] at ht
    contradiction

/-! ## Reading many tokens -/

namespace Lexer

/-- A lexer that keeps no token scans for the next one where it is. -/
theorem nextRaw_eq {l : Lexer} (h : l.pending = none) :
    l.nextRaw = ((l.cursor.scan l.vocabulary).1,
      { l with cursor := (l.cursor.scan l.vocabulary).2 }) := by
  simp [nextRaw, h]

/-- Every view shows the last token. -/
theorem View.shows_of_isLast (view : View) {t : Token} (h : t.isLast = true) :
    view.shows t = true := by
  rcases Token.isLast_iff.mp h with h | h <;> simp [View.shows, h]

/-- The widest view shows every token. -/
@[simp]
theorem View.shows_all (t : Token) : View.shows ⟨true, true⟩ t = true := by
  simp [View.shows]

/-- Collecting tokens gives the first ones that the view shows.  The fuel is enough if it is
enough for all tokens. -/
theorem collect_fst {view : View} {fuel limit : Nat} {l : Lexer}
    (hv : l.vocabulary.HasNoEmptyWord) (hpending : l.pending = none)
    (hfuel : (l.cursor.tokens l.vocabulary).length ≤ fuel) :
    (collect view fuel limit l).1 =
      ((l.cursor.tokens l.vocabulary).filter view.shows).take limit := by
  induction fuel generalizing limit l with
  | zero =>
    have := List.length_pos_iff.mpr (l.cursor.tokens_ne_nil l.vocabulary)
    omega
  | succ fuel ih =>
    cases limit with
    | zero => simp [collect]
    | succ limit =>
      simp only [collect, nextRaw_eq hpending]
      cases hlast : (l.cursor.scan l.vocabulary).1.isLast with
      | true =>
        have hshows := view.shows_of_isLast hlast
        simp [Cursor.tokens_of_isLast hv hlast, hshows]
      | false =>
        rw [Cursor.tokens_of_not_isLast hv hlast] at hfuel ⊢
        simp only [List.length_cons, Nat.add_le_add_iff_right] at hfuel
        cases hshows : view.shows (l.cursor.scan l.vocabulary).1 with
        | true =>
          have hrest : (collect view fuel limit
              { l with cursor := (l.cursor.scan l.vocabulary).2 }).1 = _ :=
            ih hv hpending hfuel
          simp [hshows, hrest]
        | false =>
          have hrest : (collect view fuel (limit + 1)
              { l with cursor := (l.cursor.scan l.vocabulary).2 }).1 = _ :=
            ih hv hpending hfuel
          simp [hshows, hrest]

/-- The usual fuel is enough for all tokens. -/
theorem length_tokens_le_bound (l : Lexer) : (l.cursor.tokens l.vocabulary).length ≤ l.bound := by
  have hlength := l.cursor.length_tokens_le l.vocabulary
  simp only [bound, remaining]
  omega

end Lexer

/-- A view of a source text shows a part of its tokens. -/
theorem tokensOf_eq_filter {v : Vocabulary} (hv : v.HasNoEmptyWord) (source : Text)
    (view : Lexer.View) :
    tokensOf v source view =
      ((Cursor.ofText (normalize source)).tokens v).filter view.shows := by
  have hbound := (Lexer.ofSource v source).length_tokens_le_bound
  have hcollect : (Lexer.collect view (Lexer.ofSource v source).bound
      (Lexer.ofSource v source).bound (Lexer.ofSource v source)).1 = _ :=
    Lexer.collect_fst hv rfl hbound
  rw [tokensOf, Lexer.tokenize, hcollect]
  exact List.take_of_length_le (Nat.le_trans (List.length_filter_le _ _) hbound)

/-- The first tokens of a view are the first of those that it shows. -/
theorem Lexer.take_fst {v : Vocabulary} (hv : v.HasNoEmptyWord) (source : Text) (view : View)
    (n : Nat) : ((ofSource v source).take view n).1 = (tokensOf v source view).take n := by
  have hbound := (ofSource v source).length_tokens_le_bound
  rw [tokensOf_eq_filter hv]
  exact collect_fst hv rfl (Nat.le_trans hbound (Nat.le_add_right _ n))

/-- With layout and comments, a source text shows all of its tokens. -/
theorem tokensOf_eq_tokens {v : Vocabulary} (hv : v.HasNoEmptyWord) (source : Text) :
    tokensOf v source ⟨true, true⟩ = (Cursor.ofText (normalize source)).tokens v := by
  rw [tokensOf_eq_filter hv]
  exact List.filter_eq_self.mpr fun t _ => Lexer.View.shows_all t

/-! ## Nothing is lost -/

/-- The piece of a text that a span covers. -/
def Span.cut (s : Span) (text : Text) : Text := (text.drop s.start).take s.width

/-- A list of tokens covers a text from an offset on: the spans follow each other without gaps,
all tokens but the last hold the text of their spans, and the last one lies at the end of the text
or holds the rest of it. -/
structure Covers (text : Text) (offset : Nat) (ts : List Token) : Prop where
  one_last : ∃ body last, ts = body ++ [last] ∧ last.isLast = true ∧
    ∀ t ∈ body, t.isLast = false
  starts : ∀ t ∈ ts.head?, t.span.start = offset
  contiguous : ts.IsChain fun a b => a.span.stop = b.span.start
  written : ∀ t ∈ ts, t.isLast = false → t.raw ≠ [] ∧ t.span.start < t.span.stop ∧
    t.span.stop ≤ text.length ∧ t.raw = t.span.cut text
  ended : ∀ t ∈ ts, t.kind = .eof → t.span.start = text.length ∧ t.span.stop = text.length
  stuck : ∀ t ∈ ts, t.kind = .unknown →
    t.span.stop = t.span.start ∧ t.raw = text.drop t.span.start ∧ t.raw ≠ []
  whole : ts.flatMap Token.raw = text.drop offset

namespace Covers

/-- The end of a text is covered by its last token. -/
theorem ofEnd (text : Text) : Covers text text.length
    [(Cursor.between text []).emptyToken .eof] := by
  constructor
  case one_last => exact ⟨[], _, rfl, rfl, by simp⟩
  all_goals simp [Cursor.emptyToken, Cursor.spanTo, Token.isLast]

/-- Unreadable text is covered by its one token. -/
theorem ofStuck (passed : Text) {rest : Text} (hrest : rest ≠ []) :
    Covers (passed ++ rest) passed.length
      [(Cursor.between passed rest).emptyToken .unknown] := by
  constructor
  case one_last => exact ⟨[], _, rfl, rfl, by simp⟩
  all_goals simp [Cursor.emptyToken, Cursor.spanTo, Token.isLast, hrest]

/-- A token that holds the text of its span extends a list that covers the text behind it. -/
theorem cons {text : Text} {t : Token} {ts : List Token} (hlast : t.isLast = false)
    (hraw : t.raw = t.span.cut text) (hlt : t.span.start < t.span.stop)
    (hle : t.span.stop ≤ text.length) (hts : Covers text t.span.stop ts) :
    Covers text t.span.start (t :: ts) := by
  have hlength : t.raw.length = t.span.stop - t.span.start := by
    rw [hraw, Span.cut, Span.width, List.length_take, List.length_drop]
    omega
  constructor
  · rcases hts.one_last with ⟨body, last, rfl, hend, hbody⟩
    exact ⟨t :: body, last, rfl, hend, by simpa [hlast] using hbody⟩
  · simp
  · cases ts with
    | nil => exact List.isChain_singleton t
    | cons u us => exact .cons_cons (hts.starts u (by simp)).symm hts.contiguous
  · intro u hu hnot
    rcases List.mem_cons.mp hu with rfl | hu
    · refine ⟨?_, hlt, hle, hraw⟩
      intro hnil
      rw [hnil, List.length_nil] at hlength
      omega
    · exact hts.written u hu hnot
  · intro u hu hkind
    rcases List.mem_cons.mp hu with rfl | hu
    · simp [Token.isLast, hkind] at hlast
    · exact hts.ended u hu hkind
  · intro u hu hkind
    rcases List.mem_cons.mp hu with rfl | hu
    · simp [Token.isLast, hkind] at hlast
    · exact hts.stuck u hu hkind
  · have hdrop : text.drop t.span.stop = (text.drop t.span.start).drop t.span.width := by
      rw [List.drop_drop, Span.width]
      congr 1
      omega
    rw [List.flatMap_cons, hts.whole, hraw, hdrop, Span.cut, List.take_append_drop]

end Covers

/-- The tokens from a place on cover the text behind it. -/
theorem Cursor.tokens_covers {v : Vocabulary} (hv : v.HasNoEmptyWord) (passed rest : Text) :
    Covers (passed ++ rest) passed.length ((between passed rest).tokens v) := by
  -- The list of tokens follows the scans, and every scan shortens what is left to read.
  induction hlength : rest.length using Nat.strongRecOn generalizing passed rest with
  | _ length ih =>
  rcases (between passed rest).scan_cases v with
    ⟨hrest, -⟩ | ⟨hrest, -, hscan⟩ | ⟨kind, n, hrest, hfound, hscan⟩
  · obtain rfl : rest = [] := hrest
    rw [tokens_nil, List.append_nil]
    exact Covers.ofEnd passed
  · have htokens : (between passed rest).tokens v =
        [(between passed rest).emptyToken .unknown] := by
      rw [tokens, hscan]
      simp
    rw [htokens]
    exact Covers.ofStuck passed hrest
  · have hpos := recognise?_pos hv hfound
    have hnonempty : 0 < rest.length := List.length_pos_iff.mpr hrest
    have htaken : (passed ++ rest.take n).length = passed.length + min n rest.length := by
      rw [List.length_append, List.length_take]
    have hlast : ((between passed rest).scan v).1.isLast = false := by
      have hkind := ne_last_of_recognise? hfound
      simp [hscan, Token.isLast, hkind]
    have hshorter : (rest.drop n).length < length := by
      rw [List.length_drop]
      omega
    have hbehind := ih (rest.drop n).length hshorter (passed ++ rest.take n) (rest.drop n) rfl
    rw [List.append_assoc, List.take_append_drop] at hbehind
    rw [tokens_of_not_isLast hv hlast, hscan, between_advance]
    refine Covers.cons (by simpa [hscan] using hlast) ?_ ?_ ?_ hbehind
    · simp [Span.cut, Span.width, spanTo, List.take_eq_take_iff]
    · change passed.length < (passed ++ rest.take n).length
      omega
    · change (passed ++ rest.take n).length ≤ (passed ++ rest).length
      rw [htaken, List.length_append]
      omega

/-- The tokens of a source text, layout and comments included, cover all of it: they lie side by
side, each holds the text of its span, and only the last may hold no text or unreadable text. -/
theorem tokensOf_covers {v : Vocabulary} (hv : v.HasNoEmptyWord) (source : Text) :
    Covers (normalize source) 0 (tokensOf v source ⟨true, true⟩) := by
  rw [tokensOf_eq_tokens hv, Cursor.ofText_eq_between]
  exact Cursor.tokens_covers hv [] (normalize source)

/-- A text with a byte order mark, both kinds of line ends and an open string is covered. -/
theorem tokensOf_covers_openString :
    Vocabulary.default.HasNoEmptyWord ∧
      Covers (normalize "\uFEFF0 \"a\" # b\r\nsync 'c".toList) 0
        (tokensOf .default "\uFEFF0 \"a\" # b\r\nsync 'c".toList ⟨true, true⟩) :=
  ⟨Vocabulary.hasNoEmptyWord_default, tokensOf_covers Vocabulary.hasNoEmptyWord_default _⟩

end RaidTimeline
