import RaidTimeline.Proofs.Lookahead
import RaidTimeline.Proofs.Positions

/-!
# Views of a token stream

The tokens of a source text can be listed with comments and layout or without them, pulled from a
generator as they are needed, asked for one by one, or taken all at once from a lexer that has not
been used.  All of these show one stream of tokens and stop at the same token.

Main results:

- Definition {lit}`Lexer.Yields`: the first tokens that are pulled from a generator.
- Theorem {lit}`Lexer.yields_iff`: they are those that a view shows first.
- Theorem {lit}`Lexer.collectAll_fst`: what a lexer hands out while there is text left.
- Definition {lit}`Lexer.performAll`: a lexer that is also asked for everything at once.
- Theorem {lit}`Lexer.allTokens_eq_none_iff`: everything is refused exactly by lexers that are not
  fresh.
- Theorem {lit}`Lexer.views_show_one_stream`: all views show one stream.
-/

namespace RaidTimeline

namespace Lexer

variable {v : Vocabulary} {source : Text} {view : View} {l l' : Lexer} {n : Nat} {ts : List Token}

/-! ## Generators -/

/-- The request of a generator for its next token: a view without layout skips it. -/
def View.request (view : View) (l : Lexer) : Token × Lexer :=
  if view.layout then l.nextRaw else l.next

/-- The tokens that come when a generator is asked for some, and the lexer behind them.  Comments
that are not to be shown are passed, and nothing comes behind a token that nothing can follow.
Nothing is read before it is asked for. -/
inductive Yields (view : View) : Lexer → Nat → List Token → Lexer → Prop where
  | stop (l : Lexer) : Yields view l 0 [] l
  | hide {l m l' : Lexer} {t : Token} {n : Nat} {ts : List Token} :
      view.request l = (t, m) → t.kind = .comment → view.comments = false →
        Yields view m (n + 1) ts l' → Yields view l (n + 1) ts l'
  | last {l l' : Lexer} {t : Token} {n : Nat} :
      view.request l = (t, l') → t.isLast = true → Yields view l (n + 1) [t] l'
  | more {l m l' : Lexer} {t : Token} {n : Nat} {ts : List Token} :
      view.request l = (t, m) → (t.kind = .comment → view.comments = true) → t.isLast = false →
        Yields view m n ts l' → Yields view l (n + 1) (t :: ts) l'

namespace Yields

/-- What comes is determined by the first request. -/
theorem congr {k : Lexer} (h : Yields view l (n + 1) ts l')
    (hrequest : view.request k = view.request l) : Yields view k (n + 1) ts l' := by
  cases h with
  | hide heq hkind hcomments hrest => exact .hide (hrequest.trans heq) hkind hcomments hrest
  | last heq hlast => exact .last (hrequest.trans heq) hlast
  | more heq hcomment hlast hrest => exact .more (hrequest.trans heq) hcomment hlast hrest

/-- There is only one way to go on. -/
theorem unique {ts' : List Token} {l'' : Lexer} (h : Yields view l n ts l')
    (h' : Yields view l n ts' l'') : ts = ts' ∧ l' = l'' := by
  induction h generalizing ts' l'' with
  | stop =>
    cases h'
    exact ⟨rfl, rfl⟩
  | hide heq hkind hcomments _ ih =>
    cases h' with
    | hide heq' _ _ hrest =>
      cases heq.symm.trans heq'
      exact ih hrest
    | last heq' hlast =>
      cases heq.symm.trans heq'
      simp [Token.isLast, hkind] at hlast
    | more heq' hcomment _ _ =>
      cases heq.symm.trans heq'
      simp [hcomment hkind] at hcomments
  | last heq hlast =>
    cases h' with
    | hide heq' hkind _ _ =>
      cases heq.symm.trans heq'
      simp [Token.isLast, hkind] at hlast
    | last heq' _ =>
      cases heq.symm.trans heq'
      exact ⟨rfl, rfl⟩
    | more heq' _ hlast' _ =>
      cases heq.symm.trans heq'
      simp [hlast] at hlast'
  | more heq hcomment hlast _ ih =>
    cases h' with
    | hide heq' hkind hcomments _ =>
      cases heq.symm.trans heq'
      simp [hcomment hkind] at hcomments
    | last heq' hlast' =>
      cases heq.symm.trans heq'
      simp [hlast] at hlast'
    | more heq' _ _ hrest =>
      cases heq.symm.trans heq'
      rcases ih hrest with ⟨rfl, rfl⟩
      exact ⟨rfl, rfl⟩

/-- A generator with comments and without layout asks for one token after the other. -/
theorem eq_handedOut (h : Yields ⟨true, false⟩ l n ts l') :
    ts = l.handedOut (List.replicate ts.length .next) := by
  induction h with
  | stop => rfl
  | hide _ _ hcomments => contradiction
  | last heq =>
    rw [List.length_singleton, List.replicate_one, handedOut_next]
    exact congrArg (· :: []) (congrArg Prod.fst heq).symm
  | more heq _ _ _ ih =>
    rw [List.length_cons, List.replicate_succ, handedOut_next]
    rw [View.request, if_neg (by decide)] at heq
    rw [heq, ← ih]

end Yields

/-- Where there is no layout, or where it is shown, a generator asks for the next token. -/
theorem View.request_eq_nextRaw (h : l.nextRaw.1.kind = .blank → view.layout = true) :
    view.request l = l.nextRaw := by
  unfold View.request
  split
  · rfl
  · next hlayout =>
    rcases l.nextRaw_cases with heq | ⟨hkind, -⟩
    · exact heq.symm
    · exact absurd (h hkind) hlayout

/-- Layout that is not shown does not change what a generator asks for. -/
theorem View.request_nextRaw (hpending : l.pending = none) (hkind : l.nextRaw.1.kind = .blank)
    (hlayout : view.layout = false) : view.request l = view.request l.nextRaw.2 := by
  have hkept : l.KeepsNoLayout := by simp [KeepsNoLayout, hpending]
  rw [View.request, View.request, hlayout]
  rcases l.nextRaw_cases with heq | ⟨-, heq⟩
  · rw [heq] at hkind
    exact absurd hkind hkept.kind_next
  · exact heq.symm

/-- Collecting the tokens of a view pulls them from a generator. -/
theorem yields_collect {fuel : Nat} (hv : l.vocabulary.HasNoEmptyWord) (hpending : l.pending = none)
    (hfuel : (l.cursor.tokens l.vocabulary).length ≤ fuel) (view : View) (n : Nat) :
    Yields view l n (collect view fuel n l).1 (collect view fuel n l).2 := by
  -- Collecting reads layout that is not shown, and a generator never sees it: the two are together
  -- again at the token behind it.
  induction fuel generalizing n l with
  | zero =>
    have := List.length_pos_iff.mpr (l.cursor.tokens_ne_nil l.vocabulary)
    omega
  | succ fuel ih =>
    cases n with
    | zero => exact .stop l
    | succ n =>
      have hrest : l.nextRaw.1.isLast = false → ∀ n, Yields view l.nextRaw.2 n
          (collect view fuel n l.nextRaw.2).1 (collect view fuel n l.nextRaw.2).2 := by
        intro hlast n
        rw [nextRaw_eq hpending] at hlast ⊢
        rw [Cursor.tokens_of_not_isLast hv hlast, List.length_cons] at hfuel
        exact ih (l := { l with cursor := (l.cursor.scan l.vocabulary).2 }) hv hpending
          (Nat.le_of_succ_le_succ hfuel) n
      rw [collect]
      cases hlast : l.nextRaw.1.isLast with
      | true =>
        have hrequest : view.request l = l.nextRaw := by
          refine View.request_eq_nextRaw fun hkind => ?_
          simp [Token.isLast, hkind] at hlast
        simp only [view.shows_of_isLast hlast, hlast, if_true]
        exact .last hrequest hlast
      | false =>
        simp only [hlast, Bool.false_eq_true, if_false]
        cases hshows : view.shows l.nextRaw.1 with
        | true =>
          have hshown := hshows
          simp only [View.shows, Bool.and_eq_true, Bool.or_eq_true, bne_iff_ne] at hshown
          have hrequest : view.request l = l.nextRaw :=
            View.request_eq_nextRaw fun hkind => hshown.2.resolve_left (not_not_intro hkind)
          exact .more hrequest (fun hkind => hshown.1.resolve_left (not_not_intro hkind)) hlast
            (hrest hlast n)
        | false =>
          simp only [Bool.false_eq_true, if_false]
          by_cases hkind : l.nextRaw.1.kind = .blank
          · have hlayout : view.layout = false := by
              simpa [View.shows, hkind] using hshows
            exact (hrest hlast (n + 1)).congr (View.request_nextRaw hpending hkind hlayout)
          · have hcomment : l.nextRaw.1.kind = .comment ∧ view.comments = false := by
              simpa [View.shows, hkind] using hshows
            exact .hide (View.request_eq_nextRaw fun h => absurd h hkind) hcomment.1 hcomment.2
              (hrest hlast (n + 1))

/-- The tokens that come from a fresh generator are the first that the view shows, and as many as
are asked for are read. -/
theorem yields_iff (hv : v.HasNoEmptyWord) :
    Yields view (ofSource v source) n ts l ↔ (ofSource v source).take view n = (ts, l) := by
  have hyields : Yields view (ofSource v source) n ((ofSource v source).take view n).1
      ((ofSource v source).take view n).2 :=
    yields_collect hv rfl (Nat.le_trans (length_tokens_le_bound _) (Nat.le_add_right _ n)) view n
  constructor
  · intro h
    rcases h.unique hyields with ⟨rfl, rfl⟩
    rfl
  · intro h
    rwa [h] at hyields

/-- Once nothing can follow, it does not matter how many tokens are asked for. -/
theorem Yields.of_isLast (h : Yields view l n ts l') {m : Nat} (hm : ts.length ≤ m)
    (hlast : ∃ t ∈ ts.getLast?, t.isLast = true) : Yields view l m ts l' := by
  induction h generalizing m with
  | stop => simp at hlast
  | hide heq hkind hcomments hrest ih =>
    cases m with
    | zero =>
      obtain rfl := List.length_eq_zero_iff.mp (Nat.le_zero.mp hm)
      simp at hlast
    | succ m => exact .hide heq hkind hcomments (ih hm hlast)
  | last heq hend =>
    cases m with
    | zero => simp at hm
    | succ m => exact .last heq hend
  | @more l m' l' t n ts heq hcomment hend hrest ih =>
    cases m with
    | zero => simp at hm
    | succ m =>
      refine .more heq hcomment hend (ih (Nat.le_of_succ_le_succ hm) ?_)
      cases ts with
      | nil => simp [hend] at hlast
      | cons u ts => simpa [List.getLast?_cons_cons] using hlast

/-- Every view ends with the only token that nothing can follow. -/
theorem tokensOf_eq_concat (hv : v.HasNoEmptyWord) (source : Text) (view : View) :
    ∃ body last, tokensOf v source view = body ++ [last] ∧ last.isLast = true ∧
      ∀ t ∈ body, t.isLast = false := by
  rcases Cursor.tokens_eq_concat hv (Cursor.ofText (normalize source)) with
    ⟨body, last, htokens, hlast, hbody⟩
  refine ⟨body.filter view.shows, last, ?_, hlast, fun t ht => hbody t (List.mem_filter.mp ht).1⟩
  rw [tokensOf_eq_filter hv, htokens, List.filter_append,
    List.filter_cons_of_pos (view.shows_of_isLast hlast), List.filter_nil]

/-- A generator that is asked for more tokens than the view shows gives all of them, and stops where
their list does. -/
theorem take_eq_tokenize (hv : v.HasNoEmptyWord) (hn : (tokensOf v source view).length ≤ n) :
    (ofSource v source).take view n = (ofSource v source).tokenize view := by
  have hfst : ((ofSource v source).take view n).1 = tokensOf v source view := by
    rw [take_fst hv, List.take_of_length_le hn]
  have hlist : Yields view (ofSource v source) (ofSource v source).bound (tokensOf v source view)
      ((ofSource v source).tokenize view).2 :=
    yields_collect hv rfl (length_tokens_le_bound _) view (ofSource v source).bound
  have hend : ∃ t ∈ (tokensOf v source view).getLast?, t.isLast = true := by
    rcases tokensOf_eq_concat hv source view with ⟨body, last, htokens, hlast, -⟩
    exact ⟨last, by simp [htokens], hlast⟩
  exact (yields_iff hv).mp (hlist.of_isLast hn hend)

/-- The tokens that are asked for one by one are those of the view with comments and without
layout. -/
theorem handedOut_ofSource (hv : v.HasNoEmptyWord) (source : Text) :
    (ofSource v source).handedOut
        (List.replicate (tokensOf v source ⟨true, false⟩).length .next) =
      tokensOf v source ⟨true, false⟩ := by
  have htake := take_eq_tokenize (n := (tokensOf v source ⟨true, false⟩).length) hv (Nat.le_refl _)
  exact ((yields_iff hv).mpr htake).eq_handedOut.symm

/-! ## Everything at once -/

/-- While there is text left, a lexer hands out all of its tokens but the end.  The fuel is enough
if it is enough for all tokens. -/
theorem collectAll_fst {fuel : Nat} (hv : l.vocabulary.HasNoEmptyWord) (hpending : l.pending = none)
    (hfuel : (l.cursor.tokens l.vocabulary).length ≤ fuel) :
    (collectAll fuel l).1 = (l.cursor.tokens l.vocabulary).filter (·.kind != .eof) := by
  induction fuel generalizing l with
  | zero =>
    have := List.length_pos_iff.mpr (l.cursor.tokens_ne_nil l.vocabulary)
    omega
  | succ fuel ih =>
    rw [collectAll, hasNext, hpending]
    rcases l.cursor.scan_cases l.vocabulary with
      ⟨hrest, hscan⟩ | ⟨hrest, -, hscan⟩ | ⟨kind, n, hrest, hfound, hscan⟩
    · -- There is no text left exactly if the end comes next.
      have hlast : (l.cursor.scan l.vocabulary).1.isLast = true := by rw [hscan]; rfl
      rw [Cursor.tokens_of_isLast hv hlast, hscan, hrest]
      rfl
    · have hlast : (l.cursor.scan l.vocabulary).1.isLast = true := by rw [hscan]; rfl
      rw [Cursor.tokens_of_isLast hv hlast, nextRaw_eq hpending, hscan]
      simp [hrest, Cursor.emptyToken]
    · have hkind := ne_last_of_recognise? hfound
      have hlast : (l.cursor.scan l.vocabulary).1.isLast = false := by
        simp [hscan, Token.isLast, hkind]
      rw [Cursor.tokens_of_not_isLast hv hlast] at hfuel ⊢
      have hbehind := ih (l := { l with cursor := (l.cursor.scan l.vocabulary).2 }) hv hpending
        (Nat.le_of_succ_le_succ hfuel)
      simp only [nextRaw_eq hpending, hbehind]
      simp [hrest, hscan, hkind]

/-! ## Lexers in use -/

/-- What a lexer that is in use can be asked for: tokens, as many as a request is for, or every
token at once, which only a fresh lexer answers. -/
inductive Step where
  | request (r : Request)
  | all
deriving DecidableEq, Repr

/-- The tokens that a lexer answers with, or its refusal, and the lexer behind them. -/
def perform (l : Lexer) : Step → Option (List Token) × Lexer
  | .request r => (some (l.serve r).1, (l.serve r).2)
  | .all =>
      match l.allTokens with
      | some (ts, l) => (some ts, l)
      | none => (none, l)

/-- The answers of a lexer to several steps, one after the other. -/
def performAll (l : Lexer) : List Step → List (Option (List Token)) × Lexer
  | [] => ([], l)
  | s :: ss =>
      ((l.perform s).1 :: ((l.perform s).2.performAll ss).1, ((l.perform s).2.performAll ss).2)

/-- A lexer is one of a source text with some tables: it is at a place of that text. -/
structure IsOf (l : Lexer) (v : Vocabulary) (source : Text) : Prop where
  vocabulary : l.vocabulary = v
  isIn : l.IsIn (normalize source)

namespace IsOf

theorem ofSource (v : Vocabulary) (source : Text) : (ofSource v source).IsOf v source :=
  ⟨rfl, isIn_ofSource v source⟩

theorem nextRaw (h : l.IsOf v source) : l.nextRaw.2.IsOf v source := by
  refine ⟨?_, h.isIn.serves_nextRaw.2⟩
  rw [← h.vocabulary]
  rcases l with ⟨w, c, _ | t⟩ <;> rfl

theorem next (h : l.IsOf v source) : l.next.2.IsOf v source := by
  refine ⟨?_, h.isIn.serves_next.2⟩
  rw [← h.vocabulary]
  rcases l with ⟨w, c, _ | t⟩ <;> rfl

theorem peek (h : l.IsOf v source) : l.peek.2.IsOf v source :=
  ⟨h.next.vocabulary, h.isIn.serves_peek.2⟩

/-- Tokens of a view are handed out one by one. -/
theorem collect (h : l.IsOf v source) (view : View) (fuel limit : Nat) :
    (collect view fuel limit l).2.IsOf v source := by
  induction fuel generalizing limit l with
  | zero => exact h
  | succ fuel ih =>
    cases limit with
    | zero => exact h
    | succ limit =>
      simp only [Lexer.collect]
      split_ifs
      · exact h.nextRaw
      · exact ih h.nextRaw limit
      · exact ih h.nextRaw (limit + 1)

/-- So are those that are taken at once. -/
theorem collectAll (h : l.IsOf v source) (fuel : Nat) :
    (collectAll fuel l).2.IsOf v source := by
  induction fuel generalizing l with
  | zero => exact h
  | succ fuel ih =>
    simp only [Lexer.collectAll]
    split_ifs
    · exact h.nextRaw
    · exact ih h.nextRaw
    · exact h

/-- A lexer stays one of its source text, whatever it is asked for. -/
theorem perform (h : l.IsOf v source) (s : Step) : (l.perform s).2.IsOf v source := by
  cases s with
  | request r =>
    cases r with
    | peek => exact h.peek
    | next => exact h.next
    | nextRaw => exact h.nextRaw
    | take view limit => exact h.collect view _ limit
    | tokenize view => exact h.collect view _ _
  | all =>
    rw [Lexer.perform, allTokens]
    by_cases hfresh : l.isFresh = true
    · rw [if_pos hfresh]
      exact h.collectAll l.bound
    · rw [if_neg hfresh]
      exact h

/-- Whatever is done with it, a lexer stays in its source text. -/
theorem performAll (h : l.IsOf v source) (steps : List Step) :
    (l.performAll steps).2.IsOf v source := by
  induction steps generalizing l with
  | nil => exact h
  | cons s steps ih => exact ih (h.perform s)

end IsOf

/-- Whether a lexer differs from a fresh one in its offset, its line, its column or the token that
it keeps. -/
def Differs (l fresh : Lexer) : Prop :=
  l.cursor.offset ≠ fresh.cursor.offset ∨ l.cursor.position.line ≠ fresh.cursor.position.line ∨
    l.cursor.position.column ≠ fresh.cursor.position.column ∨ l.pending ≠ fresh.pending

/-- Every token is refused exactly by a lexer that differs from a fresh one. -/
theorem allTokens_eq_none_iff (l : Lexer) (v : Vocabulary) (source : Text) :
    l.allTokens = none ↔ l.Differs (ofSource v source) := by
  have hfresh : l.isFresh = true ↔ ¬ l.Differs (ofSource v source) := by
    rcases l with ⟨w, ⟨offset, ⟨line, column⟩, before, rest⟩, pending⟩
    simp [isFresh, Differs, ofSource, Cursor.ofText, Position.start, and_assoc]
  rw [allTokens]
  split
  · next h => simp [hfresh.mp h]
  · next h => simp [not_not.mp (mt hfresh.mpr h)]

/-- A lexer of a source text that does not differ from a fresh one is the fresh one. -/
theorem IsOf.differs_iff (h : l.IsOf v source) :
    l.Differs (Lexer.ofSource v source) ↔ l ≠ Lexer.ofSource v source := by
  constructor
  · rintro hdiffers rfl
    simp [Differs] at hdiffers
  · rcases h with ⟨rfl, ⟨passed, rest, htext, hcursor⟩, -⟩
    rcases l with ⟨w, c, pending⟩
    obtain rfl : c = .between passed rest := hcursor
    -- A place of the text whose offset is that of its start is its start.
    contrapose!
    simp only [Differs, not_or, not_not]
    rintro ⟨hoffset, -, -, rfl⟩
    obtain rfl : passed = [] := List.length_eq_zero_iff.mp hoffset
    rw [Lexer.ofSource, htext]
    rfl

/-! ## One stream -/

/-- All views of a source text show one stream of tokens: every view is a part of it, and so is what
a generator or a list of such a view gives; everything at once is all of it but the end; the tokens
that are asked for one by one are those of the view without layout, and none of them but the last
stops the asking.  In whatever way a lexer has been used before, everything at once is refused
exactly if the lexer differs from a fresh one.  Otherwise it is the fresh one. -/
structure ShowsOneStream (v : Vocabulary) (source : Text) : Prop where
  filtered : ∀ view, tokensOf v source view =
    (tokensOf v source ⟨true, true⟩).filter fun t =>
      (t.kind != .comment || view.comments) && (t.kind != .blank || view.layout)
  generated : ∀ view n ts l,
    Yields view (ofSource v source) n ts l ↔ (ofSource v source).take view n = (ts, l)
  pulled : ∀ view n, ((ofSource v source).take view n).1 = (tokensOf v source view).take n
  listed : ∀ view n, (tokensOf v source view).length ≤ n →
    (ofSource v source).take view n = (ofSource v source).tokenize view
  whole : ∃ l, (ofSource v source).allTokens =
    some ((tokensOf v source ⟨true, true⟩).filter (·.kind != .eof), l)
  asked : ∃ body last, tokensOf v source ⟨true, false⟩ = body ++ [last] ∧ last.isLast = true ∧
    (∀ t ∈ body, t.isLast = false) ∧
      (ofSource v source).handedOut (List.replicate (body.length + 1) .next) = body ++ [last]
  refused : ∀ steps, let l := ((ofSource v source).performAll steps).2
    (l.allTokens = none ↔ l.Differs (ofSource v source)) ∧
      (l.allTokens = none → ∀ later, l.performAll (.all :: later) =
        (none :: (l.performAll later).1, (l.performAll later).2)) ∧
      (l.allTokens ≠ none → l = ofSource v source)

/-- With tables without the empty word, all views of a source text show one stream. -/
theorem views_show_one_stream (hv : v.HasNoEmptyWord) (source : Text) :
    ShowsOneStream v source where
  filtered := by
    intro view
    rw [tokensOf_eq_tokens hv]
    exact tokensOf_eq_filter hv source view
  generated := fun view n ts l => yields_iff hv
  pulled := take_fst hv source
  listed := fun view n => take_eq_tokenize hv
  whole := by
    have hfst : (collectAll (ofSource v source).bound (ofSource v source)).1 =
        (tokensOf v source ⟨true, true⟩).filter (·.kind != .eof) := by
      rw [tokensOf_eq_tokens hv]
      exact collectAll_fst hv rfl (length_tokens_le_bound _)
    exact ⟨_, congrArg some (Prod.ext hfst rfl)⟩
  asked := by
    rcases tokensOf_eq_concat hv source ⟨true, false⟩ with ⟨body, last, htokens, hlast, hbody⟩
    have hasked := handedOut_ofSource hv source
    rw [htokens, List.length_append, List.length_singleton] at hasked
    exact ⟨body, last, htokens, hlast, hbody, hasked⟩
  refused := by
    intro steps l
    have hof : l.IsOf v source := (IsOf.ofSource v source).performAll steps
    refine ⟨l.allTokens_eq_none_iff v source, ?_, ?_⟩
    · intro hnone later
      rw [performAll, perform, hnone]
    · rw [Ne, l.allTokens_eq_none_iff v source, hof.differs_iff, not_not]
      exact id

/-- A comment, layout at the end of a line and unreadable text are in one stream. -/
theorem views_show_one_stream_unreadable :
    Vocabulary.default.HasNoEmptyWord ∧
      ShowsOneStream .default "# a\r\n1 \"n\" # b\n  @x".toList :=
  ⟨Vocabulary.hasNoEmptyWord_default,
    views_show_one_stream Vocabulary.hasNoEmptyWord_default _⟩

end Lexer

end RaidTimeline
