import RaidTimeline.Proofs.TokenStream
import RaidTimeline.Timeline.Reader

/-!
# Drafts are fed with tokens

A reader gives the tokens of a lexer to a draft.  What comes of it is decided by the list of the
significant tokens alone: layout and comments have no part in it.

Main results:

- Definition {lit}`feed`: gives the tokens of a list to a draft.
- Definition {lit}`Leads`: a draft becomes another one as tokens are given to it.
- Theorem {lit}`feed_eq_some_iff`: a feed leads to a draft that settles at the next token.
- Definition {lit}`significantTokens`: the tokens of a source text without layout and comments.
- Definition {lit}`Lexer.Awaits`: the tokens that a lexer has still to hand out.
- Theorem {lit}`Cursor.exists_visible_eq`: whatever the tables hold, one token is the last.
- Theorem {lit}`run_of_leads`: a run gives the awaited tokens to a draft until it settles.
- Theorem {lit}`run_outcome_of_leads`: a run that has reached its last token.
- Theorem {lit}`Reader.parse_of_leads`: where reading stops, and what has been found by then.
- Theorem {lit}`parseSource_eq`: how a source text is read is decided by its run.
- Theorem {lit}`parseSource_of_feed`: reading a source text is feeding its significant tokens.
-/

namespace RaidTimeline

/-! ## Feeding a list of tokens -/

/-- How a draft settles at a token, if it is not merely longer. -/
def Verdict.outcome? {σ ρ : Type} (t : Token) : Verdict σ ρ → Option (Except ParseError ρ)
  | .more _ => none
  | .done result => some (.ok result)
  | .before result => some (.ok result)
  | .fault cause => some (.error ⟨cause, t⟩)

section

variable {σ ρ : Type} {accept : σ → Token → Verdict σ ρ}

/-- Gives the tokens of a list to a draft until it settles, and tells how and at which draft;
nothing if the tokens do not suffice. -/
def feed (accept : σ → Token → Verdict σ ρ) (draft : σ) :
    List Token → Option (Except ParseError ρ × σ)
  | [] => none
  | t :: ts =>
      match accept draft t with
      | .more longer => feed accept longer ts
      | verdict => (verdict.outcome? t).map (·, draft)

/-- A draft becomes another one as tokens are given to it. -/
inductive Leads (accept : σ → Token → Verdict σ ρ) : σ → List Token → σ → Prop where
  | refl (draft : σ) : Leads accept draft [] draft
  | step {draft final : σ} {t : Token} {ts : List Token} (longer : σ) :
      accept draft t = .more longer → Leads accept longer ts final →
        Leads accept draft (t :: ts) final

namespace Leads

/-- One token leads to one longer draft. -/
theorem single {draft longer : σ} {t : Token} (h : accept draft t = .more longer) :
    Leads accept draft [t] longer :=
  .step longer h (.refl longer)

theorem trans {a b c : σ} {ts us : List Token} (hab : Leads accept a ts b)
    (hbc : Leads accept b us c) : Leads accept a (ts ++ us) c := by
  induction hab with
  | refl => exact hbc
  | step longer hmore _ ih => exact .step longer hmore (ih hbc)

/-- Tokens in two parts lead through the draft between them. -/
theorem of_append {a c : σ} {ts us : List Token} (h : Leads accept a (ts ++ us) c) :
    ∃ b, Leads accept a ts b ∧ Leads accept b us c := by
  induction ts generalizing a with
  | nil => exact ⟨a, .refl a, h⟩
  | cons t ts ih =>
    cases h with
    | step longer hmore h =>
      rcases ih h with ⟨b, hleads, hrest⟩
      exact ⟨b, .step longer hmore hleads, hrest⟩

/-- What every step keeps is kept by any number of them. -/
theorem invariant (Inv : σ → List Token → Prop)
    (hstep : ∀ {a b us t}, Inv a us → accept a t = .more b → Inv b (us ++ [t]))
    {a b : σ} {us ts : List Token} (ha : Inv a us) (h : Leads accept a ts b) :
    Inv b (us ++ ts) := by
  induction h generalizing us with
  | refl => simpa using ha
  | step longer hmore _ ih => simpa using ih (hstep ha hmore)

/-- A machine that is built on another one follows its steps. -/
theorem lift {σ' ρ' : Type} {accept' : σ' → Token → Verdict σ' ρ'} (f : σ → σ')
    (hstep : ∀ {a b t}, accept a t = .more b → accept' (f a) t = .more (f b))
    {a b : σ} {ts : List Token} (h : Leads accept a ts b) : Leads accept' (f a) ts (f b) := by
  induction h with
  | refl => exact .refl _
  | step longer hmore _ ih => exact .step (f longer) (hstep hmore) ih

end Leads

/-- Tokens that only lead on can be taken off a feed. -/
theorem feed_append {a b : σ} {ts : List Token} (h : Leads accept a ts b) (us : List Token) :
    feed accept a (ts ++ us) = feed accept b us := by
  induction h with
  | refl => rfl
  | step longer hmore _ ih => simp [feed, hmore, ih]

/-- A draft that settles at the first token ends the feed. -/
theorem feed_cons_of_outcome {draft : σ} {t : Token} {outcome : Except ParseError ρ}
    (h : (accept draft t).outcome? t = some outcome) (ts : List Token) :
    feed accept draft (t :: ts) = some (outcome, draft) := by
  cases hverdict : accept draft t <;> simp_all [feed, Verdict.outcome?]

/-- A feed ends exactly if some of the tokens lead to a draft that settles at the next one. -/
theorem feed_eq_some_iff {draft final : σ} {ts : List Token} {outcome : Except ParseError ρ} :
    feed accept draft ts = some (outcome, final) ↔
      ∃ us t vs, ts = us ++ t :: vs ∧ Leads accept draft us final ∧
        (accept final t).outcome? t = some outcome := by
  constructor
  · intro h
    induction ts generalizing draft with
    | nil => simp [feed] at h
    | cons t ts ih =>
      cases hverdict : accept draft t with
      | more longer =>
        simp only [feed, hverdict] at h
        rcases ih h with ⟨us, u, vs, rfl, hleads, houtcome⟩
        exact ⟨t :: us, u, vs, rfl, .step longer hverdict hleads, houtcome⟩
      | done | before | fault =>
        simp only [feed, hverdict, Verdict.outcome?, Option.map_some, Option.some.injEq,
          Prod.mk.injEq] at h
        rcases h with ⟨rfl, rfl⟩
        exact ⟨[], t, ts, rfl, .refl draft, by rw [hverdict]; rfl⟩
  · rintro ⟨us, t, vs, rfl, hleads, houtcome⟩
    rw [feed_append hleads, feed_cons_of_outcome houtcome]

/-- The tokens of a list either settle a draft or lead on to another one. -/
theorem feed_eq_none_iff {draft : σ} {ts : List Token} :
    feed accept draft ts = none ↔ ∃ final, Leads accept draft ts final := by
  constructor
  · intro h
    induction ts generalizing draft with
    | nil => exact ⟨draft, .refl draft⟩
    | cons t ts ih =>
      cases hverdict : accept draft t with
      | more longer =>
        simp only [feed, hverdict] at h
        rcases ih h with ⟨final, hleads⟩
        exact ⟨final, .step longer hverdict hleads⟩
      | done | before | fault => simp [feed, hverdict, Verdict.outcome?] at h
  · rintro ⟨final, hleads⟩
    simpa [feed] using feed_append hleads []

end

/-! ## Tokens that are not layout -/

namespace Cursor

/-- The tokens from a place on that are not layout. -/
def visible (v : Vocabulary) (c : Cursor) : List Token :=
  (c.tokens v).filter (·.kind != .blank)

@[simp]
theorem advance_zero (c : Cursor) : c.advance 0 = c := by
  simp [advance, lastOr]

/-- No layout is left behind skipped layout. -/
theorem takeWhile_rest_skipLayout (c : Cursor) : c.skipLayout.rest.takeWhile isLayout = [] := by
  rw [skipLayout, rest_advance]
  generalize c.rest = text
  induction text with
  | nil => simp
  | cons d text ih =>
    cases hd : isLayout d <;> simp [hd, ih]

/-- A token where there is no layout is not layout. -/
theorem kind_scan_ne_blank {v : Vocabulary} {c : Cursor} (h : c.rest.takeWhile isLayout = []) :
    (c.scan v).1.kind ≠ .blank := by
  rcases c.scan_cases v with ⟨-, hscan⟩ | ⟨-, -, hscan⟩ | ⟨kind, n, -, hfound, hscan⟩
  · simp [hscan, emptyToken]
  · simp [hscan, emptyToken]
  · rw [hscan]
    rintro rfl
    have hlength := (length?_of_recognise? hfound).2
    simp [Kind.length?, runLength?, h] at hlength

/-- Where there is no layout, none is skipped. -/
theorem skipLayout_of_takeWhile {c : Cursor} (h : c.rest.takeWhile isLayout = []) :
    c.skipLayout = c := by
  rw [skipLayout, h, List.length_nil, advance_zero]

/-- A scan of layout leads behind it. -/
theorem scan_of_layout {v : Vocabulary} {c : Cursor} (h : c.rest.takeWhile isLayout ≠ []) :
    (c.scan v).1.kind = .blank ∧ (c.scan v).2 = c.skipLayout := by
  have hrest : c.rest ≠ [] := by
    rintro hnil
    simp [hnil] at h
  have hfound : recognise? v c.before c.rest =
      some (.blank, (c.rest.takeWhile isLayout).length) := by
    simp [recognise?, Kind.precedence, Kind.length?, runLength?, h]
  simp [scan, hrest, hfound, skipLayout]

/-- Layout at a place is one token, and the others follow behind it. -/
theorem tokens_of_layout {v : Vocabulary} {c : Cursor} (h : c.rest.takeWhile isLayout ≠ []) :
    ∃ t, t.kind = .blank ∧ c.tokens v = t :: c.skipLayout.tokens v := by
  rcases scan_of_layout (v := v) h with ⟨hkind, hnext⟩
  refine ⟨(c.scan v).1, hkind, ?_⟩
  have hwidth : 0 < (c.scan v).1.span.width := by
    have hscan := c.length_rest_scan v
    have hpos := List.length_pos_iff.mpr h
    have hle := (List.takeWhile_prefix isLayout (l := c.rest)).length_le
    rw [hnext, skipLayout, rest_advance, List.length_drop] at hscan
    omega
  rw [tokens, if_pos hwidth, hnext]

/-- Skipped layout has no part in the tokens that are not layout. -/
theorem visible_skipLayout (v : Vocabulary) (c : Cursor) :
    c.skipLayout.visible v = c.visible v := by
  by_cases h : c.rest.takeWhile isLayout = []
  · rw [skipLayout_of_takeWhile h]
  · rcases tokens_of_layout (v := v) h with ⟨t, hkind, htokens⟩
    simp [visible, htokens, hkind]

/-- The tokens that are not layout come one by one behind skipped layout. -/
theorem visible_eq (v : Vocabulary) (c : Cursor) :
    c.visible v =
      if 0 < (c.skipLayout.scan v).1.span.width then
        (c.skipLayout.scan v).1 :: (c.skipLayout.scan v).2.visible v
      else [(c.skipLayout.scan v).1] := by
  have hkind := kind_scan_ne_blank (v := v) c.takeWhile_rest_skipLayout
  rw [← visible_skipLayout, visible, tokens]
  split <;> simp [hkind, visible]

/-- There is always a token to see, be it the end. -/
theorem visible_ne_nil (v : Vocabulary) (c : Cursor) : c.visible v ≠ [] := by
  rw [visible_eq]
  split <;> simp

/-- Skipping layout does not go back. -/
theorem offset_le_skipLayout (c : Cursor) : c.offset ≤ c.skipLayout.offset :=
  Nat.le_add_right _ _

/-- A scan does not move back. -/
theorem offset_le_scan (v : Vocabulary) (c : Cursor) : c.offset ≤ (c.scan v).2.offset := by
  rcases c.scan_cases v with ⟨-, hscan⟩ | ⟨-, -, hscan⟩ | ⟨kind, n, -, -, hscan⟩ <;>
  simp [hscan]

/-- A token without text leaves the place where it is. -/
theorem scan_of_width {v : Vocabulary} {c : Cursor} (h : ¬0 < (c.scan v).1.span.width) :
    (c.scan v).2 = c := by
  rcases c.scan_cases v with ⟨-, hscan⟩ | ⟨-, -, hscan⟩ | ⟨kind, n, hrest, -, hscan⟩
  · rw [hscan]
  · rw [hscan]
  · have hpos := List.length_pos_iff.mpr hrest
    rw [hscan, spanTo_advance_width, List.length_take] at h
    obtain rfl : n = 0 := by omega
    rw [hscan, advance_zero]

end Cursor

/-! ## The last token -/

namespace Cursor

/-- A token that nothing can follow has no width. -/
theorem width_of_isLast {v : Vocabulary} {c : Cursor} (h : (c.scan v).1.isLast = true) :
    ¬0 < (c.scan v).1.span.width := by
  rcases c.scan_cases v with ⟨-, hscan⟩ | ⟨-, -, hscan⟩ | ⟨kind, n, -, hfound, hscan⟩
  · simp [hscan]
  · simp [hscan]
  · have hkind := ne_last_of_recognise? hfound
    simp [hscan, Token.isLast, hkind] at h

/-- Whatever the tables hold, of the tokens that others may follow only keywords can have no
width. -/
theorem width_pos {v : Vocabulary} {c : Cursor} (hlast : (c.scan v).1.isLast = false)
    (hkeyword : (c.scan v).1.kind ≠ .keyword) : 0 < (c.scan v).1.span.width := by
  rcases c.scan_cases v with ⟨-, hscan⟩ | ⟨-, -, hscan⟩ | ⟨kind, n, hrest, hfound, hscan⟩
  · simp [hscan, emptyToken, Token.isLast] at hlast
  · simp [hscan, emptyToken, Token.isLast] at hlast
  · rw [hscan] at hkeyword ⊢
    -- No other rule asks a table, so that of empty tables gives the length.
    have hlength : kind.length? ⟨[], []⟩ c.before c.rest = some n := by
      have hfirst := (length?_of_recognise? hfound).2
      cases kind with
      | keyword => contradiction
      | _ => exact hfirst
    have hpos := Kind.length?_pos (by decide) hlength
    have hnonempty := List.length_pos_iff.mpr hrest
    simp only [spanTo_advance_width, List.length_take]
    omega

/-- Whatever the tables hold, only the last of the visible tokens from a place on has no width, and
nothing can follow it unless it is a keyword. -/
theorem exists_visible_eq (v : Vocabulary) (c : Cursor) :
    ∃ body last, c.visible v = body ++ [last] ∧ (last.isLast = true ∨ last.kind = .keyword) ∧
      ¬0 < last.span.width ∧ ∀ t ∈ body, t.isLast = false := by
  induction hlength : c.rest.length using Nat.strongRecOn generalizing c with
  | _ length ih =>
  by_cases hwidth : 0 < (c.skipLayout.scan v).1.span.width
  · have hshorter : (c.skipLayout.scan v).2.rest.length < length := by
      have hscan := c.skipLayout.length_rest_scan v
      have hskip := c.length_rest_skipLayout_le
      omega
    rcases ih _ hshorter _ rfl with ⟨body, last, hvisible, hkind, hend, hbody⟩
    refine ⟨(c.skipLayout.scan v).1 :: body, last, ?_, hkind, hend, ?_⟩
    · rw [visible_eq, if_pos hwidth, hvisible, List.cons_append]
    · rw [List.forall_mem_cons]
      refine ⟨?_, hbody⟩
      rw [← Bool.not_eq_true]
      exact fun hlast => width_of_isLast hlast hwidth
  · refine ⟨[], (c.skipLayout.scan v).1, ?_, ?_, hwidth, by simp⟩
    · rw [visible_eq, if_neg hwidth, List.nil_append]
    · by_contra hkind
      rw [not_or, Bool.not_eq_true] at hkind
      exact hwidth (width_pos hkind.1 hkind.2)

/-- The tokens behind a scan are among those from its place on. -/
theorem tokens_scan_subset (v : Vocabulary) (c : Cursor) :
    (c.scan v).2.tokens v ⊆ c.tokens v := by
  by_cases hwidth : 0 < (c.scan v).1.span.width
  · conv_rhs => rw [tokens, if_pos hwidth]
    exact List.subset_cons_self _ _
  · rw [scan_of_width hwidth]
    exact List.Subset.refl _

theorem scan_mem_tokens (v : Vocabulary) (c : Cursor) : (c.scan v).1 ∈ c.tokens v := by
  rw [tokens]
  split <;> simp

end Cursor

/-- Only tokens of the text are collected. -/
theorem Lexer.mem_tokens_of_mem_collect {v : Vocabulary} {c : Cursor} {view : View}
    {fuel limit : Nat} {t : Token} (h : t ∈ (collect view fuel limit ⟨v, c, none⟩).1) :
    t ∈ c.tokens v := by
  induction fuel generalizing limit c with
  | zero => simp [collect] at h
  | succ fuel ih =>
    cases limit with
    | zero => simp [collect] at h
    | succ limit =>
      have hraw : nextRaw ⟨v, c, none⟩ = ((c.scan v).1, ⟨v, (c.scan v).2, none⟩) := nextRaw_eq rfl
      simp only [collect, hraw] at h
      split_ifs at h
      · rw [List.mem_singleton.mp h]
        exact c.scan_mem_tokens v
      · rcases List.mem_cons.mp h with rfl | h
        · exact c.scan_mem_tokens v
        · exact c.tokens_scan_subset v (ih h)
      · exact c.tokens_scan_subset v (ih h)

/-- Whatever the tables hold, a view of a source text shows tokens of the text only. -/
theorem tokensOf_subset (v : Vocabulary) (source : Text) (view : Lexer.View) :
    tokensOf v source view ⊆ (Cursor.ofText (normalize source)).tokens v :=
  fun _ ht => Lexer.mem_tokens_of_mem_collect ht

/-! ## Reading is feeding -/

/-- A lexer is behind a token. -/
structure Lexer.IsBehind (l : Lexer) (t : Token) : Prop where
  offset : l.cursor.offset = t.span.stop
  position : l.cursor.position = t.span.last

/-- The first token of a lexer that is not layout, and the lexer behind it. -/
theorem Lexer.next_eq {l : Lexer} (h : l.pending = none) :
    l.next = ((l.cursor.skipLayout.scan l.vocabulary).1,
      { l with cursor := (l.cursor.skipLayout.scan l.vocabulary).2 }) := by
  simp [next, h]

/-- Where there is no layout, none is skipped in front of the next token. -/
theorem Lexer.nextRaw_eq_next {l : Lexer} (h : l.cursor.rest.takeWhile isLayout = []) :
    l.nextRaw = l.next := by
  simp only [nextRaw, next, Cursor.skipLayout_of_takeWhile h]

/-- A lexer has moved on, or stayed, in its text. -/
structure Lexer.MovesTo (l l' : Lexer) : Prop where
  vocabulary : l'.vocabulary = l.vocabulary
  offset : l.cursor.offset ≤ l'.cursor.offset

namespace Lexer.MovesTo

theorem refl (l : Lexer) : l.MovesTo l :=
  ⟨rfl, Nat.le_refl _⟩

theorem trans {a b c : Lexer} (hab : a.MovesTo b) (hbc : b.MovesTo c) : a.MovesTo c :=
  ⟨hbc.vocabulary.trans hab.vocabulary, hab.offset.trans hbc.offset⟩

/-- Handing out a token does not move a lexer back. -/
theorem next (l : Lexer) : l.MovesTo l.next.2 := by
  cases hpending : l.pending with
  | some t =>
    simp only [Lexer.next, hpending]
    exact ⟨rfl, Nat.le_refl _⟩
  | none =>
    rw [Lexer.next_eq hpending]
    exact ⟨rfl, l.cursor.offset_le_skipLayout.trans (Cursor.offset_le_scan ..)⟩

/-- Nor does looking at it. -/
theorem peek (l : Lexer) : l.MovesTo l.peek.2 :=
  ⟨(next l).vocabulary, (next l).offset⟩

end Lexer.MovesTo

/-- A lexer that has handed out a token is behind it. -/
theorem Lexer.isBehind_next {l : Lexer} (h : l.pending = none) : l.next.2.IsBehind l.next.1 := by
  rw [next_eq h]
  rcases l.cursor.skipLayout.scan_cases l.vocabulary with
    ⟨-, hscan⟩ | ⟨-, -, hscan⟩ | ⟨kind, n, -, -, hscan⟩ <;>
  exact ⟨by simp [hscan, Cursor.emptyToken, Cursor.spanTo],
    by simp [hscan, Cursor.emptyToken, Cursor.spanTo]⟩

/-- A lexer awaits tokens: those that are not layout, beginning with the one that it keeps. -/
def Lexer.Awaits (l : Lexer) (ts : List Token) : Prop :=
  ∃ unread : Lexer, unread.pending = none ∧ unread.vocabulary = l.vocabulary ∧
    unread.cursor.visible l.vocabulary = ts ∧ unread.next = l.next

/-- The tokens behind the first one; the last token comes again for ever. -/
def behindFirst : List Token → List Token
  | _ :: u :: us => u :: us
  | ts => ts

@[simp]
theorem behindFirst_append (t u : Token) (us vs : List Token) :
    behindFirst (t :: (us ++ u :: vs)) = us ++ u :: vs := by
  cases us <;> rfl

/-- What a lexer does with the first of the tokens that it awaits: it hands it out, is behind it,
and awaits the others. -/
structure Lexer.HandsOut (l : Lexer) (t : Token) (ts : List Token) : Prop where
  token : l.next.1 = t
  width : ts ≠ [] → 0 < t.span.width
  behind : l.next.2.IsBehind t
  awaits : l.next.2.Awaits (behindFirst (t :: ts))

namespace Lexer

/-- A lexer that keeps no token awaits those behind its place. -/
theorem awaits_visible {l : Lexer} (h : l.pending = none) :
    l.Awaits (l.cursor.visible l.vocabulary) :=
  ⟨l, h, rfl, rfl, rfl⟩

/-- Without a kept token a lexer hands out the first token that can be seen from its place. -/
theorem handsOut_visible {l : Lexer} {t : Token} {ts : List Token} (hpending : l.pending = none)
    (h : l.cursor.visible l.vocabulary = t :: ts) : l.HandsOut t ts := by
  have hnext := next_eq hpending
  have hbehind := isBehind_next hpending
  have hvisible := h
  rw [Cursor.visible_eq] at hvisible
  split at hvisible
  · next hwidth =>
    rcases List.cons.inj hvisible with ⟨rfl, rfl⟩
    have htoken := congrArg Prod.fst hnext
    refine ⟨htoken, fun _ => hwidth, htoken ▸ hbehind, ?_⟩
    rcases List.exists_cons_of_ne_nil (Cursor.visible_ne_nil l.vocabulary
      (l.cursor.skipLayout.scan l.vocabulary).2) with ⟨u, us, hrest⟩
    rw [hrest, behindFirst, ← hrest, hnext]
    exact awaits_visible hpending
  · next hwidth =>
    -- A token without text is the last one, and the lexer stays in front of it.
    rcases List.cons.inj hvisible with ⟨rfl, rfl⟩
    rw [Cursor.scan_of_width hwidth] at hnext
    have htoken := congrArg Prod.fst hnext
    refine ⟨htoken, by simp, htoken ▸ hbehind, ?_⟩
    rw [behindFirst, ← h, ← Cursor.visible_skipLayout, hnext]
    · exact awaits_visible hpending
    · simp

/-- A lexer hands out the first of the tokens that it awaits. -/
theorem Awaits.handsOut {l : Lexer} {t : Token} {ts : List Token} (h : l.Awaits (t :: ts)) :
    l.HandsOut t ts := by
  rcases h with ⟨unread, hpending, hvocabulary, hvisible, hnext⟩
  rw [← hvocabulary] at hvisible
  rcases handsOut_visible hpending hvisible with ⟨htoken, hwidth, hbehind, hawaits⟩
  rw [hnext] at htoken hbehind hawaits
  exact ⟨htoken, hwidth, hbehind, hawaits⟩

end Lexer

section

variable {σ ρ : Type} {accept : σ → Token → Verdict σ ρ}

/-- The lexer behind a token that a draft was given: the token is consumed, or it is left to what
comes next. -/
def Verdict.leaves (l : Lexer) : Verdict σ ρ → Lexer
  | .before _ => l.peek.2
  | .more _ | .done _ | .fault _ => l.next.2

/-- Whether or not a token is consumed, the lexer is behind it. -/
theorem Verdict.isBehind_leaves {l : Lexer} {t : Token} {ts : List Token}
    (h : l.HandsOut t ts) (verdict : Verdict σ ρ) : (verdict.leaves l).IsBehind t := by
  cases verdict with
  | before => exact ⟨h.behind.offset, h.behind.position⟩
  | more | done | fault => exact h.behind

/-- The end of a run at a token that settles the draft. -/
theorem settle_of_outcome {draft : σ} {l : Lexer} {outcome : Except ParseError ρ}
    (go : σ → Run σ ρ) (h : (accept draft l.next.1).outcome? l.next.1 = some outcome) :
    settle accept draft l.next.1 l.next.2 go =
      ⟨outcome, draft, (accept draft l.next.1).leaves l⟩ := by
  cases hverdict : accept draft l.next.1 with
  | more => simp [hverdict, Verdict.outcome?] at h
  | done | before | fault =>
    rw [hverdict] at h
    cases h
    simp only [settle, hverdict]
    rfl

/-- If the tokens that a lexer awaits lead to a draft that settles at the next one, a run ends
there. -/
theorem run_of_leads {draft final : σ} {lexer : Lexer} {us vs : List Token} {t : Token}
    {outcome : Except ParseError ρ} (hawaits : lexer.Awaits (us ++ t :: vs))
    (hleads : Leads accept draft us final)
    (houtcome : (accept final t).outcome? t = some outcome) :
    ∃ l, l.Awaits (t :: vs) ∧ lexer.MovesTo l ∧
      run accept draft lexer = ⟨outcome, final, (accept final t).leaves l⟩ := by
  induction us generalizing draft lexer with
  | nil =>
    cases hleads
    obtain rfl := hawaits.handsOut.token
    exact ⟨lexer, hawaits, .refl lexer, by rw [run, settle_of_outcome _ houtcome]⟩
  | cons u us ih =>
    cases hleads with
    | step longer hmore hleads =>
      rw [List.cons_append] at hawaits
      rcases hawaits.handsOut with ⟨rfl, hwidth, -, hrest⟩
      rw [behindFirst_append] at hrest
      rcases ih hrest hleads with ⟨l, hl, hmoves, hrun⟩
      refine ⟨l, hl, (Lexer.MovesTo.next lexer).trans hmoves, ?_⟩
      rw [run]
      simp only [settle, hmore, if_pos (hwidth (by simp))]
      exact hrun

/-- If the awaited tokens only lead on, the last one is given to the draft once more, and it has to
settle then. -/
theorem run_outcome_of_leads {draft final : σ} {lexer : Lexer} {us : List Token} {last : Token}
    (hawaits : lexer.Awaits (us ++ [last])) (hwidth : ¬0 < last.span.width)
    (hleads : Leads accept draft (us ++ [last]) final) :
    (run accept draft lexer).outcome =
      ((accept final last).outcome? last).getD (.error ⟨.unexpected, last⟩) := by
  induction us generalizing draft lexer with
  | nil =>
    rcases hleads with _ | ⟨_, hmore, ⟨⟩⟩
    obtain rfl := hawaits.handsOut.token
    rw [run]
    simp only [settle, hmore, if_neg hwidth]
    cases accept final lexer.next.1 <;> rfl
  | cons u us ih =>
    rcases hleads with _ | ⟨longer, hmore, hleads⟩
    rw [List.cons_append] at hawaits
    rcases hawaits.handsOut with ⟨rfl, hpos, -, hrest⟩
    rw [behindFirst_append] at hrest
    rw [run]
    simp only [settle, hmore, if_pos (hpos (by simp))]
    exact ih hrest hleads

/-- A list that is filtered to two parts and an element between them is cut at the element. -/
theorem exists_filter_eq_append_cons {α : Type} {p : α → Bool} {xs us vs : List α} {x : α}
    (h : xs.filter p = us ++ x :: vs) :
    ∃ ys zs, xs = ys ++ x :: zs ∧ ys.filter p = us ∧ p x = true := by
  rcases List.filter_eq_append_iff.mp h with ⟨ys, rest, rfl, rfl, hrest⟩
  rcases List.filter_eq_cons_iff.mp hrest with ⟨skipped, zs, rfl, hskipped, hx, -⟩
  refine ⟨ys ++ skipped, zs, by simp, ?_, hx⟩
  rw [List.filter_append, List.filter_eq_nil_iff.mpr hskipped, List.append_nil]

/-- The comments among some tokens. -/
def commentsOf (ts : List Token) : List Comment :=
  (ts.filter (·.kind == .comment)).map Token.toComment

@[simp]
theorem commentsOf_append (ts us : List Token) :
    commentsOf (ts ++ us) = commentsOf ts ++ commentsOf us := by
  simp [commentsOf]

/-- Layout has no part in the comments. -/
@[simp]
theorem commentsOf_filter_blank (ts : List Token) :
    commentsOf (ts.filter (·.kind != .blank)) = commentsOf ts := by
  rw [commentsOf, commentsOf, List.filter_filter]
  congr 2
  funext t
  cases t.kind <;> rfl

/-- Comments have no part in where tokens lead, and are put aside on the way. -/
theorem Leads.annotated {draft final : σ} {ts : List Token} (comments : List Comment)
    (h : Leads accept draft (ts.filter (·.kind != .comment)) final) :
    Leads (Annotated.accept accept) ⟨draft, comments⟩ ts
      ⟨final, comments ++ commentsOf ts⟩ := by
  induction ts generalizing draft comments with
  | nil =>
    cases h
    simpa [commentsOf] using Leads.refl _
  | cons t ts ih =>
    by_cases hkind : t.kind = .comment
    · rw [List.filter_cons_of_neg (by simp [hkind])] at h
      refine .step ⟨draft, comments ++ [t.toComment]⟩ (by simp [Annotated.accept, hkind]) ?_
      simpa [commentsOf, hkind] using ih (comments ++ [t.toComment]) h
    · rw [List.filter_cons_of_pos (by simp [hkind])] at h
      cases h with
      | step longer hmore h =>
        refine .step ⟨longer, comments⟩ ?_ ?_
        · simp [Annotated.accept, hkind, hmore, Verdict.map]
        · simpa [commentsOf, hkind] using ih comments h

/-- A draft settles with comments put aside as it does without them. -/
theorem outcome?_annotated {draft : σ} {t : Token} {outcome : Except ParseError ρ}
    (comments : List Comment) (hkind : t.kind ≠ .comment)
    (h : (accept draft t).outcome? t = some outcome) :
    (Annotated.accept accept ⟨draft, comments⟩ t).outcome? t = some outcome := by
  cases hverdict : accept draft t <;>
    simp_all [Annotated.accept, Verdict.map, Verdict.outcome?]

/-- What a larger draft leaves of a lexer is what the draft in it leaves. -/
@[simp]
theorem Verdict.leaves_map {σ' ρ' : Type} (f : σ → σ') (g : ρ → ρ') (l : Lexer)
    (verdict : Verdict σ ρ) : (verdict.map f g).leaves l = verdict.leaves l := by
  cases verdict <;> rfl

/-- If the tokens that a lexer awaits lead, without the comments, to a draft that settles at the
next one, a run that puts comments aside ends there. -/
theorem run_annotated_of_leads {draft final : σ} {lexer : Lexer} {us vs : List Token} {t : Token}
    {outcome : Except ParseError ρ} (comments : List Comment)
    (hawaits : lexer.Awaits (us ++ t :: vs)) (hkind : t.kind ≠ .comment)
    (hleads : Leads accept draft (us.filter (·.kind != .comment)) final)
    (houtcome : (accept final t).outcome? t = some outcome) :
    ∃ l, l.Awaits (t :: vs) ∧ lexer.MovesTo l ∧
      run (Annotated.accept accept) ⟨draft, comments⟩ lexer =
        ⟨outcome, ⟨final, comments ++ commentsOf us⟩, (accept final t).leaves l⟩ := by
  rcases run_of_leads hawaits (hleads.annotated comments)
    (outcome?_annotated _ hkind houtcome) with ⟨l, hl, hmoves, hrun⟩
  refine ⟨l, hl, hmoves, ?_⟩
  rw [hrun, Annotated.accept, if_neg hkind, Verdict.leaves_map]

/-- If a run that puts comments aside succeeds, the awaited tokens, the last of which comes again,
lead without the comments to a draft that settles at the next one. -/
theorem exists_leads_of_run_ok {draft : σ} {lexer : Lexer} {body : List Token} {last : Token}
    {result : ρ} {comments : List Comment} (hawaits : lexer.Awaits (body ++ [last]))
    (hwidth : ¬0 < last.span.width) (hkind : last.kind ≠ .comment)
    (hok : (run (Annotated.accept accept) ⟨draft, comments⟩ lexer).outcome = .ok result) :
    ∃ us t final, us ++ [t] <+: body ++ [last, last] ∧ t.kind ≠ .comment ∧
      Leads accept draft (us.filter (·.kind != .comment)) final ∧
      (accept final t).outcome? t = some (.ok result) := by
  have htwice : body ++ [last, last] = body ++ [last] ++ [last] := by
    rw [List.append_assoc, List.singleton_append]
  cases hfeed : feed accept draft ((body ++ [last]).filter (·.kind != .comment)) with
  | some fed =>
    rcases fed with ⟨outcome, final⟩
    -- Some token settles the draft.
    rcases feed_eq_some_iff.mp hfeed with ⟨us, t, vs, htokens, hleads, houtcome⟩
    rcases exists_filter_eq_append_cons htokens with ⟨ys, zs, hsplit, rfl, hcomment⟩
    have hcomment' : t.kind ≠ .comment := by simpa using hcomment
    rcases run_annotated_of_leads comments (hsplit ▸ hawaits) hcomment' hleads houtcome with
      ⟨l, -, -, hrun⟩
    rw [hrun] at hok
    obtain rfl : outcome = .ok result := hok
    refine ⟨ys, t, final, ?_, hcomment', hleads, houtcome⟩
    rw [htwice, hsplit]
    exact ⟨zs ++ [last], by simp⟩
  | none =>
    -- All tokens lead on, so the last one settles the draft when it is given again.
    rcases feed_eq_none_iff.mp hfeed with ⟨final, hleads⟩
    have hrun := run_outcome_of_leads hawaits hwidth (hleads.annotated comments)
    refine ⟨body ++ [last], last, final, ⟨[], by rw [List.append_nil, htwice]⟩, hkind, hleads, ?_⟩
    rw [hok, Annotated.accept, if_neg hkind] at hrun
    cases hverdict : accept final last with
    | more => simp [hverdict, Verdict.map, Verdict.outcome?] at hrun
    | done | before | fault =>
      simpa [hverdict, Verdict.map, Verdict.outcome?] using hrun.symm

end

/-! ## Source texts -/

/-- Whether a token is neither layout nor a comment. -/
def Token.isSignificant (t : Token) : Bool := t.kind != .blank && t.kind != .comment

/-- The tokens of a source text without layout and comments. -/
def significantTokens (v : Vocabulary) (source : Text) : List Token :=
  (tokensOf v source ⟨true, true⟩).filter Token.isSignificant

/-- How a source text is read when its statements settle in a given way. -/
def ProgramEnd.result : Except ParseError ProgramEnd → Except ParseError (List Statement)
  | .ok ⟨statements, none⟩ => .ok statements
  | .ok ⟨_, some error⟩ => .error error
  | .error error => .error error

/-- Statements come out only if there is no error. -/
theorem ProgramEnd.eq_ok_of_result {outcome : Except ParseError ProgramEnd}
    {statements : List Statement} (h : ProgramEnd.result outcome = .ok statements) :
    outcome = .ok ⟨statements, none⟩ := by
  rcases outcome with error | ⟨statements, _ | error⟩ <;> cases h
  rfl

/-- Tokens are significant if they are neither layout nor comments. -/
theorem filter_isSignificant (ts : List Token) :
    ts.filter Token.isSignificant =
      (ts.filter (·.kind != .blank)).filter (·.kind != .comment) := by
  rw [List.filter_filter]
  congr 1
  funext t
  simp [Token.isSignificant, Bool.and_comm]

/-- The significant tokens are the visible ones that are not comments. -/
theorem significantTokens_eq {v : Vocabulary} (hv : v.HasNoEmptyWord) (source : Text) :
    significantTokens v source =
      ((Cursor.ofText (normalize source)).visible v).filter (·.kind != .comment) := by
  rw [significantTokens, tokensOf_eq_tokens hv, filter_isSignificant, Cursor.visible]

/-- The statements that are found when a program settles in a given way at a draft. -/
def ProgramEnd.found (final : ProgramDraft) : Except ParseError ProgramEnd → List Statement
  | .ok result => result.statements
  | .error _ => final.statements

/-- What a reader has done with a source text when it has stopped at a token. -/
structure Reader.Stopped (r : Reader) (result : Except ParseError Program)
    (outcome : Except ParseError ProgramEnd) (final : ProgramDraft) (us : List Token)
    (stop : Token) : Prop where
  body : result.map Program.body = ProgramEnd.result outcome
  program : ∀ p, result = .ok p → p.comments = r.comments
  comments : r.comments = commentsOf us
  statements : r.statements = ProgramEnd.found final outcome
  lexer : r.lexer.IsBehind stop

/-- What a reader has found, and what comes of it, is decided by how its run ends. -/
theorem Reader.parse_of_run {r : Reader} {outcome : Except ParseError ProgramEnd}
    {final : ProgramDraft} {comments : List Comment} {lexer : Lexer}
    (h : run (Annotated.accept (ProgramDraft.accept r.logTypes))
      ⟨⟨r.statements, none⟩, r.comments⟩ r.lexer = ⟨outcome, ⟨final, comments⟩, lexer⟩) :
    r.parse.2 = { r with lexer, comments, statements := ProgramEnd.found final outcome } ∧
      r.parse.1 = (ProgramEnd.result outcome).map fun _ => r.parse.2.program := by
  simp only [parse, runDraft, h]
  rcases outcome with error | ⟨statements, _ | error⟩ <;> exact ⟨rfl, rfl⟩

/-- The run of a source text. -/
def sourceRun (v : Vocabulary) (source : Text) : Run (Annotated ProgramDraft) ProgramEnd :=
  run (Annotated.accept (ProgramDraft.accept v.logTypes)) ⟨⟨[], none⟩, []⟩
    (Lexer.ofSource v source)

/-- The program of a run: everything that it has found up to where it stopped. -/
def Run.program (r : Run (Annotated ProgramDraft) ProgramEnd) (sourceFile : Text) : Program where
  span := ⟨0, r.lexer.cursor.offset, .start, r.lexer.cursor.position⟩
  body := ProgramEnd.found r.draft.draft r.outcome
  comments := r.draft.comments
  sourceFile := sourceFile
  sourceType := "module".toList

/-- How a source text is read is decided by its run. -/
theorem parseSource_eq (v : Vocabulary) (source file : Text) :
    parseSource v source file =
      (ProgramEnd.result (sourceRun v source).outcome).map
        fun _ => (sourceRun v source).program file := by
  rcases Reader.parse_of_run (r := .ofSource v source file "module".toList) rfl with
    ⟨hreader, hresult⟩
  rw [parseSource, hresult, hreader]
  rfl

/-- If the tokens of a source text that are not layout lead to a program that settles at the next
one, reading stops there. -/
theorem Reader.parse_of_leads {v : Vocabulary} {source file sourceType : Text}
    {us vs : List Token} {t : Token} {outcome : Except ParseError ProgramEnd}
    {final : ProgramDraft}
    (htokens : (Cursor.ofText (normalize source)).visible v = us ++ t :: vs)
    (hkind : t.kind ≠ .comment)
    (hleads : Leads (ProgramDraft.accept v.logTypes) ⟨[], none⟩
      (us.filter (·.kind != .comment)) final)
    (houtcome : (final.accept v.logTypes t).outcome? t = some outcome) :
    ((ofSource v source file sourceType).parse).2.Stopped
      ((ofSource v source file sourceType).parse).1 outcome final us t := by
  have hawaits : (Lexer.ofSource v source).Awaits (us ++ t :: vs) :=
    htokens ▸ Lexer.awaits_visible rfl
  rcases run_annotated_of_leads [] hawaits hkind hleads houtcome with ⟨l, hl, -, hrun⟩
  rcases parse_of_run (r := ofSource v source file sourceType) hrun with ⟨hbehind, hresult⟩
  rw [hresult, hbehind]
  refine ⟨?_, ?_, rfl, rfl, Verdict.isBehind_leaves hl.handsOut _⟩
  · rcases outcome with error | ⟨statements, _ | error⟩ <;> rfl
  · intro p hp
    rcases outcome with error | ⟨statements, _ | error⟩ <;> cases hp
    rfl

/-- Reading a source text is feeding its significant tokens to a program: if they settle it, the
source text has the statements or the error that come of it. -/
theorem parseSource_of_feed {v : Vocabulary} (hv : v.HasNoEmptyWord) {source : Text}
    (file : Text) {outcome : Except ParseError ProgramEnd} {final : ProgramDraft}
    (h : feed (ProgramDraft.accept v.logTypes) ⟨[], none⟩ (significantTokens v source) =
      some (outcome, final)) :
    (parseSource v source file).map Program.body = ProgramEnd.result outcome := by
  rw [significantTokens_eq hv] at h
  rcases feed_eq_some_iff.mp h with ⟨us, t, vs, htokens, hleads, houtcome⟩
  rcases exists_filter_eq_append_cons htokens with ⟨ys, zs, hvisible, rfl, hkind⟩
  exact (Reader.parse_of_leads hvisible (by simpa using hkind) hleads houtcome).body

end RaidTimeline
