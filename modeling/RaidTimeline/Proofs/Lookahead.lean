import RaidTimeline.Proofs.Feeding

/-!
# Looking ahead

A lexer keeps one token that it has looked at, and four calls share it: one asks whether there is
more, one shows the next token, and two hand it out, of which one skips layout.  In whatever order
they are made, the tokens that come out are those of a lexer that never looks ahead.

Main results:

- Theorem {lit}`Lexer.nextRaw_cases`: skipping layout is handing it out and going on.
- Theorems {lit}`Lexer.next_peek`, {lit}`Lexer.nextRaw_peek` and {lit}`Lexer.peek_peek`: a token
  that was shown comes next.
- Definition {lit}`Lexer.Call`: what is asked of a lexer, with {lit}`Lexer.answers` and
  {lit}`Lexer.afterCalls`.
- Theorem {lit}`Lexer.lookahead_transparent`: looking ahead does not show in the tokens.
-/

namespace RaidTimeline

namespace Lexer

variable {l : Lexer}

/-! ## One token -/

/-- The token that a lexer keeps is no layout. -/
def KeepsNoLayout (l : Lexer) : Prop := ∀ t ∈ l.pending, t.kind ≠ .blank

/-- The next significant token is no layout, also if it was kept. -/
theorem KeepsNoLayout.kind_next (h : l.KeepsNoLayout) : l.next.1.kind ≠ .blank := by
  cases hpending : l.pending with
  | some t =>
    simp only [next, hpending]
    exact h t hpending
  | none =>
    rw [next_eq hpending]
    exact Cursor.kind_scan_ne_blank l.cursor.takeWhile_rest_skipLayout

/-- What is handed out is not kept. -/
theorem pending_next (l : Lexer) : l.next.2.pending = none := by
  rcases l with ⟨v, c, _ | t⟩ <;> rfl

/-- A token that was handed out is not kept. -/
theorem pending_nextRaw (l : Lexer) : l.nextRaw.2.pending = none := by
  rcases l with ⟨v, c, _ | t⟩ <;> rfl

/-- The next token without layout is the next token, unless that is layout: then it is the one
behind it. -/
theorem nextRaw_cases (l : Lexer) :
    l.nextRaw = l.next ∨ l.nextRaw.1.kind = .blank ∧ l.nextRaw.2.next = l.next := by
  rcases l with ⟨v, c, _ | t⟩
  · by_cases h : c.rest.takeWhile isLayout = []
    · exact Or.inl (nextRaw_eq_next h)
    · right
      rcases Cursor.scan_of_layout (v := v) h with ⟨hkind, hbehind⟩
      have hskipped := Cursor.skipLayout_of_takeWhile c.takeWhile_rest_skipLayout
      refine ⟨hkind, ?_⟩
      simp only [nextRaw, next, hbehind, hskipped]
  · exact Or.inl rfl

/-- A token that was shown is the next one. -/
@[simp]
theorem next_peek (l : Lexer) : l.peek.2.next = l.next := by
  rcases l with ⟨v, c, _ | t⟩ <;> rfl

/-- A token that was shown comes next, and layout in front of it does not. -/
@[simp]
theorem nextRaw_peek (l : Lexer) : l.peek.2.nextRaw = l.next := by
  rcases l with ⟨v, c, _ | t⟩ <;> rfl

/-- A token that was shown is shown again. -/
@[simp]
theorem peek_peek (l : Lexer) : l.peek.2.peek = l.peek := by
  rcases l with ⟨v, c, _ | t⟩ <;> rfl

/-! ## Calls -/

/-- What is asked of a lexer token by token: whether there is more, to show the next token, and
to hand it out, without layout or with it. -/
inductive Call where
  | hasNext
  | peek
  | next
  | nextRaw
deriving DecidableEq, Repr

/-- What a lexer answers: whether there is more, or a token that it shows or hands out. -/
inductive Answer where
  | more (yes : Bool)
  | shown (t : Token)
  | handed (t : Token)
deriving DecidableEq, Repr

/-- Whether a call consumes a token. -/
def Call.consumes : Call → Bool
  | .hasNext | .peek => false
  | .next | .nextRaw => true

/-- The token in an answer. -/
def Answer.token? : Answer → Option Token
  | .more _ => none
  | .shown t | .handed t => some t

/-- The token that is handed out with an answer. -/
def Answer.handed? : Answer → Option Token
  | .more _ | .shown _ => none
  | .handed t => some t

/-- The answer of a lexer to a call, and the lexer behind it. -/
def answer (l : Lexer) : Call → Answer × Lexer
  | .hasNext => (.more l.hasNext, l)
  | .peek => (.shown l.peek.1, l.peek.2)
  | .next => (.handed l.next.1, l.next.2)
  | .nextRaw => (.handed l.nextRaw.1, l.nextRaw.2)

/-- The answers of a lexer to several calls, one after the other. -/
def answers (l : Lexer) : List Call → List Answer
  | [] => []
  | c :: cs => (l.answer c).1 :: (l.answer c).2.answers cs

/-- The lexer behind several calls. -/
def afterCalls (l : Lexer) : List Call → Lexer
  | [] => l
  | c :: cs => (l.answer c).2.afterCalls cs

/-- The tokens that a lexer hands out at several calls. -/
def handedOut (l : Lexer) (calls : List Call) : List Token :=
  (l.answers calls).filterMap Answer.handed?

section

variable (cs : List Call)

@[simp]
theorem handedOut_hasNext : l.handedOut (.hasNext :: cs) = l.handedOut cs :=
  rfl

@[simp]
theorem handedOut_peek : l.handedOut (.peek :: cs) = l.peek.2.handedOut cs :=
  rfl

@[simp]
theorem handedOut_next : l.handedOut (.next :: cs) = l.next.1 :: l.next.2.handedOut cs :=
  rfl

@[simp]
theorem handedOut_nextRaw :
    l.handedOut (.nextRaw :: cs) = l.nextRaw.1 :: l.nextRaw.2.handedOut cs :=
  rfl

end

/-- Calls behind calls are made where these have led. -/
theorem afterCalls_append (l : Lexer) (cs ds : List Call) :
    l.afterCalls (cs ++ ds) = (l.afterCalls cs).afterCalls ds := by
  induction cs generalizing l with
  | nil => rfl
  | cons c cs ih => exact ih _

/-- Lexers whose next tokens are the same hand out the same tokens one by one. -/
theorem handedOut_replicate_congr {l l' : Lexer} (h : l.next = l'.next) (n : Nat) :
    l.handedOut (List.replicate n .next) = l'.handedOut (List.replicate n .next) := by
  cases n with
  | zero => rfl
  | succ n => rw [List.replicate_succ, handedOut_next, handedOut_next, h]

/-! ## Calls that do not consume -/

/-- Calls that do not consume leave a lexer as it is behind a token that was shown. -/
theorem afterCalls_peek_of_not_consumes {between : List Call}
    (h : ∀ c ∈ between, c.consumes = false) : l.peek.2.afterCalls between = l.peek.2 := by
  induction between with
  | nil => rfl
  | cons c cs ih =>
    have hrest := ih fun c hc => h c (List.mem_cons_of_mem _ hc)
    cases c with
    | hasNext => exact hrest
    | peek => rw [afterCalls, answer, peek_peek, hrest]
    | next | nextRaw => simpa [Call.consumes] using h _ List.mem_cons_self

/-- A token that was shown is the one that the next call hands out. -/
theorem answer_peek_of_consumes {call : Call} (h : call.consumes = true) :
    (l.peek.2.answer call).1 = .handed l.peek.1 := by
  cases call with
  | hasNext | peek => simp [Call.consumes] at h
  | next => rw [answer, next_peek, peek_fst]
  | nextRaw => rw [answer, nextRaw_peek, peek_fst]

/-- Where layout is not asked for, only the calls for the next token count. -/
theorem handedOut_filter_next {calls : List Call} (h : .nextRaw ∉ calls) :
    l.handedOut (calls.filter (· == .next)) = l.handedOut calls := by
  induction calls generalizing l with
  | nil => rfl
  | cons c cs ih =>
    rw [List.mem_cons, not_or] at h
    cases c with
    | hasNext => exact ih h.2
    | peek =>
      rw [List.filter_cons_of_neg (by decide), handedOut_peek, ← ih h.2, List.filter_beq]
      exact handedOut_replicate_congr (next_peek l).symm _
    | next =>
      rw [List.filter_cons_of_pos (by decide), handedOut_next, handedOut_next, ih h.2]
    | nextRaw => exact absurd rfl h.1

/-- Whatever is asked, the tokens without layout that are handed out are the first ones that come
one by one. -/
theorem KeepsNoLayout.exists_handedOut_eq (hl : l.KeepsNoLayout) (calls : List Call) :
    ∃ n, (l.handedOut calls).filter (·.kind != .blank) =
      l.handedOut (List.replicate n .next) := by
  induction calls generalizing l with
  | nil => exact ⟨0, rfl⟩
  | cons c cs ih =>
    have hbehind : l.next.2.KeepsNoLayout := by
      simp [KeepsNoLayout, pending_next]
    have hnext : ∃ n, ((l.next.1 :: l.next.2.handedOut cs).filter (·.kind != .blank)) =
        l.handedOut (List.replicate n .next) := by
      rcases ih hbehind with ⟨n, hn⟩
      refine ⟨n + 1, ?_⟩
      rw [List.filter_cons_of_pos (by simpa using hl.kind_next), hn, List.replicate_succ,
        handedOut_next]
    cases c with
    | hasNext => exact ih hl
    | peek =>
      have hpeek : l.peek.2.KeepsNoLayout := by
        simpa [KeepsNoLayout, peek, putBack] using hl.kind_next
      rcases ih hpeek with ⟨n, hn⟩
      exact ⟨n, hn.trans (handedOut_replicate_congr (next_peek l) n)⟩
    | next => exact hnext
    | nextRaw =>
      rcases l.nextRaw_cases with heq | ⟨hkind, heq⟩
      · rw [handedOut_nextRaw, heq]
        exact hnext
      · -- Layout that is handed out does not count, and the next token stays the same.
        have hraw : l.nextRaw.2.KeepsNoLayout := by
          simp [KeepsNoLayout, pending_nextRaw]
        rcases ih hraw with ⟨n, hn⟩
        refine ⟨n, ?_⟩
        rw [handedOut_nextRaw, List.filter_cons_of_neg (by simp [hkind]), hn]
        exact handedOut_replicate_congr heq n

/-! ## The end -/

/-- When there is no more, the source text is used up. -/
theorem rest_of_not_hasNext (h : l.hasNext = false) : l.cursor.rest = [] := by
  cases hpending : l.pending <;> simp_all [hasNext]

/-- Where there is nothing more, the end comes next, and there is nothing more behind it. -/
theorem next_of_not_hasNext (h : l.hasNext = false) :
    l.next.1.kind = .eof ∧ l.next.2.hasNext = false := by
  have hrest := rest_of_not_hasNext h
  cases hpending : l.pending with
  | none =>
    have hskip : l.cursor.skipLayout = l.cursor :=
      Cursor.skipLayout_of_takeWhile (by simp [hrest])
    rw [next_eq hpending, hskip, Cursor.scan, if_pos (by simp [hrest])]
    exact ⟨rfl, h⟩
  | some t =>
    have hkind : t.kind = .eof := by
      simpa [hasNext, hpending, hrest] using h
    simp [next, hpending, hasNext, hrest, hkind]

/-- At the end there is no layout. -/
theorem nextRaw_of_not_hasNext (h : l.hasNext = false) : l.nextRaw = l.next :=
  nextRaw_eq_next (by simp [rest_of_not_hasNext h])

/-- Where there is nothing more, every call shows or hands out the end, and there is nothing more
behind it. -/
theorem answer_of_not_hasNext (h : l.hasNext = false) (call : Call) :
    (l.answer call).2.hasNext = false ∧ ∀ t ∈ (l.answer call).1.token?, t.kind = .eof := by
  rcases next_of_not_hasNext h with ⟨hkind, hbehind⟩
  cases call with
  | hasNext => exact ⟨h, by simp [answer, Answer.token?]⟩
  | peek =>
    have hrest := rest_of_not_hasNext hbehind
    refine ⟨?_, by simpa [answer, Answer.token?] using hkind⟩
    simp [answer, peek, putBack, hasNext, hkind, hrest]
  | next => exact ⟨hbehind, by simpa [answer, Answer.token?] using hkind⟩
  | nextRaw =>
    rw [answer, nextRaw_of_not_hasNext h]
    exact ⟨hbehind, by simpa [Answer.token?] using hkind⟩

/-- Where there is nothing more, nothing but the end comes. -/
theorem answers_of_not_hasNext (h : l.hasNext = false) (calls : List Call) :
    ∀ a ∈ l.answers calls, ∀ t ∈ a.token?, t.kind = .eof := by
  induction calls generalizing l with
  | nil => simp [answers]
  | cons c cs ih =>
    rcases answer_of_not_hasNext h c with ⟨hbehind, htoken⟩
    exact List.forall_mem_cons.mpr ⟨htoken, ih hbehind⟩

/-! ## Any calls -/

/-- Looking ahead does not show in the tokens of a lexer: the tokens without layout that are
handed out are the first of those that come one by one, a token that is shown is the next one
that is handed out, nothing but the end comes once there is nothing more, and without calls for
layout the calls that do not consume can be left out. -/
structure HasTransparentLookahead (l : Lexer) : Prop where
  first : ∀ calls, ∃ n, (l.handedOut calls).filter (·.kind != .blank) =
    l.handedOut (List.replicate n .next)
  shown : ∀ before between call, (∀ c ∈ between, c.consumes = false) → call.consumes = true →
    ∃ t, ((l.afterCalls before).answer .peek).1 = .shown t ∧
      ((l.afterCalls (before ++ .peek :: between)).answer call).1 = .handed t
  ended : ∀ before later, ((l.afterCalls before).answer .hasNext).1 = .more false →
    ∀ a ∈ (l.afterCalls before).answers later, ∀ t ∈ a.token?, t.kind = .eof
  spared : ∀ calls, .nextRaw ∉ calls →
    l.handedOut (calls.filter (· == .next)) = l.handedOut calls

/-- Whatever the tables and the source text, and in whatever order the calls are made, looking
ahead does not show in the tokens. -/
theorem lookahead_transparent (v : Vocabulary) (source : Text) :
    (ofSource v source).HasTransparentLookahead where
  first := by
    have hfresh : (ofSource v source).KeepsNoLayout := nofun
    exact hfresh.exists_handedOut_eq
  shown := by
    intro before between call hbetween hcall
    refine ⟨_, rfl, ?_⟩
    rw [afterCalls_append, afterCalls, answer, afterCalls_peek_of_not_consumes hbetween]
    exact answer_peek_of_consumes hcall
  ended := by
    intro before later hnone
    exact answers_of_not_hasNext (Answer.more.inj hnone) later
  spared := fun calls => handedOut_filter_next

/-- A comment that was shown between layout is handed out next, and layout behind it too; at the
end nothing but the end comes. -/
theorem lookahead_transparent_comment :
    let l := ofSource .default " # a\n7 ".toList
    (∃ n, (l.handedOut [.nextRaw, .peek, .nextRaw, .nextRaw, .next]).filter (·.kind != .blank) =
        l.handedOut (List.replicate n .next)) ∧
      (∃ t, (l.answer .peek).1 = .shown t ∧
        ((l.afterCalls [.peek, .hasNext, .peek]).answer .nextRaw).1 = .handed t) ∧
      ((l.afterCalls [.next, .next, .peek]).answer .hasNext).1 = .more false ∧
      (∀ a ∈ (l.afterCalls [.next, .next, .peek]).answers [.next, .peek, .nextRaw],
        ∀ t ∈ a.token?, t.kind = .eof) ∧
      l.handedOut [.next, .next] = l.handedOut [.hasNext, .next, .peek, .peek, .next] := by
  intro l
  have htransparent : l.HasTransparentLookahead := lookahead_transparent .default _
  have hended : ((l.afterCalls [.next, .next, .peek]).answer .hasNext).1 = .more false := by
    decide +kernel
  exact ⟨htransparent.first _, htransparent.shown [] [.hasNext, .peek] .nextRaw (by decide) rfl,
    hended, htransparent.ended _ _ hended,
    htransparent.spared [.hasNext, .next, .peek, .peek, .next] (by decide)⟩

end Lexer

end RaidTimeline
