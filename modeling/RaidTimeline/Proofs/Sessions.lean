import RaidTimeline.Proofs.Lookahead
import RaidTimeline.Proofs.Nesting

/-!
# Sessions with a reader

A reader can be asked for a program, a statement or a single construct, and its lexer for a token,
in any order and as often as one likes.  An error ends the request but not the session: what has
been consumed stays consumed, and the next request goes on behind it.

Main results:

- Definition {lit}`Reader.Request`: what is asked, with {lit}`Reader.serve` and
  {lit}`Reader.serveAll`.
- Definition {lit}`Reader.IsAmid`: where a reader is in its source text, and what it has found
  in front of that place.
- Theorem {lit}`Reader.serve_goesOn`: what a request does, whether or not it is granted.
- Theorem {lit}`Reader.serveAll_isAmid`: however many requests are made, a reader stays amid its
  source text.
- Theorem {lit}`Reader.serveAll_keepsOrder`: whatever is asked, what has been found is in order.
-/

namespace RaidTimeline

/-! ## Machines that settle -/

/-- A single construct settles at a token that nothing can follow. -/
theorem ConstructDraft.settlesAtLast (logTypes : List Text) :
    SettlesAtLast (ConstructDraft.accept logTypes) := by
  intro d t longer ht hmore
  cases d with
  | start construct =>
    cases construct <;> rcases Token.isLast_iff.mp ht with hkind | hkind <;>
      simp [accept, acceptFirst, Token.expectWord, Token.expect, hkind] at hmore
  | statement d =>
    have hverdict := StatementDraft.accept_last logTypes ht d
    cases hcase : d.accept logTypes t <;>
      simp_all [accept, Verdict.map, Verdict.Meets]
  | modifier d =>
    have hverdict := ModifierDraft.accept_last ht d
    cases hcase : d.accept t <;>
      simp_all [accept, Verdict.map, Verdict.Meets]

/-- So does a statement, or the place where one may stand. -/
theorem acceptStatement_settlesAtLast (logTypes : List Text) :
    SettlesAtLast (acceptStatement logTypes) := by
  intro d t longer ht hmore
  cases d with
  | none =>
    rcases Token.isLast_iff.mp ht with hkind | hkind <;>
      simp [acceptStatement, StatementDraft.begin?, hkind] at hmore
  | some d =>
    have hverdict := StatementDraft.accept_last logTypes ht d
    cases hcase : d.accept logTypes t <;>
      simp_all [acceptStatement, Verdict.map, Verdict.Meets]

/-! ## Statements in front of a program -/

/-- A program behind statements that were found before. -/
def ProgramDraft.behind (before : List Statement) (p : ProgramDraft) : ProgramDraft :=
  ⟨before ++ p.statements, p.current⟩

/-- The end of a program behind statements that were found before. -/
def ProgramEnd.behind (before : List Statement) (e : ProgramEnd) : ProgramEnd :=
  ⟨before ++ e.statements, e.error⟩

/-- Statements that were read before have no part in what begins a statement. -/
theorem ProgramDraft.acceptFirst_behind (before statements : List Statement) (t : Token) :
    acceptFirst (before ++ statements) t =
      (acceptFirst statements t).map (behind before) (ProgramEnd.behind before) := by
  unfold acceptFirst
  cases StatementDraft.begin? t with
  | some d => rfl
  | none =>
    simp only
    split_ifs <;> rfl

/-- Statements that were found before have no part in what a program makes of a token. -/
theorem ProgramDraft.accept_behind (logTypes : List Text) (before : List Statement)
    (p : ProgramDraft) (t : Token) :
    (p.behind before).accept logTypes t =
      (p.accept logTypes t).map (behind before) (ProgramEnd.behind before) := by
  rcases p with ⟨statements, _ | d⟩
  · exact acceptFirst_behind before statements t
  · simp only [behind, accept]
    cases d.accept logTypes t with
    | more d => rfl
    | done s => simp [Verdict.map, behind]
    | before s =>
      simp only [List.append_assoc]
      exact acceptFirst_behind before (statements ++ [s]) t
    | fault cause => rfl

/-- Tokens that lead from the beginning of a program lead from behind other statements too. -/
theorem ProgramDraft.leads_behind {logTypes : List Text} {ts : List Token} {p : ProgramDraft}
    (before : List Statement) (h : Leads (accept logTypes) ⟨[], none⟩ ts p) :
    Leads (accept logTypes) ⟨before, none⟩ ts (p.behind before) := by
  have hstep : ∀ {a b : ProgramDraft} {t : Token}, a.accept logTypes t = .more b →
      (a.behind before).accept logTypes t = .more (b.behind before) := by
    intro a b t hmore
    rw [accept_behind, hmore]
    rfl
  simpa [behind] using h.lift (behind before) hstep

/-- What settles a draft settles a larger one that is built on it. -/
theorem Verdict.outcome?_map {σ σ' ρ ρ' : Type} (f : σ → σ') (g : ρ → ρ') (t : Token)
    (verdict : Verdict σ ρ) :
    (verdict.map f g).outcome? t = (verdict.outcome? t).map (Except.map g) := by
  cases verdict <;> rfl

/-- Statements that were read before stand in front of those that are found. -/
theorem ProgramEnd.found_behind (before : List Statement) (final : ProgramDraft)
    (outcome : Except ParseError ProgramEnd) :
    found (final.behind before) (outcome.map (behind before)) = before ++ found final outcome := by
  cases outcome <;> rfl

/-! ## Lexers amid their tokens -/

namespace Lexer.Awaits

variable {l : Lexer} {ts : List Token}

theorem ne_nil (h : l.Awaits ts) : ts ≠ [] := by
  rcases h with ⟨unread, -, -, rfl, -⟩
  exact Cursor.visible_ne_nil _ _

/-- Among the tokens that are awaited is one that nothing can follow. -/
theorem exists_last (hv : l.vocabulary.HasNoEmptyWord) (h : l.Awaits ts) :
    ∃ last ∈ ts, last.isLast = true := by
  rcases h with ⟨unread, -, -, rfl, -⟩
  rcases unread.cursor.visible_eq_concat hv with ⟨body, last, hvisible, hlast, -⟩
  exact ⟨last, by simp [hvisible], hlast⟩

/-- A token that was looked at is still awaited. -/
theorem peek (h : l.Awaits ts) : l.peek.2.Awaits ts := by
  rcases h with ⟨unread, hpending, hvocabulary, hvisible, hnext⟩
  have hsame := (MovesTo.peek l).vocabulary
  exact ⟨unread, hpending, hvocabulary.trans hsame.symm, by rw [hsame, hvisible],
    hnext.trans (next_peek l).symm⟩

/-- Behind a token that is handed out, a lexer awaits some of the tokens that it awaited. -/
theorem exists_next (h : l.Awaits ts) : ∃ gone rest, ts = gone ++ rest ∧ l.next.2.Awaits rest := by
  rcases List.exists_cons_of_ne_nil h.ne_nil with ⟨t, ts, rfl⟩
  have hrest := h.handsOut.awaits
  cases ts with
  | nil => exact ⟨[], [t], rfl, hrest⟩
  | cons u us => exact ⟨[t], u :: us, rfl, hrest⟩

/-- So it does behind a token that a draft was given. -/
theorem exists_leaves {σ ρ : Type} (h : l.Awaits ts) (verdict : Verdict σ ρ) :
    ∃ gone rest, ts = gone ++ rest ∧ (verdict.leaves l).Awaits rest ∧
      l.MovesTo (verdict.leaves l) := by
  rcases h.exists_next with ⟨gone, rest, hts, hrest⟩
  cases verdict with
  | before => exact ⟨[], ts, rfl, h.peek, .peek l⟩
  | more | done | fault => exact ⟨gone, rest, hts, hrest, .next l⟩

end Lexer.Awaits

/-! ## Requests -/

namespace Reader

/-- What is asked of a reader, or of its lexer. -/
inductive Request where
  | parse
  | statement
  | construct (construct : Construct)
  | peek
  | next
deriving DecidableEq, Repr

/-- The reader behind a request, whether or not that is granted. -/
def serve (r : Reader) : Request → Reader
  | .parse => r.parse.2
  | .statement => r.statement.2
  | .construct construct => (r.construct construct).2
  | .peek => { r with lexer := r.lexer.peek.2 }
  | .next => { r with lexer := r.lexer.next.2 }

/-- The reader behind several requests, one after the other. -/
def serveAll (r : Reader) (requests : List Request) : Reader := requests.foldl serve r

/-- What is true of a lexer, and stays true as it hands out a token or looks at one, is true where
a run ends. -/
theorem run_lexer {σ ρ : Type} {P : Lexer → Prop} (hnext : ∀ {l : Lexer}, P l → P l.next.2)
    (hpeek : ∀ {l : Lexer}, P l → P l.peek.2) (accept : σ → Token → Verdict σ ρ) (draft : σ)
    {l : Lexer} (h : P l) : P (run accept draft l).lexer := by
  induction hlength : l.remaining using Nat.strongRecOn generalizing draft l with
  | _ length ih =>
  have hsettle : ∀ (draft : σ) (go : σ → Run σ ρ), (∀ longer, P (go longer).lexer) →
      P (settle accept draft l.next.1 l.next.2 go).lexer := by
    intro draft go hgo
    unfold settle
    cases accept draft l.next.1 with
    | more longer => exact hgo longer
    | before => exact hpeek h
    | done | fault => exact hnext h
  rw [run]
  apply hsettle
  intro longer
  by_cases hwidth : 0 < l.next.1.span.width
  · rw [if_pos hwidth]
    have hshorter := l.remaining_next_add_width_le
    exact ih _ (by omega) longer (hnext h) rfl
  · rw [if_neg hwidth]
    exact hsettle longer _ fun _ => hnext h

/-- So it is true behind every session. -/
theorem serveAll_lexer {P : Lexer → Prop} (hnext : ∀ {l : Lexer}, P l → P l.next.2)
    (hpeek : ∀ {l : Lexer}, P l → P l.peek.2) {r : Reader} (h : P r.lexer)
    (requests : List Request) : P (r.serveAll requests).lexer := by
  induction requests generalizing r with
  | nil => exact h
  | cons request requests ih =>
    apply ih
    cases request with
    | parse =>
      have hrun := run_lexer hnext hpeek (Annotated.accept (ProgramDraft.accept r.logTypes))
        ⟨⟨r.statements, none⟩, r.comments⟩ h
      simp only [serve, parse]
      split <;> exact hrun
    | statement =>
      have hrun := run_lexer hnext hpeek (Annotated.accept (acceptStatement r.logTypes))
        ⟨none, r.comments⟩ h
      simp only [serve, statement]
      split
      · exact hnext h
      · split <;> exact hrun
    | construct construct => exact run_lexer hnext hpeek _ _ h
    | peek => exact hpeek h
    | next => exact hnext h

/-- How a reader goes on in front of some tokens: it passes the first ones, and finds in them, up
to one at which it may have stopped, all comments and some statements. -/
inductive GoesOn (r : Reader) (ts : List Token) : Reader → Prop where
  | intro {us gone rest : List Token} {l : Lexer} {found : List Statement} :
      ts = us ++ gone ++ rest → r.lexer.MovesTo l → l.Awaits rest →
        Along (IsStatement r.logTypes) (us.filter (·.kind != .comment)) found →
          GoesOn r ts { r with
            lexer := l
            comments := r.comments ++ commentsOf us
            statements := r.statements ++ found }

section

variable {r : Reader} {ts : List Token}

/-- A reader whose lexer hands out a token goes on without finding anything. -/
theorem GoesOn.of_lexer {gone rest : List Token} {l : Lexer} (hts : ts = gone ++ rest)
    (hmoves : r.lexer.MovesTo l) (hawaits : l.Awaits rest) :
    r.GoesOn ts { r with lexer := l } := by
  have hsplit : ts = [] ++ gone ++ rest := hts
  have h := GoesOn.intro hsplit hmoves hawaits (.nil [])
  simpa [commentsOf] using h

/-- A reader that runs a draft goes on. -/
theorem runDraft_goesOn {σ ρ : Type} {accept : σ → Token → Verdict σ ρ}
    (hv : r.lexer.vocabulary.HasNoEmptyWord) (hsettles : SettlesAtLast accept) (draft : σ)
    (hawaits : r.lexer.Awaits ts) : r.GoesOn ts (r.runDraft accept draft).2 := by
  rcases hawaits.exists_last hv with ⟨last, hmem, hlast⟩
  rcases hsettles.exists_leads draft hlast hmem with
    ⟨us, t, vs, outcome, final, rfl, hkind, hleads, houtcome⟩
  rcases run_annotated_of_leads r.comments hawaits hkind hleads houtcome with
    ⟨l, hl, hmoves, hrun⟩
  rcases hl.exists_leaves (accept final t) with ⟨gone, rest, hsplit, hrest, hleaves⟩
  have hts : us ++ t :: vs = us ++ gone ++ rest := by
    rw [hsplit, List.append_assoc]
  have h := GoesOn.intro hts (hmoves.trans hleaves) hrest (.nil _)
  simpa [runDraft, hrun] using h

/-- Reading a statement consumes the first of the tokens that are awaited. -/
theorem statement_goesOn (hv : r.lexer.vocabulary.HasNoEmptyWord) (hawaits : r.lexer.Awaits ts) :
    r.GoesOn ts r.statement.2 := by
  by_cases hkind : r.lexer.next.1.kind = .comment
  · rcases hawaits.exists_next with ⟨gone, rest, hts, hrest⟩
    simp only [statement, if_pos hkind]
    exact .of_lexer hts (.next r.lexer) hrest
  · have h := runDraft_goesOn hv (acceptStatement_settlesAtLast r.logTypes) none hawaits
    simp only [statement, if_neg hkind]
    split <;> exact h

/-- A reader that reads a program finds the statements of the tokens that it passes. -/
theorem exists_run_program (hv : r.lexer.vocabulary.HasNoEmptyWord)
    (hawaits : r.lexer.Awaits ts) :
    ∃ us t vs outcome final l, ts = us ++ t :: vs ∧
      Leads (ProgramDraft.accept r.logTypes) ⟨[], none⟩ (us.filter (·.kind != .comment)) final ∧
      (final.accept r.logTypes t).outcome? t = some outcome ∧
      l.Awaits (t :: vs) ∧ r.lexer.MovesTo l ∧
      run (Annotated.accept (ProgramDraft.accept r.logTypes))
          ⟨⟨r.statements, none⟩, r.comments⟩ r.lexer =
        ⟨outcome.map (ProgramEnd.behind r.statements),
          ⟨final.behind r.statements, r.comments ++ commentsOf us⟩,
          (final.accept r.logTypes t).leaves l⟩ := by
  rcases hawaits.exists_last hv with ⟨last, hmem, hlast⟩
  rcases (ProgramDraft.settlesAtLast r.logTypes).exists_leads ⟨[], none⟩ hlast hmem with
    ⟨us, t, vs, outcome, final, rfl, hkind, hleads, houtcome⟩
  have hsettles : ((final.behind r.statements).accept r.logTypes t).outcome? t =
      some (outcome.map (ProgramEnd.behind r.statements)) := by
    rw [ProgramDraft.accept_behind, Verdict.outcome?_map, houtcome, Option.map_some]
  rcases run_annotated_of_leads r.comments hawaits hkind
    (ProgramDraft.leads_behind r.statements hleads) hsettles with ⟨l, hl, hmoves, hrun⟩
  rw [ProgramDraft.accept_behind, Verdict.leaves_map] at hrun
  exact ⟨us, t, vs, outcome, final, l, rfl, hleads, houtcome, hl, hmoves, hrun⟩

/-- Reading a program consumes the first of the tokens that are awaited. -/
theorem parse_goesOn (hv : r.lexer.vocabulary.HasNoEmptyWord) (hawaits : r.lexer.Awaits ts) :
    r.GoesOn ts r.parse.2 := by
  rcases exists_run_program hv hawaits with
    ⟨us, t, vs, outcome, final, l, rfl, hleads, houtcome, hl, hmoves, hrun⟩
  rcases hl.exists_leaves (final.accept r.logTypes t) with ⟨gone, rest, hsplit, hrest, hleaves⟩
  rcases ProgramDraft.exists_breaksOff hleads houtcome with ⟨finished, begun, heq, hderives, -⟩
  have hts : us ++ t :: vs = us ++ gone ++ rest := by
    rw [hsplit, List.append_assoc]
  have hfound : Along (IsStatement r.logTypes) (us.filter (·.kind != .comment))
      (ProgramEnd.found final outcome) := by
    rw [heq, ← List.append_nil (ProgramEnd.found final outcome)]
    exact hderives.many.along.append (.nil begun)
  have h := GoesOn.intro hts (hmoves.trans hleaves) hrest hfound
  rw [(parse_of_run hrun).1, ProgramEnd.found_behind]
  exact h

/-- Every request makes a reader go on. -/
theorem serve_goesOn (hv : r.lexer.vocabulary.HasNoEmptyWord) (hawaits : r.lexer.Awaits ts)
    (request : Request) : r.GoesOn ts (r.serve request) := by
  cases request with
  | parse => exact parse_goesOn hv hawaits
  | statement => exact statement_goesOn hv hawaits
  | construct construct =>
    exact runDraft_goesOn hv (ConstructDraft.settlesAtLast r.logTypes) _ hawaits
  | peek => exact .of_lexer (List.nil_append ts).symm (.peek r.lexer) hawaits.peek
  | next =>
    rcases hawaits.exists_next with ⟨gone, rest, hts, hrest⟩
    exact .of_lexer hts (.next r.lexer) hrest

/-- A reader that has looked at the end of its text finds the same program again. -/
theorem parse_of_end {l : Lexer} (hlexer : r.lexer = l.peek.2) (hend : l.next.1.kind = .eof) :
    r.parse = (.ok r.program, r) := by
  have hnext : r.lexer.next = l.next := by
    rw [hlexer, Lexer.next_peek]
  have hverdict : Annotated.accept (ProgramDraft.accept r.logTypes)
      ⟨⟨r.statements, none⟩, r.comments⟩ r.lexer.next.1 = .before ⟨r.statements, none⟩ := by
    rw [hnext]
    simp [Annotated.accept, ProgramDraft.accept, ProgramDraft.acceptFirst,
      StatementDraft.begin?, hend, Verdict.map]
  have hrun : run (Annotated.accept (ProgramDraft.accept r.logTypes))
      ⟨⟨r.statements, none⟩, r.comments⟩ r.lexer =
        ⟨.ok ⟨r.statements, none⟩, ⟨⟨r.statements, none⟩, r.comments⟩, r.lexer⟩ := by
    have hstays : r.lexer.peek.2 = r.lexer := by
      rw [hlexer, Lexer.peek_peek]
    rw [run, settle_of_outcome _ (by rw [hverdict]; rfl), hverdict]
    simp only [Verdict.leaves, hstays]
  rcases parse_of_run hrun with ⟨hreader, hresult⟩
  have hsame : r.parse.2 = r := by
    rw [hreader]
    rfl
  refine Prod.ext ?_ hsame
  rw [hresult, hsame]
  rfl

/-- After a program has been read, reading again gives the same program. -/
theorem parse_parse (hv : r.lexer.vocabulary.HasNoEmptyWord) (hawaits : r.lexer.Awaits ts)
    {p : Program} (h : r.parse.1 = .ok p) : r.parse.2.parse = (.ok p, r.parse.2) := by
  rcases exists_run_program hv hawaits with
    ⟨us, t, vs, outcome, final, l, rfl, hleads, houtcome, hl, -, hrun⟩
  rcases parse_of_run hrun with ⟨hreader, hresult⟩
  rw [eq_program_of_parse h]
  have hok : ∃ statements, outcome = .ok ⟨statements, none⟩ := by
    rw [h] at hresult
    rcases outcome with error | ⟨statements, _ | error⟩
    · contradiction
    · exact ⟨statements, rfl⟩
    · contradiction
  rcases hok with ⟨statements, rfl⟩
  have hend := (ProgramDraft.kind_of_outcome hleads houtcome).1
  have hlast : t.isLast = true := by
    simp [Token.isLast, hend]
  have hverdict := ProgramDraft.accept_last r.logTypes hlast final
  obtain rfl := hl.handsOut.token
  apply parse_of_end (l := l) _ hend
  rw [hreader]
  cases hcase : final.accept r.logTypes l.next.1 with
  | before => rfl
  | more | done =>
    rw [hcase] at hverdict
    exact hverdict.elim
  | fault => simp [hcase, Verdict.outcome?] at houtcome

end

/-! ## Sessions -/

/-- A reader amid its source text: the tokens in front of it, in which it has found its comments
and its statements, and those that it awaits. -/
structure IsAmid (v : Vocabulary) (source : Text) (r : Reader) (done ts : List Token) : Prop where
  vocabulary : r.lexer.vocabulary = v
  tokens : (Cursor.ofText (normalize source)).visible v = done ++ ts
  awaits : r.lexer.Awaits ts
  comments : r.comments.Sublist (commentsOf done)
  statements : Along (IsStatement v.logTypes) (done.filter (·.kind != .comment)) r.statements

/-- What a reader has found stays found, and its place does not move back. -/
structure GrowsTo (r r' : Reader) : Prop where
  offset : r.lexer.cursor.offset ≤ r'.lexer.cursor.offset
  comments : r.comments <+: r'.comments
  statements : r.statements <+: r'.statements

theorem GrowsTo.refl (r : Reader) : r.GrowsTo r :=
  ⟨Nat.le_refl _, List.prefix_refl _, List.prefix_refl _⟩

theorem GrowsTo.trans {a b c : Reader} (hab : a.GrowsTo b) (hbc : b.GrowsTo c) : a.GrowsTo c :=
  ⟨hab.offset.trans hbc.offset, hab.comments.trans hbc.comments,
    hab.statements.trans hbc.statements⟩

/-- A reader that goes on keeps what it has found. -/
theorem GoesOn.growsTo {r r' : Reader} {ts : List Token} (h : r.GoesOn ts r') :
    r.GrowsTo r' := by
  cases h with
  | intro _ hmoves _ _ => exact ⟨hmoves.offset, List.prefix_append .., List.prefix_append ..⟩

section

variable {v : Vocabulary} {source : Text} {r r' : Reader} {done ts : List Token}

/-- A new reader has found nothing and awaits all tokens. -/
theorem isAmid_ofSource (v : Vocabulary) (source file sourceType : Text) :
    (ofSource v source file sourceType).IsAmid v source []
      ((Cursor.ofText (normalize source)).visible v) where
  vocabulary := rfl
  tokens := rfl
  awaits := Lexer.awaits_visible rfl
  comments := .refl []
  statements := .nil []

/-- A reader that goes on is amid its source text, further on. -/
theorem GoesOn.isAmid (h : r.GoesOn ts r') (hamid : r.IsAmid v source done ts) :
    ∃ passed rest, r'.IsAmid v source (done ++ passed) rest := by
  cases h with
  | @intro us gone rest l found hts hmoves hawaits hfound =>
    refine ⟨us ++ gone, rest, hmoves.vocabulary.trans hamid.vocabulary, ?_, hawaits, ?_, ?_⟩
    · simp only [hamid.tokens, hts, List.append_assoc]
    · rw [← List.append_assoc, commentsOf_append, commentsOf_append]
      exact (hamid.comments.append (.refl _)).trans (List.sublist_append_left _ _)
    · have hlogTypes : r.logTypes = v.logTypes := by
        rw [logTypes, hamid.vocabulary]
      rw [hlogTypes] at hfound
      rw [List.filter_append, List.filter_append]
      have hgone := hfound.append (.nil (gone.filter (·.kind != .comment)))
      rw [List.append_nil] at hgone
      exact hamid.statements.append hgone

/-- However many requests are made, a reader stays amid its source text. -/
theorem serveAll_isAmid (hv : v.HasNoEmptyWord) (hamid : r.IsAmid v source done ts)
    (requests : List Request) : (∃ passed rest, (r.serveAll requests).IsAmid v source passed rest) ∧
      r.GrowsTo (r.serveAll requests) := by
  induction requests generalizing r done ts with
  | nil => exact ⟨⟨done, ts, hamid⟩, .refl r⟩
  | cons request requests ih =>
    have hstep := serve_goesOn (hamid.vocabulary ▸ hv) hamid.awaits request
    rcases hstep.isAmid hamid with ⟨passed, rest, hbehind⟩
    rcases ih hbehind with ⟨hafter, hgrows⟩
    exact ⟨hafter, hstep.growsTo.trans hgrows⟩

/-- The tokens that a reader has passed are tokens of its source text in front of the last one. -/
theorem IsAmid.isExcerpt (hv : v.HasNoEmptyWord) (h : r.IsAmid v source done ts) :
    IsExcerpt v source done := by
  constructor
  · have hfront := List.sublist_append_left done ts
    rw [← h.tokens, Cursor.visible, ← tokensOf_eq_tokens hv] at hfront
    exact hfront.trans List.filter_sublist
  · intro t ht
    rw [← Bool.not_eq_true]
    intro hlast
    rcases (Cursor.ofText (normalize source)).visible_eq_concat hv with
      ⟨body, last, hvisible, -, hbody⟩
    rcases List.append_of_mem ht with ⟨us, vs, rfl⟩
    -- Nothing stands behind such a token, but a reader always awaits one more.
    have hsplit : body ++ [last] = us ++ t :: (vs ++ ts) := by
      rw [← hvisible, h.tokens, List.append_assoc, List.cons_append]
    exact h.awaits.ne_nil (List.append_eq_nil_iff.mp (eq_nil_of_isLast hbody hsplit hlast)).2

end

/-- A reader keeps what it has found in order: its comments are different comments of the source
text, each behind the one before it, and so are its statements; both lists, and the place of the
lexer, only grow; and a program that has been read is read again as it is. -/
structure KeepsOrder (v : Vocabulary) (source : Text) (r : Reader) : Prop where
  comments : ∃ ts : List Token, ts.Sublist (commentTokens v source) ∧
    r.comments = ts.map Token.toComment
  distinct : r.comments.Nodup
  commentsPrecede : r.comments.Pairwise fun a b => a.span.Precedes b.span
  statementsPrecede : r.statements.Pairwise fun a b => a.span.Precedes b.span
  nonempty : (∀ c ∈ r.comments, c.span.start < c.span.stop) ∧
    ∀ s ∈ r.statements, s.span.start < s.span.stop
  grows : ∀ requests, r.GrowsTo (r.serveAll requests)
  again : ∀ p, r.parse.1 = .ok p → r.parse.2.parse.1 = .ok p

section

variable {v : Vocabulary} {source : Text} {r : Reader} {done ts : List Token}

/-- The comments found amid a source text are comment tokens of it. -/
theorem IsAmid.exists_comments (hv : v.HasNoEmptyWord) (h : r.IsAmid v source done ts) :
    ∃ cs : List Token, cs.Sublist (commentTokens v source) ∧
      r.comments = cs.map Token.toComment := by
  rcases List.sublist_map_iff.mp h.comments with ⟨cs, hcs, heq⟩
  exact ⟨cs, hcs.trans ((h.isExcerpt hv).sublist.filter _), heq⟩

/-- The spans of the statements found amid a source text are not empty, and follow each other. -/
theorem IsAmid.statements_precede (hv : v.HasNoEmptyWord) (h : r.IsAmid v source done ts) :
    (∀ s ∈ r.statements, s.span.start < s.span.stop) ∧
      r.statements.Pairwise fun a b => a.span.Precedes b.span := by
  have horder : InOrder (done.filter (·.kind != .comment)) :=
    ((h.isExcerpt hv).inOrder hv).sublist List.filter_sublist
  constructor
  · intro s hs
    rcases h.statements.exists_piece s hs with ⟨us, hus, hrow⟩
    have hread : Node.IsReadFrom v.logTypes us s.toNode := .statement hus
    rw [Statement.span, hread.span_eq]
    exact (horder.sublist hrow.sublist).spanOf_nonempty hread.ne_nil
  · have halong : Along (Node.IsReadFrom v.logTypes) (done.filter (·.kind != .comment))
        (r.statements.map Statement.toNode) := h.statements.map .statement
    have hspans := halong.pairwise_precedes horder
    rwa [List.pairwise_map] at hspans

/-- A reader amid its source text keeps what it has found in order. -/
theorem IsAmid.keepsOrder (hv : v.HasNoEmptyWord) (h : r.IsAmid v source done ts) :
    r.KeepsOrder v source := by
  rcases h.exists_comments hv with ⟨cs, hcs, hcomments⟩
  have horder : InOrder cs :=
    ((isExcerpt_commentTokens v source).of_sublist hcs).inOrder hv
  have hnonempty : ∀ c ∈ r.comments, c.span.start < c.span.stop := by
    simpa [hcomments, Token.toComment] using horder.nonempty
  have hprecede : r.comments.Pairwise fun a b => a.span.Precedes b.span := by
    rw [hcomments, List.pairwise_map]
    exact horder.pairwise
  have hstatements := h.statements_precede hv
  constructor
  case comments => exact ⟨cs, hcs, hcomments⟩
  case distinct =>
    refine hprecede.imp_of_mem ?_
    rintro a b ha - hab rfl
    exact Nat.not_lt.mpr hab (hnonempty a ha)
  case commentsPrecede => exact hprecede
  case statementsPrecede => exact hstatements.2
  case nonempty => exact ⟨hnonempty, hstatements.1⟩
  case grows => exact fun requests => (serveAll_isAmid hv h requests).2
  case again =>
    intro p hp
    rw [parse_parse (h.vocabulary ▸ hv) h.awaits hp]

end

/-- Whatever is asked of a reader and its lexer, and whatever errors there are on the way, what it
has found is and stays in order. -/
theorem serveAll_keepsOrder {v : Vocabulary} (hv : v.HasNoEmptyWord)
    (source file sourceType : Text) (requests : List Request) :
    ((ofSource v source file sourceType).serveAll requests).KeepsOrder v source := by
  rcases (serveAll_isAmid hv (isAmid_ofSource v source file sourceType) requests).1 with
    ⟨done, ts, hamid⟩
  exact hamid.keepsOrder hv

/-- A comment that is read as a statement, one that is found on the way to an error, a statement
behind the error, and a jump without an entry. -/
theorem serveAll_keepsOrder_errors :
    let source := "# a\nhideall # b\n5 jump 6 # c\nhideall 'd'".toList
    let requests : List Request :=
      [.peek, .statement, .parse, .next, .construct .jump, .construct .jump, .parse]
    Vocabulary.default.HasNoEmptyWord ∧
      ((ofSource .default source [] "module".toList).serveAll requests).KeepsOrder
        .default source :=
  ⟨Vocabulary.hasNoEmptyWord_default,
    serveAll_keepsOrder Vocabulary.hasNoEmptyWord_default _ _ _ _⟩

end Reader

end RaidTimeline
