import RaidTimeline.Proofs.Rejection
import RaidTimeline.Proofs.Scans

/-!
# Where reading stops

Reading stops at the end of the text or at the token at fault.  By then every comment in front of
that token has been found, and so have the statements that are complete in front of it; the tokens
behind these are the beginning of one more statement.

Main results:

- Theorem {lit}`exists_stopped`: where reading stops, for every source text.
- Theorems {lit}`exists_visible_of_parseSource` and {lit}`exists_parseSource_of_visible`: accepted
  source texts and their tokens.
- Theorem {lit}`ProgramDraft.exists_breaksOff`: what a program has found where it settles.
- Definition {lit}`Reader.Keeps`: what a reader has found, and what is left unfinished.
- Theorem {lit}`Reader.parse_keeps`: a reader loses nothing and repeats nothing.
-/

namespace RaidTimeline

/-! ## Stopping -/

/-- Reading stops at a token of the source text. -/
theorem exists_stopped {v : Vocabulary} (hv : v.HasNoEmptyWord)
    (source file sourceType : Text) :
    ∃ us t vs outcome final,
      (Cursor.ofText (normalize source)).visible v = us ++ t :: vs ∧ t.kind ≠ .comment ∧
        Leads (ProgramDraft.accept v.logTypes) ⟨[], none⟩ (us.filter (·.kind != .comment)) final ∧
          (final.accept v.logTypes t).outcome? t = some outcome ∧
            ((Reader.ofSource v source file sourceType).parse).2.Stopped
              ((Reader.ofSource v source file sourceType).parse).1 outcome final us t := by
  rcases (Cursor.ofText (normalize source)).visible_eq_concat hv with
    ⟨body, last, hvisible, hlast, -⟩
  have hmem : last ∈ (Cursor.ofText (normalize source)).visible v := by
    simp [hvisible]
  rcases (ProgramDraft.settlesAtLast v.logTypes).exists_leads ⟨[], none⟩ hlast hmem with
    ⟨us, t, vs, outcome, final, hvisible, hkind, hleads, houtcome⟩
  exact ⟨us, t, vs, outcome, final, hvisible, hkind, hleads, houtcome,
    Reader.parse_of_leads hvisible hkind hleads houtcome⟩

/-- A program that settles without an error does so at the end of the text. -/
theorem ProgramDraft.kind_of_outcome {logTypes : List Text} {ts : List Token} {p : ProgramDraft}
    {t : Token} {statements : List Statement}
    (hleads : Leads (accept logTypes) ⟨[], none⟩ ts p)
    (houtcome : (p.accept logTypes t).outcome? t = some (.ok ⟨statements, none⟩)) :
    t.kind = .eof ∧ Derives logTypes ts statements := by
  have hstep := accept_meets (begun_of_leads hleads) t
  cases hverdict : p.accept logTypes t with
  | more | fault => simp [hverdict, Verdict.outcome?] at houtcome
  | done =>
    rw [hverdict] at hstep
    exact hstep.elim
  | before result =>
    rw [hverdict] at hstep houtcome
    cases houtcome
    exact hstep rfl

/-- A source text is rejected with the error with which its statements settle. -/
theorem parseSource_eq_error_of_leads {v : Vocabulary} {source file : Text} {us vs : List Token}
    {t : Token} {outcome : Except ParseError ProgramEnd} {final : ProgramDraft} {e : ParseError}
    (hvisible : (Cursor.ofText (normalize source)).visible v = us ++ t :: vs)
    (hkind : t.kind ≠ .comment)
    (hleads : Leads (ProgramDraft.accept v.logTypes) ⟨[], none⟩
      (us.filter (·.kind != .comment)) final)
    (houtcome : (final.accept v.logTypes t).outcome? t = some outcome)
    (hresult : ProgramEnd.result outcome = .error e) : parseSource v source file = .error e := by
  have hbody : (parseSource v source file).map Program.body = ProgramEnd.result outcome :=
    (Reader.parse_of_leads hvisible hkind hleads houtcome).body
  cases hparse : parseSource v source file with
  | ok p =>
    rw [hparse, hresult] at hbody
    contradiction
  | error e' =>
    rw [hparse, hresult] at hbody
    cases hbody
    rfl

/-- The tokens of an accepted source text end with the end of the text and derive its statements,
but for the comments, which are its comments. -/
theorem exists_visible_of_parseSource {v : Vocabulary} (hv : v.HasNoEmptyWord)
    {source file : Text} {p : Program} (h : parseSource v source file = .ok p) :
    ∃ ts t, (Cursor.ofText (normalize source)).visible v = ts ++ [t] ∧ t.kind = .eof ∧
      Derives v.logTypes (ts.filter (·.kind != .comment)) p.body ∧
        p.comments = commentsOf ts := by
  rcases exists_stopped hv source file "module".toList with
    ⟨us, t, vs, outcome, final, hvisible, hkind, hleads, houtcome, hstopped⟩
  have hresult := hstopped.body
  change (parseSource v source file).map _ = _ at hresult
  rw [h] at hresult
  obtain rfl := ProgramEnd.eq_ok_of_result hresult.symm
  rcases ProgramDraft.kind_of_outcome hleads houtcome with ⟨hend, hderives⟩
  rcases (Cursor.ofText (normalize source)).visible_eq_concat hv with
    ⟨body, last, hconcat, -, hbody⟩
  obtain rfl := eq_nil_of_isLast hbody (hconcat.symm.trans hvisible)
    (by simp [Token.isLast, hend])
  exact ⟨us, t, hvisible, hend, hderives, (hstopped.program p h).trans hstopped.comments⟩

/-- The other way round, such tokens are those of an accepted source text. -/
theorem exists_parseSource_of_visible {v : Vocabulary} (hv : v.HasNoEmptyWord) {source : Text}
    (file : Text) {ts : List Token} {t : Token} {statements : List Statement}
    (hvisible : (Cursor.ofText (normalize source)).visible v = ts ++ [t]) (hend : t.kind = .eof)
    (hderives : Derives v.logTypes (ts.filter (·.kind != .comment)) statements) :
    ∃ p, parseSource v source file = .ok p ∧ p.body = statements ∧ p.comments = commentsOf ts := by
  have htokens : significantTokens v source = ts.filter (·.kind != .comment) ++ [t] := by
    rw [significantTokens_eq hv, hvisible, List.filter_append, List.filter_cons_of_pos
      (by simp [hend]), List.filter_nil]
  rcases (parseSource_ok_iff_derives hv source file statements).mpr
    ⟨_, t, htokens, hend, hderives⟩ with ⟨p, hp, hbody⟩
  rcases exists_visible_of_parseSource hv hp with ⟨us, u, hvisible', -, -, hcomments⟩
  rw [hvisible] at hvisible'
  exact ⟨p, hp, hbody, by rw [hcomments, (List.append_inj' hvisible' rfl).1]⟩

/-- Whether a source text is accepted can be evaluated. -/
theorem exists_parseSource_of_isOk {v : Vocabulary} {source file : Text}
    (h : (parseSource v source file).isOk = true) : ∃ p, parseSource v source file = .ok p := by
  cases hparse : parseSource v source file with
  | ok p => exact ⟨p, rfl⟩
  | error e => simp [hparse, Except.isOk, Except.toBool] at h

/-- The comments of an accepted source text are all of its comments. -/
theorem comments_of_parseSource {v : Vocabulary} (hv : v.HasNoEmptyWord) {source file : Text}
    {p : Program} (h : parseSource v source file = .ok p) :
    p.comments = commentsOf ((Cursor.ofText (normalize source)).visible v) := by
  rcases exists_visible_of_parseSource hv h with ⟨ts, t, hvisible, hkind, -, hcomments⟩
  rw [hcomments, hvisible]
  simp [commentsOf, hkind]

/-! ## What has been found -/

/-- Tokens lead from a draft to no more than one other draft. -/
theorem Leads.unique {σ ρ : Type} {accept : σ → Token → Verdict σ ρ} {a b c : σ}
    {ts : List Token} (hb : Leads accept a ts b) (hc : Leads accept a ts c) : b = c := by
  induction hb with
  | refl =>
    cases hc
    rfl
  | step longer hmore _ ih =>
    cases hc with
    | step longer' hmore' hrest =>
      rw [hmore] at hmore'
      cases hmore'
      exact ih hrest

/-- The first token of a statement that is not finished is one with which a statement may begin. -/
theorem StatementDraft.Begun.breaks {logTypes : List Text} {t : Token} {ts : List Token}
    {d : StatementDraft} (h : d.Begun logTypes (t :: ts)) : t.Breaks := by
  have hkeyword : ∀ {keyword : Token} {word : Text} {us : List Token}, t :: ts = keyword :: us →
      keyword.holds .keyword word = true →
        word ∈ ["hideall".toList, "alertall".toList, "define".toList] → t.Breaks := by
    rintro keyword word us heq hword hmem
    cases heq
    rcases (Token.holds_iff ..).mp hword with ⟨hkind, rfl⟩
    apply Or.inr
    simp only [List.mem_cons, List.not_mem_nil, or_false] at hmem
    rcases hmem with hmem | hmem | hmem <;> simp [begin?, hkind, hmem]
  have hextended : ∀ {us vs : List Token} {s : Statement}, t :: ts = us ++ vs →
      IsStatement logTypes us s → t.Breaks := by
    intro us vs s heq hs
    rcases hs.exists_first with ⟨first, rest, rfl, -⟩
    rw [(List.cons.inj heq).1]
    exact Or.inr hs.isSome_begin?
  cases d with
  | hideAll keyword | alertAll keyword | define keyword => exact hkeyword h.1 h.2 (by simp)
  | defineName keyword defineType => exact hkeyword h.1 h.2.1 (by simp)
  | defineFile keyword defineType name => exact hkeyword h.1 h.2.1 (by simp)
  | alertMore a => exact Or.inr (IsStatement.isSome_begin? h)
  | entryMore e => exact Or.inr (IsStatement.isSome_begin? h)
  | alertBefore a keyword | alertSound a keyword =>
    rcases h with ⟨us, heq, hs, -⟩
    exact hextended heq hs
  | entryModifier e d =>
    rcases h with ⟨us, vs, heq, hs, -⟩
    exact hextended heq hs
  | entry time =>
    rcases h with ⟨heq, hkind⟩
    cases heq
    exact Or.inr (by simp [begin?, hkind])

/-- A statement that is complete at the end of the text is at fault nowhere. -/
theorem StatementDraft.accept_ne_fault {logTypes : List Text} {d : StatementDraft}
    {s : Statement} (h : d.accept logTypes (.sample .eof []) = .before s) (t : Token)
    (cause : Fault) : d.accept logTypes t ≠ .fault cause := by
  have hentry : ∀ e : Entry, acceptEntry logTypes e t ≠ .fault cause := by
    intro e
    unfold acceptEntry
    split <;> simp
  cases d with
  | alertMore a =>
    simp only [accept, acceptAlert]
    split_ifs <;> simp
  | entryMore e => exact hentry e
  | entryModifier e d =>
    cases d with
    | windowComma keyword before =>
      simp only [accept, ModifierDraft.accept]
      split_ifs
      · simp
      · exact hentry _
    | block d => cases d <;> contradiction
    | regex | window | windowAfter | jump | duration => contradiction
  | hideAll | alertAll | alertBefore | alertSound | define | defineName | defineFile | entry =>
    contradiction

/-- Tokens that are the beginning of a statement, but not one yet, and do not go on with a given
token. -/
structure BreaksOff (logTypes : List Text) (ts : List Token) (stop : Token) : Prop where
  begins : ∃ us s, IsStatement logTypes (ts ++ us) s
  unfinished : ∀ s, ¬IsStatement logTypes ts s
  stuck : ∀ us s, ¬IsStatement logTypes (ts ++ stop :: us) s

/-- No statement has begun in front of a token that begins none. -/
theorem breaksOff_nil {logTypes : List Text} {stop : Token}
    (h : StatementDraft.begin? stop = none) : BreaksOff logTypes [] stop where
  begins := ⟨[.sample .keyword "hideall".toList, .sample .string []], _, .hideAll rfl rfl⟩
  unfinished s hs := by
    rcases hs.exists_first with ⟨first, rest, heq, -⟩
    contradiction
  stuck us s hs := by
    have hbegin := hs.isSome_begin?
    rw [h] at hbegin
    contradiction

/-- The beginning of a statement that a draft has consumed breaks off where the draft is at
fault. -/
theorem breaksOff_of_fault {logTypes : List Text} {ts : List Token} {d : StatementDraft}
    {statements : List Statement} {stop : Token} {cause : Fault} (hbegun : d.Begun logTypes ts)
    (hleads : Leads (ProgramDraft.accept logTypes) ⟨statements, none⟩ ts ⟨statements, some d⟩)
    (hfault : d.accept logTypes stop = .fault cause) : BreaksOff logTypes ts stop := by
  constructor
  · rcases d.exists_complete logTypes with ⟨us, final, hcomplete, hend⟩
    have hfinal : final.Begun logTypes (ts ++ us) := by
      refine hcomplete.invariant (fun d ts => d.Begun logTypes ts) ?_ hbegun
      intro a b vs t ha hmore
      have hstep := StatementDraft.accept_meets ha t
      rwa [hmore] at hstep
    rcases hend with ⟨t, s, hdone⟩ | ⟨s, hbefore⟩
    · have hstep := StatementDraft.accept_meets hfinal t
      rw [hdone, List.append_assoc] at hstep
      exact ⟨us ++ [t], s, hstep.1⟩
    · have hstep := StatementDraft.accept_meets hfinal (.sample .eof [])
      rw [hbefore] at hstep
      exact ⟨us, s, hstep.1⟩
  · -- A statement that were complete here would be complete at the end of the text.
    intro s hs
    rcases hs.leads statements with ⟨p, hp, hrest⟩
    obtain rfl := hleads.unique hp
    have hend := hrest (.sample .eof []) (Or.inl rfl) fun _ _ _ _ hkind => by contradiction
    simp only [ProgramDraft.accept] at hend
    cases hverdict : d.accept logTypes (.sample .eof []) with
    | before s' => exact StatementDraft.accept_ne_fault hverdict stop cause hfault
    | more | done | fault =>
      rw [hverdict] at hend
      contradiction
  · intro us s hs
    rcases hs.leads statements with ⟨p, hp, -⟩
    rcases hp.of_append with ⟨q, hq, hstep⟩
    obtain rfl := hleads.unique hq
    cases hstep with
    | step longer hmore _ => simp [ProgramDraft.accept, hfault] at hmore

/-- Where a program settles, the tokens that it has consumed are those of its statements and the
beginning of one more, which breaks off there. -/
theorem ProgramDraft.exists_breaksOff {logTypes : List Text} {ts : List Token}
    {p : ProgramDraft} {t : Token} {outcome : Except ParseError ProgramEnd}
    (hleads : Leads (accept logTypes) ⟨[], none⟩ ts p)
    (houtcome : (p.accept logTypes t).outcome? t = some outcome) :
    ∃ us vs, ts = us ++ vs ∧ Derives logTypes us (ProgramEnd.found p outcome) ∧
      BreaksOff logTypes vs t ∧ (vs ≠ [] → ∃ e, outcome = .error e) := by
  have hfirst : ∀ {statements}, Derives logTypes ts statements →
      (acceptFirst statements t).outcome? t = some outcome →
        ∃ us vs, ts = us ++ vs ∧ Derives logTypes us (ProgramEnd.found p outcome) ∧
          BreaksOff logTypes vs t ∧ (vs ≠ [] → ∃ e, outcome = .error e) := by
    intro statements hderives hsettles
    have hbegin : StatementDraft.begin? t = none := by
      cases hbegin : StatementDraft.begin? t with
      | none => rfl
      | some d => simp [acceptFirst, hbegin, Verdict.outcome?] at hsettles
    have hfound : ProgramEnd.found p outcome = statements := by
      rcases acceptFirst_cases statements t with ⟨d, hsome, -⟩ | ⟨-, heq⟩ | ⟨cause, heq, -⟩
      · rw [hbegin] at hsome
        contradiction
      · rw [heq] at hsettles
        cases hsettles
        rfl
      · rw [heq] at hsettles
        cases hsettles
        rfl
    exact ⟨ts, [], by simp, hfound ▸ hderives, breaksOff_nil hbegin, by simp⟩
  have hbegun := begun_of_leads hleads
  rcases p with ⟨statements, current⟩
  cases current with
  | none => exact hfirst hbegun.1 houtcome
  | some d =>
    rcases hbegun with ⟨us, first, vs, rfl, hus, happly, hd⟩
    have hstep := StatementDraft.accept_meets hd t
    simp only [accept] at houtcome
    cases hverdict : d.accept logTypes t with
    | more | done => simp [hverdict, Verdict.outcome?] at houtcome
    | before s =>
      rw [hverdict] at hstep houtcome
      exact hfirst (hus.concat hstep.1 happly) houtcome
    | fault cause =>
      rw [hverdict] at houtcome
      cases houtcome
      -- The statement has begun where the program was at rest behind the ones before.
      rcases hus.leads with ⟨q, hq, hrest⟩
      rcases hleads.of_append with ⟨q', hq', hvs⟩
      obtain rfl := hq.unique hq'
      have hstatement : Leads (accept logTypes) ⟨statements, none⟩ (first :: vs)
          ⟨statements, some d⟩ := by
        cases hvs with
        | step longer hmore hvs =>
          rw [hrest first hd.breaks happly] at hmore
          exact .step longer hmore hvs
      exact ⟨us, first :: vs, rfl, hus, breaksOff_of_fault hd hstatement hverdict,
        fun _ => ⟨_, rfl⟩⟩

/-! ## The cut in front of what is unfinished -/

/-- The last token of several constructs is one of a construct. -/
theorem Many.getLast?_of {α : Type} {IsItem : List Token → α → Prop} {P : Token → Prop}
    (hitem : ∀ {us x}, IsItem us x → ∀ t ∈ us.getLast?, P t) {ts : List Token} {xs : List α}
    (h : Many IsItem ts xs) : ∀ t ∈ ts.getLast?, P t := by
  induction h with
  | nil => simp
  | @concat ts us xs x _ hx ih =>
    intro t ht
    rw [List.getLast?_append] at ht
    cases hlast : us.getLast? with
    | none => exact ih t (by simpa [hlast] using ht)
    | some u => exact hitem hx t (by simpa [hlast] using ht)

/-- No part of an alert ends with a keyword. -/
theorem IsAlertPart.getLast?_ne_keyword {ts : List Token} {part : AlertPart}
    (h : IsAlertPart ts part) : ∀ t ∈ ts.getLast?, t.kind ≠ .keyword := by
  cases h <;> simp_all

/-- No modifier ends with a keyword. -/
theorem IsModifier.getLast?_ne_keyword {logTypes : List Text} {ts : List Token} {m : Modifier}
    (h : IsModifier logTypes ts m) : ∀ t ∈ ts.getLast?, t.kind ≠ .keyword := by
  cases h <;> simp_all [List.getLast?_cons]

/-- No statement ends with a keyword. -/
theorem IsStatement.getLast?_ne_keyword {logTypes : List Text} {ts : List Token} {s : Statement}
    (h : IsStatement logTypes ts s) : ∀ t ∈ ts.getLast?, t.kind ≠ .keyword := by
  have hbehind : ∀ {first name : Token} {us : List Token}, name.kind = .string →
      (∀ t ∈ us.getLast?, t.kind ≠ .keyword) →
        ∀ t ∈ (first :: name :: us).getLast?, t.kind ≠ .keyword := by
    intro first name us hname hus t ht
    cases hlast : us.getLast? with
    | none => simp_all [List.getLast?_cons]
    | some u => simp_all [List.getLast?_cons]
  cases h with
  | hideAll _ hname => exact hbehind hname (by simp)
  | alertAll _ hname hparts =>
    exact hbehind hname (hparts.getLast?_of IsAlertPart.getLast?_ne_keyword)
  | entry _ hname hparts =>
    exact hbehind hname (hparts.getLast?_of IsModifier.getLast?_ne_keyword)
  | define _ _ _ hfile => simp [hfile]

/-- Every beginning of the normal form of a source text is the normal form of a beginning. -/
theorem exists_take_normalize (source : Text) (n : Nat) :
    ∃ m, normalize (source.take m) = (normalize source).take n := by
  have hfold : ∀ (t : Text) (n : Nat),
      ∃ m, Text.foldLineEnds (t.take m) = (Text.foldLineEnds t).take n := by
    intro t
    fun_induction Text.foldLineEnds t with
    | case1 => exact fun n => ⟨0, by simp [Text.foldLineEnds]⟩
    | case2 rest ih =>
      intro n
      cases n with
      | zero => exact ⟨0, by simp [Text.foldLineEnds]⟩
      | succ n =>
        rcases ih n with ⟨m, hm⟩
        exact ⟨m + 2, by simp [Text.foldLineEnds, hm]⟩
    | case3 c rest hpair ih =>
      intro n
      cases n with
      | zero => exact ⟨0, by simp [Text.foldLineEnds]⟩
      | succ n =>
        rcases ih n with ⟨m, hm⟩
        refine ⟨m + 1, ?_⟩
        rw [List.take_succ_cons, Text.foldLineEnds.eq_3, hm, List.take_succ_cons]
        rintro tail rfl htake
        cases rest with
        | nil => simp at htake
        | cons d rest =>
          cases m with
          | zero => simp at htake
          | succ m =>
            rw [List.take_succ_cons] at htake
            exact hpair rest rfl (by rw [(List.cons.inj htake).1])
  cases source with
  | nil => exact ⟨0, by simp [normalize, Text.dropMark, Text.foldLineEnds]⟩
  | cons c source =>
    by_cases hmark : c = byteOrderMark
    · rcases hfold source n with ⟨m, hm⟩
      exact ⟨m + 1, by simp [normalize, Text.dropMark, hmark, hm]⟩
    · rcases hfold (c :: source) n with ⟨m, hm⟩
      refine ⟨m, ?_⟩
      have hdrop : Text.dropMark ((c :: source).take m) = (c :: source).take m := by
        cases m <;> simp [Text.dropMark, hmark]
      rw [normalize, normalize, hdrop, hm, Text.dropMark, if_neg hmark]

/-- A cut between two word characters of a text. -/
def CutsWord (text : Text) (offset : Nat) : Prop :=
  isWordAt (text.take offset).getLast? = true ∧ isWordAt (text.drop offset).head? = true

instance (text : Text) (offset : Nat) : Decidable (CutsWord text offset) :=
  inferInstanceAs (Decidable (_ ∧ _))

/-- The statements in front of a token are those of the source text that is cut at the token. -/
theorem exists_parseSource_take {v : Vocabulary} (hv : v.HasNoEmptyWord) {source : Text}
    {done behind : List Token} {first : Token} {statements : List Statement}
    (htokens : tokensOf v source ⟨true, true⟩ = done ++ first :: behind)
    (hderives : Derives v.logTypes (done.filter Token.isSignificant) statements)
    (hcut : v.HasWords ∨ ¬CutsWord (normalize source) first.span.start) (file : Text) :
    ∃ n p, normalize (source.take n) = (normalize source).take first.span.start ∧
      parseSource v (source.take n) file = .ok p ∧ p.body = statements := by
  rw [tokensOf_eq_tokens hv, Cursor.ofText_eq_between] at htokens
  rcases exists_scans hv htokens (by simp) with ⟨w, htext, hscans, hrest⟩
  rw [List.nil_append] at hrest
  have hstart : first.span.start = (written done).length :=
    (Cursor.tokens_covers hv (written done) w).starts first (by simp [← hrest])
  have htake : (normalize source).take first.span.start = written done := by
    rw [htext, hstart, List.take_left]
  have hdrop : (normalize source).drop first.span.start = w := by
    rw [htext, hstart, List.drop_left]
  have hkeyword : ∀ t ∈ done.getLast?, t.kind ≠ .keyword := by
    intro t ht hkind
    rcases List.getLast?_eq_some_iff.mp ht with ⟨us, rfl⟩
    apply hderives.many.getLast?_of IsStatement.getLast?_ne_keyword t _ hkind
    simp [Token.isSignificant, hkind]
  have hcut' : Scans v [] [] done := by
    rcases hcut with hwords | hboundary
    · exact hscans.interchange (Interchanges.of_hasWords hwords Separates.nil) fun _ _ =>
        ⟨fun _ => by simp, fun _ => EndsLine.nil⟩
    · refine hscans.interchange (Interchanges.of_boundary ?_) hkeyword
      rw [CutsWord, htake, hdrop, not_and, Bool.not_eq_true] at hboundary
      exact hboundary
  rcases exists_take_normalize source first.span.start with ⟨n, hn⟩
  have hend : tokensOf v (source.take n) ⟨true, true⟩ =
      done ++ [(Cursor.between (written done) []).emptyToken .eof] := by
    have htokens := hcut'.tokens_eq hv
    rw [tokensOf_eq_tokens hv, hn, htake, Cursor.ofText_eq_between,
      ← List.append_nil (written done), htokens, List.append_nil, List.nil_append,
      Cursor.tokens_nil]
  rcases (parseSource_ok_iff_derives hv (source.take n) file statements).mpr
    ⟨done.filter Token.isSignificant, _, by rw [significantTokens, hend]; simp; rfl, rfl, hderives⟩
    with ⟨p, hparse, hbody⟩
  exact ⟨n, p, hn, hparse, hbody⟩

/-! ## Readers -/

/-- What a reader has found in a source text when it has stopped at a token: the tokens in front
of that are {lit}`done`, which make up the statements found, and {lit}`unfinished`. -/
structure Reader.Keeps (v : Vocabulary) (source : Text) (result : Except ParseError Program)
    (r : Reader) (done unfinished : List Token) (stop : Token) : Prop where
  ok : ∀ p, result = .ok p →
    unfinished = [] ∧ stop.kind = .eof ∧ p.body = r.statements ∧ p.comments = r.comments
  error : ∀ e, result = .error e → e.token = stop
  comments : r.comments = commentsOf (done ++ unfinished)
  derives : Derives v.logTypes (done.filter Token.isSignificant) r.statements
  begins : ∀ t ∈ unfinished.head?, t.isSignificant = true
  breaksOff : BreaksOff v.logTypes (unfinished.filter Token.isSignificant) stop
  lexer : r.lexer.IsBehind stop
  cut : v.HasWords ∨ ¬CutsWord (normalize source) (unfinished.headD stop).span.start →
    ∀ file, ∃ n p,
      normalize (source.take n) = (normalize source).take (unfinished.headD stop).span.start ∧
        parseSource v (source.take n) file = .ok p ∧ p.body = r.statements

/-- Wherever a reader stops, it has lost or repeated nothing: its comments are those in front of
the token at which it stops, its statements are those that are complete in front of it, which are
also those of the source text up to there, and its lexer is behind that token. -/
theorem Reader.parse_keeps {v : Vocabulary} (hv : v.HasNoEmptyWord)
    (source file sourceType : Text) :
    ∃ done unfinished stop rest,
      tokensOf v source ⟨true, true⟩ = done ++ unfinished ++ stop :: rest ∧
        ((ofSource v source file sourceType).parse).2.Keeps v source
          ((ofSource v source file sourceType).parse).1 done unfinished stop := by
  rcases exists_stopped hv source file sourceType with
    ⟨us, stop, vs, outcome, final, hvisible, hkind, hleads, houtcome, hstopped⟩
  rw [Cursor.visible, ← tokensOf_eq_tokens hv] at hvisible
  rcases exists_filter_eq_append_cons hvisible with ⟨ys, rest, htokens, rfl, -⟩
  rw [← filter_isSignificant] at hleads
  rcases ProgramDraft.exists_breaksOff hleads houtcome with
    ⟨found, open', hsplit, hderives, hbreaks, herror⟩
  -- The unfinished statement begins with the first of its tokens, so layout and comments in front
  -- of that are behind the statement before.
  obtain ⟨done, unfinished, rfl, hdone, hunfinished, hbegins⟩ : ∃ done unfinished,
      ys = done ++ unfinished ∧ done.filter Token.isSignificant = found ∧
        unfinished.filter Token.isSignificant = open' ∧
          ∀ t ∈ unfinished.head?, t.isSignificant = true := by
    cases open' with
    | nil => exact ⟨ys, [], by simp, by simpa using hsplit, rfl, by simp⟩
    | cons first open' =>
      rcases exists_filter_eq_append_cons hsplit with ⟨done, unfinished, rfl, rfl, hfirst⟩
      refine ⟨done, first :: unfinished, rfl, rfl, ?_, by simpa using hfirst⟩
      rw [List.filter_append] at hsplit
      exact List.append_cancel_left hsplit
  subst hdone hunfinished
  rw [← hstopped.statements] at hderives
  refine ⟨done, unfinished, stop, rest, htokens, ?_, ?_, ?_, hderives, hbegins, hbreaks,
    hstopped.lexer, ?_⟩
  · intro p hp
    have hresult := hstopped.body
    rw [hp] at hresult
    obtain rfl := ProgramEnd.eq_ok_of_result hresult.symm
    refine ⟨?_, (ProgramDraft.kind_of_outcome hleads houtcome).1, hstopped.statements.symm,
      hstopped.program p hp⟩
    cases unfinished with
    | nil => rfl
    | cons t unfinished =>
      have hsome := hbegins t rfl
      rcases herror (by simp [hsome]) with ⟨e, he⟩
      contradiction
  · intro e he
    have hresult := hstopped.body
    rw [he] at hresult
    exact (ProgramDraft.accept_error houtcome hresult.symm).1
  · rw [hstopped.comments, commentsOf_filter_blank]
  · intro hcut file'
    have hfirst : ∃ behind, tokensOf v source ⟨true, true⟩ =
        done ++ unfinished.headD stop :: behind := by
      cases unfinished with
      | nil => exact ⟨rest, by simpa using htokens⟩
      | cons t unfinished => exact ⟨unfinished ++ stop :: rest, by simpa using htokens⟩
    rcases hfirst with ⟨behind, hfirst⟩
    exact exists_parseSource_take hv hfirst hderives hcut file'

/-- A reader stops where a statement breaks off behind an entry and a comment. -/
theorem Reader.parse_keeps_brokenEntry :
    Vocabulary.default.HasNoEmptyWord ∧ ∃ done unfinished stop rest,
      tokensOf .default "1 \"n\" jump 5 # a\n2 # b\nhideall".toList ⟨true, true⟩ =
          done ++ unfinished ++ stop :: rest ∧
        ((ofSource .default "1 \"n\" jump 5 # a\n2 # b\nhideall".toList []
          "module".toList).parse).2.Keeps .default
            "1 \"n\" jump 5 # a\n2 # b\nhideall".toList
          ((ofSource .default "1 \"n\" jump 5 # a\n2 # b\nhideall".toList []
            "module".toList).parse).1 done unfinished stop :=
  ⟨Vocabulary.hasNoEmptyWord_default, parse_keeps Vocabulary.hasNoEmptyWord_default _ _ _⟩

/-- Where a keyword is not a word, the statements in front of an unfinished one need not be those
of the source text up to there: without what follows it, a longer keyword is found. -/
theorem parseSource_take_longerKeyword :
    let v : Vocabulary := ⟨["jump", "hideall", "jump 5"].map String.toList, []⟩
    let source := "1 \"n\" jump 5hideall".toList
    let reading := (Reader.ofSource v source [] "module".toList).parse
    let entry : List Token :=
      [⟨.number, ['1'], ['1'], ⟨0, 1, ⟨1, 0⟩, ⟨1, 1⟩⟩⟩,
        ⟨.string, ['n'], "\"n\"".toList, ⟨2, 5, ⟨1, 2⟩, ⟨1, 5⟩⟩⟩,
        ⟨.keyword, "jump".toList, "jump".toList, ⟨6, 10, ⟨1, 6⟩, ⟨1, 10⟩⟩⟩,
        ⟨.number, ['5'], ['5'], ⟨11, 12, ⟨1, 11⟩, ⟨1, 12⟩⟩⟩]
    let keyword : Token :=
      ⟨.keyword, "hideall".toList, "hideall".toList, ⟨12, 19, ⟨1, 12⟩, ⟨1, 19⟩⟩⟩
    let stop : Token := ⟨.eof, [], [], ⟨19, 19, ⟨1, 19⟩, ⟨1, 19⟩⟩⟩
    v.HasNoEmptyWord ∧ reading.1 = .error ⟨.hideAllName, stop⟩ ∧
      significantTokens v source = entry ++ [keyword, stop] ∧
      Derives v.logTypes entry reading.2.statements ∧ BreaksOff v.logTypes [keyword] stop ∧
      ∀ p, parseSource v (source.take keyword.span.start) [] ≠ .ok p := by
  intro v source reading entry keyword stop
  have hstatements : reading.2.statements =
      [.entry (.ofParts (spanOf entry) entry[0] entry[1]
        [.jump ⟨spanOf [entry[2], entry[3]], entry[3].toNumber⟩])] := by
    decide +kernel
  have hcut : (parseSource v (source.take keyword.span.start) []).isOk = false := by
    decide +kernel
  refine ⟨by decide, by decide +kernel, by decide +kernel, ?_, ?_, ?_⟩
  · rw [hstatements]
    exact ⟨.concat .nil (.entry rfl rfl (.concat .nil (.jump rfl (by decide) rfl))),
      .singleton _⟩
  · have hbegun : StatementDraft.Begun v.logTypes [keyword] (.hideAll keyword) := ⟨rfl, rfl⟩
    have hleads : Leads (ProgramDraft.accept v.logTypes) ⟨[], none⟩ [keyword]
        ⟨[], some (.hideAll keyword)⟩ := .single (by decide)
    have hfault : (StatementDraft.hideAll keyword).accept v.logTypes stop =
        .fault .hideAllName := by
      decide
    exact breaksOff_of_fault hbegun hleads hfault
  · intro p hp
    simp [hp, Except.isOk, Except.toBool] at hcut

end RaidTimeline
