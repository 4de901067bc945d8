import RaidTimeline.Proofs.Acceptance

/-!
# The rejected source texts

A source text is rejected at the earliest token that cannot stand where it stands.  Every draft
can be completed, so all tokens before it are the beginning of a timeline; and a draft that is at
fault at a token is at fault whatever follows.

Main results:

- Definition {lit}`IsViable`: tokens with which a timeline may begin.
- Theorem {lit}`isViable_of_leads`: tokens that a program consumes are viable.
- Definition {lit}`Verdict.Exact`: faults that are lexical exactly at unreadable text.
- Theorem {lit}`parseSource_error_earliest`: where a source text is rejected, and why.
-/

namespace RaidTimeline

/-! ## Every draft can be completed -/

/-- A token of a kind with a value, for completions. -/
def Token.sample (kind : Kind) (value : Text) : Token := ⟨kind, value, [], .none⟩

/-- A structured synchronisation can be completed. -/
theorem BlockDraft.exists_done (d : BlockDraft) :
    ∃ ts final t b, Leads accept d ts final ∧ final.accept t = .done b := by
  have hslot : ∀ keyword fs, ∃ b, (BlockDraft.slot keyword fs).accept
      (.sample .brace ['\x7d']) = .done b := fun _ _ => ⟨_, rfl⟩
  have hseparator : ∀ keyword fs, ∃ b, (BlockDraft.separator keyword fs).accept
      (.sample .brace ['\x7d']) = .done b := fun _ _ => ⟨_, rfl⟩
  cases d with
  | opening keyword =>
    rcases hslot keyword [] with ⟨b, hb⟩
    exact ⟨[.sample .brace ['\x7b']], _, _, b, .single rfl, hb⟩
  | slot keyword fs =>
    rcases hslot keyword fs with ⟨b, hb⟩
    exact ⟨[], _, _, b, .refl _, hb⟩
  | colon keyword fs key =>
    obtain ⟨b, hb⟩ := hseparator keyword
      (fs ++ [⟨key.value, .string (Token.sample .string []).toString⟩])
    exact ⟨[.sample .punctuator [':'], .sample .string []], _, _, b,
      .step _ rfl (.single rfl), hb⟩
  | value keyword fs key =>
    obtain ⟨b, hb⟩ := hseparator keyword
      (fs ++ [⟨key.value, .string (Token.sample .string []).toString⟩])
    exact ⟨[.sample .string []], _, _, b, .single rfl, hb⟩
  | separator keyword fs =>
    rcases hseparator keyword fs with ⟨b, hb⟩
    exact ⟨[], _, _, b, .refl _, hb⟩

/-- A modifier can be completed. -/
theorem ModifierDraft.exists_done (d : ModifierDraft) :
    ∃ ts final t m, Leads accept d ts final ∧ final.accept t = .done m := by
  cases d with
  | block d =>
    rcases d.exists_done with ⟨ts, final, t, b, hleads, hdone⟩
    refine ⟨ts, .block final, t, .sync (.block b), hleads.lift ModifierDraft.block ?_, ?_⟩
    · intro a b t hmore
      simp [accept, hmore, Verdict.map]
    · simp [accept, hdone, Verdict.map]
  | regex keyword => exact ⟨[], _, .sample .regex [], _, .refl _, rfl⟩
  | windowComma keyword before =>
    exact ⟨[.sample .punctuator [',']], _, .sample .number [], _, .single rfl, rfl⟩
  | window keyword =>
    exact ⟨[.sample .number [], .sample .punctuator [',']], _, .sample .number [], _,
      .step _ rfl (.single rfl), rfl⟩
  | windowAfter keyword before | jump keyword | duration keyword =>
    exact ⟨[], _, .sample .number [], _, .refl _, rfl⟩

/-- A statement can be completed: its last token completes it, or the end of the text does. -/
theorem StatementDraft.exists_complete (logTypes : List Text) (d : StatementDraft) :
    ∃ ts final, Leads (accept logTypes) d ts final ∧
      ((∃ t s, final.accept logTypes t = .done s) ∨
        ∃ s, final.accept logTypes (.sample .eof []) = .before s) := by
  cases d with
  | hideAll keyword => exact ⟨[], _, .refl _, .inl ⟨.sample .string [], _, rfl⟩⟩
  | alertAll keyword => exact ⟨[.sample .string []], _, .single rfl, .inr ⟨_, rfl⟩⟩
  | alertMore a => exact ⟨[], _, .refl _, .inr ⟨_, rfl⟩⟩
  | alertBefore a keyword => exact ⟨[.sample .number []], _, .single rfl, .inr ⟨_, rfl⟩⟩
  | alertSound a keyword => exact ⟨[.sample .string []], _, .single rfl, .inr ⟨_, rfl⟩⟩
  | define keyword =>
    exact ⟨[.sample .identifier "alertsound".toList, .sample .string []], _,
      .step _ rfl (.single rfl), .inl ⟨.sample .string [], _, rfl⟩⟩
  | defineName keyword defineType =>
    exact ⟨[.sample .string []], _, .single rfl, .inl ⟨.sample .string [], _, rfl⟩⟩
  | defineFile keyword defineType name =>
    exact ⟨[], _, .refl _, .inl ⟨.sample .string [], _, rfl⟩⟩
  | entry time => exact ⟨[.sample .string []], _, .single rfl, .inr ⟨_, rfl⟩⟩
  | entryMore e => exact ⟨[], _, .refl _, .inr ⟨_, rfl⟩⟩
  | entryModifier e d =>
    rcases d.exists_done with ⟨ts, final, t, m, hleads, hdone⟩
    have hlift : Leads (accept logTypes) (.entryModifier e d) ts (.entryModifier e final) :=
      hleads.lift (StatementDraft.entryModifier e) accept_entryModifier
    exact ⟨ts ++ [t], _, hlift.trans (.single (accept_entryModifier_of_done hdone)),
      .inr ⟨_, rfl⟩⟩

/-- A program can be completed by some tokens and the end of the text. -/
theorem ProgramDraft.exists_complete (logTypes : List Text) (p : ProgramDraft) :
    ∃ ts final statements, Leads (accept logTypes) p ts final ∧
      final.accept logTypes (.sample .eof []) = .before ⟨statements, none⟩ := by
  rcases p with ⟨statements, current⟩
  cases current with
  | none => exact ⟨[], _, statements, .refl _, rfl⟩
  | some d =>
    rcases d.exists_complete logTypes with ⟨ts, final, hleads, ⟨t, s, hdone⟩ | ⟨s, hbefore⟩⟩
    · have hmore : accept logTypes ⟨statements, some final⟩ t =
          .more ⟨statements ++ [s], none⟩ := by
        simp [accept, hdone]
      exact ⟨ts ++ [t], _, statements ++ [s], (leads_some hleads statements).trans (.single hmore),
        rfl⟩
    · refine ⟨ts, ⟨statements, some final⟩, statements ++ [s], leads_some hleads statements, ?_⟩
      simp only [accept, hbefore]
      rfl

/-! ## Beginnings of timelines -/

/-- Tokens with which a timeline may begin: some tokens behind them complete one. -/
def IsViable (logTypes : List Text) (ts : List Token) : Prop :=
  ∃ us statements, IsTimeline logTypes (ts ++ us) statements

/-- The tokens that a program consumes are the beginning of a timeline. -/
theorem isViable_of_leads {logTypes : List Text} {ts : List Token} {p : ProgramDraft}
    (h : Leads (ProgramDraft.accept logTypes) ⟨[], none⟩ ts p) : IsViable logTypes ts := by
  rcases p.exists_complete logTypes with ⟨us, final, statements, hleads, hbefore⟩
  have hbegun := ProgramDraft.begun_of_leads (h.trans hleads)
  have hend := ProgramDraft.accept_meets hbegun (.sample .eof [])
  rw [hbefore] at hend
  rcases hend rfl with ⟨hkind, hderives⟩
  exact ⟨us ++ [.sample .eof []], statements, ts ++ us, _, by simp, hkind, hderives.many⟩

/-- A timeline has no unreadable text, and no end of the text but its last token. -/
theorem IsTimeline.not_isLast {logTypes : List Text} {ts : List Token}
    {statements : List Statement} (h : IsTimeline logTypes ts statements)
    (hchain : statements.IsChain (MayFollow logTypes)) :
    ∃ us last, ts = us ++ [last] ∧ last.kind = .eof ∧ ∀ t ∈ us, t.isLast = false := by
  rcases h with ⟨us, last, rfl, hlast, hmany⟩
  refine ⟨us, last, rfl, hlast, fun t ht => ?_⟩
  rcases (Derives.mk hmany hchain).leads with ⟨p, hleads, -⟩
  rcases List.append_of_mem ht with ⟨xs, ys, rfl⟩
  rcases hleads.of_append with ⟨q, -, hstep⟩
  cases hstep with
  | step longer hmore _ =>
    rw [← Bool.not_eq_true]
    intro hend
    have hverdict := ProgramDraft.accept_last logTypes hend q
    rw [hmore] at hverdict
    exact hverdict

/-! ## Errors -/

/-- A fault at a token is exact: it is lexical if and only if the token is unreadable text. -/
def Verdict.Exact {σ ρ : Type} (t : Token) (verdict : Verdict σ ρ) : Prop :=
  ∀ cause, verdict = .fault cause → (cause = .unrecognized ↔ t.kind = .unknown)

section

variable {σ ρ : Type} {t : Token} {kind : Kind} {cause : Fault} {word : Text}
  {next : Verdict σ ρ}

/-- What becomes of drafts and results has no part in the faults. -/
theorem Verdict.Exact.map {σ' ρ' : Type} (h : next.Exact t) (f : σ → σ') (g : ρ → ρ') :
    (next.map f g).Exact t := by
  intro cause hcause
  cases next with
  | fault c => exact h cause (by simpa [Verdict.map] using hcause)
  | more | done | before => simp [Verdict.map] at hcause

theorem Verdict.exact_more (draft : σ) : (Verdict.more draft : Verdict σ ρ).Exact t :=
  nofun

theorem Verdict.exact_done (result : ρ) : (Verdict.done result : Verdict σ ρ).Exact t :=
  nofun

theorem Verdict.exact_before (result : ρ) : (Verdict.before result : Verdict σ ρ).Exact t :=
  nofun

/-- A fault is exact if its cause is. -/
theorem Verdict.exact_fault (h : cause = .unrecognized ↔ t.kind = .unknown) :
    (Verdict.fault cause : Verdict σ ρ).Exact t := by
  rintro _ ⟨⟩
  exact h

/-- Unreadable text is found before anything else, whatever is expected. -/
theorem Token.expect_exact (hcause : cause ≠ .unrecognized) (h : t.kind = kind → next.Exact t) :
    (t.expect kind cause next).Exact t := by
  unfold Token.expect
  by_cases hunknown : t.kind = .unknown
  · rw [if_pos hunknown]
    exact Verdict.exact_fault (by simp [hunknown])
  rw [if_neg hunknown]
  by_cases hkind : t.kind = kind
  · rw [if_pos hkind]
    exact h hkind
  · rw [if_neg hkind]
    exact Verdict.exact_fault (by simp [hcause, hunknown])

/-- A missing word is an exact fault. -/
theorem Token.expectWord_exact (hkind : kind ≠ .unknown) (h : next.Exact t) :
    (t.expectWord kind word next).Exact t := by
  apply Token.expect_exact (by simp)
  intro heq
  by_cases hvalue : t.value = word
  · rw [if_pos hvalue]
    exact h
  · rw [if_neg hvalue]
    exact Verdict.exact_fault (by simp [heq, hkind])

end

/-- The faults of structured synchronisations are exact. -/
theorem BlockDraft.accept_exact (d : BlockDraft) (t : Token) : (d.accept t).Exact t := by
  have hclose : ∀ keyword fs, (close keyword fs t).Exact t := by
    intro keyword fs
    rcases close_cases keyword fs t with ⟨-, heq⟩ | ⟨-, heq⟩ | ⟨cause, heq, hexact⟩
    · rw [heq]
      exact Verdict.exact_done _
    · rw [heq]
      exact Verdict.exact_more _
    · rw [heq]
      exact Verdict.exact_fault hexact
  cases d with
  | opening keyword => exact Token.expectWord_exact (by simp) (Verdict.exact_more _)
  | slot keyword fs =>
    simp only [accept]
    by_cases hkey : t.kind = .identifier
    · rw [if_pos hkey]
      exact Verdict.exact_more _
    · rw [if_neg hkey]
      exact hclose keyword fs
  | colon keyword fs key => exact Token.expectWord_exact (by simp) (Verdict.exact_more _)
  | value keyword fs key =>
    rcases accept_value_cases keyword fs key t with
      ⟨-, heq⟩ | ⟨-, heq⟩ | ⟨cause, heq, hexact⟩
    · rw [heq]
      exact Verdict.exact_more _
    · rw [heq]
      exact Verdict.exact_more _
    · rw [heq]
      exact Verdict.exact_fault hexact
  | separator keyword fs => exact hclose keyword fs

/-- The faults of modifiers are exact. -/
theorem ModifierDraft.accept_exact (d : ModifierDraft) (t : Token) : (d.accept t).Exact t := by
  cases d with
  | block d => exact (d.accept_exact t).map _ _
  | windowComma keyword before =>
    simp only [accept]
    by_cases hcomma : t.holds .punctuator [','] = true
    · rw [if_pos hcomma]
      exact Verdict.exact_more _
    · rw [if_neg hcomma]
      exact Verdict.exact_before _
  | window keyword => exact Token.expect_exact (by simp) fun _ => Verdict.exact_more _
  | regex keyword | windowAfter keyword before | jump keyword | duration keyword =>
    exact Token.expect_exact (by simp) fun _ => Verdict.exact_done _

/-- The faults of statements are exact. -/
theorem StatementDraft.accept_exact (logTypes : List Text) (d : StatementDraft) (t : Token) :
    (d.accept logTypes t).Exact t := by
  have hentry : ∀ e, (acceptEntry logTypes e t).Exact t := by
    intro e
    unfold acceptEntry
    cases ModifierDraft.begin? logTypes t with
    | some d => exact Verdict.exact_more _
    | none => exact Verdict.exact_before _
  cases d with
  | alertMore a =>
    simp only [accept, acceptAlert]
    split_ifs
    · exact Verdict.exact_more _
    · exact Verdict.exact_more _
    · exact Verdict.exact_before _
  | define keyword =>
    -- The value of the identifier is checked besides its kind.
    apply Token.expect_exact (by simp)
    intro hkind
    split_ifs
    · exact Verdict.exact_more _
    · exact Verdict.exact_fault (by simp [hkind])
  | entryMore e => exact hentry e
  | entryModifier e d =>
    have hstep := d.accept_exact t
    simp only [accept]
    cases hverdict : d.accept t with
    | more next => exact Verdict.exact_more _
    | done m => exact Verdict.exact_more _
    | before m => exact hentry _
    | fault cause =>
      rintro _ ⟨⟩
      exact hstep cause hverdict
  | hideAll keyword | defineFile keyword defineType name =>
    exact Token.expect_exact (by simp) fun _ => Verdict.exact_done _
  | alertAll keyword | alertBefore a keyword | alertSound a keyword
  | defineName keyword defineType | entry time =>
    exact Token.expect_exact (by simp) fun _ => Verdict.exact_more _

/-- An error that settles a program is about the token at which it settles, and it is lexical
if and only if that is unreadable text. -/
theorem ProgramDraft.accept_error {logTypes : List Text} {p : ProgramDraft} {t : Token}
    {outcome : Except ParseError ProgramEnd} {e : ParseError}
    (h : (p.accept logTypes t).outcome? t = some outcome)
    (herror : ProgramEnd.result outcome = .error e) :
    e.token = t ∧ (e.fault = .unrecognized ↔ t.kind = .unknown) := by
  have hfirst : ∀ {statements},
      (acceptFirst statements t).outcome? t = some outcome →
        e.token = t ∧ (e.fault = .unrecognized ↔ t.kind = .unknown) := by
    intro statements hsettles
    rcases acceptFirst_cases statements t with ⟨d, -, heq⟩ | ⟨-, heq⟩ | ⟨cause, heq, hexact⟩
    · rw [heq] at hsettles
      contradiction
    · rw [heq] at hsettles
      cases hsettles
      contradiction
    · rw [heq] at hsettles
      cases hsettles
      cases herror
      exact ⟨rfl, hexact⟩
  rcases p with ⟨statements, current⟩
  cases current with
  | none => exact hfirst h
  | some d =>
    have hexact := d.accept_exact logTypes t
    simp only [accept] at h
    cases hverdict : d.accept logTypes t with
    | more | done => simp [hverdict, Verdict.outcome?] at h
    | before s =>
      rw [hverdict] at h
      exact hfirst h
    | fault cause =>
      rw [hverdict] at h
      cases h
      cases herror
      exact ⟨rfl, hexact cause hverdict⟩

/-- A rejected source text is rejected at its earliest significant token that no tokens behind it
make part of a timeline.  The error is lexical exactly if that token is unreadable text, and lies
where the token starts. -/
theorem parseSource_error_earliest {v : Vocabulary} (hv : v.HasNoEmptyWord)
    (hspares : v.SparesStatements) {source file : Text} {e : ParseError}
    (h : parseSource v source file = .error e) :
    (∃ k, (significantTokens v source)[k]? = some e.token ∧
      ¬ IsViable v.logTypes ((significantTokens v source).take (k + 1)) ∧
        ∀ j < k, IsViable v.logTypes ((significantTokens v source).take (j + 1))) ∧
      (e.report.kind = .lexical ↔ e.token.kind = .unknown) ∧
      (e.report.kind = .grammatical ↔ e.token.kind ≠ .unknown) ∧
      e.report.position = e.token.span.first ∧ e.report.token = some e.token ∧
      ∀ ts statements, IsTimeline v.logTypes ts statements →
        ∃ us last, ts = us ++ [last] ∧ last.kind = .eof ∧ ∀ t ∈ us, t.isLast = false := by
  have hchain : ∀ statements : List Statement, statements.IsChain (MayFollow v.logTypes) :=
    fun statements => List.isChain_iff_getElem.mpr fun i hi => hspares.mayFollow _ _
  rcases exists_feed_significantTokens hv source with ⟨outcome, final, hfeed⟩
  have herror : ProgramEnd.result outcome = .error e := by
    rw [← parseSource_of_feed hv file hfeed, h]
    rfl
  rcases feed_eq_some_iff.mp hfeed with ⟨us, t, vs, htokens, hleads, houtcome⟩
  rcases ProgramDraft.accept_error houtcome herror with ⟨rfl, hlexical⟩
  have hkind : (e.report.kind = .lexical ↔ e.token.kind = .unknown) ∧
      (e.report.kind = .grammatical ↔ e.token.kind ≠ .unknown) := by
    simp only [ne_eq, ← hlexical, ParseError.report, ParseError.kind]
    split <;> simp_all
  refine ⟨⟨us.length, by simp [htokens], ?_, ?_⟩, hkind.1, hkind.2, rfl, rfl,
    fun ts statements htimeline => htimeline.not_isLast (hchain statements)⟩
  · -- With any tokens behind it, the feed would settle at the token at fault in the same way.
    rintro ⟨ws, statements, ps, last, hps, hlast, hmany⟩
    obtain ⟨final', hok⟩ := feed_eq_ok_iff.mpr
      ⟨ps, last, [], hps, hlast, hmany, hchain statements⟩
    have hsame : (significantTokens v source).take (us.length + 1) ++ ws =
        us ++ e.token :: ws := by
      simp [htokens, List.take_append, List.take_of_length_le]
    rw [hsame, feed_append hleads, feed_cons_of_outcome houtcome] at hok
    cases hok
    cases herror
  · intro j hj
    have htake : (significantTokens v source).take (j + 1) = us.take (j + 1) := by
      rw [htokens, List.take_append_of_le_length (by omega)]
    rw [← List.take_append_drop (j + 1) us] at hleads
    rcases hleads.of_append with ⟨p, hbegin, -⟩
    exact htake ▸ isViable_of_leads hbegin

/-- A number in the place of a hidden name is rejected, and with it no tokens are viable. -/
theorem hideAll_number_not_viable :
    Vocabulary.default.HasNoEmptyWord ∧ Vocabulary.default.SparesStatements ∧
      parseSource .default "hideall 5".toList [] = .error
        ⟨.hideAllName, ⟨.number, "5".toList, "5".toList, ⟨8, 9, ⟨1, 8⟩, ⟨1, 9⟩⟩⟩⟩ ∧
      ∃ k, ¬ IsViable Vocabulary.default.logTypes
        ((significantTokens .default "hideall 5".toList).take (k + 1)) := by
  have herror : parseSource .default "hideall 5".toList [] = .error
      ⟨.hideAllName, ⟨.number, "5".toList, "5".toList, ⟨8, 9, ⟨1, 8⟩, ⟨1, 9⟩⟩⟩⟩ := by
    decide +kernel
  obtain ⟨⟨k, -, hviable, -⟩, -⟩ :=
    parseSource_error_earliest Vocabulary.hasNoEmptyWord_default
      Vocabulary.sparesStatements_default herror
  exact ⟨Vocabulary.hasNoEmptyWord_default, Vocabulary.sparesStatements_default, herror, k,
    hviable⟩

end RaidTimeline
