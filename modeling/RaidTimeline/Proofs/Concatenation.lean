import RaidTimeline.Proofs.Relocation
import RaidTimeline.Proofs.Stopping

/-!
# Source texts on the lines of another

Two source texts may be put one behind the other, with a line feed between them.  No token reaches
across the line feed, and no statement goes on behind it, so the statements and comments of the
whole are those of the two parts, the second ones moved.  Where the first part is rejected, so is
the whole.

Main results:

- Theorem {lit}`exists_normalize_line`: the normal form of a text with a line behind it.
- Theorem {lit}`exists_seam`: the tokens of a text with a line behind it.
- Theorem {lit}`parseSource_concat`: what becomes of two source texts.
-/

namespace RaidTimeline

/-! ## The line feed between two texts -/

/-- A line feed behind a text that ends with a carriage return belongs to that, and is a line end
of its own otherwise. -/
theorem exists_foldLineEnds_line (t : Text) :
    ∃ line, (t.foldLineEnds = line ∨ t.foldLineEnds = line ++ ['\n']) ∧
      ∀ b : Text, (t ++ '\n' :: b).foldLineEnds = line ++ '\n' :: b.foldLineEnds := by
  fun_induction Text.foldLineEnds t with
  | case1 => exact ⟨[], Or.inl rfl, fun b => by simp [Text.foldLineEnds]⟩
  | case2 rest ih =>
    rcases ih with ⟨line, hline, hbehind⟩
    refine ⟨'\n' :: line, ?_, fun b => ?_⟩
    · rcases hline with hline | hline <;> simp [hline]
    · simp [Text.foldLineEnds, hbehind]
  | case3 c rest hpair ih =>
    by_cases hlone : c = '\r' ∧ rest = []
    · rcases hlone with ⟨rfl, rfl⟩
      exact ⟨[], Or.inr (by simp [Text.foldLineEnds]), fun b => by simp [Text.foldLineEnds]⟩
    · rcases ih with ⟨line, hline, hbehind⟩
      refine ⟨(if c = '\r' then '\n' else c) :: line, ?_, fun b => ?_⟩
      · rcases hline with hline | hline <;> simp [hline]
      · rw [List.cons_append, Text.foldLineEnds.eq_3, hbehind, List.cons_append]
        rintro tail rfl htail
        cases rest with
        | nil => exact hlone ⟨rfl, rfl⟩
        | cons d rest => exact hpair rest rfl (by rw [(List.cons.inj htail).1])

/-- So it is in normal forms. -/
theorem exists_normalize_line (a : Text) :
    ∃ line, (normalize a = line ∨ normalize a = line ++ ['\n']) ∧
      ∀ b : Text, normalize (a ++ '\n' :: b) = line ++ '\n' :: b.foldLineEnds := by
  cases a with
  | nil =>
    refine ⟨[], Or.inl (by simp [normalize, Text.dropMark, Text.foldLineEnds]), fun b => ?_⟩
    have hmark : '\n' ≠ byteOrderMark := by
      decide
    simp [normalize, Text.dropMark, Text.foldLineEnds, hmark]
  | cons c a =>
    by_cases hmark : c = byteOrderMark
    · simpa [normalize, Text.dropMark, hmark] using exists_foldLineEnds_line a
    · simpa [normalize, Text.dropMark, hmark] using exists_foldLineEnds_line (c :: a)

/-! ## Tokens in front of a line feed -/

namespace Cursor

variable {v : Vocabulary}

/-- Where a text cannot be read, there is one token. -/
theorem tokens_of_recognise?_eq_none (hv : v.HasNoEmptyWord) (passed : Text) {rest : Text}
    (hrest : rest ≠ []) (h : recognise? v none rest = none) :
    (between passed rest).tokens v = [(between passed rest).emptyToken .unknown] := by
  have hfound : recognise? v (between passed rest).before rest = none := by
    rw [recognise?_eq hv, h]
  rw [tokens]
  simp [scan, hrest, hfound, emptyToken, spanTo, Span.width]

/-- One token is left only there and at the end of the text. -/
theorem recognise?_eq_none_of_tokens (hv : v.HasNoEmptyWord) {passed rest : Text} {last : Token}
    (h : (between passed rest).tokens v = [last]) (hrest : rest ≠ []) :
    recognise? v none rest = none := by
  rcases (between passed rest).scan_cases v with
    ⟨hnil, -⟩ | ⟨-, hnone, -⟩ | ⟨kind, n, -, hfound, hscan⟩
  · exact absurd hnil hrest
  · rwa [recognise?_eq hv] at hnone
  · have hkind := ne_last_of_recognise? hfound
    rw [tokens_of_not_isLast hv (by simp [hscan, Token.isLast, hkind])] at h
    exact absurd (List.cons.inj h).2 (tokens_ne_nil v _)

end Cursor

/-- The tokens of a text that are not layout are some tokens and one without text at a place. -/
def EndsWith (v : Vocabulary) (text : Text) (ts : List Token) (kind : Kind) (place : Span) : Prop :=
  ∃ t, t.kind = kind ∧ t.span = place ∧ (Cursor.ofText text).visible v = ts ++ [t]

/-- The tokens of a text stay the same with a line behind it, whether the text is read up to its
end or not. -/
theorem exists_endsWith_line {v : Vocabulary} (hv : v.HasNoEmptyWord)
    (hlines : ∀ word ∈ v.words, '\n' ∉ word) (line : Text) :
    ∃ ts place,
      (EndsWith v line ts .eof place ∧ ∀ rest, (Cursor.ofText (line ++ '\n' :: rest)).visible v =
        ts ++ (Cursor.between (line ++ ['\n']) rest).visible v) ∨
      (EndsWith v line ts .unknown place ∧
        ∀ rest, EndsWith v (line ++ '\n' :: rest) ts .unknown place) := by
  rcases Cursor.tokens_eq_concat hv (Cursor.ofText line) with ⟨body, last, htokens, -, -⟩
  rw [Cursor.ofText_eq_between] at htokens
  rcases exists_scans hv htokens (by simp) with ⟨w, rfl, hscans, hlast⟩
  rw [List.nil_append] at hlast
  have hseam : ∀ rest, Interchanges v (fun kind => kind = .blank → '\n' :: rest = [])
      (written body ++ w) [] ('\n' :: rest) :=
    fun rest => Interchanges.of_endsLine hlines EndsLine.nil (EndsLine.cons rest)
  refine ⟨body.filter (·.kind != .blank), ((Cursor.between (written body) w).emptyToken .eof).span,
    ?_⟩
  by_cases hw : w = []
  · subst hw
    rw [List.append_nil] at hseam ⊢
    refine Or.inl ⟨⟨_, rfl, rfl, ?_⟩, fun rest => ?_⟩
    · have hvisible := hscans.visible_append hv
      rw [List.append_nil, List.nil_append] at hvisible
      rw [Cursor.ofText_eq_between, hvisible, Cursor.visible, Cursor.tokens_nil]
      rfl
    · have hlayout : ∀ c ∈ ['\n'], isLayout c = true := by
        simp [isLayout]
      rw [Cursor.ofText_eq_between, hscans.visible_eq hv (hseam rest) _, List.nil_append,
        ← Cursor.visible_layout v hlayout, List.singleton_append]
      intro t _
      by_cases hblank : t.kind = .blank
      · exact Or.inl hblank
      · exact Or.inr fun h => absurd h hblank
  · have hnone := Cursor.recognise?_eq_none_of_tokens hv hlast.symm hw
    have hstuck : ∀ rest, recognise? v none (w ++ rest) = none → Scans v (w ++ rest) [] body →
        EndsWith v (written body ++ (w ++ rest)) (body.filter (·.kind != .blank)) .unknown
          ((Cursor.between (written body) w).emptyToken .eof).span := by
      intro rest hnone hscans
      refine ⟨(Cursor.between (written body) (w ++ rest)).emptyToken .unknown, rfl, rfl, ?_⟩
      rw [Cursor.ofText_eq_between, hscans.visible_append hv, List.nil_append, Cursor.visible,
        Cursor.tokens_of_recognise?_eq_none hv _ (by simp [hw]) hnone]
      rfl
    refine Or.inr ⟨?_, fun rest => ?_⟩
    · simpa using hstuck [] (by simpa using hnone) (by simpa using hscans)
    · rw [List.append_assoc]
      refine hstuck _ (recognise?_append_eq_none hlines hw hnone (EndsLine.cons rest)) ?_
      have hbehind := (hseam rest).append_left hw
      rw [List.append_nil] at hbehind
      exact hscans.interchange hbehind fun _ _ => trivial

/-- The tokens of a source text stay the same with a line behind it. -/
theorem exists_seam {v : Vocabulary} (hv : v.HasNoEmptyWord)
    (hlines : ∀ word ∈ v.words, '\n' ∉ word) (a : Text) :
    ∃ ts,
      ((∃ place, EndsWith v (normalize a) ts .eof place) ∧
        ∀ b : Text, (Cursor.ofText (normalize (a ++ '\n' :: b))).visible v =
          ts ++ (Cursor.between (normalize (a ++ ['\n'])) b.foldLineEnds).visible v) ∨
      ∃ place, EndsWith v (normalize a) ts .unknown place ∧
        ∀ b, EndsWith v (normalize (a ++ '\n' :: b)) ts .unknown place := by
  rcases exists_normalize_line a with ⟨line, hline, hbehind⟩
  have hfold : Text.foldLineEnds [] = [] := by
    simp [Text.foldLineEnds]
  rcases exists_endsWith_line hv hlines line with
    ⟨ts, place, ⟨hend, hrest⟩ | ⟨hend, hrest⟩⟩
  · refine ⟨ts, Or.inl ⟨?_, fun b => ?_⟩⟩
    · rcases hline with hline | hline
      · exact ⟨place, hline ▸ hend⟩
      · refine ⟨_, (Cursor.between (line ++ ['\n']) []).emptyToken .eof, rfl, rfl, ?_⟩
        rw [hline, hrest [], Cursor.visible, Cursor.tokens_nil]
        rfl
    · rw [hbehind, hbehind, hfold, hrest]
  · refine ⟨ts, Or.inr ⟨place, ?_, fun b => ?_⟩⟩
    · rcases hline with hline | hline
      · exact hline ▸ hend
      · exact hline ▸ hrest []
    · rw [hbehind]
      exact hrest _

/-! ## Two source texts -/

/-- Several constructs stand behind several others. -/
theorem Many.append {α : Type} {IsItem : List Token → α → Prop} {ts us : List Token}
    {xs ys : List α} (hts : Many IsItem ts xs) (hus : Many IsItem us ys) :
    Many IsItem (ts ++ us) (xs ++ ys) := by
  induction hus with
  | nil => simpa using hts
  | concat _ hitem ih =>
    rw [← List.append_assoc, ← List.append_assoc]
    exact ih.concat hitem

/-- Two accepted source texts are accepted one behind the other. -/
theorem exists_parseSource_append {v : Vocabulary} (hv : v.HasNoEmptyWord)
    (hlines : ∀ word ∈ v.words, '\n' ∉ word) (hspares : v.SparesStatements) {a b file : Text}
    {p q : Program} (hmark : b.head? ≠ some byteOrderMark) (hp : parseSource v a file = .ok p)
    (hq : parseSource v b file = .ok q) :
    let r := Relocation.behind (normalize (a ++ ['\n']))
    ∃ whole, parseSource v (a ++ '\n' :: b) file = .ok whole ∧
      whole.body = p.body ++ q.body.map (Statement.relocate r) ∧
      whole.comments = p.comments ++ q.comments.map (Comment.relocate r) := by
  intro r
  obtain ⟨ts, t, hts, ht, hpderives, hpcomments⟩ := exists_visible_of_parseSource hv hp
  obtain ⟨us, u, hus, hu, hqderives, hqcomments⟩ := exists_visible_of_parseSource hv hq
  have hb : normalize b = b.foldLineEnds := by
    cases b with
    | nil => rfl
    | cons c b => rw [normalize, Text.dropMark, if_neg fun h => hmark (by simp [h])]
  have hpassed : (normalize (a ++ ['\n'])).getLast? = some '\n' := by
    rcases exists_normalize_line a with ⟨line, -, hbehind⟩
    simp [hbehind [], Text.foldLineEnds]
  have hbehind : (Cursor.between (normalize (a ++ ['\n'])) b.foldLineEnds).visible v =
      us.map (Token.relocate r) ++ [u.relocate r] := by
    have hmoved := Cursor.visible_relocate hv (Cursor.alike_behind hpassed b.foldLineEnds)
    rw [← hb, hus, hb] at hmoved
    simpa [r] using hmoved.symm
  rcases exists_seam hv hlines a with
    ⟨ts', ⟨⟨_, t', -, -, hts'⟩, hseam⟩ | ⟨_, ⟨t', ht', -, hts'⟩, -⟩⟩
  · obtain rfl := (List.append_inj' (hts.symm.trans hts') rfl).1
    have hwhole := hseam b
    rw [hbehind, ← List.append_assoc] at hwhole
    have hderives : Derives v.logTypes
        ((ts ++ us.map (Token.relocate r)).filter (·.kind != .comment))
        (p.body ++ q.body.map (Statement.relocate r)) := by
      rw [List.filter_append, ← filter_relocate r (· != .comment)]
      exact ⟨hpderives.many.append (hqderives.relocate r).many,
        List.isChain_iff_getElem.mpr fun i hi => hspares.mayFollow _ _⟩
    rcases exists_parseSource_of_visible hv file hwhole hu hderives with
      ⟨whole, hparse, hbody, hcomments⟩
    refine ⟨whole, hparse, hbody, ?_⟩
    rw [hcomments, hpcomments, hqcomments, commentsOf_append, commentsOf_relocate]
  · have heq := (List.append_inj' (hts.symm.trans hts') rfl).2
    rw [List.cons.injEq] at heq
    rw [← heq.1, ht] at ht'
    contradiction

/-- A program is rejected at unreadable text, whatever has been read. -/
theorem ProgramDraft.exists_error_of_unknown {logTypes : List Text} {ts : List Token}
    {p : ProgramDraft} (hleads : Leads (accept logTypes) ⟨[], none⟩ ts p) {t : Token}
    (ht : t.kind = .unknown) :
    ∃ outcome e, (p.accept logTypes t).outcome? t = some outcome ∧
      ProgramEnd.result outcome = .error e ∧ e.token = t ∧ e.fault = .unrecognized := by
  have hverdict := accept_last logTypes (t := t) (by simp [Token.isLast, ht]) p
  have hsettles : ∃ outcome, (p.accept logTypes t).outcome? t = some outcome := by
    cases haccept : p.accept logTypes t with
    | more | done =>
      rw [haccept] at hverdict
      exact hverdict.elim
    | before | fault => exact ⟨_, rfl⟩
  rcases hsettles with ⟨outcome, houtcome⟩
  cases hresult : ProgramEnd.result outcome with
  | ok statements =>
    obtain rfl := ProgramEnd.eq_ok_of_result hresult
    have hend := (kind_of_outcome hleads houtcome).1
    rw [ht] at hend
    contradiction
  | error e =>
    rcases accept_error houtcome hresult with ⟨htoken, hfault⟩
    exact ⟨outcome, e, houtcome, hresult, htoken, hfault.mpr ht⟩

/-- A source text that is rejected in front of its end is rejected there also with lines behind
it. -/
theorem exists_parseSource_append_error {v : Vocabulary} (hv : v.HasNoEmptyWord)
    (hlines : ∀ word ∈ v.words, '\n' ∉ word) {a file : Text} {e : ParseError}
    (he : parseSource v a file = .error e) (hkind : e.token.kind ≠ .eof) (b : Text) :
    ∃ e', parseSource v (a ++ '\n' :: b) file = .error e' ∧ e'.fault = e.fault ∧
      e'.token.span = e.token.span := by
  rcases exists_stopped hv a file "module".toList with
    ⟨us, t, vs, outcome, final, hvisible, hcomment, hleads, houtcome, hstopped⟩
  have hresult : ProgramEnd.result outcome = .error e := by
    rw [← hstopped.body, ← parseSource, he]
    rfl
  rcases ProgramDraft.accept_error houtcome hresult with ⟨rfl, hlexical⟩
  obtain ⟨ts, last, ls, hts, hwhole, hlast⟩ : ∃ ts last ls,
      (Cursor.ofText (normalize a)).visible v = ts ++ [last] ∧
        (Cursor.ofText (normalize (a ++ '\n' :: b))).visible v = ts ++ ls ∧
          (last.kind ≠ .eof → last.kind = .unknown ∧
            ∃ t, ls = [t] ∧ t.kind = .unknown ∧ t.span = last.span) := by
    rcases exists_seam hv hlines a with
      ⟨ts, ⟨⟨_, last, hend, -, hts⟩, hseam⟩ | ⟨place, ⟨last, hstuck, hplace, hts⟩, hseam⟩⟩
    · exact ⟨ts, last, _, hts, hseam b, fun h => absurd hend h⟩
    · rcases hseam b with ⟨t, ht, hspan, hwhole⟩
      exact ⟨ts, last, [t], hts, hwhole, fun _ => ⟨hstuck, t, rfl, ht, hspan.trans hplace.symm⟩⟩
  rcases List.eq_nil_or_concat vs with rfl | ⟨ws, w, rfl⟩
  · -- The text is rejected where it cannot be read, and so is the whole.
    rcases List.append_inj' (hvisible.symm.trans hts) rfl with ⟨rfl, heq⟩
    obtain rfl := (List.cons.inj heq).1
    rcases hlast hkind with ⟨hunknown, t, rfl, ht, hspan⟩
    rcases ProgramDraft.exists_error_of_unknown hleads ht with
      ⟨outcome', e', houtcome', hresult', rfl, hfault⟩
    refine ⟨e', ?_, hfault.trans (hlexical.mpr hunknown).symm, hspan⟩
    exact parseSource_eq_error_of_leads hwhole (by simp [ht]) hleads houtcome' hresult'
  · -- The token at fault is in front of the last one, so it stays in the whole.
    have hsplit : (us ++ e.token :: ws) ++ [w] = ts ++ [last] := by
      rw [← hts, hvisible]
      simp
    rw [← (List.append_inj' hsplit rfl).1, List.append_assoc, List.cons_append] at hwhole
    exact ⟨e, parseSource_eq_error_of_leads hwhole hcomment hleads houtcome hresult, rfl, rfl⟩

/-- Two source texts with a line feed between them are accepted if both are, with the statements
and comments of both, those of the second one moved behind the first; and if the first one is
rejected in front of its end, the whole is rejected there for the same kind of cause. -/
theorem parseSource_concat {v : Vocabulary} (hv : v.HasNoEmptyWord)
    (hlines : ∀ word ∈ v.words, '\n' ∉ word) (hspares : v.SparesStatements) (a file : Text) :
    (∀ b p q, b.head? ≠ some byteOrderMark → parseSource v a file = .ok p →
      parseSource v b file = .ok q →
        ∃ whole, parseSource v (a ++ '\n' :: b) file = .ok whole ∧
          whole.body = p.body ++
            q.body.map (Statement.relocate (.behind (normalize (a ++ ['\n'])))) ∧
          whole.comments = p.comments ++
            q.comments.map (Comment.relocate (.behind (normalize (a ++ ['\n']))))) ∧
    ∀ e, parseSource v a file = .error e → e.token.kind ≠ .eof →
      ∀ b, ∃ e', parseSource v (a ++ '\n' :: b) file = .error e' ∧
        e'.report.kind = e.report.kind ∧ e'.report.position = e.report.position := by
  constructor
  · intro b p q hmark hp hq
    exact exists_parseSource_append hv hlines hspares hmark hp hq
  · intro e he hkind b
    rcases exists_parseSource_append_error hv hlines he hkind b with ⟨e', herror, hfault, hspan⟩
    exact ⟨e', herror, by simp [ParseError.report, ParseError.kind, hfault],
      by simp [ParseError.report, hspan]⟩

/-- Two hidden names behind each other, the first with a line end of two characters; and one whose
name has no end on its line. -/
theorem parseSource_concat_hideAll :
    let r := Relocation.behind (normalize "hideall 'a'\r\n".toList)
    Vocabulary.default.HasNoEmptyWord ∧ (∀ word ∈ Vocabulary.default.words, '\n' ∉ word) ∧
      Vocabulary.default.SparesStatements ∧
      (∃ p q whole, parseSource .default "hideall 'a'\r".toList [] = .ok p ∧
        parseSource .default "hideall 'b'".toList [] = .ok q ∧
        parseSource .default "hideall 'a'\r\nhideall 'b'".toList [] = .ok whole ∧
        whole.body = p.body ++ q.body.map (Statement.relocate r)) ∧
      ∃ e e', parseSource .default "hideall 'a".toList [] = .error e ∧
        parseSource .default "hideall 'a\n'".toList [] = .error e' ∧
        e'.report.position = e.report.position := by
  have hlines : ∀ word ∈ Vocabulary.default.words, '\n' ∉ word := by
    decide +kernel
  have hconcat := parseSource_concat Vocabulary.hasNoEmptyWord_default hlines
    Vocabulary.sparesStatements_default
  have ha : (parseSource .default "hideall 'a'\r".toList []).isOk = true := by
    decide +kernel
  have hb : (parseSource .default "hideall 'b'".toList []).isOk = true := by
    decide +kernel
  refine ⟨Vocabulary.hasNoEmptyWord_default, hlines, Vocabulary.sparesStatements_default, ?_, ?_⟩
  · rcases exists_parseSource_of_isOk ha with ⟨p, hp⟩
    rcases exists_parseSource_of_isOk hb with ⟨q, hq⟩
    rcases (hconcat _ _).1 _ p q (by decide) hp hq with ⟨whole, hwhole, hbody, -⟩
    exact ⟨p, q, whole, hp, hq, hwhole, hbody⟩
  · have he : parseSource .default "hideall 'a".toList [] = .error
        ⟨.unrecognized, ⟨.unknown, [], "'a".toList, ⟨8, 8, ⟨1, 8⟩, ⟨1, 8⟩⟩⟩⟩ := by
      decide +kernel
    rcases (hconcat _ _).2 _ he (by decide) "'".toList with ⟨e', he', -, hposition⟩
    exact ⟨_, e', he, he', hposition⟩

end RaidTimeline
