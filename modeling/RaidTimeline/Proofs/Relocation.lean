import RaidTimeline.Proofs.Lexemes
import RaidTimeline.Proofs.Positions
import RaidTimeline.Proofs.Rejection

/-!
# Moved texts

Where a piece of text stands decides the spans of its tokens and nothing else.  A relocation says
where offsets and positions move; the tokens of moved text are the moved tokens, and a draft that
is given moved tokens makes of them what it makes of the tokens, moved.

Main results:

- Definition {lit}`Relocation`: where offsets and positions move, with {lit}`Relocation.behind`
  for a text that is put behind another one and {lit}`Relocation.erase` that forgets all places.
- Theorem {lit}`Cursor.tokens_relocate`: equal texts at two places have the same tokens, up to
  their places.
- Theorem {lit}`ProgramDraft.accept_relocate`: one step of a program on a moved token.
- Theorem {lit}`feed_relocate`: a program that is fed with moved tokens.
- Theorem {lit}`parseSource_relocate_congr`: source texts with the same tokens at other places.
-/

namespace RaidTimeline

/-! ## Relocations -/

/-- Where the offsets and the positions of a text move. -/
structure Relocation where
  offset : Nat → Nat
  position : Position → Position

namespace Relocation

/-- Nothing moves. -/
def keep : Relocation := ⟨id, id⟩

/-- All places are forgotten. -/
def erase : Relocation := ⟨fun _ => 0, fun _ => .start⟩

/-- A text moves behind a text of some length and some lines. -/
def shift (length lines : Nat) : Relocation :=
  ⟨(length + ·), fun p => ⟨lines + p.line, p.column⟩⟩

/-- A text moves behind another one that ends with a line. -/
def behind (text : Text) : Relocation := shift text.length (text.count '\n')

end Relocation

/-- The span with both of its ends moved. -/
def Span.relocate (r : Relocation) (s : Span) : Span :=
  ⟨r.offset s.start, r.offset s.stop, r.position s.first, r.position s.last⟩

@[simp]
theorem Span.relocate_through (r : Relocation) (a b : Span) :
    (a.through b).relocate r = (a.relocate r).through (b.relocate r) :=
  rfl

/-! ## Moved tokens and statements -/

/-- A moved token. -/
def Token.relocate (r : Relocation) (t : Token) : Token := { t with span := t.span.relocate r }

namespace Token

variable (r : Relocation) (t : Token)

@[simp]
theorem relocate_kind : (t.relocate r).kind = t.kind :=
  rfl

@[simp]
theorem relocate_value : (t.relocate r).value = t.value :=
  rfl

@[simp]
theorem relocate_raw : (t.relocate r).raw = t.raw :=
  rfl

@[simp]
theorem relocate_span : (t.relocate r).span = t.span.relocate r :=
  rfl

@[simp]
theorem relocate_keep : Token.relocate .keep = id :=
  rfl

@[simp]
theorem relocate_holds (kind : Kind) (value : Text) :
    (t.relocate r).holds kind value = t.holds kind value :=
  rfl

end Token

/-- Tokens are chosen by their kinds before or after they are moved. -/
theorem filter_relocate (r : Relocation) (p : Kind → Bool) (ts : List Token) :
    (ts.filter fun t => p t.kind).map (Token.relocate r) =
      (ts.map (Token.relocate r)).filter fun t => p t.kind := by
  rw [List.filter_map]
  rfl

/-- A moved comment. -/
def Comment.relocate (r : Relocation) (c : Comment) : Comment :=
  { c with span := c.span.relocate r }

/-- A moved string. -/
def StringLiteral.relocate (r : Relocation) (s : StringLiteral) : StringLiteral :=
  { s with span := s.span.relocate r }

/-- A moved number. -/
def NumberLiteral.relocate (r : Relocation) (n : NumberLiteral) : NumberLiteral :=
  { n with span := n.span.relocate r }

/-- A moved regular expression. -/
def RegexLiteral.relocate (r : Relocation) (x : RegexLiteral) : RegexLiteral :=
  { x with span := x.span.relocate r }

/-- A moved literal. -/
def Literal.relocate (r : Relocation) : Literal → Literal
  | .string s => .string (s.relocate r)
  | .number n => .number (n.relocate r)

/-- A moved field. -/
def Field.relocate (r : Relocation) (f : Field) : Field := ⟨f.key, f.value.relocate r⟩

/-- A moved structured synchronisation. -/
def BlockSync.relocate (r : Relocation) (b : BlockSync) : BlockSync :=
  ⟨b.span.relocate r, b.logType, b.fields.map (Field.relocate r)⟩

/-- A moved synchronisation. -/
def Sync.relocate (r : Relocation) : Sync → Sync
  | .regex s => .regex ⟨s.span.relocate r, s.regex.relocate r⟩
  | .block b => .block (b.relocate r)

/-- A moved window. -/
def Window.relocate (r : Relocation) (w : Window) : Window :=
  ⟨w.span.relocate r, w.before.relocate r, w.after.map (NumberLiteral.relocate r)⟩

/-- A moved jump. -/
def Jump.relocate (r : Relocation) (j : Jump) : Jump := ⟨j.span.relocate r, j.time.relocate r⟩

/-- A moved duration. -/
def Duration.relocate (r : Relocation) (d : Duration) : Duration :=
  ⟨d.span.relocate r, d.time.relocate r⟩

/-- A moved modifier. -/
def Modifier.relocate (r : Relocation) : Modifier → Modifier
  | .sync s => .sync (s.relocate r)
  | .window w => .window (w.relocate r)
  | .jump j => .jump (j.relocate r)
  | .duration d => .duration (d.relocate r)

/-- A moved entry. -/
def Entry.relocate (r : Relocation) (e : Entry) : Entry where
  span := e.span.relocate r
  time := e.time.relocate r
  name := e.name.relocate r
  sync := e.sync.map (Sync.relocate r)
  window := e.window.map (Window.relocate r)
  duration := e.duration.map (Duration.relocate r)
  jump := e.jump.map (Jump.relocate r)

/-- A moved alert. -/
def AlertAll.relocate (r : Relocation) (a : AlertAll) : AlertAll where
  span := a.span.relocate r
  name := a.name.relocate r
  before := a.before.map fun b => ⟨b.span.relocate r, b.time.relocate r⟩
  sound := a.sound.map fun s => ⟨s.span.relocate r, s.file.relocate r⟩

/-- A moved statement. -/
def Statement.relocate (r : Relocation) : Statement → Statement
  | .hideAll h => .hideAll ⟨h.span.relocate r, h.name.relocate r⟩
  | .alertAll a => .alertAll (a.relocate r)
  | .define d => .define
      ⟨d.span.relocate r, d.name.relocate r, d.file.relocate r, d.defineType⟩
  | .entry e => .entry (e.relocate r)

/-- A moved error. -/
def ParseError.relocate (r : Relocation) (e : ParseError) : ParseError :=
  ⟨e.fault, e.token.relocate r⟩

/-- A moved end of a program. -/
def ProgramEnd.relocate (r : Relocation) (p : ProgramEnd) : ProgramEnd :=
  ⟨p.statements.map (Statement.relocate r), p.error.map (ParseError.relocate r)⟩

/-! ## Moved drafts -/

/-- A moved structured synchronisation that is not finished. -/
def BlockDraft.relocate (r : Relocation) : BlockDraft → BlockDraft
  | .opening keyword => .opening (keyword.relocate r)
  | .slot keyword fs => .slot (keyword.relocate r) (fs.map (Field.relocate r))
  | .colon keyword fs key =>
      .colon (keyword.relocate r) (fs.map (Field.relocate r)) (key.relocate r)
  | .value keyword fs key =>
      .value (keyword.relocate r) (fs.map (Field.relocate r)) (key.relocate r)
  | .separator keyword fs => .separator (keyword.relocate r) (fs.map (Field.relocate r))

/-- A moved modifier that is not finished. -/
def ModifierDraft.relocate (r : Relocation) : ModifierDraft → ModifierDraft
  | .regex keyword => .regex (keyword.relocate r)
  | .block draft => .block (draft.relocate r)
  | .window keyword => .window (keyword.relocate r)
  | .windowComma keyword before => .windowComma (keyword.relocate r) (before.relocate r)
  | .windowAfter keyword before => .windowAfter (keyword.relocate r) (before.relocate r)
  | .jump keyword => .jump (keyword.relocate r)
  | .duration keyword => .duration (keyword.relocate r)

/-- A moved statement that is not finished. -/
def StatementDraft.relocate (r : Relocation) : StatementDraft → StatementDraft
  | .hideAll keyword => .hideAll (keyword.relocate r)
  | .alertAll keyword => .alertAll (keyword.relocate r)
  | .alertMore a => .alertMore (a.relocate r)
  | .alertBefore a keyword => .alertBefore (a.relocate r) (keyword.relocate r)
  | .alertSound a keyword => .alertSound (a.relocate r) (keyword.relocate r)
  | .define keyword => .define (keyword.relocate r)
  | .defineName keyword defineType => .defineName (keyword.relocate r) (defineType.relocate r)
  | .defineFile keyword defineType name =>
      .defineFile (keyword.relocate r) (defineType.relocate r) (name.relocate r)
  | .entry time => .entry (time.relocate r)
  | .entryMore e => .entryMore (e.relocate r)
  | .entryModifier e draft => .entryModifier (e.relocate r) (draft.relocate r)

/-- A moved program that is not finished. -/
def ProgramDraft.relocate (r : Relocation) (p : ProgramDraft) : ProgramDraft :=
  ⟨p.statements.map (Statement.relocate r), p.current.map (StatementDraft.relocate r)⟩

/-! ## One step -/

/-- A verdict that depends on a condition. -/
theorem Verdict.map_ite {σ ρ σ' ρ' : Type} (f : σ → σ') (g : ρ → ρ') (p : Prop) [Decidable p]
    (a b : Verdict σ ρ) : (if p then a else b).map f g = if p then a.map f g else b.map f g :=
  apply_ite (Verdict.map f g) p a b

section

variable (r : Relocation) (t : Token)

/-- A moved token is expected as it was before. -/
theorem Token.expect_relocate {σ ρ σ' ρ' : Type} {kind : Kind} {cause : Fault}
    {next : Verdict σ ρ} {next' : Verdict σ' ρ'} {f : σ → σ'} {g : ρ → ρ'}
    (h : next' = next.map f g) :
    (t.relocate r).expect kind cause next' = (t.expect kind cause next).map f g := by
  simp only [Token.expect, relocate_kind, h]
  split_ifs <;> rfl

/-- A moved word is expected as it was before. -/
theorem Token.expectWord_relocate {σ ρ σ' ρ' : Type} {kind : Kind} {word : Text}
    {next : Verdict σ ρ} {next' : Verdict σ' ρ'} {f : σ → σ'} {g : ρ → ρ'}
    (h : next' = next.map f g) :
    (t.relocate r).expectWord kind word next' = (t.expectWord kind word next).map f g := by
  apply Token.expect_relocate
  simp only [relocate_value, h]
  split_ifs <;> rfl

/-- A structured synchronisation of moved tokens is closed as it was before, and moved. -/
theorem BlockDraft.close_relocate (keyword : Token) (fs : List Field) :
    close (keyword.relocate r) (fs.map (Field.relocate r)) (t.relocate r) =
      (close keyword fs t).map (relocate r) (BlockSync.relocate r) := by
  simp only [close, Verdict.map_ite]
  rfl

/-- One step of a structured synchronisation on a moved token. -/
theorem BlockDraft.accept_relocate (d : BlockDraft) :
    (d.relocate r).accept (t.relocate r) =
      (d.accept t).map (relocate r) (BlockSync.relocate r) := by
  cases d with
  | opening keyword => exact Token.expectWord_relocate r t rfl
  | slot keyword fs =>
    simp only [relocate, accept, Verdict.map_ite, close_relocate]
    rfl
  | colon keyword fs key => exact Token.expectWord_relocate r t rfl
  | value keyword fs key =>
    simp only [relocate, accept, Verdict.map_ite]
    simp only [Verdict.map, relocate, List.map_append]
    rfl
  | separator keyword fs => exact close_relocate r t keyword fs

/-- The modifier that a moved keyword begins. -/
theorem ModifierDraft.begin?_relocate (logTypes : List Text) :
    begin? logTypes (t.relocate r) = (begin? logTypes t).map (relocate r) := by
  simp only [begin?, apply_ite (Option.map (relocate r))]
  rfl

/-- One step of a modifier on a moved token. -/
theorem ModifierDraft.accept_relocate (d : ModifierDraft) :
    (d.relocate r).accept (t.relocate r) =
      (d.accept t).map (relocate r) (Modifier.relocate r) := by
  cases d with
  | block d =>
    simp only [relocate, accept, d.accept_relocate r t]
    cases d.accept t <;> rfl
  | windowComma keyword before =>
    simp only [accept, Verdict.map_ite]
    rfl
  | regex keyword | window keyword | windowAfter keyword before | jump keyword
  | duration keyword => exact Token.expect_relocate r t rfl

/-- A moved entry with a moved modifier. -/
theorem Entry.modify_relocate (e : Entry) (m : Modifier) :
    (e.modify m).relocate r = (e.relocate r).modify (m.relocate r) := by
  rcases m with (s | s) | w | j | d <;> rfl

/-- The statement that a moved token begins. -/
theorem StatementDraft.begin?_relocate :
    begin? (t.relocate r) = (begin? t).map (relocate r) := by
  simp only [begin?, apply_ite (Option.map (relocate r))]
  rfl

/-- A moved entry makes of a moved token what it made before, moved. -/
theorem StatementDraft.acceptEntry_relocate (logTypes : List Text) (e : Entry) :
    acceptEntry logTypes (e.relocate r) (t.relocate r) =
      (acceptEntry logTypes e t).map (relocate r) (Statement.relocate r) := by
  simp only [acceptEntry, ModifierDraft.begin?_relocate]
  cases ModifierDraft.begin? logTypes t <;> rfl

/-- One step of a statement on a moved token. -/
theorem StatementDraft.accept_relocate (logTypes : List Text) (d : StatementDraft) :
    (d.relocate r).accept logTypes (t.relocate r) =
      (d.accept logTypes t).map (relocate r) (Statement.relocate r) := by
  cases d with
  | alertMore a =>
    simp only [accept, acceptAlert, Verdict.map_ite]
    rfl
  | define keyword =>
    apply Token.expect_relocate
    simp only [Verdict.map_ite]
    rfl
  | entryMore e => exact acceptEntry_relocate r t logTypes e
  | entryModifier e d =>
    simp only [relocate, accept, d.accept_relocate r t]
    cases d.accept t with
    | before m =>
      simp only [Verdict.map, ← Entry.modify_relocate]
      exact acceptEntry_relocate r t logTypes (e.modify m)
    | done m => simp only [Verdict.map, relocate, ← Entry.modify_relocate]
    | more | fault => rfl
  | hideAll keyword | alertAll keyword | alertBefore a keyword | alertSound a keyword
  | defineName keyword defineType | defineFile keyword defineType name | entry time =>
    exact Token.expect_relocate r t rfl

/-- Between two statements a moved token comes to what it came to before, moved. -/
theorem ProgramDraft.acceptFirst_relocate (statements : List Statement) :
    acceptFirst (statements.map (Statement.relocate r)) (t.relocate r) =
      (acceptFirst statements t).map (relocate r) (ProgramEnd.relocate r) := by
  simp only [acceptFirst, StatementDraft.begin?_relocate, Token.relocate_kind]
  cases StatementDraft.begin? t with
  | some d => rfl
  | none =>
    simp only [Option.map_none, Verdict.map_ite]
    rfl

/-- One step of a program on a moved token. -/
theorem ProgramDraft.accept_relocate (logTypes : List Text) (p : ProgramDraft) :
    (p.relocate r).accept logTypes (t.relocate r) =
      (p.accept logTypes t).map (relocate r) (ProgramEnd.relocate r) := by
  rcases p with ⟨statements, current⟩
  cases current with
  | none => exact acceptFirst_relocate r t statements
  | some d =>
    simp only [relocate, accept, Option.map_some, d.accept_relocate r t logTypes]
    cases d.accept logTypes t with
    | before s => simpa [Verdict.map] using acceptFirst_relocate r t (statements ++ [s])
    | done s => simp [Verdict.map, relocate]
    | more | fault => rfl

end

/-! ## Many steps -/

/-- A moved outcome. -/
def relocateOutcome (r : Relocation) :
    Except ParseError ProgramEnd → Except ParseError ProgramEnd
  | .ok result => .ok (result.relocate r)
  | .error e => .error (e.relocate r)

/-- A program that is led by moved tokens is moved. -/
theorem Leads.relocate (r : Relocation) {logTypes : List Text} {p q : ProgramDraft}
    {ts : List Token} (h : Leads (ProgramDraft.accept logTypes) p ts q) :
    Leads (ProgramDraft.accept logTypes) (p.relocate r) (ts.map (Token.relocate r))
      (q.relocate r) := by
  induction h with
  | refl => exact .refl _
  | step longer hmore _ ih =>
    refine .step (longer.relocate r) ?_ ih
    rw [ProgramDraft.accept_relocate, hmore]
    rfl

/-- A program that is fed with moved tokens settles in the same way, with everything moved. -/
theorem feed_relocate (r : Relocation) (logTypes : List Text) (p : ProgramDraft)
    (ts : List Token) :
    feed (ProgramDraft.accept logTypes) (p.relocate r) (ts.map (Token.relocate r)) =
      (feed (ProgramDraft.accept logTypes) p ts).map
        (Prod.map (relocateOutcome r) (ProgramDraft.relocate r)) := by
  induction ts generalizing p with
  | nil => rfl
  | cons t ts ih =>
    simp only [List.map_cons, feed, ProgramDraft.accept_relocate]
    cases p.accept logTypes t with
    | more longer => exact ih longer
    | done | before | fault => rfl

/-- The comments among moved tokens are moved. -/
theorem commentsOf_relocate (r : Relocation) (ts : List Token) :
    commentsOf (ts.map (Token.relocate r)) = (commentsOf ts).map (Comment.relocate r) := by
  simp only [commentsOf, List.filter_map, List.map_map]
  rfl

/-- A moved result of reading statements. -/
def relocateResult (r : Relocation) :
    Except ParseError (List Statement) → Except ParseError (List Statement)
  | .ok statements => .ok (statements.map (Statement.relocate r))
  | .error e => .error (e.relocate r)

/-- Moving an outcome and taking its result can change places. -/
theorem relocateResult_eq (r : Relocation) (outcome : Except ParseError ProgramEnd) :
    relocateResult r (ProgramEnd.result outcome) =
      ProgramEnd.result (relocateOutcome r outcome) := by
  rcases outcome with e | ⟨statements, _ | e⟩ <;> rfl

/-- Source texts whose significant tokens move to the same ones have results that move to the same
one. -/
theorem parseSource_relocate_congr {v : Vocabulary} (hv : v.HasNoEmptyWord) (r : Relocation)
    {source source' : Text} (file : Text)
    (h : (significantTokens v source).map (Token.relocate r) =
      (significantTokens v source').map (Token.relocate r)) :
    relocateResult r ((parseSource v source file).map Program.body) =
      relocateResult r ((parseSource v source' file).map Program.body) := by
  have hfeed : ∀ source : Text, ∃ final,
      feed (ProgramDraft.accept v.logTypes) (ProgramDraft.relocate r ⟨[], none⟩)
        ((significantTokens v source).map (Token.relocate r)) = some final ∧
          relocateResult r ((parseSource v source file).map Program.body) =
            ProgramEnd.result final.1 := by
    intro source
    rcases exists_feed_significantTokens hv source with ⟨outcome, final, hfeed⟩
    refine ⟨_, by rw [feed_relocate, hfeed, Option.map_some], ?_⟩
    rw [parseSource_of_feed hv file hfeed, relocateResult_eq]
    rfl
  rcases hfeed source with ⟨final, hfinal, hresult⟩
  rcases hfeed source' with ⟨final', hfinal', hresult'⟩
  rw [h, hfinal'] at hfinal
  cases hfinal
  rw [hresult, hresult']

/-- Moved tokens derive the moved statements. -/
theorem Derives.relocate (r : Relocation) {logTypes : List Text} {ts : List Token}
    {statements : List Statement} (h : Derives logTypes ts statements) :
    Derives logTypes (ts.map (Token.relocate r)) (statements.map (Statement.relocate r)) := by
  rcases h.leads with ⟨p, hleads, hrest⟩
  have hend : p.accept logTypes (.sample .eof []) = .before ⟨statements, none⟩ := by
    refine (hrest _ (Or.inl rfl) fun s _ e _ hkind => ?_).trans rfl
    contradiction
  have hbegun := ProgramDraft.begun_of_leads (hleads.relocate r)
  have hstep := ProgramDraft.accept_meets hbegun ((Token.sample .eof []).relocate r)
  rw [ProgramDraft.accept_relocate, hend] at hstep
  exact (hstep rfl).2

/-! ## Moved texts -/

namespace Position

/-- Passing a text moves with the position in front of it. -/
theorem shift_after (length lines : Nat) (p : Position) (t : Text) :
    (Relocation.shift length lines).position (p.after t) =
      ((Relocation.shift length lines).position p).after t := by
  induction t generalizing p with
  | nil => rfl
  | cons c t ih =>
    rw [after_cons, after_cons, ih]
    congr 1
    by_cases hc : c = '\n'
    · simp [next, hc, Relocation.shift, Nat.add_assoc]
    · simp [next, hc, Relocation.shift]

end Position

namespace Cursor

/-- Two places look alike after a relocation of each: the same text is behind them, and whatever
is passed of it, they stay alike. -/
structure Alike (r s : Relocation) (c d : Cursor) : Prop where
  rest : c.rest = d.rest
  offset : ∀ n, r.offset (c.offset + n) = s.offset (d.offset + n)
  position : ∀ t, r.position (c.position.after t) = s.position (d.position.after t)

/-- Places that look alike look alike behind the same text. -/
theorem Alike.advance {r s : Relocation} {c d : Cursor} (h : Alike r s c d) (n : Nat) :
    Alike r s (c.advance n) (d.advance n) := by
  refine ⟨by simp [h.rest], fun m => ?_, fun t => ?_⟩
  · simpa [h.rest, Nat.add_assoc] using h.offset ((d.rest.take n).length + m)
  · simpa [Cursor.advance, h.rest] using h.position (d.rest.take n ++ t)

/-- Spans from alike places move alike. -/
theorem Alike.spanTo_advance {r s : Relocation} {c d : Cursor} (h : Alike r s c d) (n : Nat) :
    (c.spanTo (c.advance n)).relocate r = (d.spanTo (d.advance n)).relocate s := by
  have hoffset := h.offset 0
  have hposition := h.position []
  have hoffset' := (h.advance n).offset 0
  have hposition' := (h.advance n).position []
  simp only [Nat.add_zero, Position.after_nil] at hoffset hposition hoffset' hposition'
  simp only [Span.relocate, spanTo, hoffset, hposition, hoffset', hposition']

/-- The token at one of two alike places is that at the other one, and the places behind them are
alike. -/
theorem Alike.scan {v : Vocabulary} (hv : v.HasNoEmptyWord) {r s : Relocation} {c d : Cursor}
    (h : Alike r s c d) :
    (c.scan v).1.relocate r = (d.scan v).1.relocate s ∧ Alike r s (c.scan v).2 (d.scan v).2 := by
  have hempty : ∀ kind, (c.emptyToken kind).relocate r = (d.emptyToken kind).relocate s := by
    intro kind
    have hspan := h.spanTo_advance 0
    rw [advance_zero, advance_zero] at hspan
    simp only [Token.relocate, emptyToken, hspan, h.rest]
  have hfound : recognise? v c.before c.rest = recognise? v d.before d.rest := by
    rw [h.rest, recognise?_eq hv, ← recognise?_eq hv d.before]
  unfold Cursor.scan
  rw [hfound, h.rest]
  split
  · exact ⟨hempty .eof, h⟩
  · split
    · exact ⟨hempty .unknown, h⟩
    · refine ⟨?_, h.advance _⟩
      simp only [Token.relocate, h.spanTo_advance]

/-- Equal texts have the same tokens at alike places. -/
theorem tokens_relocate {v : Vocabulary} (hv : v.HasNoEmptyWord) {r s : Relocation} {c d : Cursor}
    (h : Alike r s c d) :
    (c.tokens v).map (Token.relocate r) = (d.tokens v).map (Token.relocate s) := by
  -- The induction follows the scans of the first place; the second one keeps up with them.
  induction hlength : c.rest.length using Nat.strongRecOn generalizing c d with
  | _ length ih =>
  rcases h.scan hv with ⟨htoken, hbehind⟩
  have hkind : (c.scan v).1.kind = (d.scan v).1.kind := by
    simpa using congrArg Token.kind htoken
  cases hlast : (c.scan v).1.isLast with
  | true =>
    have hlast' : (d.scan v).1.isLast = true := by
      rwa [Token.isLast, ← hkind]
    rw [tokens_of_isLast hv hlast, tokens_of_isLast hv hlast', List.map_singleton,
      List.map_singleton, htoken]
  | false =>
    have hlast' : (d.scan v).1.isLast = false := by
      rwa [Token.isLast, ← hkind]
    have hshorter := c.length_rest_scan v
    have hwidth := mt (isLast_scan_iff hv c).mpr
    simp only [hlast, Bool.false_eq_true, not_false_eq_true, forall_const] at hwidth
    rw [tokens_of_not_isLast hv hlast, tokens_of_not_isLast hv hlast', List.map_cons,
      List.map_cons, htoken, ih _ (by omega) hbehind rfl]

/-- So are those that are not layout. -/
theorem visible_relocate {v : Vocabulary} (hv : v.HasNoEmptyWord) {r s : Relocation}
    {c d : Cursor} (h : Alike r s c d) :
    (c.visible v).map (Token.relocate r) = (d.visible v).map (Token.relocate s) := by
  rw [visible, visible, filter_relocate r (· != .blank), filter_relocate s (· != .blank),
    tokens_relocate hv h]

/-- A text at the start of its own is alike to the same text behind a line. -/
theorem alike_behind {passed : Text} (hpassed : passed.getLast? = some '\n') (text : Text) :
    Alike (.behind passed) .keep (ofText text) (between passed text) := by
  rcases List.getLast?_eq_some_iff.mp hpassed with ⟨line, rfl⟩
  refine ⟨rfl, fun n => by simp [Relocation.behind, Relocation.shift, Relocation.keep, ofText],
    fun t => ?_⟩
  have hstart : Position.start.after (line ++ ['\n']) = ⟨(line ++ ['\n']).count '\n' + 1, 0⟩ := by
    simp [Position.next, Position.line_after, Position.start, Nat.add_comm]
  simp only [between, hstart, Relocation.keep, id, Relocation.behind]
  exact Position.shift_after _ _ .start t

/-- All places of a text are alike if places are forgotten. -/
theorem alike_erase {c d : Cursor} (h : c.rest = d.rest) : Alike .erase .erase c d :=
  ⟨h, fun _ => rfl, fun _ => rfl⟩

end Cursor

end RaidTimeline
