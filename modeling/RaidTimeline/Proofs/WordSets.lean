import RaidTimeline.Proofs.Lexemes
import RaidTimeline.Proofs.Lookahead
import RaidTimeline.Proofs.Positions

/-!
# Tables as sets of words

A lexer asks the two tables for one thing only: which of their words stand at a place of the
source text.  So two lexers whose tables have the same words among those that occur in the source
text hand out the same tokens, whatever else the tables hold, and in whatever order.  A program is
read alike if the tables of log line types agree in the same way.

Main results:

- Definition {lit}`SameWordsIn`: two tables have the same words among those that occur in a text.
- Definition {lit}`Vocabulary.IsLongest`: the longest entry that stands at a place of a text.
- Theorem {lit}`keyword?_eq_some_iff_isLongest`: the first entry that stands at a place, in the
  order in which they are tried, is the longest one that does.
- Theorem {lit}`Cursor.scan_keyword_iff`: the keyword at a place is the longest entry there.
- Definition {lit}`Lexer.Agrees`: two lexers stand at the same place of a text.
- Theorem {lit}`Lexer.Agrees.serveAll`: two lexers that agree keep to it at any requests.
- Theorem {lit}`Lexer.Agrees.run`: runs over lexers that agree come to the same end.
- Theorem {lit}`parseSource_congr_words`: source texts are read alike under such tables.
- Theorem {lit}`only_words_matter`: nothing but the words that occur in a source text matters.
-/

namespace RaidTimeline

/-! ## Tables with the same words -/

/-- Two tables have the same words among those that occur in a text. -/
def SameWordsIn (text : Text) (a b : List Text) : Prop :=
  ∀ word, word <:+: text → (word ∈ a ↔ word ∈ b)

-- Only the entries of the tables have to be looked at, not all pieces of the text.
instance (text : Text) (a b : List Text) : Decidable (SameWordsIn text a b) :=
  decidable_of_iff (∀ word ∈ a ++ b, word <:+: text → (word ∈ a ↔ word ∈ b)) <| by
    refine ⟨fun h word hword => ?_, fun h word _ => h word⟩
    by_cases hmem : word ∈ a ++ b
    · exact h word hmem hword
    · rw [List.mem_append, not_or] at hmem
      exact iff_of_false hmem.1 hmem.2

/-! ## Words that stand at a place -/

/-- A word stands behind a piece of a text: the rest begins with it, and a word begins or ends
where it ends. -/
def Stands (passed rest word : Text) : Prop :=
  ∃ behind, rest = word ++ behind ∧
    isBoundary (passed ++ word).getLast? behind.head? = true

/-- The check for a word looks at nothing but the rest of the text and the character in front. -/
theorem standsAt_iff {passed rest word : Text} :
    standsAt passed.getLast? rest word = true ↔ Stands passed rest word := by
  have hlast : (passed ++ word).getLast? = lastOr passed.getLast? word := by
    rw [lastOr, List.getLast?_append]
  rw [standsAt, Bool.and_eq_true, List.isPrefixOf_iff_prefix, Stands, hlast]
  constructor
  · rintro ⟨⟨behind, rfl⟩, hboundary⟩
    rw [List.drop_left] at hboundary
    exact ⟨behind, rfl, hboundary⟩
  · rintro ⟨behind, rfl, hboundary⟩
    rw [List.drop_left]
    exact ⟨List.prefix_append word behind, hboundary⟩

/-- A word is the longest entry of the tables that stands behind a piece of a text. -/
structure Vocabulary.IsLongest (v : Vocabulary) (passed rest word : Text) : Prop where
  entry : word ∈ v.words
  stands : Stands passed rest word
  longest : ∀ other ∈ v.words, Stands passed rest other → other.length ≤ word.length

/-- The first entry that stands behind a piece of a text, of those to be tried, is the longest one
that does. -/
theorem keyword?_eq_some_iff_isLongest {v : Vocabulary} {passed rest word : Text} :
    keyword? v passed.getLast? rest = some word ↔ v.IsLongest passed rest word := by
  rw [keyword?_eq_some_iff]
  simp only [standsAt_iff]
  exact ⟨fun ⟨hmem, hstands, hlongest⟩ => ⟨hmem, hstands, hlongest⟩,
    fun h => ⟨h.entry, h.stands, h.longest⟩⟩

/-- Tables with the same words among those that occur in a text have the same longest entries
there. -/
theorem SameWordsIn.isLongest_iff {v w : Vocabulary} {passed rest word : Text}
    (h : SameWordsIn (passed ++ rest) v.words w.words) :
    v.IsLongest passed rest word ↔ w.IsLongest passed rest word := by
  have hmem : ∀ other, Stands passed rest other → (other ∈ v.words ↔ other ∈ w.words) := by
    rintro other ⟨behind, rfl, -⟩
    exact h other ⟨passed, behind, List.append_assoc passed other behind⟩
  constructor
  · rintro ⟨hentry, hstands, hlongest⟩
    exact ⟨(hmem word hstands).mp hentry, hstands,
      fun other hother hother' => hlongest other ((hmem other hother').mpr hother) hother'⟩
  · rintro ⟨hentry, hstands, hlongest⟩
    exact ⟨(hmem word hstands).mpr hentry, hstands,
      fun other hother hother' => hlongest other ((hmem other hother').mp hother) hother'⟩

/-- Tables with the same words among those that occur in a text have the same keywords there. -/
theorem SameWordsIn.keyword?_eq {v w : Vocabulary} {passed rest : Text}
    (h : SameWordsIn (passed ++ rest) v.words w.words) :
    keyword? w passed.getLast? rest = keyword? v passed.getLast? rest := by
  apply Option.ext
  intro word
  rw [keyword?_eq_some_iff_isLongest, keyword?_eq_some_iff_isLongest, h.isLongest_iff]

namespace Cursor

/-! ## One scan -/

/-- Tables with the same words among those that occur in a text have the same token at each place
of it. -/
theorem scan_congr {text : Text} {c : Cursor} (hc : c.IsIn text) {v w : Vocabulary}
    (h : SameWordsIn text v.words w.words) : c.scan w = c.scan v := by
  rcases hc with ⟨passed, rest, rfl, rfl⟩
  have hlength : ∀ kind : Kind,
      kind.length? w passed.getLast? rest = kind.length? v passed.getLast? rest := by
    intro kind
    cases kind with
    | keyword => exact congrArg (Option.map List.length) h.keyword?_eq
    | _ => rfl
  have hfound : recognise? w passed.getLast? rest = recognise? v passed.getLast? rest := by
    simp only [recognise?, hlength]
  unfold scan between
  simp only
  rw [hfound]

/-- Where no rule before that of keywords matches, the keyword that is found is the longest entry
of the tables that stands there; without such an entry none is found. -/
theorem scan_keyword_iff {v : Vocabulary} {passed rest : Text} (hrest : rest ≠ [])
    (hearlier : ∀ kind ∈ Kind.precedence.takeWhile (· != .keyword),
      kind.length? v passed.getLast? rest = none) (word : Text) :
    ((between passed rest).scan v).1.kind = .keyword ∧
        ((between passed rest).scan v).1.raw = word ↔ v.IsLongest passed rest word := by
  constructor
  · rintro ⟨hkind, rfl⟩
    rcases (between passed rest).scan_cases v with
      ⟨hnil, -⟩ | ⟨-, -, hscan⟩ | ⟨kind, n, -, hfound, hscan⟩
    · exact absurd hnil hrest
    · simp [hscan, emptyToken] at hkind
    · rw [hscan] at hkind ⊢
      obtain rfl : kind = .keyword := hkind
      rcases Option.map_eq_some_iff.mp (length?_of_recognise? hfound).2 with ⟨word, hword, rfl⟩
      have hlongest := keyword?_eq_some_iff_isLongest.mp hword
      rcases hlongest.stands with ⟨behind, rfl, -⟩
      simpa using hlongest
  · intro hword
    have hlength : keywordLength? v passed.getLast? rest = some word.length := by
      rw [keywordLength?, keyword?_eq_some_iff_isLongest.mpr hword, Option.map_some]
    have hfound : recognise? v passed.getLast? rest = some (.keyword, word.length) := by
      have hskipped : (Kind.precedence.takeWhile (· != .keyword)).findSome? (fun kind =>
          (kind.length? v passed.getLast? rest).map (kind, ·)) = none := by
        rw [List.findSome?_eq_none_iff]
        intro kind hkind
        rw [hearlier kind hkind, Option.map_none]
      have hbehind : Kind.precedence.dropWhile (· != .keyword) = [.keyword, .identifier] :=
        rfl
      rw [recognise?, ← List.takeWhile_append_dropWhile (p := (· != Kind.keyword))
        (l := Kind.precedence), List.findSome?_append, hskipped, Option.none_or, hbehind]
      simp [Kind.length?, hlength]
    rcases (between passed rest).scan_cases v with
      ⟨hnil, -⟩ | ⟨-, hnone, -⟩ | ⟨kind, n, -, hsome, hscan⟩
    · exact absurd hnil hrest
    · exact absurd (hnone.symm.trans hfound) (by simp)
    · cases hfound.symm.trans hsome
      rcases hword.stands with ⟨behind, rfl, -⟩
      simp [hscan]

/-- A keyword at a place of a text is a piece of the text. -/
theorem IsIn.infix_of_keyword {text : Text} {c : Cursor} (hc : c.IsIn text) {v : Vocabulary}
    (h : (c.scan v).1.kind = .keyword) : (c.scan v).1.value <:+: text := by
  rcases hc with ⟨passed, rest, rfl, rfl⟩
  rcases (between passed rest).scan_cases v with
    ⟨-, hscan⟩ | ⟨-, -, hscan⟩ | ⟨kind, n, -, -, hscan⟩
  · simp [hscan, emptyToken] at h
  · simp [hscan, emptyToken] at h
  · rw [hscan] at h ⊢
    obtain rfl : kind = .keyword := h
    exact ⟨passed, rest.drop n, by simp [Kind.valueOf]⟩

end Cursor

/-! ## Two lexers -/

namespace Lexer

/-- Two lexers stand at the same place of a text, keep the same token, and have tables with the
same words among those that occur in the text. -/
structure Agrees (text : Text) (l l' : Lexer) : Prop where
  words : SameWordsIn text l.vocabulary.words l'.vocabulary.words
  cursor : l'.cursor = l.cursor
  pending : l'.pending = l.pending
  inside : l.cursor.IsIn text

/-- New lexers agree if their tables do. -/
theorem agrees_ofSource {v w : Vocabulary} {source : Text}
    (h : SameWordsIn (normalize source) v.words w.words) :
    (ofSource v source).Agrees (normalize source) (ofSource w source) :=
  ⟨h, rfl, rfl, Cursor.isIn_ofText _⟩

/-- Two lexers hand out the same tokens, and agree behind them. -/
structure ServeAlike (text : Text) (served served' : List Token × Lexer) : Prop where
  tokens : served'.1 = served.1
  agrees : served.2.Agrees text served'.2

namespace Agrees

variable {text : Text} {l l' : Lexer}

/-- The same token is handed out if it is the one that both keep. -/
theorem serveAlike_kept (h : l.Agrees text l') (t : Token) :
    ServeAlike text ([t], { l with pending := none }) ([t], { l' with pending := none }) :=
  ⟨rfl, h.words, h.cursor, rfl, h.inside⟩

/-- The same token is handed out if it is scanned at a place of the text. -/
theorem serveAlike_scan (h : l.Agrees text l') {c : Cursor} (hc : c.IsIn text) :
    ServeAlike text
      ([(c.scan l.vocabulary).1], { l with cursor := (c.scan l.vocabulary).2 })
      ([(c.scan l'.vocabulary).1], { l' with cursor := (c.scan l'.vocabulary).2 }) := by
  rw [Cursor.scan_congr hc h.words]
  exact ⟨rfl, h.words, rfl, h.pending, (hc.scan l.vocabulary).2⟩

/-- Two lexers that agree hand out the same next token of any kind. -/
theorem nextRaw (h : l.Agrees text l') :
    ServeAlike text ([l.nextRaw.1], l.nextRaw.2) ([l'.nextRaw.1], l'.nextRaw.2) := by
  rcases l with ⟨v, c, kept⟩
  rcases l' with ⟨w, c', kept'⟩
  obtain rfl : c' = c := h.cursor
  obtain rfl : kept' = kept := h.pending
  cases kept' with
  | some t => exact h.serveAlike_kept t
  | none => exact h.serveAlike_scan h.inside

theorem next (h : l.Agrees text l') :
    ServeAlike text ([l.next.1], l.next.2) ([l'.next.1], l'.next.2) := by
  rcases l with ⟨v, c, kept⟩
  rcases l' with ⟨w, c', kept'⟩
  obtain rfl : c' = c := h.cursor
  obtain rfl : kept' = kept := h.pending
  cases kept' with
  | some t => exact h.serveAlike_kept t
  | none => exact h.serveAlike_scan h.inside.skipLayout

theorem peek (h : l.Agrees text l') :
    ServeAlike text ([l.peek.1], l.peek.2) ([l'.peek.1], l'.peek.2) := by
  rcases h.next with ⟨htoken, hagrees⟩
  refine ⟨htoken, hagrees.words, hagrees.cursor, ?_, hagrees.inside⟩
  exact congrArg some (List.singleton_inj.mp htoken)

/-- Collecting tokens is handing them out one by one. -/
theorem collect (h : l.Agrees text l') (view : View) (fuel limit : Nat) :
    ServeAlike text (Lexer.collect view fuel limit l) (Lexer.collect view fuel limit l') := by
  induction fuel generalizing limit l l' with
  | zero => exact ⟨rfl, h⟩
  | succ fuel ih =>
    cases limit with
    | zero => exact ⟨rfl, h⟩
    | succ limit =>
      rcases h.nextRaw with ⟨htoken, hagrees⟩
      simp only [Lexer.collect, List.singleton_inj.mp htoken]
      split_ifs
      · exact ⟨rfl, hagrees⟩
      · rcases ih hagrees limit with ⟨htokens, hbehind⟩
        exact ⟨congrArg (List.cons l.nextRaw.1) htokens, hbehind⟩
      · exact ih hagrees (limit + 1)

/-- Two lexers that agree have as much to hand out. -/
theorem bound_eq (h : l.Agrees text l') : l'.bound = l.bound := by
  rw [bound, bound, remaining, remaining, h.cursor, h.pending]

/-- Two lexers that agree answer a request alike. -/
theorem serve (h : l.Agrees text l') (r : Request) :
    ServeAlike text (l.serve r) (l'.serve r) := by
  cases r with
  | peek => exact h.peek
  | next => exact h.next
  | nextRaw => exact h.nextRaw
  | take view limit =>
    simp only [Lexer.serve, take, h.bound_eq]
    exact h.collect view _ limit
  | tokenize view =>
    simp only [Lexer.serve, tokenize, h.bound_eq]
    exact h.collect view _ _

/-- Whatever two lexers that agree are asked for, they hand out the same tokens and agree behind
them. -/
theorem serveAll (h : l.Agrees text l') (requests : List Request) :
    ServeAlike text (l.serveAll requests) (l'.serveAll requests) := by
  induction requests generalizing l l' with
  | nil => exact ⟨rfl, h⟩
  | cons r rs ih =>
    rcases h.serve r with ⟨hfirst, hagrees⟩
    rcases ih hagrees with ⟨hrest, hbehind⟩
    exact ⟨by rw [Lexer.serveAll, Lexer.serveAll, hfirst, hrest], hbehind⟩

/-- Without a kept token, a keyword that is handed out is a piece of the text. -/
theorem infix_of_keyword (h : l.Agrees text l') (hpending : l.pending = none)
    (hkind : l.next.1.kind = .keyword) : l.next.1.value <:+: text := by
  rw [next_eq hpending] at hkind ⊢
  exact h.inside.skipLayout.infix_of_keyword hkind

end Agrees

end Lexer

/-! ## Two readers -/

/-- Two tables of log line types have the same words as far as a token can name one. -/
def Token.NamesAlike (t : Token) (a b : List Text) : Prop :=
  t.kind = .keyword → (t.value ∈ a ↔ t.value ∈ b)

section

variable {a b : List Text} {t : Token}

/-- The tables of log line types count for the words that begin modifiers only. -/
theorem ModifierDraft.begin?_congr (h : t.NamesAlike a b) : begin? b t = begin? a t := by
  unfold begin?
  by_cases hkind : t.kind = .keyword
  · simp only [h hkind]
  · simp [hkind]

/-- A statement makes the same of a token that the tables name alike. -/
theorem StatementDraft.accept_congr (h : t.NamesAlike a b) (d : StatementDraft) :
    d.accept b t = d.accept a t := by
  cases d <;> simp only [accept, acceptEntry, ModifierDraft.begin?_congr h]

/-- A program makes the same of a token that the tables name alike. -/
theorem ProgramDraft.accept_congr (h : t.NamesAlike a b) (p : ProgramDraft) :
    p.accept b t = p.accept a t := by
  simp only [accept, StatementDraft.accept_congr h]

end

section

variable {σ ρ : Type} {accept accept' : σ → Token → Verdict σ ρ}

/-- Comments apart, a draft makes of a token what the draft in it does. -/
theorem Annotated.accept_congr {t : Token} (h : ∀ draft, accept' draft t = accept draft t)
    (d : Annotated σ) : d.accept accept' t = d.accept accept t := by
  simp only [Annotated.accept, h]

/-- Two runs come to the same end, and their lexers agree. -/
structure EndAlike (text : Text) (r r' : Run σ ρ) : Prop where
  outcome : r'.outcome = r.outcome
  draft : r'.draft = r.draft
  agrees : r.lexer.Agrees text r'.lexer

/-- Two drafts that make the same of a token end alike at it, if they go on alike. -/
theorem Lexer.Agrees.settle {text : Text} {l l' : Lexer} (h : l.Agrees text l') {draft : σ}
    {t : Token} (haccept : accept' draft t = accept draft t) {go go' : σ → Run σ ρ}
    (hgo : ∀ longer, EndAlike text (go longer) (go' longer)) :
    EndAlike text (settle accept draft t l go) (settle accept' draft t l' go') := by
  unfold RaidTimeline.settle
  rw [haccept]
  cases accept draft t with
  | more longer => exact hgo longer
  | done result => exact ⟨rfl, rfl, h⟩
  | before result => exact ⟨rfl, rfl, h.words, h.cursor, rfl, h.inside⟩
  | fault cause => exact ⟨rfl, rfl, h⟩

/-- Two runs over lexers that agree end alike, if the drafts make the same of every token in
which a keyword is a piece of the text. -/
theorem Lexer.Agrees.run {text : Text} {l l' : Lexer} (h : l.Agrees text l')
    (hpending : l.pending = none)
    (haccept : ∀ (draft : σ) (t : Token), (t.kind = .keyword → t.value <:+: text) →
      accept' draft t = accept draft t) (draft : σ) :
    EndAlike text (run accept draft l) (run accept' draft l') := by
  induction hlength : l.remaining using Nat.strongRecOn generalizing draft l l' with
  | _ length ih =>
  rcases h.next with ⟨htoken, hagrees⟩
  have hsame := fun draft => haccept draft l.next.1 (h.infix_of_keyword hpending)
  rw [RaidTimeline.run, RaidTimeline.run, List.singleton_inj.mp htoken]
  apply hagrees.settle (hsame draft)
  intro longer
  by_cases hwidth : 0 < l.next.1.span.width
  · have hshorter : l.next.2.remaining < length := by
      have hle := l.remaining_next_add_width_le
      omega
    rw [if_pos hwidth, if_pos hwidth]
    exact ih _ hshorter hagrees (pending_next l) longer rfl
  · rw [if_neg hwidth, if_neg hwidth]
    exact hagrees.settle (hsame longer) fun last => ⟨rfl, rfl, hagrees⟩

end

/-- Source texts are read alike under tables with the same words among those that occur in them,
if the tables of log line types have the same of these words too. -/
theorem parseSource_congr_words {v w : Vocabulary} {source : Text}
    (hwords : SameWordsIn (normalize source) v.words w.words)
    (hlogTypes : SameWordsIn (normalize source) v.logTypes w.logTypes) (file : Text) :
    parseSource w source file = parseSource v source file := by
  have haccept : ∀ (draft : Annotated ProgramDraft) (t : Token),
      (t.kind = .keyword → t.value <:+: normalize source) →
        draft.accept (ProgramDraft.accept w.logTypes) t =
          draft.accept (ProgramDraft.accept v.logTypes) t := by
    intro draft t ht
    exact draft.accept_congr (ProgramDraft.accept_congr fun hkind => hlogTypes _ (ht hkind))
  have hends : EndAlike (normalize source) (sourceRun v source) (sourceRun w source) :=
    (Lexer.agrees_ofSource hwords).run rfl haccept ⟨⟨[], none⟩, []⟩
  have hprogram : (sourceRun w source).program file = (sourceRun v source).program file := by
    rw [Run.program, Run.program, hends.outcome, hends.draft, hends.agrees.cursor]
  rw [parseSource_eq, parseSource_eq, hends.outcome, hprogram]

/-- Only the words that occur in a source text matter, whatever the order, the repetition and the
split of the tables: the lexers answer all requests alike and stay at the same places, and the
readers come to the same program or error.  At every place the same entry is the first one that
stands there, however the entries of one length are ordered; and where no earlier rule matches, the
keyword is that entry, the longest one that stands there. -/
theorem only_words_matter (v w : Vocabulary) (source : Text)
    (hwords : SameWordsIn (normalize source) v.words w.words) :
    (∀ requests,
        ((Lexer.ofSource w source).serveAll requests).1 =
          ((Lexer.ofSource v source).serveAll requests).1 ∧
        ((Lexer.ofSource w source).serveAll requests).2.cursor =
          ((Lexer.ofSource v source).serveAll requests).2.cursor ∧
        ((Lexer.ofSource w source).serveAll requests).2.pending =
          ((Lexer.ofSource v source).serveAll requests).2.pending) ∧
      (SameWordsIn (normalize source) v.logTypes w.logTypes →
        ∀ file, parseSource w source file = parseSource v source file) ∧
      (∀ passed rest ordered, passed ++ rest = normalize source → IsAlternation w.words ordered →
        ordered.find? (standsAt passed.getLast? rest) = keyword? v passed.getLast? rest) ∧
      ∀ passed rest, passed ++ rest = normalize source → rest ≠ [] →
        (∀ kind ∈ Kind.precedence.takeWhile (· != .keyword),
          kind.length? v passed.getLast? rest = none) →
        ∀ word, ((Cursor.between passed rest).scan v).1.kind = .keyword ∧
          ((Cursor.between passed rest).scan v).1.raw = word ↔ v.IsLongest passed rest word := by
  refine ⟨fun requests => ?_, fun hlogTypes file => parseSource_congr_words hwords hlogTypes file,
    fun passed rest ordered hsource hordered => ?_,
    fun passed rest _ hrest hearlier word => Cursor.scan_keyword_iff hrest hearlier word⟩
  · rcases (Lexer.agrees_ofSource hwords).serveAll requests with ⟨htokens, hagrees⟩
    exact ⟨htokens, hagrees.cursor, hagrees.pending⟩
  · rw [w.isAlternation_alternation.find?_eq hordered, ← keyword?]
    exact SameWordsIn.keyword?_eq (hsource ▸ hwords)

/-- These tables hold the same two words of the text, in another order and another split, one of
them twice, and other words besides.  The longer word begins with the other one, and both stand at
the same place. -/
theorem only_words_matter_overlapping :
    let v : Vocabulary := ⟨["window".toList], ["Ability".toList, "Ability-Extra".toList]⟩
    let w : Vocabulary :=
      ⟨["Ability".toList], ["Ability-Extra".toList, "Ability".toList, "Ability-Extra".toList]⟩
    let source := "5 \"a\" Ability-Extra \x7b \x7d".toList
    SameWordsIn (normalize source) v.words w.words ∧
      (∀ requests, ((Lexer.ofSource w source).serveAll requests).1 =
        ((Lexer.ofSource v source).serveAll requests).1) ∧
      (∀ file, parseSource w source file = parseSource v source file) ∧
      v.IsLongest "5 \"a\" ".toList "Ability-Extra \x7b \x7d".toList "Ability-Extra".toList := by
  intro v w source
  have hwords : SameWordsIn (normalize source) v.words w.words := by decide +kernel
  rcases only_words_matter v w source hwords with ⟨hlexers, hreaders, -, hkeyword⟩
  refine ⟨hwords, fun requests => (hlexers requests).1, hreaders (by decide +kernel), ?_⟩
  exact (hkeyword _ _ (by decide +kernel) (by decide +kernel) (by decide +kernel) _).mp
    (by decide +kernel)

end RaidTimeline
