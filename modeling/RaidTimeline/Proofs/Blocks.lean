import RaidTimeline.Proofs.Sessions

/-!
# Structured synchronisations

The fields of a structured synchronisation are written between braces with commas between them,
and one comma may stand behind the last field.  A reader is more lenient: a comma needs no field in
front of it.  This module says what a reader accepts that is asked for a structured synchronisation
anywhere in a text, whatever the tables hold, and what it accepts beyond the written form.

Main results:

- Definition {lit}`Lexer.ahead`: the tokens that come next.
- Theorem {lit}`Lexer.Awaits.ahead_eq`: they are the awaited ones, and the last comes again.
- Definitions {lit}`IsBlock` and {lit}`IsFieldsBody`: structured synchronisations, and the written
  form of their fields.
- Theorem {lit}`Reader.construct_block_eq_ok_iff`: what a reader accepts.
- Theorem {lit}`isBlock_isFieldsBody_iff`: where that is the written form.
-/

namespace RaidTimeline

/-! ## The tokens ahead -/

namespace Lexer

/-- The next tokens that are not layout. -/
def ahead (l : Lexer) (n : Nat) : List Token := l.handedOut (List.replicate n .next)

theorem ahead_succ (l : Lexer) (n : Nat) : l.ahead (n + 1) = l.next.1 :: l.next.2.ahead n := by
  rw [ahead, List.replicate_succ, handedOut_next, ahead]

@[simp]
theorem length_ahead (l : Lexer) (n : Nat) : (l.ahead n).length = n := by
  induction n generalizing l with
  | zero => rfl
  | succ n ih => rw [ahead_succ, List.length_cons, ih]

namespace Awaits

variable {l : Lexer} {ts body : List Token} {last : Token}

/-- Whatever the tables hold, the last of the awaited tokens has no width. -/
theorem exists_eq_concat (h : l.Awaits ts) : ∃ body last, ts = body ++ [last] ∧
    (last.isLast = true ∨ last.kind = .keyword) ∧ ¬0 < last.span.width := by
  rcases h with ⟨unread, -, -, rfl, -⟩
  rcases unread.cursor.exists_visible_eq l.vocabulary with
    ⟨body, last, hvisible, hkind, hwidth, -⟩
  exact ⟨body, last, hvisible, hkind, hwidth⟩

/-- The tokens ahead are the awaited ones, the last of them again and again. -/
theorem ahead_eq (h : l.Awaits (body ++ [last])) {n m : Nat} (hle : n ≤ m) :
    l.ahead n = (body ++ List.replicate m last).take n := by
  induction n generalizing l body m with
  | zero => rfl
  | succ n ih =>
    rw [ahead_succ]
    cases body with
    | nil =>
      rcases Nat.exists_eq_succ_of_ne_zero (Nat.ne_zero_of_lt hle) with ⟨m, rfl⟩
      have hout : l.HandsOut last [] := h.handsOut
      have hrest : l.next.2.Awaits ([] ++ [last]) := hout.awaits
      rw [hout.token, ih hrest (Nat.le_of_succ_le_succ hle)]
      rfl
    | cons t body =>
      have hout : l.HandsOut t (body ++ [last]) := h.handsOut
      have hrest := hout.awaits
      rw [behindFirst_append] at hrest
      rw [hout.token, ih hrest (Nat.le_of_succ_le hle)]
      rfl

/-- What the awaited tokens begin with comes next. -/
theorem ahead_of_prefix (h : l.Awaits (body ++ [last])) (hts : ts <+: body ++ [last, last]) :
    l.ahead ts.length = ts := by
  rcases hts with ⟨us, hus⟩
  have hsplit : body ++ List.replicate (ts.length + 2) last =
      ts ++ (us ++ List.replicate ts.length last) := by
    rw [← List.append_assoc, hus, List.append_assoc]
    rfl
  rw [h.ahead_eq (Nat.le_add_right ts.length 2), hsplit, List.take_left]

/-- A token ahead that is not the last one is among those in front of it. -/
theorem exists_eq_of_ahead (h : l.Awaits (body ++ [last])) {n : Nat} {us vs : List Token}
    {t : Token} (hahead : l.ahead n = us ++ t :: vs) (ht : t ≠ last) :
    ∃ ws, body = us ++ t :: ws := by
  rw [h.ahead_eq (Nat.le_refl n)] at hahead
  obtain ⟨ws, hwhole⟩ : ∃ ws, body ++ List.replicate n last = us ++ t :: ws := by
    refine ⟨vs ++ (body ++ List.replicate n last).drop n, ?_⟩
    rw [← List.cons_append, ← List.append_assoc, ← hahead, List.take_append_drop]
  have hnot : t ∉ List.replicate n last := fun hmem => ht (List.eq_of_mem_replicate hmem)
  rcases List.append_eq_append_iff.mp hwhole with ⟨as, -, hrest⟩ | ⟨as, hbody, hrest⟩
  · exact absurd (by simp [hrest]) hnot
  · cases as with
    | nil =>
      rw [List.nil_append] at hrest
      exact absurd (hrest ▸ List.mem_cons_self) hnot
    | cons a as =>
      obtain rfl := (List.cons.inj hrest).1
      exact ⟨as, hbody⟩

end Awaits

end Lexer

/-- Whatever the tables hold and whatever has been asked, a reader awaits tokens of its text. -/
theorem Reader.exists_awaits (v : Vocabulary) (source file sourceType : Text)
    (requests : List Request) :
    let l := ((ofSource v source file sourceType).serveAll requests).lexer
    l.vocabulary = v ∧ ∃ ts, l.Awaits ts := by
  apply serveAll_lexer (P := fun l => l.vocabulary = v ∧ ∃ ts, l.Awaits ts)
  · rintro l ⟨hvocabulary, ts, hawaits⟩
    rcases hawaits.exists_next with ⟨-, rest, -, hrest⟩
    exact ⟨(Lexer.MovesTo.next l).vocabulary.trans hvocabulary, rest, hrest⟩
  · rintro l ⟨hvocabulary, ts, hawaits⟩
    exact ⟨(Lexer.MovesTo.peek l).vocabulary.trans hvocabulary, ts, hawaits.peek⟩
  · exact ⟨rfl, _, Lexer.awaits_visible rfl⟩

/-! ## Blocks -/

/-- A structured synchronisation with a given form of what stands between its braces. -/
inductive IsBlock (logTypes : List Text) (IsBody : List Token → List Field → Prop) :
    List Token → BlockSync → Prop where
  | intro {keyword opening closing : Token} {ts : List Token} {fs : List Field} :
      keyword.kind = .keyword → keyword.value ∈ logTypes → opening.holds .brace ['\x7b'] →
        IsBody ts fs → closing.holds .brace ['\x7d'] →
          IsBlock logTypes IsBody (keyword :: opening :: (ts ++ [closing]))
            ⟨spanOf (keyword :: opening :: (ts ++ [closing])), keyword.value, fs⟩

/-- As a modifier, a structured synchronisation has slots between its braces. -/
theorem IsModifier.isBlock {logTypes : List Text} {ts : List Token} {b : BlockSync}
    (h : IsModifier logTypes ts (.sync (.block b))) : IsBlock logTypes IsSlots ts b := by
  cases h with
  | block hkind hmem hopening hslots hclosing =>
    exact .intro hkind hmem hopening hslots hclosing

namespace ConstructDraft

variable {logTypes : List Text} {ts : List Token} {final : ConstructDraft} {t : Token}

/-- What a draft that was asked for a structured synchronisation has consumed. -/
def BeginsBlock (logTypes : List Text) (d : ConstructDraft) (ts : List Token) : Prop :=
  (ts = [] ∧ d = .start .block) ∨
    ∃ b : BlockDraft, d = .modifier (.block b) ∧ b.Begun logTypes ts

/-- A structured synchronisation begins with the word of a log line type. -/
theorem accept_start_meets (t : Token) :
    (accept logTypes (.start .block) t).Meets (fun d => d.BeginsBlock logTypes [t])
      (fun _ => False) (fun _ => False) := by
  apply Token.expect_meets
  intro hkind
  split
  · next hmem => exact Or.inr ⟨.opening t, rfl, rfl, hkind, hmem⟩
  · trivial

/-- One step of a draft that was asked for a structured synchronisation. -/
theorem BeginsBlock.accept_meets {d : ConstructDraft} (h : d.BeginsBlock logTypes ts) (t : Token) :
    (d.accept logTypes t).Meets (fun d => d.BeginsBlock logTypes (ts ++ [t]))
      (fun n => ∃ b, IsBlock logTypes IsSlots (ts ++ [t]) b ∧ n = .blockSync b)
      (fun _ => False) := by
  rcases h with ⟨rfl, rfl⟩ | ⟨b, rfl, hbegun⟩
  · have hstart : (accept logTypes (.start .block) t).Meets _ _ _ := accept_start_meets t
    cases hverdict : accept logTypes (.start .block) t with
    | more longer =>
      rw [hverdict] at hstart
      exact hstart
    | done | before =>
      rw [hverdict] at hstart
      exact hstart.elim
    | fault cause => trivial
  · have hstep := BlockDraft.accept_meets hbegun t
    simp only [accept, ModifierDraft.accept]
    cases hverdict : b.accept t with
    | more longer =>
      rw [hverdict] at hstep
      exact Or.inr ⟨longer, rfl, hstep⟩
    | done result =>
      rw [hverdict] at hstep
      exact ⟨result, IsModifier.isBlock hstep, rfl⟩
    | before result =>
      rw [hverdict] at hstep
      exact hstep.elim
    | fault cause => trivial

/-- A structured synchronisation that a draft has found is one. -/
theorem isBlock_of_outcome {n : Node} (h : Leads (accept logTypes) (.start .block) ts final)
    (houtcome : (final.accept logTypes t).outcome? t = some (.ok n)) :
    ∃ b, IsBlock logTypes IsSlots (ts ++ [t]) b ∧ n = .blockSync b := by
  have hbegins : final.BeginsBlock logTypes ([] ++ ts) := by
    apply h.invariant (fun d ts => d.BeginsBlock logTypes ts) _ (Or.inl ⟨rfl, rfl⟩)
    intro a b us t ha hmore
    have hstep := ha.accept_meets t
    rwa [hmore] at hstep
  have hstep := hbegins.accept_meets t
  cases hverdict : final.accept logTypes t with
  | more => simp [hverdict, Verdict.outcome?] at houtcome
  | done result =>
    rw [hverdict] at houtcome hstep
    cases houtcome
    exact hstep
  | before =>
    rw [hverdict] at hstep
    exact hstep.elim
  | fault => simp [hverdict, Verdict.outcome?] at houtcome

/-- The tokens of a structured synchronisation in front of the closing brace lead to a draft that
is complete with it. -/
theorem exists_leads_of_isSlots {keyword opening closing : Token} {us : List Token}
    {fs : List Field} (hkind : keyword.kind = .keyword) (hmem : keyword.value ∈ logTypes)
    (hopening : opening.holds .brace ['\x7b'] = true) (hslots : IsSlots us fs)
    (hclosing : closing.holds .brace ['\x7d'] = true) :
    ∃ final, Leads (accept logTypes) (.start .block) (keyword :: opening :: us) final ∧
      final.accept logTypes closing =
        .done (.blockSync ⟨keyword.span.through closing.span, keyword.value, fs⟩) := by
  rcases BlockDraft.leads_of_braces hopening hslots hclosing with ⟨draft, hleads, hdone⟩
  have hbegin : accept logTypes (.start .block) keyword =
      .more (.modifier (.block (.opening keyword))) := by
    simp [accept, acceptFirst, Token.expect, hkind, hmem]
  have hlift : Leads (accept logTypes) (.modifier (.block (.opening keyword))) (opening :: us)
      (.modifier (.block draft)) :=
    hleads.lift (fun draft => ConstructDraft.modifier (.block draft)) fun hmore => by
      simp [accept, ModifierDraft.accept, hmore, Verdict.map]
  refine ⟨_, .step _ hbegin hlift, ?_⟩
  simp [accept, ModifierDraft.accept, hdone, Verdict.map, Modifier.toNode, Sync.toNode]

end ConstructDraft

namespace Reader

/-- A reader that awaits tokens accepts a structured synchronisation exactly if the tokens ahead
are one with slots between its braces. -/
theorem construct_block_eq_ok_iff {r : Reader} {ts : List Token} (hawaits : r.lexer.Awaits ts)
    {n : Node} : (r.construct .block).1 = .ok n ↔
      ∃ k b, IsBlock r.logTypes IsSlots ((r.lexer.ahead k).filter (·.kind != .comment)) b ∧
        n = .blockSync b := by
  rcases hawaits.exists_eq_concat with ⟨body, last, rfl, hlast, hwidth⟩
  have hkinds : last.kind ≠ .comment ∧ last.kind ≠ .brace := by
    rcases hlast with hlast | hkeyword
    · rcases Token.isLast_iff.mp hlast with hend | hend <;> simp [hend]
    · simp [hkeyword]
  constructor
  · intro hok
    rcases exists_leads_of_run_ok hawaits hwidth hkinds.1 hok with
      ⟨us, t, final, hprefix, hcomment, hleads, houtcome⟩
    rcases ConstructDraft.isBlock_of_outcome hleads houtcome with ⟨b, hblock, hn⟩
    refine ⟨(us ++ [t]).length, b, ?_, hn⟩
    rw [hawaits.ahead_of_prefix hprefix, List.filter_append]
    simpa [hcomment] using hblock
  · rintro ⟨k, b, hblock, rfl⟩
    generalize hahead : (r.lexer.ahead k).filter (·.kind != .comment) = tokens at hblock
    cases hblock with
    | @intro keyword opening closing us fs hkind hmem hopening hslots hclosing =>
      have hsplit : (r.lexer.ahead k).filter (·.kind != .comment) =
          (keyword :: opening :: us) ++ closing :: [] := hahead
      rcases exists_filter_eq_append_cons hsplit with ⟨ys, zs, hys, hfilter, hcomment⟩
      -- A brace has a width, so the closing one is not the last of the awaited tokens.
      have hbrace := ((Token.holds_iff ..).mp hclosing).1
      have hne : closing ≠ last := fun heq => hkinds.2 (heq ▸ hbrace)
      rcases hawaits.exists_eq_of_ahead hys hne with ⟨ws, rfl⟩
      rcases ConstructDraft.exists_leads_of_isSlots hkind hmem hopening hslots hclosing with
        ⟨final, hleads, hdone⟩
      rw [List.append_assoc, List.cons_append] at hawaits
      rcases run_annotated_of_leads r.comments hawaits (by simpa using hcomment)
        (hfilter ▸ hleads) (by rw [hdone]; rfl) with ⟨l, -, -, hrun⟩
      simp only [construct, runDraft, hrun]
      simp [spanOf, List.getLast?_cons]

end Reader

/-! ## The written form -/

/-- Fields with commas between them. -/
inductive IsFieldList : List Token → List Field → Prop where
  | single {ts : List Token} {f : Field} : IsField ts f → IsFieldList ts [f]
  | next {ts us : List Token} {comma : Token} {fs : List Field} {f : Field} :
      IsFieldList ts fs → comma.holds .punctuator [','] → IsField us f →
        IsFieldList (ts ++ comma :: us) (fs ++ [f])

/-- The written form of what stands between the braces: nothing, or fields with commas between
them and at most one comma behind the last. -/
inductive IsFieldsBody : List Token → List Field → Prop where
  | empty : IsFieldsBody [] []
  | fields {ts : List Token} {fs : List Field} : IsFieldList ts fs → IsFieldsBody ts fs
  | trailing {ts : List Token} {comma : Token} {fs : List Field} :
      IsFieldList ts fs → comma.holds .punctuator [','] → IsFieldsBody (ts ++ [comma]) fs

/-- A comma stands behind neither an opening brace nor another comma. -/
def CommaFollowsField (t u : Token) : Prop :=
  u.holds .punctuator [','] = true →
    t.holds .brace ['\x7b'] = false ∧ t.holds .punctuator [','] = false

/-- A comma may stand behind the last of some tokens. -/
def EndsField (ts : List Token) : Prop := ∀ t ∈ ts.getLast?, ∀ u, CommaFollowsField t u

section

variable {logTypes : List Text} {ts : List Token} {fs : List Field} {opening : Token}

/-- What is no punctuation mark is no comma. -/
theorem CommaFollowsField.of_kind {t u : Token} (hu : u.kind ≠ .punctuator) :
    CommaFollowsField t u :=
  fun hcomma => absurd ((Token.holds_iff ..).mp hcomma).1 hu

/-- In a field is no comma, and one may stand behind it. -/
theorem IsField.isChain {f : Field} (h : IsField ts f) (t : Token) :
    (t :: ts).IsChain CommaFollowsField ∧ EndsField (t :: ts) := by
  have hfield : ∀ {key colon value : Token}, key.kind = .identifier →
      colon.holds .punctuator [':'] = true → value.kind = .string ∨ value.kind = .number →
        [t, key, colon, value].IsChain CommaFollowsField ∧ EndsField [t, key, colon, value] := by
    intro key colon value hkey hcolon hvalue
    have hplain : value.kind ≠ .punctuator ∧ value.kind ≠ .brace := by
      rcases hvalue with hvalue | hvalue <;> simp [hvalue]
    constructor
    · refine .cons_cons (.of_kind (by simp [hkey])) (.cons_cons ?_ (.cons_cons ?_ (.singleton _)))
      · intro hcomma
        have hmark := ((Token.holds_iff ..).mp hcomma).2
        rw [((Token.holds_iff ..).mp hcolon).2] at hmark
        contradiction
      · exact .of_kind hplain.1
    · rintro u ⟨⟩ - -
      simp [Token.holds, hplain]
  cases h with
  | string hkey hcolon hvalue => exact hfield hkey hcolon (Or.inl hvalue)
  | number hkey hcolon hvalue => exact hfield hkey hcolon (Or.inr hvalue)

/-- In a list of fields every comma stands behind a field, and one may stand behind the last. -/
theorem IsFieldList.isChain (h : IsFieldList ts fs) (t : Token) :
    (t :: ts).IsChain CommaFollowsField ∧ EndsField (t :: ts) := by
  induction h with
  | single hfield => exact hfield.isChain t
  | @next ts us comma fs f _ _ hfield ih =>
    rcases hfield.isChain comma with ⟨hbehind, hends⟩
    constructor
    · rw [← List.cons_append, List.isChain_append]
      refine ⟨ih.1, hbehind, ?_⟩
      rintro u hu w ⟨⟩
      exact ih.2 u hu comma
    · intro u hu
      rw [← List.cons_append, List.getLast?_append, List.getLast?_cons, Option.some_or] at hu
      exact hends u (by rwa [List.getLast?_cons])

/-- In the written form every comma stands behind a field. -/
theorem IsFieldsBody.isChain (h : IsFieldsBody ts fs) (t : Token) :
    (t :: ts).IsChain CommaFollowsField := by
  cases h with
  | empty => exact .singleton t
  | fields hlist => exact (hlist.isChain t).1
  | @trailing ts comma fs hlist hcomma =>
    rcases hlist.isChain t with ⟨hchain, hends⟩
    rw [← List.cons_append, List.isChain_append]
    refine ⟨hchain, .singleton comma, ?_⟩
    rintro u hu w ⟨⟩
    exact hends u hu comma

/-- A list of fields is a list of slots none of which is empty. -/
theorem IsFieldList.isSlots (h : IsFieldList ts fs) : IsSlots ts fs := by
  induction h with
  | single hfield => exact .first (.field hfield)
  | next _ hcomma hfield ih => exact .next ih hcomma (.field hfield)

/-- In the written form only the last slot may be empty. -/
theorem IsFieldsBody.isSlots (h : IsFieldsBody ts fs) : IsSlots ts fs := by
  cases h with
  | empty => exact .first .empty
  | fields hlist => exact hlist.isSlots
  | trailing hlist hcomma => simpa using hlist.isSlots.next hcomma .empty

/-- Slots between which every comma stands behind a field are in the written form. -/
theorem IsSlots.isFieldsBody (h : IsSlots ts fs) (hopening : opening.holds .brace ['\x7b'] = true)
    (hchain : (opening :: ts).IsChain CommaFollowsField) : IsFieldsBody ts fs := by
  induction h with
  | first hslot =>
    cases hslot with
    | empty => exact .empty
    | field hfield => exact .fields (.single hfield)
  | @next ts us comma fs gs _ hcomma hslot ih =>
    rw [← List.cons_append, List.isChain_append] at hchain
    rcases hchain with ⟨hfront, -, hseam⟩
    have hlast : ∀ t ∈ (opening :: ts).getLast?,
        t.holds .brace ['\x7b'] = false ∧ t.holds .punctuator [','] = false :=
      fun t ht => hseam t ht comma rfl hcomma
    cases ih hfront with
    | empty =>
      have hfalse := (hlast opening rfl).1
      rw [hopening] at hfalse
      contradiction
    | fields hlist =>
      cases hslot with
      | empty => simpa using IsFieldsBody.trailing hlist hcomma
      | field hfield => exact .fields (hlist.next hcomma hfield)
    | @trailing ts last _ hlist hbefore =>
      have hfalse := (hlast last (by simp [List.getLast?_cons])).2
      rw [hbefore] at hfalse
      contradiction

/-- A structured synchronisation with slots is in the written form exactly if every comma in it
stands behind a field. -/
theorem isBlock_isFieldsBody_iff {b : BlockSync} : IsBlock logTypes IsFieldsBody ts b ↔
    IsBlock logTypes IsSlots ts b ∧ ts.IsChain CommaFollowsField := by
  constructor
  · intro h
    cases h with
    | @intro keyword opening closing us fs hkind hmem hopening hbody hclosing =>
      refine ⟨.intro hkind hmem hopening hbody.isSlots hclosing, .cons_cons ?_ ?_⟩
      · exact .of_kind (by simp [((Token.holds_iff ..).mp hopening).1])
      · rw [← List.cons_append, List.isChain_append]
        refine ⟨hbody.isChain opening, .singleton closing, ?_⟩
        rintro t - u ⟨⟩
        exact .of_kind (by simp [((Token.holds_iff ..).mp hclosing).1])
  · rintro ⟨h, hchain⟩
    cases h with
    | intro hkind hmem hopening hslots hclosing =>
      have hbehind := hchain.tail
      rw [List.tail_cons, ← List.cons_append, List.isChain_append] at hbehind
      exact .intro hkind hmem hopening (hslots.isFieldsBody hopening hbehind.1) hclosing

end

/-- Whatever the tables hold, and whatever a reader has been asked before: a structured
synchronisation is accepted exactly if the tokens ahead, without comments, begin with one whose
slots may be empty, and it has the fields in their order.  It is in the written form exactly if
every comma stands behind a field. -/
theorem Reader.construct_block_exact (v : Vocabulary) (source file sourceType : Text)
    (requests : List Request) :
    let r := (ofSource v source file sourceType).serveAll requests
    let tokens := fun k => (r.lexer.ahead k).filter (·.kind != .comment)
    (∀ n, (r.construct .block).1 = .ok n ↔
      ∃ k b, IsBlock v.logTypes IsSlots (tokens k) b ∧ n = .blockSync b) ∧
    ∀ k b, IsBlock v.logTypes IsFieldsBody (tokens k) b ↔
      IsBlock v.logTypes IsSlots (tokens k) b ∧ (tokens k).IsChain CommaFollowsField := by
  intro r tokens
  rcases exists_awaits v source file sourceType requests with ⟨hvocabulary, ts, hawaits⟩
  have hlogTypes : r.logTypes = v.logTypes := congrArg Vocabulary.logTypes hvocabulary
  refine ⟨fun n => ?_, fun k b => isBlock_isFieldsBody_iff⟩
  rw [construct_block_eq_ok_iff hawaits, hlogTypes]

/-- A reader accepts a comma in front of which no field stands, and this is not the written form. -/
theorem Reader.construct_block_loneComma :
    let r := ofSource .default "Ability \x7b , \x7d".toList "<unknown>".toList "module".toList
    let tokens := fun k => (r.lexer.ahead k).filter (·.kind != .comment)
    (∃ n, (r.construct .block).1 = .ok n) ∧
      ¬∃ k b, IsBlock Vocabulary.default.logTypes IsFieldsBody (tokens k) b := by
  intro r tokens
  have hread : (r.lexer.ahead 4).map Token.lexeme = [⟨.keyword, "Ability".toList⟩,
      ⟨.brace, ['\x7b']⟩, ⟨.punctuator, [',']⟩, ⟨.brace, ['\x7d']⟩] := by
    decide +kernel
  obtain ⟨keyword, opening, comma, closing, hfour, hbehind⟩ : ∃ keyword opening comma closing,
      r.lexer.ahead 4 = [keyword, opening, comma, closing] ∧
        ∀ k, ∃ rest, r.lexer.ahead (k + 3) = keyword :: opening :: comma :: rest :=
    ⟨_, _, _, _, rfl, fun k => ⟨_, rfl⟩⟩
  rw [hfour] at hread
  simp only [List.map_cons, List.map_nil, List.cons.injEq, Token.lexeme_eq_iff, and_true] at hread
  rcases hread with ⟨⟨hkind, hvalue⟩, hopening, hcomma, hclosing⟩
  have hopens := (Token.holds_iff ..).mpr hopening
  have hmark := (Token.holds_iff ..).mpr hcomma
  have htokens : ∀ {rest : List Token}, (keyword :: opening :: comma :: rest).filter
      (·.kind != .comment) = keyword :: opening :: comma :: rest.filter (·.kind != .comment) := by
    simp [hkind, hopening, hcomma]
  constructor
  · have hslots : IsSlots [comma] [] := .next (.first .empty) hmark .empty
    have hlogType : keyword.value ∈ r.logTypes := by
      rw [hvalue]
      decide +kernel
    have hblock : IsBlock r.logTypes IsSlots (keyword :: opening :: ([comma] ++ [closing])) _ :=
      .intro hkind hlogType hopens hslots ((Token.holds_iff ..).mpr hclosing)
    have hfirst : tokens 4 = keyword :: opening :: ([comma] ++ [closing]) := by
      simp only [tokens, hfour, htokens]
      simp [hclosing]
    rw [← hfirst] at hblock
    have hawaits : r.lexer.Awaits (r.lexer.cursor.visible r.lexer.vocabulary) :=
      Lexer.awaits_visible rfl
    exact ⟨_, (construct_block_eq_ok_iff hawaits).mpr ⟨4, _, hblock, rfl⟩⟩
  · rintro ⟨k, b, h⟩
    rcases isBlock_isFieldsBody_iff.mp h with ⟨hblock, hchain⟩
    have hlong : 3 ≤ (tokens k).length := by
      generalize tokens k = ts at hblock
      cases hblock
      simp
    have hle : (tokens k).length ≤ k := by
      simpa using List.length_filter_le (·.kind != .comment) (r.lexer.ahead k)
    rcases Nat.exists_eq_add_of_le' (hlong.trans hle) with ⟨j, rfl⟩
    rcases hbehind j with ⟨rest, hrest⟩
    -- The comma stands directly behind the opening brace.
    simp only [tokens, hrest, htokens] at hchain
    have hfollows := (List.isChain_cons_cons.mp hchain.tail).1
    have hfalse := (hfollows hmark).1
    exact absurd (hfalse.symm.trans hopens) Bool.false_ne_true

end RaidTimeline
