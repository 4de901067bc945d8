import RaidTimeline.Proofs.Feeding
import RaidTimeline.Proofs.Grammar

/-!
# Drafts and derivations

What a draft has consumed begins a construct of the grammar, and whatever it makes of the next
token agrees with the grammar.  Each of the four machines has one predicate that says what it has
consumed, and one step lemma.

Main results:

- Definition {lit}`Verdict.Meets`: conditions on what a draft makes of a token.
- Definitions {lit}`BlockDraft.Begun`, {lit}`ModifierDraft.Begun`, {lit}`StatementDraft.Begun`
  and {lit}`ProgramDraft.Begun`: the tokens that a draft may have consumed.
- Theorems {lit}`BlockDraft.close_cases` and {lit}`ProgramDraft.acceptFirst_cases`: all that may
  come of a token behind a field and between two statements.
- Theorem {lit}`ProgramDraft.accept_meets`: one step of a program.
- Theorem {lit}`feed_sound`: the statements that are read have a derivation.
-/

namespace RaidTimeline

/-! ## Conditions on verdicts -/

/-- A verdict meets three conditions on what it may be, apart from a fault. -/
def Verdict.Meets {σ ρ : Type} (onMore : σ → Prop) (onDone onBefore : ρ → Prop) :
    Verdict σ ρ → Prop
  | .more draft => onMore draft
  | .done result => onDone result
  | .before result => onBefore result
  | .fault _ => True

section

variable {σ ρ : Type} {onMore : σ → Prop} {onDone onBefore : ρ → Prop} {next : Verdict σ ρ}
  {t : Token} {kind : Kind} {cause : Fault} {word : Text}

/-- Only a token of the expected kind comes to more than a fault. -/
theorem Token.expect_meets (h : t.kind = kind → next.Meets onMore onDone onBefore) :
    (t.expect kind cause next).Meets onMore onDone onBefore := by
  unfold Token.expect
  by_cases hunknown : t.kind = .unknown
  · rw [if_pos hunknown]
    trivial
  · rw [if_neg hunknown]
    by_cases hkind : t.kind = kind
    · rw [if_pos hkind]
      exact h hkind
    · rw [if_neg hkind]
      trivial

/-- Only the expected word comes to more than a fault. -/
theorem Token.expectWord_meets
    (h : t.holds kind word = true → next.Meets onMore onDone onBefore) :
    (t.expectWord kind word next).Meets onMore onDone onBefore := by
  apply Token.expect_meets
  intro hkind
  by_cases hvalue : t.value = word
  · rw [if_pos hvalue]
    exact h ((Token.holds_iff t kind word).mpr ⟨hkind, hvalue⟩)
  · rw [if_neg hvalue]
    trivial

/-- A condition on a part of a construct carries over to the construct. -/
theorem Verdict.Meets.map {σ' ρ' : Type} {onMore' : σ' → Prop} {onDone' onBefore' : ρ' → Prop}
    {f : σ → σ'} {g : ρ → ρ'} (h : next.Meets onMore onDone onBefore)
    (hmore : ∀ d, onMore d → onMore' (f d)) (hdone : ∀ r, onDone r → onDone' (g r))
    (hbefore : ∀ r, onBefore r → onBefore' (g r)) :
    (next.map f g).Meets onMore' onDone' onBefore' := by
  cases next with
  | more d => exact hmore d h
  | done r => exact hdone r h
  | before r => exact hbefore r h
  | fault cause => trivial

end

/-! ## Structured synchronisations -/

/-- Slots behind which one more slot may stand: the last one is still empty. -/
def OpenSlots (ts : List Token) (fs : List Field) : Prop :=
  ∀ {us gs}, IsSlot us gs → IsSlots (ts ++ us) (fs ++ gs)

namespace OpenSlots

theorem nil : OpenSlots [] [] :=
  fun h => .first h

/-- An empty slot is a slot. -/
theorem isSlots {ts : List Token} {fs : List Field} (h : OpenSlots ts fs) : IsSlots ts fs := by
  simpa using h .empty

/-- A comma opens a slot. -/
theorem comma {ts : List Token} {fs : List Field} {t : Token} (h : IsSlots ts fs)
    (ht : t.holds .punctuator [','] = true) : OpenSlots (ts ++ [t]) fs := by
  intro us gs hslot
  simpa using h.next ht hslot

end OpenSlots

/-- The keyword and the opening brace of a structured synchronisation. -/
def IsBlockHead (logTypes : List Text) (keyword opening : Token) : Prop :=
  keyword.kind = .keyword ∧ keyword.value ∈ logTypes ∧ opening.holds .brace ['\x7b'] = true

namespace BlockDraft

/-- The tokens that a structured synchronisation may have consumed. -/
def Begun (logTypes : List Text) (ts : List Token) : BlockDraft → Prop
  | .opening keyword => ts = [keyword] ∧ keyword.kind = .keyword ∧ keyword.value ∈ logTypes
  | .slot keyword fs => ∃ opening us, ts = keyword :: opening :: us ∧
      IsBlockHead logTypes keyword opening ∧ OpenSlots us fs
  | .colon keyword fs key => ∃ opening us, ts = keyword :: opening :: (us ++ [key]) ∧
      IsBlockHead logTypes keyword opening ∧ OpenSlots us fs ∧ key.kind = .identifier
  | .value keyword fs key => ∃ opening us colon,
      ts = keyword :: opening :: (us ++ [key, colon]) ∧
        IsBlockHead logTypes keyword opening ∧ OpenSlots us fs ∧ key.kind = .identifier ∧
          colon.holds .punctuator [':'] = true
  | .separator keyword fs => ∃ opening us, ts = keyword :: opening :: us ∧
      IsBlockHead logTypes keyword opening ∧ IsSlots us fs

/-- Where a field is complete, a brace closes, a comma goes on, and all else is at fault. -/
theorem close_cases (keyword : Token) (fs : List Field) (t : Token) :
    (t.holds .brace ['\x7d'] = true ∧
      close keyword fs t = .done ⟨keyword.span.through t.span, keyword.value, fs⟩) ∨
    (t.holds .punctuator [','] = true ∧ close keyword fs t = .more (.slot keyword fs)) ∨
    ∃ cause, close keyword fs t = .fault cause ∧
      (cause = .unrecognized ↔ t.kind = .unknown) := by
  unfold close
  by_cases hclosing : t.holds .brace ['\x7d'] = true
  · exact Or.inl ⟨hclosing, if_pos hclosing⟩
  rw [if_neg hclosing]
  by_cases hcomma : t.holds .punctuator [','] = true
  · exact Or.inr (Or.inl ⟨hcomma, if_pos hcomma⟩)
  rw [if_neg hcomma]
  by_cases hunknown : t.kind = .unknown
  · exact Or.inr (Or.inr ⟨.unrecognized, if_pos hunknown, by simp [hunknown]⟩)
  · exact Or.inr (Or.inr ⟨.fieldEnd, if_neg hunknown, by simp [hunknown]⟩)

/-- The value of a field is a string or a number, and all else is at fault. -/
theorem accept_value_cases (keyword : Token) (fs : List Field) (key t : Token) :
    (t.kind = .string ∧ (value keyword fs key).accept t =
      .more (.separator keyword (fs ++ [⟨key.value, .string t.toString⟩]))) ∨
    (t.kind = .number ∧ (value keyword fs key).accept t =
      .more (.separator keyword (fs ++ [⟨key.value, .number t.toNumber⟩]))) ∨
    ∃ cause, (value keyword fs key).accept t = .fault cause ∧
      (cause = .unrecognized ↔ t.kind = .unknown) := by
  simp only [accept]
  by_cases hstring : t.kind = .string
  · exact Or.inl ⟨hstring, if_pos hstring⟩
  rw [if_neg hstring]
  by_cases hnumber : t.kind = .number
  · exact Or.inr (Or.inl ⟨hnumber, if_pos hnumber⟩)
  rw [if_neg hnumber]
  by_cases hunknown : t.kind = .unknown
  · exact Or.inr (Or.inr ⟨.unrecognized, if_pos hunknown, by simp [hunknown]⟩)
  · exact Or.inr (Or.inr ⟨.fieldValue key.value, if_neg hunknown, by simp [hunknown]⟩)

/-- Behind the slots stands a comma or the closing brace. -/
theorem close_meets {logTypes : List Text} {keyword opening : Token} {us : List Token}
    {fs : List Field} (hhead : IsBlockHead logTypes keyword opening) (hslots : IsSlots us fs)
    (t : Token) :
    (close keyword fs t).Meets (Begun logTypes (keyword :: opening :: (us ++ [t])))
      (fun b => IsModifier logTypes (keyword :: opening :: (us ++ [t])) (.sync (.block b)))
      (fun _ => False) := by
  rcases close_cases keyword fs t with ⟨hclosing, heq⟩ | ⟨hcomma, heq⟩ | ⟨cause, heq, -⟩
  · rw [heq]
    rcases hhead with ⟨hkind, hmem, hopening⟩
    have hblock := IsModifier.block hkind hmem hopening hslots hclosing
    simp only [spanOf, List.head?_cons, List.getLast?_cons, List.getLast?_append,
      Option.some_or, Option.getD_some] at hblock
    exact hblock
  · rw [heq]
    exact ⟨opening, us ++ [t], rfl, hhead, OpenSlots.comma hslots hcomma⟩
  · rw [heq]
    trivial

/-- One step of a structured synchronisation. -/
theorem accept_meets {logTypes : List Text} {d : BlockDraft} {ts : List Token}
    (h : d.Begun logTypes ts) (t : Token) :
    (d.accept t).Meets (Begun logTypes (ts ++ [t]))
      (fun b => IsModifier logTypes (ts ++ [t]) (.sync (.block b))) (fun _ => False) := by
  cases d with
  | opening keyword =>
    rcases h with ⟨rfl, hkind, hmem⟩
    exact Token.expectWord_meets fun hopening =>
      ⟨t, [], rfl, ⟨hkind, hmem, hopening⟩, OpenSlots.nil⟩
  | slot keyword fs =>
    rcases h with ⟨opening, us, rfl, hhead, hslots⟩
    simp only [accept]
    by_cases hkey : t.kind = .identifier
    · rw [if_pos hkey]
      exact ⟨opening, us, rfl, hhead, hslots, hkey⟩
    · rw [if_neg hkey]
      exact close_meets hhead hslots.isSlots t
  | colon keyword fs key =>
    rcases h with ⟨opening, us, rfl, hhead, hslots, hkey⟩
    apply Token.expectWord_meets
    intro hcolon
    exact ⟨opening, us, t, by simp, hhead, hslots, hkey, hcolon⟩
  | value keyword fs key =>
    rcases h with ⟨opening, us, colon, rfl, hhead, hslots, hkey, hcolon⟩
    rcases accept_value_cases keyword fs key t with
      ⟨hstring, heq⟩ | ⟨hnumber, heq⟩ | ⟨cause, heq, -⟩
    · rw [heq]
      exact ⟨opening, us ++ [key, colon, t], by simp, hhead,
        hslots (.field (.string hkey hcolon hstring))⟩
    · rw [heq]
      exact ⟨opening, us ++ [key, colon, t], by simp, hhead,
        hslots (.field (.number hkey hcolon hnumber))⟩
    · rw [heq]
      trivial
  | separator keyword fs =>
    rcases h with ⟨opening, us, rfl, hhead, hslots⟩
    exact close_meets hhead hslots t

end BlockDraft

/-! ## Modifiers -/

namespace ModifierDraft

/-- The tokens that a modifier may have consumed. -/
def Begun (logTypes : List Text) (ts : List Token) : ModifierDraft → Prop
  | .regex keyword => ts = [keyword] ∧ keyword.holds .keyword "sync".toList = true ∧
      keyword.value ∉ logTypes
  | .block d => d.Begun logTypes ts
  | .window keyword => ts = [keyword] ∧ keyword.holds .keyword "window".toList = true ∧
      keyword.value ∉ logTypes
  | .windowComma keyword before => ts = [keyword, before] ∧
      keyword.holds .keyword "window".toList = true ∧ keyword.value ∉ logTypes ∧
        before.kind = .number
  | .windowAfter keyword before => ∃ comma, ts = [keyword, before, comma] ∧
      keyword.holds .keyword "window".toList = true ∧ keyword.value ∉ logTypes ∧
        before.kind = .number ∧ comma.holds .punctuator [','] = true
  | .jump keyword => ts = [keyword] ∧ keyword.holds .keyword "jump".toList = true ∧
      keyword.value ∉ logTypes
  | .duration keyword => ts = [keyword] ∧ keyword.holds .keyword "duration".toList = true ∧
      keyword.value ∉ logTypes

/-- The keyword of a modifier is what it has consumed first. -/
theorem begun_of_begin? {logTypes : List Text} {t : Token} {d : ModifierDraft}
    (h : begin? logTypes t = some d) : d.Begun logTypes [t] := by
  unfold begin? at h
  by_cases hkind : t.kind = .keyword
  · rw [if_neg (not_not_intro hkind)] at h
    by_cases hmem : t.value ∈ logTypes
    · rw [if_pos hmem] at h
      cases h
      exact ⟨rfl, hkind, hmem⟩
    · rw [if_neg hmem] at h
      have hword : ∀ {word : Text}, t.value = word → t.holds .keyword word = true :=
        fun hvalue => (Token.holds_iff ..).mpr ⟨hkind, hvalue⟩
      split_ifs at h with hsync hwindow hjump hduration <;> cases h
      · exact ⟨rfl, hword hsync, hmem⟩
      · exact ⟨rfl, hword hwindow, hmem⟩
      · exact ⟨rfl, hword hjump, hmem⟩
      · exact ⟨rfl, hword hduration, hmem⟩
  · rw [if_pos hkind] at h
    contradiction

/-- A token that begins no modifier is no log line type. -/
theorem not_mem_of_begin?_eq_none {logTypes : List Text} {t : Token}
    (h : begin? logTypes t = none) (hkind : t.kind = .keyword) : t.value ∉ logTypes := by
  intro hmem
  simp [begin?, hkind, hmem] at h

/-- One step of a modifier. -/
theorem accept_meets {logTypes : List Text} {d : ModifierDraft} {ts : List Token}
    (h : d.Begun logTypes ts) (t : Token) :
    (d.accept t).Meets (Begun logTypes (ts ++ [t])) (IsModifier logTypes (ts ++ [t]))
      (IsModifier logTypes ts) := by
  cases d with
  | regex keyword =>
    rcases h with ⟨rfl, hword, hmem⟩
    exact Token.expect_meets fun hkind => .regex hword hmem hkind
  | block d =>
    exact (BlockDraft.accept_meets h t).map (fun _ h => h) (fun _ h => h) (fun _ h => h.elim)
  | window keyword =>
    rcases h with ⟨rfl, hword, hmem⟩
    exact Token.expect_meets fun hkind => ⟨rfl, hword, hmem, hkind⟩
  | windowComma keyword before =>
    rcases h with ⟨rfl, hword, hmem, hbefore⟩
    simp only [accept]
    by_cases hcomma : t.holds .punctuator [','] = true
    · rw [if_pos hcomma]
      exact ⟨t, rfl, hword, hmem, hbefore, hcomma⟩
    · rw [if_neg hcomma]
      exact .window hword hmem hbefore
  | windowAfter keyword before =>
    rcases h with ⟨comma, rfl, hword, hmem, hbefore, hcomma⟩
    exact Token.expect_meets fun hkind => .windowAfter hword hmem hbefore hcomma hkind
  | jump keyword =>
    rcases h with ⟨rfl, hword, hmem⟩
    exact Token.expect_meets fun hkind => .jump hword hmem hkind
  | duration keyword =>
    rcases h with ⟨rfl, hword, hmem⟩
    exact Token.expect_meets fun hkind => .duration hword hmem hkind

end ModifierDraft

/-- The span of a modifier covers its tokens. -/
theorem IsModifier.span_eq {logTypes : List Text} {ts : List Token} {m : Modifier}
    (h : IsModifier logTypes ts m) : m.span = spanOf ts := by
  cases h <;> rfl

/-- An entry of parts with one more modifier is an entry of one more part. -/
theorem Entry.modify_ofParts (span : Span) (time name : Token) (parts : List Modifier)
    (m : Modifier) :
    (Entry.ofParts span time name parts).modify m =
      Entry.ofParts (span.through m.span) time name (parts ++ [m]) := by
  cases m <;> simp [Entry.modify, Entry.ofParts, Modifier.sync?, Modifier.window?,
    Modifier.jump?, Modifier.duration?]

/-- An entry may be extended by a modifier. -/
theorem IsStatement.modify {logTypes : List Text} {ts us : List Token} {e : Entry}
    {m : Modifier} (he : IsStatement logTypes ts (.entry e)) (hm : IsModifier logTypes us m) :
    IsStatement logTypes (ts ++ us) (.entry (e.modify m)) := by
  cases he with
  | @entry time name ts parts htime hname hparts =>
    rcases hm.exists_keyword with ⟨keyword, rest, rfl, -⟩
    have hspan : spanOf (time :: name :: (ts ++ keyword :: rest)) =
        (spanOf (time :: name :: ts)).through m.span := by
      rw [hm.span_eq, ← spanOf_append (by simp) (by simp)]
      rfl
    rw [Entry.modify_ofParts, ← hspan]
    exact .entry htime hname (hparts.concat hm)

/-! ## Statements -/

/-- A token is not one of the log line types that would extend an entry. -/
def Apart (logTypes : List Text) (s : Statement) (t : Token) : Prop :=
  ∀ e, s = .entry e → t.kind = .keyword → t.value ∉ logTypes

namespace StatementDraft

/-- The tokens that a statement may have consumed. -/
def Begun (logTypes : List Text) (ts : List Token) : StatementDraft → Prop
  | .hideAll keyword => ts = [keyword] ∧ keyword.holds .keyword "hideall".toList = true
  | .alertAll keyword => ts = [keyword] ∧ keyword.holds .keyword "alertall".toList = true
  | .alertMore a => IsStatement logTypes ts (.alertAll a)
  | .alertBefore a keyword => ∃ us, ts = us ++ [keyword] ∧
      IsStatement logTypes us (.alertAll a) ∧ keyword.holds .keyword "before".toList = true
  | .alertSound a keyword => ∃ us, ts = us ++ [keyword] ∧
      IsStatement logTypes us (.alertAll a) ∧ keyword.holds .keyword "sound".toList = true
  | .define keyword => ts = [keyword] ∧ keyword.holds .keyword "define".toList = true
  | .defineName keyword defineType => ts = [keyword, defineType] ∧
      keyword.holds .keyword "define".toList = true ∧
        defineType.holds .identifier "alertsound".toList = true
  | .defineFile keyword defineType name => ts = [keyword, defineType, name] ∧
      keyword.holds .keyword "define".toList = true ∧
        defineType.holds .identifier "alertsound".toList = true ∧ name.kind = .string
  | .entry time => ts = [time] ∧ time.kind = .number
  | .entryMore e => IsStatement logTypes ts (.entry e)
  | .entryModifier e d => ∃ us vs, ts = us ++ vs ∧ IsStatement logTypes us (.entry e) ∧
      d.Begun logTypes vs

/-- What a statement begins with is what it has consumed first. -/
theorem begun_of_begin? {logTypes : List Text} {t : Token} {d : StatementDraft}
    (h : begin? t = some d) : d.Begun logTypes [t] := by
  unfold begin? at h
  have hword : ∀ {word : Text}, t.kind = .keyword → t.value = word →
      t.holds .keyword word = true :=
    fun hkind hvalue => (Token.holds_iff ..).mpr ⟨hkind, hvalue⟩
  split_ifs at h with hkind hhide halert hdefine hnumber <;> cases h
  · exact ⟨rfl, hword hkind hhide⟩
  · exact ⟨rfl, hword hkind halert⟩
  · exact ⟨rfl, hword hkind hdefine⟩
  · exact ⟨rfl, hnumber⟩

/-- One step of an entry that is complete so far. -/
theorem acceptEntry_meets {logTypes : List Text} {e : Entry} {ts : List Token}
    (h : IsStatement logTypes ts (.entry e)) (t : Token) :
    (acceptEntry logTypes e t).Meets (Begun logTypes (ts ++ [t]))
      (fun s => IsStatement logTypes (ts ++ [t]) s ∧ ∀ u, Apart logTypes s u)
      (fun s => IsStatement logTypes ts s ∧ Apart logTypes s t) := by
  unfold acceptEntry
  cases hbegin : ModifierDraft.begin? logTypes t with
  | some d => exact ⟨ts, [t], rfl, h, ModifierDraft.begun_of_begin? hbegin⟩
  | none => exact ⟨h, fun _ _ hkind => ModifierDraft.not_mem_of_begin?_eq_none hbegin hkind⟩

/-- An alert may be extended by a part. -/
theorem alertAll_concat {logTypes : List Text} {ts us : List Token} {a a' : AlertAll}
    {part : AlertPart} (h : IsStatement logTypes ts (.alertAll a)) (hpart : IsAlertPart us part)
    (hspan : a'.span = a.span.through (spanOf us)) (hname : a'.name = a.name)
    (hbefore : a'.before = part.before?.or a.before)
    (hsound : a'.sound = part.sound?.or a.sound) :
    IsStatement logTypes (ts ++ us) (.alertAll a') := by
  cases h with
  | @alertAll keyword name ts parts hkeyword hstring hparts =>
    have hus : us ≠ [] := by
      cases hpart <;> simp
    have heq : a' = AlertAll.ofParts (spanOf (keyword :: name :: (ts ++ us))) name
        (parts ++ [part]) := by
      have hall : spanOf (keyword :: name :: (ts ++ us)) =
          (spanOf (keyword :: name :: ts)).through (spanOf us) := by
        rw [← spanOf_append (by simp) hus]
        rfl
      cases a'
      simp_all [AlertAll.ofParts]
    rw [heq]
    exact .alertAll hkeyword hstring (hparts.concat hpart)

/-- One step of a statement.  A statement that is done with its last token is no entry: an entry
ends only before the token that does not extend it. -/
theorem accept_meets {logTypes : List Text} {d : StatementDraft} {ts : List Token}
    (h : d.Begun logTypes ts) (t : Token) :
    (d.accept logTypes t).Meets (Begun logTypes (ts ++ [t]))
      (fun s => IsStatement logTypes (ts ++ [t]) s ∧ ∀ u, Apart logTypes s u)
      (fun s => IsStatement logTypes ts s ∧ Apart logTypes s t) := by
  cases d with
  | hideAll keyword =>
    rcases h with ⟨rfl, hword⟩
    exact Token.expect_meets fun hkind => ⟨.hideAll hword hkind, by simp [Apart]⟩
  | alertAll keyword =>
    rcases h with ⟨rfl, hword⟩
    exact Token.expect_meets fun hkind => .alertAll hword hkind .nil
  | alertMore a =>
    simp only [accept, acceptAlert]
    by_cases hbefore : t.holds .keyword "before".toList = true
    · rw [if_pos hbefore]
      exact ⟨ts, rfl, h, hbefore⟩
    · rw [if_neg hbefore]
      by_cases hsound : t.holds .keyword "sound".toList = true
      · rw [if_pos hsound]
        exact ⟨ts, rfl, h, hsound⟩
      · rw [if_neg hsound]
        exact ⟨h, by simp [Apart]⟩
  | alertBefore a keyword =>
    rcases h with ⟨us, rfl, ha, hword⟩
    apply Token.expect_meets
    intro hkind
    rw [List.append_assoc]
    exact alertAll_concat ha (.before hword hkind) rfl rfl rfl rfl
  | alertSound a keyword =>
    rcases h with ⟨us, rfl, ha, hword⟩
    apply Token.expect_meets
    intro hkind
    rw [List.append_assoc]
    exact alertAll_concat ha (.sound hword hkind) rfl rfl rfl rfl
  | define keyword =>
    rcases h with ⟨rfl, hword⟩
    apply Token.expect_meets
    intro hkind
    by_cases hvalue : t.value = "alertsound".toList
    · rw [if_pos hvalue]
      exact ⟨rfl, hword, (Token.holds_iff ..).mpr ⟨hkind, hvalue⟩⟩
    · rw [if_neg hvalue]
      trivial
  | defineName keyword defineType =>
    rcases h with ⟨rfl, hword, htype⟩
    exact Token.expect_meets fun hkind => ⟨rfl, hword, htype, hkind⟩
  | defineFile keyword defineType name =>
    rcases h with ⟨rfl, hword, htype, hname⟩
    exact Token.expect_meets fun hkind => ⟨.define hword htype hname hkind, by simp [Apart]⟩
  | entry time =>
    rcases h with ⟨rfl, htime⟩
    exact Token.expect_meets fun hkind => .entry htime hkind .nil
  | entryMore e => exact acceptEntry_meets h t
  | entryModifier e d =>
    rcases h with ⟨us, vs, rfl, he, hd⟩
    have hstep := ModifierDraft.accept_meets hd t
    simp only [accept]
    cases hverdict : d.accept t with
    | more longer =>
      rw [hverdict] at hstep
      exact ⟨us, vs ++ [t], by simp, he, hstep⟩
    | done m =>
      rw [hverdict] at hstep
      have hmodify := he.modify hstep
      rwa [← List.append_assoc] at hmodify
    | before m =>
      rw [hverdict] at hstep
      exact acceptEntry_meets (he.modify hstep) t
    | fault cause => trivial

end StatementDraft

/-! ## Programs -/

/-- The last of some statements would not be extended by a token. -/
def ApartFromLast (logTypes : List Text) (statements : List Statement) (t : Token) : Prop :=
  ∀ s ∈ statements.getLast?, Apart logTypes s t

/-- Only the last of some statements has to be told from what follows. -/
theorem apartFromLast_concat {logTypes : List Text} {statements : List Statement}
    {s : Statement} {t : Token} :
    ApartFromLast logTypes (statements ++ [s]) t ↔ Apart logTypes s t := by
  simp [ApartFromLast]

/-- Tokens that make up statements, each of which may follow the one before. -/
structure Derives (logTypes : List Text) (ts : List Token) (statements : List Statement) :
    Prop where
  many : Many (IsStatement logTypes) ts statements
  chain : statements.IsChain (MayFollow logTypes)

namespace Derives

/-- A statement whose first token does not extend the one before may follow it. -/
theorem concat {logTypes : List Text} {ts us : List Token} {first : Token}
    {statements : List Statement} {s : Statement} (h : Derives logTypes ts statements)
    (hs : IsStatement logTypes (first :: us) s)
    (hfirst : ApartFromLast logTypes statements first) :
    Derives logTypes (ts ++ first :: us) (statements ++ [s]) := by
  refine ⟨h.many.concat hs, List.isChain_append.mpr ⟨h.chain, .singleton s, ?_⟩⟩
  intro last hlast next hnext
  simp only [List.head?_cons, Option.mem_def, Option.some.injEq] at hnext
  subst hnext
  cases last with
  | entry e =>
    intro word hword
    rcases hs.exists_first with ⟨first', rest, heq, hkind⟩
    cases heq
    rcases hkind with ⟨-, hnone⟩ | ⟨hkind, hsome⟩
    · simp [hnone] at hword
    · simp only [hsome, Option.mem_def, Option.some.injEq] at hword
      exact hword ▸ hfirst _ hlast e rfl hkind
  | hideAll | alertAll | define => trivial

end Derives

namespace ProgramDraft

/-- The tokens that a program may have consumed.  Between two statements no token would extend
the last one. -/
def Begun (logTypes : List Text) (ts : List Token) (p : ProgramDraft) : Prop :=
  match p.current with
  | none => Derives logTypes ts p.statements ∧ ∀ t, ApartFromLast logTypes p.statements t
  | some d => ∃ us first vs, ts = us ++ first :: vs ∧ Derives logTypes us p.statements ∧
      ApartFromLast logTypes p.statements first ∧ d.Begun logTypes (first :: vs)

/-- Between two statements, a token begins the next one, or the program ends: with an error about
the token unless that is the end of the text. -/
theorem acceptFirst_cases (statements : List Statement) (t : Token) :
    (∃ d, StatementDraft.begin? t = some d ∧
      acceptFirst statements t = .more ⟨statements, some d⟩) ∨
    (t.kind = .eof ∧ acceptFirst statements t = .before ⟨statements, none⟩) ∨
    ∃ cause, acceptFirst statements t = .before ⟨statements, some ⟨cause, t⟩⟩ ∧
      (cause = .unrecognized ↔ t.kind = .unknown) := by
  unfold acceptFirst
  cases hbegin : StatementDraft.begin? t with
  | some d => exact Or.inl ⟨d, rfl, rfl⟩
  | none =>
    apply Or.inr
    by_cases hend : t.kind = .eof
    · exact Or.inl ⟨hend, if_pos hend⟩
    rw [if_neg hend]
    by_cases hunknown : t.kind = .unknown
    · exact Or.inr ⟨.unrecognized, if_pos hunknown, by simp [hunknown]⟩
    · exact Or.inr ⟨.unexpected, if_neg hunknown, by simp [hunknown]⟩

/-- One step of a program between two statements. -/
theorem acceptFirst_meets {logTypes : List Text} {statements : List Statement}
    {ts : List Token} (h : Derives logTypes ts statements) {t : Token}
    (ht : ApartFromLast logTypes statements t) :
    (acceptFirst statements t).Meets (Begun logTypes (ts ++ [t])) (fun _ => False)
      (fun r => r.error = none → t.kind = .eof ∧ Derives logTypes ts r.statements) := by
  rcases acceptFirst_cases statements t with ⟨d, hbegin, heq⟩ | ⟨hend, heq⟩ | ⟨cause, heq, -⟩
  · rw [heq]
    exact ⟨ts, t, [], rfl, h, ht, StatementDraft.begun_of_begin? hbegin⟩
  · rw [heq]
    exact fun _ => ⟨hend, h⟩
  · rw [heq]
    intro hnone
    contradiction

/-- One step of a program. -/
theorem accept_meets {logTypes : List Text} {p : ProgramDraft} {ts : List Token}
    (h : p.Begun logTypes ts) (t : Token) :
    (p.accept logTypes t).Meets (Begun logTypes (ts ++ [t])) (fun _ => False)
      (fun r => r.error = none → t.kind = .eof ∧ Derives logTypes ts r.statements) := by
  rcases p with ⟨statements, current⟩
  cases current with
  | none => exact acceptFirst_meets h.1 (h.2 t)
  | some d =>
    rcases h with ⟨us, first, vs, rfl, hus, hfirst, hd⟩
    have hstep := StatementDraft.accept_meets hd t
    simp only [accept]
    cases hverdict : d.accept logTypes t with
    | more longer =>
      rw [hverdict] at hstep
      exact ⟨us, first, vs ++ [t], by simp, hus, hfirst, hstep⟩
    | done s =>
      rw [hverdict] at hstep
      have hstatements := hus.concat hstep.1 hfirst
      refine ⟨by simpa using hstatements, fun u => ?_⟩
      exact apartFromLast_concat.mpr (hstep.2 u)
    | before s =>
      rw [hverdict] at hstep
      exact acceptFirst_meets (hus.concat hstep.1 hfirst) (apartFromLast_concat.mpr hstep.2)
    | fault cause => trivial

/-- A new program has consumed nothing. -/
theorem begun_start (logTypes : List Text) : Begun logTypes [] ⟨[], none⟩ :=
  ⟨⟨.nil, .nil⟩, by simp [ApartFromLast]⟩

/-- The tokens that lead a new program somewhere are those that it has consumed. -/
theorem begun_of_leads {logTypes : List Text} {ts : List Token} {p : ProgramDraft}
    (h : Leads (accept logTypes) ⟨[], none⟩ ts p) : p.Begun logTypes ts := by
  refine h.invariant (fun p ts => p.Begun logTypes ts) ?_ (begun_start logTypes)
  intro a b us t ha hmore
  have hstep := accept_meets ha t
  rwa [hmore] at hstep

end ProgramDraft

/-- If tokens settle a program without an error, they begin with a derivation of its statements
and the end of the text. -/
theorem feed_sound {logTypes : List Text} {ts : List Token} {statements : List Statement}
    {final : ProgramDraft}
    (h : feed (ProgramDraft.accept logTypes) ⟨[], none⟩ ts =
      some (.ok ⟨statements, none⟩, final)) :
    ∃ us last vs, ts = us ++ last :: vs ∧ last.kind = .eof ∧ Derives logTypes us statements := by
  rcases feed_eq_some_iff.mp h with ⟨us, last, vs, rfl, hleads, houtcome⟩
  have hbegun := ProgramDraft.begun_of_leads hleads
  have hstep := ProgramDraft.accept_meets hbegun last
  cases hverdict : final.accept logTypes last with
  | more | fault => simp [hverdict, Verdict.outcome?] at houtcome
  | done =>
    rw [hverdict] at hstep
    exact hstep.elim
  | before result =>
    rw [hverdict] at hstep houtcome
    cases houtcome
    rcases hstep rfl with ⟨hkind, hderives⟩
    exact ⟨us, last, vs, rfl, hkind, hderives⟩

end RaidTimeline
