import RaidTimeline.Proofs.Derivation

/-!
# The accepted timelines

A source text is accepted exactly if its significant tokens derive from the grammar, and then its
statements are those of the derivation.

Main results:

- Theorems {lit}`IsModifier.leads` and {lit}`IsStatement.leads`: the tokens of a construct lead a
  draft to where the construct is complete.
- Definition {lit}`SettlesAtLast`: drafts that settle at a token that nothing can follow.
- Theorem {lit}`feed_eq_ok_iff`: which lists of tokens are read without an error.
- Theorem {lit}`parseSource_ok_iff_isTimeline`: which source texts are.
-/

namespace RaidTimeline

/-! ## Structured synchronisations -/

namespace BlockDraft

/-- Behind slots, the last of which may be empty. -/
def Behind (keyword : Token) (fs : List Field) (d : BlockDraft) : Prop :=
  d = .slot keyword fs ∨ d = .separator keyword fs

/-- Behind slots, a punctuation mark or a brace is a separator or the end. -/
theorem Behind.accept_eq_close {keyword : Token} {fs : List Field} {d : BlockDraft}
    (h : d.Behind keyword fs) {t : Token} (ht : t.kind ≠ .identifier) :
    d.accept t = close keyword fs t := by
  rcases h with rfl | rfl
  · simp [accept, ht]
  · rfl

/-- The tokens of a field lead from an empty slot behind the field. -/
theorem leads_of_isField {ts : List Token} {f : Field} (h : IsField ts f) (keyword : Token)
    (fs : List Field) :
    Leads accept (.slot keyword fs) ts (.separator keyword (fs ++ [f])) := by
  cases h with
  | @string key colon value hkey hcolon hvalue =>
    refine .step (.colon keyword fs key) (by simp [accept, hkey])
      (.step (.value keyword fs key) ?_ (.single ?_))
    · simp [accept, Token.expectWord, Token.expect, (Token.holds_iff ..).mp hcolon]
    · simp [accept, hvalue]
  | @number key colon value hkey hcolon hvalue =>
    refine .step (.colon keyword fs key) (by simp [accept, hkey])
      (.step (.value keyword fs key) ?_ (.single ?_))
    · simp [accept, Token.expectWord, Token.expect, (Token.holds_iff ..).mp hcolon]
    · simp [accept, hvalue]

/-- The tokens of a slot lead behind the slot. -/
theorem leads_of_isSlot {ts : List Token} {gs : List Field} (h : IsSlot ts gs) (keyword : Token)
    (fs : List Field) :
    ∃ d, Leads accept (.slot keyword fs) ts d ∧ d.Behind keyword (fs ++ gs) := by
  cases h with
  | empty => exact ⟨_, .refl _, Or.inl (by simp)⟩
  | field hfield => exact ⟨_, leads_of_isField hfield keyword fs, Or.inr rfl⟩

/-- The tokens of slots lead behind the slots. -/
theorem leads_of_isSlots {ts : List Token} {fs : List Field} (h : IsSlots ts fs)
    (keyword : Token) :
    ∃ d, Leads accept (.slot keyword []) ts d ∧ d.Behind keyword fs := by
  induction h with
  | first hslot => simpa using leads_of_isSlot hslot keyword []
  | @next ts us comma fs gs _ hcomma hslot ih =>
    rcases ih with ⟨d, hleads, hbehind⟩
    rcases leads_of_isSlot hslot keyword fs with ⟨d', hleads', hbehind'⟩
    have hcomma' := (Token.holds_iff ..).mp hcomma
    have hstep : d.accept comma = .more (.slot keyword fs) := by
      rw [hbehind.accept_eq_close (by simp [hcomma'])]
      simp [close, hcomma']
    exact ⟨d', hleads.trans (.step _ hstep hleads'), hbehind'⟩

/-- The tokens between a keyword and a closing brace lead to a draft that is complete with the
brace. -/
theorem leads_of_braces {keyword opening closing : Token} {ts : List Token} {fs : List Field}
    (hopening : opening.holds .brace ['\x7b'] = true) (hslots : IsSlots ts fs)
    (hclosing : closing.holds .brace ['\x7d'] = true) :
    ∃ d, Leads accept (.opening keyword) (opening :: ts) d ∧
      d.accept closing = .done ⟨keyword.span.through closing.span, keyword.value, fs⟩ := by
  rcases leads_of_isSlots hslots keyword with ⟨d, hleads, hbehind⟩
  have hopening' := (Token.holds_iff ..).mp hopening
  have hclosing' := (Token.holds_iff ..).mp hclosing
  have hopen : (BlockDraft.opening keyword).accept opening = .more (.slot keyword []) := by
    simp [accept, Token.expectWord, Token.expect, hopening']
  refine ⟨d, .step _ hopen hleads, ?_⟩
  rw [hbehind.accept_eq_close (by simp [hclosing'])]
  simp [close, hclosing']

end BlockDraft

/-! ## Modifiers and entries -/

namespace StatementDraft

/-- An entry is complete in a draft: every token that is no punctuation mark is left to the
entry. -/
def Completes (logTypes : List Text) (e : Entry) (d : StatementDraft) : Prop :=
  ∀ t : Token, t.kind ≠ .punctuator → d.accept logTypes t = acceptEntry logTypes e t

/-- An entry between two modifiers is complete. -/
theorem completes_entryMore (logTypes : List Text) (e : Entry) :
    (StatementDraft.entryMore e).Completes logTypes e :=
  fun _ _ => rfl

/-- Behind the first number of a window the window may be complete. -/
theorem completes_windowComma (logTypes : List Text) (e : Entry) (keyword before : Token) :
    (StatementDraft.entryModifier e (.windowComma keyword before)).Completes logTypes
      (e.modify (.window
        ⟨keyword.span.through before.span, before.toNumber, none⟩)) := by
  intro t ht
  have hcomma : t.holds .punctuator [','] = false := by
    simp [← Bool.not_eq_true, ht]
  simp [accept, ModifierDraft.accept, hcomma]

/-- A modifier that is longer is part of an entry that is longer. -/
theorem accept_entryModifier {logTypes : List Text} {e : Entry} {d longer : ModifierDraft}
    {t : Token} (h : d.accept t = .more longer) :
    (StatementDraft.entryModifier e d).accept logTypes t = .more (.entryModifier e longer) := by
  simp [accept, h]

/-- A modifier that is done is part of the entry. -/
theorem accept_entryModifier_of_done {logTypes : List Text} {e : Entry} {d : ModifierDraft}
    {m : Modifier} {t : Token} (h : d.accept t = .done m) :
    (StatementDraft.entryModifier e d).accept logTypes t = .more (.entryMore (e.modify m)) := by
  simp [accept, h]

end StatementDraft

/-- Where it is no log line type, a keyword begins the same modifier in every vocabulary. -/
theorem ModifierDraft.begin?_of_not_mem {logTypes : List Text} {t : Token}
    (hmem : t.value ∉ logTypes) : begin? logTypes t = begin? [] t := by
  unfold begin?
  by_cases hkind : t.kind = .keyword
  · rw [if_neg hmem, if_neg List.not_mem_nil]
  · rw [if_pos hkind, if_pos hkind]

namespace StatementDraft.Completes

variable {logTypes : List Text} {e : Entry} {d : StatementDraft}

/-- The keyword of a modifier is left to the complete entry, which goes on with it. -/
theorem accept_keyword (hd : d.Completes logTypes e) {keyword : Token} {draft : ModifierDraft}
    (hkind : keyword.kind = .keyword)
    (hbegin : ModifierDraft.begin? logTypes keyword = some draft) :
    d.accept logTypes keyword = .more (.entryModifier e draft) := by
  rw [hd keyword (by simp [hkind]), acceptEntry, hbegin]

/-- The keyword is left to the entry also where the modifier is the same in every vocabulary. -/
theorem accept_word (hd : d.Completes logTypes e) {keyword : Token} {draft : ModifierDraft}
    (hkind : keyword.kind = .keyword) (hmem : keyword.value ∉ logTypes)
    (hbegin : ModifierDraft.begin? [] keyword = some draft) :
    d.accept logTypes keyword = .more (.entryModifier e draft) := by
  apply hd.accept_keyword hkind
  rw [ModifierDraft.begin?_of_not_mem hmem, hbegin]

/-- A modifier of two tokens leads from a complete entry to the entry with it. -/
theorem leads_pair (hd : d.Completes logTypes e) {keyword t : Token} {draft : ModifierDraft}
    {m : Modifier} (hkind : keyword.kind = .keyword) (hmem : keyword.value ∉ logTypes)
    (hbegin : ModifierDraft.begin? [] keyword = some draft) (hdone : draft.accept t = .done m) :
    ∃ d', Leads (StatementDraft.accept logTypes) d [keyword, t] d' ∧
      d'.Completes logTypes (e.modify m) :=
  ⟨_, .step _ (hd.accept_word hkind hmem hbegin) (.single (accept_entryModifier_of_done hdone)),
    completes_entryMore logTypes (e.modify m)⟩

end StatementDraft.Completes

open StatementDraft in
/-- The tokens of a modifier lead from a complete entry to the entry with the modifier. -/
theorem IsModifier.leads {logTypes : List Text} {ts : List Token} {m : Modifier}
    (h : IsModifier logTypes ts m) {e : Entry} {d : StatementDraft}
    (hd : d.Completes logTypes e) :
    ∃ d', Leads (StatementDraft.accept logTypes) d ts d' ∧
      d'.Completes logTypes (e.modify m) := by
  cases h with
  | @block keyword opening closing ts fs hkind hmem hopening hslots hclosing =>
    rcases BlockDraft.leads_of_braces hopening hslots hclosing with ⟨draft, hleads, hdone⟩
    have hbegin : ModifierDraft.begin? logTypes keyword = some (.block (.opening keyword)) := by
      simp [ModifierDraft.begin?, hkind, hmem]
    have hlift : Leads (StatementDraft.accept logTypes)
        (.entryModifier e (.block (.opening keyword))) (opening :: ts)
        (.entryModifier e (.block draft)) :=
      hleads.lift (fun draft => StatementDraft.entryModifier e (.block draft)) fun hmore =>
        accept_entryModifier (by simp [ModifierDraft.accept, hmore, Verdict.map])
    have hclose : (StatementDraft.entryModifier e (.block draft)).accept logTypes closing =
        .more (.entryMore (e.modify (.sync (.block
          ⟨keyword.span.through closing.span, keyword.value, fs⟩)))) := by
      apply accept_entryModifier_of_done
      simp [ModifierDraft.accept, hdone, Verdict.map]
    refine ⟨_, .step _ (hd.accept_keyword hkind hbegin) (hlift.trans (.single hclose)), ?_⟩
    simpa [spanOf, List.getLast?_cons] using completes_entryMore logTypes (e.modify (.sync (.block
      ⟨keyword.span.through closing.span, keyword.value, fs⟩)))
  | @regex keyword pattern hkeyword hmem hpattern =>
    rcases (Token.holds_iff ..).mp hkeyword with ⟨hkind, hvalue⟩
    have hbegin : ModifierDraft.begin? [] keyword = some (.regex keyword) := by
      simp [ModifierDraft.begin?, hkind, hvalue]
    apply hd.leads_pair hkind hmem hbegin
    simp only [ModifierDraft.accept, Token.expect, hpattern]
    rfl
  | @window keyword before hkeyword hmem hbefore =>
    rcases (Token.holds_iff ..).mp hkeyword with ⟨hkind, hvalue⟩
    have hbegin : ModifierDraft.begin? [] keyword = some (.window keyword) := by
      simp [ModifierDraft.begin?, hkind, hvalue]
    refine ⟨_, .step _ (hd.accept_word hkind hmem hbegin) (.single ?_),
      completes_windowComma logTypes e keyword before⟩
    apply accept_entryModifier
    simp [ModifierDraft.accept, Token.expect, hbefore]
  | @windowAfter keyword before comma after hkeyword hmem hbefore hcomma hafter =>
    rcases (Token.holds_iff ..).mp hkeyword with ⟨hkind, hvalue⟩
    have hbegin : ModifierDraft.begin? [] keyword = some (.window keyword) := by
      simp [ModifierDraft.begin?, hkind, hvalue]
    refine ⟨_, .step _ (hd.accept_word hkind hmem hbegin)
      (.step (.entryModifier e (.windowComma keyword before)) ?_
        (.step (.entryModifier e (.windowAfter keyword before)) ?_
          (.single (accept_entryModifier_of_done ?_)))),
      completes_entryMore _ _⟩
    · apply accept_entryModifier
      simp [ModifierDraft.accept, Token.expect, hbefore]
    · apply accept_entryModifier
      simp only [ModifierDraft.accept, hcomma, if_true]
    · simp only [ModifierDraft.accept, Token.expect, hafter]
      rfl
  | @jump keyword time hkeyword hmem htime =>
    rcases (Token.holds_iff ..).mp hkeyword with ⟨hkind, hvalue⟩
    have hbegin : ModifierDraft.begin? [] keyword = some (.jump keyword) := by
      simp [ModifierDraft.begin?, hkind, hvalue]
    apply hd.leads_pair hkind hmem hbegin
    simp only [ModifierDraft.accept, Token.expect, htime]
    rfl
  | @duration keyword time hkeyword hmem htime =>
    rcases (Token.holds_iff ..).mp hkeyword with ⟨hkind, hvalue⟩
    have hbegin : ModifierDraft.begin? [] keyword = some (.duration keyword) := by
      simp [ModifierDraft.begin?, hkind, hvalue]
    apply hd.leads_pair hkind hmem hbegin
    simp only [ModifierDraft.accept, Token.expect, htime]
    rfl

/-- The tokens of modifiers lead from the time and name of an entry to the entry with them. -/
theorem leads_of_modifiers {logTypes : List Text} {time name : Token} {ts : List Token}
    {parts : List Modifier} (hname : name.kind = .string)
    (h : Many (IsModifier logTypes) ts parts) :
    ∃ d, Leads (StatementDraft.accept logTypes) (.entry time) (name :: ts) d ∧
      d.Completes logTypes (.ofParts (spanOf (time :: name :: ts)) time name parts) := by
  induction h with
  | nil =>
    refine ⟨_, .single ?_, StatementDraft.completes_entryMore _ _⟩
    simp [StatementDraft.accept, Token.expect, hname]
    rfl
  | @concat ts us parts m _ hm ih =>
    rcases ih with ⟨d, hleads, hd⟩
    rcases hm.leads hd with ⟨d', hleads', hd'⟩
    rcases hm.exists_keyword with ⟨keyword, rest, rfl, -⟩
    have hspan : spanOf (time :: name :: (ts ++ keyword :: rest)) =
        (spanOf (time :: name :: ts)).through m.span := by
      rw [hm.span_eq, ← spanOf_append (by simp) (by simp)]
      rfl
    rw [Entry.modify_ofParts, ← hspan] at hd'
    exact ⟨d', hleads.trans hleads', hd'⟩

/-! ## Alerts -/

/-- The tokens of the parts of an alert lead from its name to the alert with them. -/
theorem leads_of_alertParts {logTypes : List Text} {keyword name : Token} {ts : List Token}
    {parts : List AlertPart} (hname : name.kind = .string) (h : Many IsAlertPart ts parts) :
    Leads (StatementDraft.accept logTypes) (.alertAll keyword) (name :: ts)
      (.alertMore (.ofParts (spanOf (keyword :: name :: ts)) name parts)) := by
  induction h with
  | nil =>
    apply Leads.single
    simp [StatementDraft.accept, Token.expect, hname]
    rfl
  | @concat ts us parts part _ hpart ih =>
    have hspan : ∀ a b : Token, us = [a, b] →
        spanOf (keyword :: name :: (ts ++ us)) =
          (spanOf (keyword :: name :: ts)).through b.span := by
      rintro a b rfl
      rw [show keyword :: name :: (ts ++ [a, b]) = (keyword :: name :: ts) ++ [a, b] from rfl,
        spanOf_append (by simp) (by simp)]
      rfl
    apply ih.trans
    generalize hsofar : spanOf (keyword :: name :: ts) = sofar at *
    cases hpart with
    | @before word time hword htime =>
      refine .step (.alertBefore (.ofParts sofar name parts) word) ?_ (.single ?_)
      · simp only [StatementDraft.accept, StatementDraft.acceptAlert, hword, if_true]
      · simp only [StatementDraft.accept, Token.expect, htime, AlertAll.ofParts,
          hspan word time rfl, lastOf_concat, AlertPart.before?, AlertPart.sound?]
        rfl
    | @sound word file hword hfile =>
      have hnot : word.holds .keyword "before".toList = false := by
        have hvalue := ((Token.holds_iff ..).mp hword).2
        simp [Token.holds, hvalue]
      refine .step (.alertSound (.ofParts sofar name parts) word) ?_ (.single ?_)
      · simp only [StatementDraft.accept, StatementDraft.acceptAlert, hnot, hword, if_true,
          Bool.false_eq_true, if_false]
      · simp only [StatementDraft.accept, Token.expect, hfile, AlertAll.ofParts,
          hspan word file rfl, lastOf_concat, AlertPart.before?, AlertPart.sound?]
        rfl

/-! ## Statements -/

/-- A token that stands behind a complete statement: it begins the next one or ends the text. -/
def Token.Breaks (t : Token) : Prop :=
  t.kind = .eof ∨ (StatementDraft.begin? t).isSome = true

/-- A token that stands behind a complete statement is the end, a number, or one of three
keywords. -/
theorem Token.Breaks.cases {t : Token} (h : t.Breaks) :
    t.kind = .eof ∨ t.kind = .number ∨
      t.kind = .keyword ∧ (t.value = "hideall".toList ∨ t.value = "alertall".toList ∨
        t.value = "define".toList) := by
  rcases h with h | h
  · exact Or.inl h
  · apply Or.inr
    unfold StatementDraft.begin? at h
    split_ifs at h with hkind hhide halert hdefine hnumber
    · exact Or.inr ⟨hkind, Or.inl hhide⟩
    · exact Or.inr ⟨hkind, Or.inr (Or.inl halert)⟩
    · exact Or.inr ⟨hkind, Or.inr (Or.inr hdefine)⟩
    · contradiction
    · exact Or.inl hnumber
    · contradiction

/-- A token that stands behind a complete statement begins no modifier, unless it is a log line
type. -/
theorem ModifierDraft.begin?_of_breaks {logTypes : List Text} {t : Token} (h : t.Breaks)
    (hmem : t.kind = .keyword → t.value ∉ logTypes) : begin? logTypes t = none := by
  rcases h.cases with hkind | hkind | ⟨hkind, hvalue⟩
  · simp [begin?, hkind]
  · simp [begin?, hkind]
  · rw [begin?_of_not_mem (hmem hkind)]
    rcases hvalue with hvalue | hvalue | hvalue <;> simp [begin?, hkind, hvalue]

namespace ProgramDraft

/-- A program is between two statements for every token that does not extend the last one. -/
def AtRest (logTypes : List Text) (statements : List Statement) (p : ProgramDraft) : Prop :=
  ∀ t : Token, t.Breaks → ApartFromLast logTypes statements t →
    p.accept logTypes t = acceptFirst statements t

theorem atRest_none (logTypes : List Text) (statements : List Statement) :
    AtRest logTypes statements ⟨statements, none⟩ :=
  fun _ _ _ => rfl

/-- An alert is left at rest by tokens that are none of its parts. -/
theorem atRest_alertMore (logTypes : List Text) (statements : List Statement) (a : AlertAll) :
    AtRest logTypes (statements ++ [.alertAll a]) ⟨statements, some (.alertMore a)⟩ := by
  intro t hbreaks _
  have hnot : t.holds .keyword "before".toList = false ∧
      t.holds .keyword "sound".toList = false := by
    rcases hbreaks.cases with hkind | hkind | ⟨hkind, hvalue | hvalue | hvalue⟩ <;>
      simp [Token.holds, *]
  simp only [accept, StatementDraft.accept, StatementDraft.acceptAlert, hnot, Bool.false_eq_true,
    if_false]

/-- An entry is left at rest by tokens that begin no modifier. -/
theorem atRest_of_completes {logTypes : List Text} {e : Entry} {d : StatementDraft}
    (h : d.Completes logTypes e) (statements : List Statement) :
    AtRest logTypes (statements ++ [.entry e]) ⟨statements, some d⟩ := by
  intro t hbreaks hapart
  have hkind : t.kind ≠ .punctuator := by
    rcases hbreaks.cases with hkind | hkind | ⟨hkind, -⟩ <;> simp [hkind]
  have hbegin := ModifierDraft.begin?_of_breaks hbreaks
    (apartFromLast_concat.mp hapart e rfl)
  simp only [accept, h t hkind, StatementDraft.acceptEntry, hbegin]

/-- A statement that is longer is part of a program that is longer. -/
theorem leads_some {logTypes : List Text} {d d' : StatementDraft} {ts : List Token}
    (h : Leads (StatementDraft.accept logTypes) d ts d') (statements : List Statement) :
    Leads (accept logTypes) ⟨statements, some d⟩ ts ⟨statements, some d'⟩ :=
  h.lift (fun draft => ProgramDraft.mk statements (some draft)) fun hmore => by
    simp [accept, hmore]

/-- The first token of a statement begins it. -/
theorem acceptFirst_of_begin? {t : Token} {d : StatementDraft}
    (h : StatementDraft.begin? t = some d) (statements : List Statement) :
    acceptFirst statements t = .more ⟨statements, some d⟩ := by
  simp [acceptFirst, h]

end ProgramDraft

open ProgramDraft in
/-- The tokens of a statement lead a program from before the statement to behind it. -/
theorem IsStatement.leads {logTypes : List Text} {ts : List Token} {s : Statement}
    (h : IsStatement logTypes ts s) (statements : List Statement) :
    ∃ p, Leads (ProgramDraft.accept logTypes) ⟨statements, none⟩ ts p ∧
      p.AtRest logTypes (statements ++ [s]) := by
  cases h with
  | @hideAll keyword name hkeyword hname =>
    rcases (Token.holds_iff ..).mp hkeyword with ⟨hkind, hvalue⟩
    have hbegin : StatementDraft.begin? keyword = some (.hideAll keyword) := by
      simp [StatementDraft.begin?, hkind, hvalue]
    refine ⟨_, .step _ (acceptFirst_of_begin? hbegin statements) (.single ?_), atRest_none _ _⟩
    simp only [ProgramDraft.accept, StatementDraft.accept, Token.expect, hname]
    rfl
  | @alertAll keyword name ts parts hkeyword hname hparts =>
    rcases (Token.holds_iff ..).mp hkeyword with ⟨hkind, hvalue⟩
    have hbegin : StatementDraft.begin? keyword = some (.alertAll keyword) := by
      simp [StatementDraft.begin?, hkind, hvalue]
    exact ⟨_, .step _ (acceptFirst_of_begin? hbegin statements)
      (leads_some (leads_of_alertParts hname hparts) statements), atRest_alertMore _ _ _⟩
  | @define keyword defineType name file hkeyword htype hname hfile =>
    rcases (Token.holds_iff ..).mp hkeyword with ⟨hkind, hvalue⟩
    rcases (Token.holds_iff ..).mp htype with ⟨hidentifier, halertsound⟩
    have hbegin : StatementDraft.begin? keyword = some (.define keyword) := by
      simp [StatementDraft.begin?, hkind, hvalue]
    refine ⟨_, .step _ (acceptFirst_of_begin? hbegin statements)
      (.step ⟨statements, some (.defineName keyword defineType)⟩ ?_
        (.step ⟨statements, some (.defineFile keyword defineType name)⟩ ?_ (.single ?_))),
      atRest_none _ _⟩
    · simp only [ProgramDraft.accept, StatementDraft.accept, Token.expect, hidentifier,
        halertsound]
      rfl
    · simp only [ProgramDraft.accept, StatementDraft.accept, Token.expect, hname]
      rfl
    · simp only [ProgramDraft.accept, StatementDraft.accept, Token.expect, hfile]
      rfl
  | @entry time name ts parts htime hname hparts =>
    have hbegin : StatementDraft.begin? time = some (.entry time) := by
      simp [StatementDraft.begin?, htime]
    rcases leads_of_modifiers hname hparts with ⟨d, hleads, hcompletes⟩
    exact ⟨_, .step _ (acceptFirst_of_begin? hbegin statements) (leads_some hleads statements),
      atRest_of_completes hcompletes statements⟩

/-! ## Timelines -/

/-- A statement that may follow another one begins with a token that does not extend it. -/
theorem apart_of_mayFollow {logTypes : List Text} {s next : Statement} {first : Token}
    {us : List Token} (hfollow : MayFollow logTypes s next)
    (hnext : IsStatement logTypes (first :: us) next) : Apart logTypes s first := by
  rintro e rfl hkeyword
  rcases hnext.exists_first with ⟨first', rest, heq, hkind⟩
  cases heq
  rcases hkind with ⟨hnumber, -⟩ | ⟨-, hvalue⟩
  · simp [hkeyword] at hnumber
  · exact hfollow first.value (by simp [hvalue])

/-- The first token of a statement is one with which a statement may begin. -/
theorem IsStatement.isSome_begin? {logTypes : List Text} {t : Token} {ts : List Token}
    {s : Statement} (h : IsStatement logTypes (t :: ts) s) :
    (StatementDraft.begin? t).isSome = true := by
  rcases h.exists_first with ⟨first, rest, heq, hkind⟩
  cases heq
  rcases hkind with ⟨hnumber, -⟩ | ⟨hkeyword, hvalue⟩
  · simp [StatementDraft.begin?, hnumber]
  · have hword : t.value = "hideall".toList ∨ t.value = "alertall".toList ∨
        t.value = "define".toList := by
      cases s <;> simp_all [Statement.keyword?]
    rcases hword with hword | hword | hword <;> simp [StatementDraft.begin?, hkeyword, hword]

/-- The tokens of a derivation lead a new program behind the last statement. -/
theorem Derives.leads {logTypes : List Text} {ts : List Token} {statements : List Statement}
    (h : Derives logTypes ts statements) :
    ∃ p, Leads (ProgramDraft.accept logTypes) ⟨[], none⟩ ts p ∧
      p.AtRest logTypes statements := by
  rcases h with ⟨hmany, hchain⟩
  induction hmany with
  | nil => exact ⟨_, .refl _, ProgramDraft.atRest_none _ _⟩
  | @concat ts us statements s _ hs ih =>
    rcases List.isChain_append.mp hchain with ⟨hinit, -, hlast⟩
    rcases ih hinit with ⟨p, hleads, hrest⟩
    rcases hs.leads statements with ⟨p', hleads', hrest'⟩
    -- The first token of the statement finds the program at rest, as if no statement had been.
    rcases hs.exists_first with ⟨first, us, rfl, -⟩
    cases hleads' with
    | step longer hmore hleads' =>
      have hbreaks : first.Breaks := Or.inr hs.isSome_begin?
      have hapart : ApartFromLast logTypes statements first := by
        intro last hmem
        exact apart_of_mayFollow (hlast last hmem s (by simp)) hs
      exact ⟨p', hleads.trans (.step longer ((hrest first hbreaks hapart).trans hmore) hleads'),
        hrest'⟩

/-- Tokens settle a new program without an error exactly if they begin with a derivation and the
end of the text behind it. -/
theorem feed_eq_ok_iff {logTypes : List Text} {ts : List Token} {statements : List Statement} :
    (∃ final, feed (ProgramDraft.accept logTypes) ⟨[], none⟩ ts =
      some (.ok ⟨statements, none⟩, final)) ↔
      ∃ us last vs, ts = us ++ last :: vs ∧ last.kind = .eof ∧
        Derives logTypes us statements := by
  constructor
  · rintro ⟨final, hfeed⟩
    exact feed_sound hfeed
  · rintro ⟨us, last, vs, rfl, hlast, hderives⟩
    rcases hderives.leads with ⟨p, hleads, hrest⟩
    have hapart : ApartFromLast logTypes statements last := by
      intro s _ e _ hkind
      simp [hlast] at hkind
    have hend : p.accept logTypes last = .before ⟨statements, none⟩ := by
      rw [hrest last (Or.inl hlast) hapart]
      simp [ProgramDraft.acceptFirst, StatementDraft.begin?, hlast]
    exact ⟨p, by rw [feed_append hleads, feed_cons_of_outcome (by rw [hend]; rfl)]⟩

/-! ## Source texts -/

/-- The significant tokens of a source text end with the only one that nothing can follow. -/
theorem significantTokens_eq_concat {v : Vocabulary} (hv : v.HasNoEmptyWord) (source : Text) :
    ∃ body last, significantTokens v source = body ++ [last] ∧ last.isLast = true ∧
      ∀ t ∈ body, t.isLast = false := by
  rcases Cursor.tokens_eq_concat hv (Cursor.ofText (normalize source)) with
    ⟨body, last, htokens, hlast, hbody⟩
  refine ⟨body.filter Token.isSignificant, last, ?_, hlast, ?_⟩
  · have hsignificant : last.isSignificant = true := by
      rcases Token.isLast_iff.mp hlast with hkind | hkind <;> simp [Token.isSignificant, hkind]
    rw [significantTokens, tokensOf_eq_tokens hv, htokens, List.filter_append,
      List.filter_cons_of_pos hsignificant, List.filter_nil]
  · intro t ht
    exact hbody t (List.mem_of_mem_filter ht)

/-- Behind the only token that nothing can follow stands nothing. -/
theorem eq_nil_of_significantTokens_eq {v : Vocabulary} (hv : v.HasNoEmptyWord) {source : Text}
    {us vs : List Token} {last : Token}
    (h : significantTokens v source = us ++ last :: vs) (hlast : last.isLast = true) :
    vs = [] := by
  rcases significantTokens_eq_concat hv source with ⟨body, final, htokens, -, hbody⟩
  exact eq_nil_of_isLast hbody (htokens.symm.trans h) hlast

section

variable {logTypes : List Text} {t : Token}

/-- No structured synchronisation goes on or ends at a token that nothing can follow. -/
theorem BlockDraft.accept_last (ht : t.isLast = true) (d : BlockDraft) :
    (d.accept t).Meets (fun _ => False) (fun _ => False) (fun _ => False) := by
  cases d <;> rcases Token.isLast_iff.mp ht with hkind | hkind <;>
    simp [accept, close, Token.expectWord, Token.expect, hkind, Verdict.Meets]

/-- No modifier goes on at a token that nothing can follow. -/
theorem ModifierDraft.accept_last (ht : t.isLast = true) (d : ModifierDraft) :
    (d.accept t).Meets (fun _ => False) (fun _ => False) (fun _ => True) := by
  cases d with
  | block d =>
    exact (BlockDraft.accept_last ht d).map (fun _ h => h) (fun _ h => h) (fun _ h => h.elim)
  | regex | window | windowComma | windowAfter | jump | duration =>
    rcases Token.isLast_iff.mp ht with hkind | hkind <;>
      simp [accept, Token.expect, hkind, Verdict.Meets]

/-- No statement goes on at a token that nothing can follow. -/
theorem StatementDraft.accept_last (logTypes : List Text) (ht : t.isLast = true)
    (d : StatementDraft) :
    (d.accept logTypes t).Meets (fun _ => False) (fun _ => False) (fun _ => True) := by
  have hentry : ∀ e : Entry, acceptEntry logTypes e t = .before (.entry e) := by
    intro e
    rcases Token.isLast_iff.mp ht with hkind | hkind <;>
      simp [acceptEntry, ModifierDraft.begin?, hkind]
  cases d with
  | entryMore e =>
    rw [accept, hentry]
    trivial
  | entryModifier e d =>
    have hstep := ModifierDraft.accept_last ht d
    simp only [accept]
    cases hverdict : d.accept t with
    | more | done =>
      rw [hverdict] at hstep
      exact hstep.elim
    | before m =>
      simp only [hentry]
      trivial
    | fault => trivial
  | hideAll | alertAll | alertMore | alertBefore | alertSound | define | defineName | defineFile
  | entry =>
    rcases Token.isLast_iff.mp ht with hkind | hkind <;>
      simp [accept, acceptAlert, Token.expect, hkind, Verdict.Meets]

/-- A program settles at a token that nothing can follow. -/
theorem ProgramDraft.accept_last (logTypes : List Text) (ht : t.isLast = true)
    (p : ProgramDraft) :
    (p.accept logTypes t).Meets (fun _ => False) (fun _ => False) (fun _ => True) := by
  have hfirst : ∀ statements : List Statement,
      (acceptFirst statements t).Meets (fun _ => False) (fun _ => False) (fun _ => True) := by
    intro statements
    rcases Token.isLast_iff.mp ht with hkind | hkind <;>
      simp [acceptFirst, StatementDraft.begin?, hkind, Verdict.Meets]
  rcases p with ⟨statements, current⟩
  cases current with
  | none => exact hfirst statements
  | some d =>
    have hstep := StatementDraft.accept_last logTypes ht d
    simp only [accept]
    cases hverdict : d.accept logTypes t with
    | more | done =>
      rw [hverdict] at hstep
      exact hstep.elim
    | before s => exact hfirst (statements ++ [s])
    | fault => trivial

end

/-- The last of the visible tokens from a place on, and no other, is one that nothing can
follow. -/
theorem Cursor.visible_eq_concat {v : Vocabulary} (hv : v.HasNoEmptyWord) (c : Cursor) :
    ∃ body last, c.visible v = body ++ [last] ∧ last.isLast = true ∧
      ∀ t ∈ body, t.isLast = false := by
  rcases c.tokens_eq_concat hv with ⟨body, last, htokens, hlast, hbody⟩
  have hkind : last.kind ≠ .blank := by
    rcases Token.isLast_iff.mp hlast with hkind | hkind <;> simp [hkind]
  refine ⟨body.filter (·.kind != .blank), last, by simp [visible, htokens, hkind], hlast, ?_⟩
  intro t ht
  exact hbody t (List.mem_of_mem_filter ht)

/-- A machine whose drafts do not go on at a token that nothing can follow. -/
def SettlesAtLast {σ ρ : Type} (accept : σ → Token → Verdict σ ρ) : Prop :=
  ∀ draft t longer, t.isLast = true → accept draft t ≠ .more longer

/-- Every machine that settles at the last token is settled by tokens with it. -/
theorem SettlesAtLast.exists_feed {σ ρ : Type} {accept : σ → Token → Verdict σ ρ}
    (h : SettlesAtLast accept) (draft : σ) {ts : List Token} {last : Token} (hlast : last.isLast)
    (hmem : last ∈ ts) : ∃ outcome final, feed accept draft ts = some (outcome, final) := by
  cases hfeed : feed accept draft ts with
  | some result => exact ⟨result.1, result.2, rfl⟩
  | none =>
    rcases feed_eq_none_iff.mp hfeed with ⟨final, hleads⟩
    rcases List.append_of_mem hmem with ⟨us, vs, rfl⟩
    rcases hleads.of_append with ⟨d, -, hstep⟩
    cases hstep with
    | step longer hmore _ => exact absurd hmore (h d last longer hlast)

/-- Comments apart, tokens with one that nothing can follow lead to a draft that settles. -/
theorem SettlesAtLast.exists_leads {σ ρ : Type} {accept : σ → Token → Verdict σ ρ}
    (h : SettlesAtLast accept) (draft : σ) {ts : List Token} {last : Token} (hlast : last.isLast)
    (hmem : last ∈ ts) : ∃ us t vs outcome final, ts = us ++ t :: vs ∧ t.kind ≠ .comment ∧
      Leads accept draft (us.filter (·.kind != .comment)) final ∧
        (accept final t).outcome? t = some outcome := by
  have hkind : last.kind ≠ .comment := by
    rcases Token.isLast_iff.mp hlast with hkind | hkind <;> simp [hkind]
  have hmem' : last ∈ ts.filter (·.kind != .comment) :=
    List.mem_filter.mpr ⟨hmem, by simpa using hkind⟩
  rcases h.exists_feed draft hlast hmem' with ⟨outcome, final, hfeed⟩
  rcases feed_eq_some_iff.mp hfeed with ⟨us, t, vs, htokens, hleads, houtcome⟩
  rcases exists_filter_eq_append_cons htokens with ⟨ys, zs, hts, rfl, hkind⟩
  exact ⟨ys, t, zs, outcome, final, hts, by simpa using hkind, hleads, houtcome⟩

/-- The drafts of a program do not go on at a token that nothing can follow. -/
theorem ProgramDraft.settlesAtLast (logTypes : List Text) :
    SettlesAtLast (ProgramDraft.accept logTypes) := by
  intro p t longer ht hmore
  have hverdict := ProgramDraft.accept_last logTypes ht p
  rwa [hmore] at hverdict

/-- The significant tokens of a source text settle a program. -/
theorem exists_feed_significantTokens {v : Vocabulary} (hv : v.HasNoEmptyWord) (source : Text) :
    ∃ outcome final, feed (ProgramDraft.accept v.logTypes) ⟨[], none⟩
      (significantTokens v source) = some (outcome, final) := by
  rcases significantTokens_eq_concat hv source with ⟨body, last, htokens, hlast, -⟩
  exact (ProgramDraft.settlesAtLast v.logTypes).exists_feed _ hlast (by simp [htokens])

/-- A source text is accepted exactly if its significant tokens derive statements up to the end of
the text, and these are then its statements. -/
theorem parseSource_ok_iff_derives {v : Vocabulary} (hv : v.HasNoEmptyWord) (source file : Text)
    (statements : List Statement) :
    (∃ p, parseSource v source file = .ok p ∧ p.body = statements) ↔
      ∃ us last, significantTokens v source = us ++ [last] ∧ last.kind = .eof ∧
        Derives v.logTypes us statements := by
  constructor
  · rintro ⟨p, hparse, rfl⟩
    rcases exists_feed_significantTokens hv source with ⟨outcome, final, hfeed⟩
    have hresult := parseSource_of_feed hv file hfeed
    rw [hparse] at hresult
    obtain rfl := ProgramEnd.eq_ok_of_result hresult.symm
    rcases feed_sound hfeed with ⟨us, last, vs, htokens, hkind, hderives⟩
    obtain rfl := eq_nil_of_significantTokens_eq hv htokens (by simp [Token.isLast, hkind])
    exact ⟨us, last, htokens, hkind, hderives⟩
  · rintro ⟨us, last, htokens, hkind, hderives⟩
    rcases feed_eq_ok_iff.mpr ⟨us, last, [], htokens, hkind, hderives⟩ with ⟨final, hfeed⟩
    have hresult := parseSource_of_feed hv file hfeed
    cases hparse : parseSource v source file with
    | error error => simp [hparse, Except.map, ProgramEnd.result] at hresult
    | ok p =>
      rw [hparse] at hresult
      cases hresult
      exact ⟨p, rfl, rfl⟩

/-- A source text is accepted exactly if its significant tokens are a timeline of the grammar, and
its statements are then those of the derivation. -/
theorem parseSource_ok_iff_isTimeline {v : Vocabulary} (hv : v.HasNoEmptyWord)
    (hspares : v.SparesStatements) (source file : Text) (statements : List Statement) :
    (∃ p, parseSource v source file = .ok p ∧ p.body = statements) ↔
      IsTimeline v.logTypes (significantTokens v source) statements := by
  rw [parseSource_ok_iff_derives hv]
  constructor
  · rintro ⟨us, last, htokens, hkind, hderives⟩
    exact ⟨us, last, htokens, hkind, hderives.many⟩
  · rintro ⟨us, last, htokens, hkind, hmany⟩
    have hchain : statements.IsChain (MayFollow v.logTypes) :=
      List.isChain_iff_getElem.mpr fun i hi => hspares.mayFollow _ _
    exact ⟨us, last, htokens, hkind, hmany, hchain⟩

/-- A hidden name behind a comment is a timeline of one statement. -/
theorem isTimeline_hideAll :
    Vocabulary.default.HasNoEmptyWord ∧ Vocabulary.default.SparesStatements ∧
      IsTimeline Vocabulary.default.logTypes
        (significantTokens .default "#\nhideall 'a'".toList)
        [.hideAll ⟨⟨2, 13, ⟨2, 0⟩, ⟨2, 11⟩⟩,
          ⟨⟨10, 13, ⟨2, 8⟩, ⟨2, 11⟩⟩, "a".toList, "'a'".toList⟩⟩] :=
  ⟨Vocabulary.hasNoEmptyWord_default, Vocabulary.sparesStatements_default,
    (parseSource_ok_iff_isTimeline Vocabulary.hasNoEmptyWord_default
      Vocabulary.sparesStatements_default "#\nhideall 'a'".toList [] _).mp
      ⟨⟨⟨0, 13, ⟨1, 0⟩, ⟨2, 11⟩⟩,
          [.hideAll ⟨⟨2, 13, ⟨2, 0⟩, ⟨2, 11⟩⟩,
            ⟨⟨10, 13, ⟨2, 8⟩, ⟨2, 11⟩⟩, "a".toList, "'a'".toList⟩⟩],
          [⟨⟨0, 1, ⟨1, 0⟩, ⟨1, 1⟩⟩, [], "#".toList⟩], [], "module".toList⟩,
        by decide +kernel, rfl⟩⟩

end RaidTimeline
