import RaidTimeline.Proofs.CanonicalText

/-!
# Canonical texts are unambiguous

The canonical text of a timeline determines its content, and so no two timelines that differ in
their content have the same canonical text.  This does not need a text that can be read again:
timelines with infinite numbers, or with a backslash in front of an apostrophe, have one as well.

Every piece of a canonical text ends where its own characters say so, or in front of a character
that cannot belong to it.  A spelling is therefore looked at together with the text behind it, from
words and numbers up to the lines of a program.

Main results:

- Definition {lit}`Unambiguous`: spellings that determine what is spelt and where it ends.
- Theorem {lit}`Unambiguous.flatMap`: spellings one behind the other.
- Theorem {lit}`Modifier.unambiguous_text`: modifiers.
- Theorem {lit}`Statement.unambiguous_text`: statements.
- Theorem {lit}`bare_body_of_canonical_eq`: programs with the same canonical text have the same
  content.
-/

namespace RaidTimeline

/-! ## Spellings in longer texts -/

/-- A spelling determines the content of what is spelt, and where it ends in a longer text.  What
is spelt is {lit}`Known`, and the character behind it, if there is one, is among {lit}`Ends`. -/
def Unambiguous {α β : Type} (spell : α → Text) (content : α → β) (Known : α → Prop)
    (Ends : Char → Prop) : Prop :=
  ∀ ⦃x y : α⦄ ⦃r s : Text⦄, Known x → Known y → (∀ c ∈ r.head?, Ends c) →
    (∀ c ∈ s.head?, Ends c) → spell x ++ r = spell y ++ s → content x = content y ∧ r = s

/-- The next character belongs neither to a word nor to a fraction. -/
def IsSeparator (c : Char) : Prop := isWord c = false ∧ c ≠ '.'

section

variable {α β : Type} {spell : α → Text} {content : α → β} {Known : α → Prop}
  {Ends : Char → Prop}

/-- What follows a text of marked spellings, or its first mark. -/
theorem head?_flatMap {mark : Char} (hmark : Ends mark) {xs : List α} {r : Text}
    (hr : ∀ c ∈ r.head?, Ends c ∧ c ≠ mark) :
    ∀ c ∈ ((xs.flatMap fun x => mark :: spell x) ++ r).head?, Ends c := by
  intro c hc
  cases xs with
  | nil => exact (hr c hc).1
  | cons x xs =>
    cases hc
    exact hmark

/-- It is enough that the length of what is spelt can be told from the longer text. -/
theorem unambiguous_of_length (length? : Text → Option Nat)
    (hlength : ∀ {x : α} {r : Text}, Known x → (∀ c ∈ r.head?, Ends c) →
      length? (spell x ++ r) = some (spell x).length)
    (hcontent : ∀ {x y : α}, Known x → Known y → spell x = spell y → content x = content y) :
    Unambiguous spell content Known Ends := by
  intro x y r s hx hy hr hs heq
  have hsame : (spell x).length = (spell y).length := by
    apply Option.some.inj
    rw [← hlength hx hr, heq, hlength hy hs]
  rcases List.append_inj heq hsame with ⟨hspell, hrest⟩
  exact ⟨hcontent hx hy hspell, hrest⟩

namespace Unambiguous

variable (h : Unambiguous spell content Known Ends)
include h

/-- The same characters may stand in front. -/
theorem behind (t : Text) : Unambiguous (fun x => t ++ spell x) content Known Ends := by
  intro x y r s hx hy hr hs heq
  rw [List.append_assoc, List.append_assoc] at heq
  exact h hx hy hr hs (List.append_cancel_left heq)

/-- Spellings behind a mark that ends them stand one behind the other, up to another character. -/
theorem flatMap {mark : Char} (hmark : Ends mark) :
    Unambiguous (fun xs => xs.flatMap fun x => mark :: spell x) (List.map content)
      (fun xs => ∀ x ∈ xs, Known x) fun c => Ends c ∧ c ≠ mark := by
  intro xs ys r s hxs hys hr hs heq
  induction xs generalizing ys with
  | nil =>
    cases ys with
    | nil => exact ⟨rfl, heq⟩
    | cons y ys =>
      obtain rfl : r = mark :: _ := heq
      exact absurd rfl (hr mark rfl).2
  | cons x xs ih =>
    rcases List.forall_mem_cons.mp hxs with ⟨hx, hxs⟩
    cases ys with
    | nil =>
      obtain rfl : mark :: _ = s := heq
      exact absurd rfl (hs mark rfl).2
    | cons y ys =>
      rcases List.forall_mem_cons.mp hys with ⟨hy, hys⟩
      simp only [List.flatMap_cons, List.cons_append, List.append_assoc, List.cons.injEq,
        true_and] at heq
      rcases h hx hy (head?_flatMap hmark hr) (head?_flatMap hmark hs) heq with
        ⟨hcontent, hrest⟩
      rcases ih hxs hys hrest with ⟨hmap, hrs⟩
      exact ⟨by rw [List.map_cons, List.map_cons, hcontent, hmap], hrs⟩

/-- Spellings with separators between them stand one behind the other. -/
theorem join {mark : Char} (hmark : Ends mark) (separator : Text) :
    Unambiguous (fun xs => Text.join (mark :: separator) (xs.map spell)) (List.map content)
      (fun xs => xs ≠ [] ∧ ∀ x ∈ xs, Known x) fun c => Ends c ∧ c ≠ mark := by
  -- With one more separator in front, every part has one.
  have hjoin : ∀ {xs : List α}, xs ≠ [] →
      (mark :: separator) ++ Text.join (mark :: separator) (xs.map spell) =
        xs.flatMap fun x => mark :: (separator ++ spell x) := by
    intro xs hne
    induction xs with
    | nil => contradiction
    | cons x xs ih =>
      cases xs with
      | nil => simp [Text.join]
      | cons next xs =>
        rw [List.flatMap_cons, ← ih (List.cons_ne_nil next xs)]
        simp [Text.join]
  intro xs ys r s hxs hys hr hs heq
  apply (h.behind separator).flatMap hmark hxs.2 hys.2 hr hs
  simp only [← hjoin hxs.1, ← hjoin hys.1, List.append_assoc]
  exact congrArg ((mark :: separator) ++ ·) heq

end Unambiguous

/-- Words and numbers end in front of a separator. -/
theorem unambiguous_of_run
    (hrun : ∀ {x : α}, Known x → ∀ c ∈ spell x, isWord c = true ∨ c = '.')
    (hcontent : ∀ {x y : α}, Known x → Known y → spell x = spell y → content x = content y) :
    Unambiguous spell content Known IsSeparator := by
  have hlength : ∀ {x : α} {r : Text}, Known x → (∀ c ∈ r.head?, IsSeparator c) →
      ((spell x ++ r).takeWhile fun c => isWord c || c == '.') = spell x := by
    intro x r hx hr
    apply takeWhile_append_of_head?
    · intro c hc
      simpa using hrun hx c hc
    · intro c hc
      simpa [IsSeparator] using hr c hc
  apply unambiguous_of_length
    (fun text => some (text.takeWhile fun c => isWord c || c == '.').length) _ hcontent
  intro x r hx hr
  rw [hlength hx hr]

end

/-- Runs of word characters and points. -/
theorem unambiguous_run :
    Unambiguous (fun t : Text => t) id (fun t => ∀ c ∈ t, isWord c = true ∨ c = '.')
      IsSeparator :=
  unambiguous_of_run id fun _ _ heq => heq

/-! ## Literals -/

/-- The spelling of a string determines its value, whatever follows. -/
theorem unambiguous_stringText :
    Unambiguous stringText StringLiteral.bare (fun s => IsDecoded s.value) fun _ => True := by
  apply unambiguous_of_length stringLength?
  · intro s r hs _
    simp [stringText, hs.stringLength?_eq r]
  · intro s t hs ht heq
    have hescaped : escapeString s.value = escapeString t.value := by
      simpa [stringText] using heq
    rw [StringLiteral.bare, StringLiteral.bare, escapeString_inj hs ht hescaped]

/-- The spelling of a pattern determines the pattern, whatever follows. -/
theorem unambiguous_patternText :
    Unambiguous patternText RegexLiteral.bare (fun r => IsPattern r.pattern ∧ r.flags = [])
      fun _ => True := by
  apply unambiguous_of_length regexLength?
  · intro p r hp _
    simp [patternText, hp.1.regexLength?_eq r]
  · intro p q hp hq heq
    have hescaped : escapeRegex p.pattern = escapeRegex q.pattern := by
      simpa [patternText] using heq
    have hpattern : p.pattern = q.pattern := by
      rw [← hp.1.unescapeRegex_escapeRegex, hescaped, hq.1.unescapeRegex_escapeRegex]
    rw [RegexLiteral.bare, RegexLiteral.bare, hpattern, hp.2, hq.2]

/-- The spelling of a number determines the number, if what follows separates. -/
theorem IsNumberSpelling.unambiguous {spell : Binary64 → Text} (h : IsNumberSpelling spell) :
    Unambiguous (fun n : NumberLiteral => spell n.value) NumberLiteral.bare
      (fun n => n.value.HasSign false) IsSeparator := by
  apply unambiguous_of_run
  · exact fun hn => h.isRun hn
  · intro n m hn hm heq
    rw [NumberLiteral.bare, NumberLiteral.bare, h.inj hn hm heq]

/-- The spelling of a literal tells strings and numbers apart, and determines which one it is. -/
theorem Literal.unambiguous_text :
    Unambiguous Literal.text Literal.bare Literal.IsRead IsSeparator := by
  -- A number does not begin with a quote.
  have hdiffer : ∀ {s : StringLiteral} {n : NumberLiteral} {r t : Text},
      n.value.HasSign false → stringText s ++ r ≠ numberText n.value ++ t := by
    intro s n r t hn heq
    rcases isNumberSpelling_numberText.exists_head hn with ⟨c, rest, htext, hc⟩
    rw [htext] at heq
    obtain rfl : '"' = c := (List.cons.inj heq).1
    rcases hc with hc | hc <;> contradiction
  intro l k r t hl hk hr ht heq
  cases l with
  | string s =>
    cases k with
    | string s' =>
      obtain ⟨hbare, hrest⟩ :=
        unambiguous_stringText hl hk (fun _ _ => trivial) (fun _ _ => trivial) heq
      exact ⟨congrArg Literal.string hbare, hrest⟩
    | number n => exact absurd heq (hdiffer hk)
  | number n =>
    cases k with
    | string s => exact absurd heq.symm (hdiffer hl)
    | number m =>
      obtain ⟨hbare, hrest⟩ := isNumberSpelling_numberText.unambiguous hl hk hr ht heq
      exact ⟨congrArg Literal.number hbare, hrest⟩

/-! ## Fields -/

theorem IsName.isRun {w : Text} (h : IsName w) : ∀ c ∈ w, isWord c = true ∨ c = '.' :=
  fun c hc => Or.inl (h.word c hc)

/-- The spelling of a field determines its key and its literal. -/
theorem unambiguous_fieldText :
    Unambiguous fieldText Field.bare (fun f => IsName f.key ∧ f.value.IsRead) IsSeparator := by
  intro f g r s hf hg hr hs heq
  simp only [fieldText_eq, List.append_assoc, List.cons_append] at heq
  have hcolon : ∀ t : Text, Separates (':' :: t) := .cons rfl (by decide)
  obtain ⟨hkey, hbehind⟩ := unambiguous_run hf.1.isRun hg.1.isRun (hcolon _) (hcolon _) heq
  simp only [List.cons.injEq, true_and] at hbehind
  obtain ⟨hvalue, hrest⟩ := Literal.unambiguous_text hf.2 hg.2 hr hs hbehind
  exact ⟨by rw [Field.bare, Field.bare, hvalue, show f.key = g.key from hkey], hrest⟩

/-- The spelling of fields in braces determines the fields, whatever follows. -/
theorem unambiguous_bracesText :
    Unambiguous bracesText (List.map Field.bare)
      (fun fs => ∀ f ∈ fs, IsName f.key ∧ f.value.IsRead) fun _ => True := by
  intro fs gs r s hfs hgs _ _ heq
  have hjoin := unambiguous_fieldText.join (show IsSeparator ',' from ⟨rfl, by decide⟩) [' ']
  cases fs with
  | nil =>
    cases gs with
    | nil => exact ⟨rfl, by simpa [bracesText] using heq⟩
    | cons g gs => simp [bracesText] at heq
  | cons f fs =>
    cases gs with
    | nil => simp [bracesText] at heq
    | cons g gs =>
      simp only [bracesText, List.isEmpty_cons, Bool.false_eq_true, if_false, List.cons_append,
        List.append_assoc, List.cons.injEq, true_and] at heq
      have hblank : ∀ t : Text, ∀ c ∈ (' ' :: t).head?, IsSeparator c ∧ c ≠ ',' := by
        rintro t c ⟨⟩
        exact ⟨⟨rfl, by decide⟩, by decide⟩
      obtain ⟨hfields, hrest⟩ := hjoin ⟨List.cons_ne_nil f fs, hfs⟩ ⟨List.cons_ne_nil g gs, hgs⟩
        (hblank _) (hblank _) heq
      exact ⟨hfields, by simpa using hrest⟩

/-! ## Windows -/

/-- The spelling of a window determines its numbers, if no comma follows. -/
theorem Window.unambiguous_numbersText :
    Unambiguous Window.numbersText Window.bare Window.HasNoSign
      fun c => IsSeparator c ∧ c ≠ ',' := by
  intro w u r s hw hu hr hs heq
  have hnumber := isNumberSpelling_numberText.unambiguous
  have hcomma : IsSeparator ',' := ⟨rfl, by decide⟩
  have hsecond : ∀ {w : Window}, w.HasNoSign → ∀ n ∈ w.second.toList, n.value.HasSign false :=
    fun h n hn => h.second n (Option.mem_toList.mp hn)
  rw [Window.numbersText, Window.numbersText, List.append_assoc, List.append_assoc] at heq
  obtain ⟨hbefore, hbehind⟩ := hnumber hw.1 hu.1 (head?_flatMap hcomma hr)
    (head?_flatMap hcomma hs) heq
  obtain ⟨hmap, hrest⟩ := hnumber.flatMap hcomma (hsecond hw) (hsecond hu) hr hs hbehind
  have hafter : w.second.map NumberLiteral.bare = u.second.map NumberLiteral.bare := by
    simpa only [← Option.toList_map, Option.head?_toList] using congrArg List.head? hmap
  have hbare : ∀ w : Window, w.bare = ⟨.none, w.before.bare, w.second.map NumberLiteral.bare⟩ :=
    fun _ => rfl
  exact ⟨by rw [hbare, hbare, hbefore, hafter], hrest⟩

/-! ## Modifiers -/

namespace Modifier

variable {v : Vocabulary}

/-- The word of a modifier is that of a structured synchronisation exactly if the modifier is
one. -/
theorem word_mem_logTypes_iff {m : Modifier} (h : m.HasNames v) :
    m.word ∈ v.logTypes ↔ ∃ b, m = .sync (.block b) := by
  rcases m with (s | b) | w | j | d
  case sync.block => exact ⟨fun _ => ⟨b, rfl⟩, fun _ => h.1⟩
  case sync.regex => exact ⟨fun hmem => absurd hmem h.1.2, fun ⟨b, hb⟩ => by cases hb⟩
  all_goals exact ⟨fun hmem => absurd hmem h.2, fun ⟨b, hb⟩ => by cases hb⟩

/-- Modifiers with the same word are of the same kind. -/
theorem cases_of_word_eq {m n : Modifier} (hm : m.HasNames v) (hn : n.HasNames v)
    (hword : m.word = n.word) :
    (∃ b c, m = .sync (.block b) ∧ n = .sync (.block c)) ∨
      (∃ s t, m = .sync (.regex s) ∧ n = .sync (.regex t)) ∨
        (∃ w u, m = .window w ∧ n = .window u) ∨ (∃ j k, m = .jump j ∧ n = .jump k) ∨
          ∃ d e, m = .duration d ∧ n = .duration e := by
  -- Any table entry may be the word of a structured synchronisation; the other words are fixed.
  have hblock : (∃ b, m = .sync (.block b)) ↔ ∃ b, n = .sync (.block b) := by
    rw [← word_mem_logTypes_iff hm, ← word_mem_logTypes_iff hn, hword]
  unfold word at hword
  rcases m with (s | b) | w | j | d <;> rcases n with (t | c) | u | k | e <;>
    simp at hblock hword ⊢

/-- The spelling of a modifier determines its kind and its content. -/
theorem unambiguous_text :
    Unambiguous Modifier.text Modifier.bare
      (fun m => m.HasNames v ∧ ∀ l ∈ m.literals, l.IsRead) fun c => IsSeparator c ∧ c ≠ ',' := by
  intro m n r s hm hn hr hs heq
  rw [text_eq hm.2, text_eq hn.2, List.append_assoc, List.append_assoc] at heq
  obtain ⟨hword, hbehind⟩ := unambiguous_run (isName_word hm.1).isRun (isName_word hn.1).isRun
    (separates_blank _) (separates_blank _) heq
  have hbehind : m.behindWord ++ r = n.behindWord ++ s := (List.cons.inj hbehind).2
  have hnumber := isNumberSpelling_numberText.unambiguous
  have hseparator : ∀ {t : Text}, (∀ c ∈ t.head?, IsSeparator c ∧ c ≠ ',') →
      ∀ c ∈ t.head?, IsSeparator c := fun h c hc => (h c hc).1
  obtain ⟨b, c, rfl, rfl⟩ | ⟨p, q, rfl, rfl⟩ | ⟨w, u, rfl, rfl⟩ | ⟨j, k, rfl, rfl⟩ |
    ⟨d, e, rfl, rfl⟩ := cases_of_word_eq hm.1 hn.1 hword
  · obtain ⟨hfields, hrest⟩ := unambiguous_bracesText
      (fun f hf => ⟨(hm.1.2.2 f hf).2, hm.2 f.value (List.mem_map_of_mem hf)⟩)
      (fun f hf => ⟨(hn.1.2.2 f hf).2, hn.2 f.value (List.mem_map_of_mem hf)⟩)
      (fun _ _ => trivial) (fun _ _ => trivial) hbehind
    have hname : b.logType = c.logType := hword
    exact ⟨by simp only [bare, Sync.bare, hname, hfields], hrest⟩
  · obtain ⟨hpattern, hrest⟩ := unambiguous_patternText hm.1.2 hn.1.2 (fun _ _ => trivial)
      (fun _ _ => trivial) hbehind
    exact ⟨by simp only [bare, Sync.bare, hpattern], hrest⟩
  · obtain ⟨hwindow, hrest⟩ := Window.unambiguous_numbersText (Window.hasNoSign hm.2)
      (Window.hasNoSign hn.2) hr hs hbehind
    exact ⟨congrArg Modifier.window hwindow, hrest⟩
  · obtain ⟨htime, hrest⟩ := hnumber (hm.2 (.number j.time) (by simp [literals]))
      (hn.2 (.number k.time) (by simp [literals])) (hseparator hr) (hseparator hs) hbehind
    exact ⟨by simp only [bare, Jump.bare, htime], hrest⟩
  · obtain ⟨htime, hrest⟩ := hnumber (hm.2 (.number d.time) (by simp [literals]))
      (hn.2 (.number e.time) (by simp [literals])) (hseparator hr) (hseparator hs) hbehind
    exact ⟨by simp only [bare, Duration.bare, htime], hrest⟩

end Modifier

/-! ## Statements -/

section

variable {v : Vocabulary}

/-- The spelling of a hidden name determines the name, whatever follows. -/
theorem unambiguous_hideAllText :
    Unambiguous hideAllText HideAll.bare (fun h => IsDecoded h.name.value) fun _ => True := by
  intro h k r s hh hk hr hs heq
  obtain ⟨hname, hrest⟩ := unambiguous_stringText.behind "hideall ".toList hh hk hr hs heq
  exact ⟨by rw [HideAll.bare, HideAll.bare, hname], hrest⟩

/-- The spelling of an entry determines its content, if no further modifier follows. -/
theorem Entry.unambiguous_text :
    Unambiguous (fun e => (Statement.entry e).text) Entry.bare
      (fun e => (Statement.entry e).IsRead v) fun c => (IsSeparator c ∧ c ≠ ',') ∧ c ≠ ' ' := by
  intro d e r s hd he hr hs heq
  simp only [Statement.text, List.append_assoc, List.cons_append] at heq
  obtain ⟨htime, hbehind⟩ := isNumberSpelling_timeText.unambiguous hd.entry_time he.entry_time
    (separates_blank _) (separates_blank _) heq
  simp only [List.cons.injEq, true_and] at hbehind
  obtain ⟨hname, hbehind⟩ := unambiguous_stringText hd.entry_name he.entry_name
    (fun _ _ => trivial) (fun _ _ => trivial) hbehind
  have hblank : IsSeparator ' ' ∧ ' ' ≠ ',' := ⟨⟨rfl, by decide⟩, by decide⟩
  obtain ⟨hmodifiers, hrest⟩ := Modifier.unambiguous_text.flatMap hblank
    (fun m hm => hd.entry_modifier hm) (fun m hm => he.entry_modifier hm) hr hs hbehind
  exact ⟨(Entry.bare_eq_iff e).mpr ⟨htime, hname, hmodifiers⟩, hrest⟩

/-- A hidden name is spelt with a letter in front, unlike an entry. -/
theorem hideAllText_eq (h : HideAll) :
    hideAllText h = 'h' :: ("ideall ".toList ++ stringText h.name) := by
  have hkeyword : "hideall ".toList = 'h' :: "ideall ".toList := by decide +kernel
  exact congrArg (· ++ stringText h.name) hkeyword

/-- An entry does not begin like a hidden name. -/
theorem Entry.text_append_ne {e : Entry} (h : e.time.value.HasSign false) (k : HideAll)
    (r s : Text) : (Statement.entry e).text ++ r ≠ hideAllText k ++ s := by
  intro heq
  rcases isNumberSpelling_timeText.exists_head h with ⟨c, rest, htext, hc⟩
  rw [Statement.text, htext, hideAllText_eq] at heq
  obtain rfl : c = 'h' := (List.cons.inj heq).1
  rcases hc with hc | hc <;> contradiction

/-- The spelling of a statement tells entries and hidden names apart, and determines the content. -/
theorem Statement.unambiguous_text :
    Unambiguous Statement.text Statement.bare (fun s => s.IsRead v ∧ s.HasCanonicalForm)
      fun c => (IsSeparator c ∧ c ≠ ',') ∧ c ≠ ' ' := by
  intro s t r u hs ht hr hu heq
  cases s with
  | alertAll | define => exact hs.2.elim
  | hideAll h =>
    cases t with
    | alertAll | define => exact ht.2.elim
    | hideAll k =>
      obtain ⟨hbare, hrest⟩ := unambiguous_hideAllText hs.1.hideAll_name ht.1.hideAll_name
        (fun _ _ => trivial) (fun _ _ => trivial) heq
      exact ⟨congrArg Statement.hideAll hbare, hrest⟩
    | entry e => exact absurd heq.symm (e.text_append_ne ht.1.entry_time h u r)
  | entry d =>
    cases t with
    | alertAll | define => exact ht.2.elim
    | hideAll k => exact absurd heq (d.text_append_ne hs.1.entry_time k r u)
    | entry e =>
      obtain ⟨hbare, hrest⟩ := Entry.unambiguous_text hs.1 ht.1 hr hu heq
      exact ⟨congrArg Statement.entry hbare, hrest⟩

/-! ## Programs -/

/-- No statement is spelt as the empty text. -/
theorem Statement.text_ne_nil {s : Statement} (h : s.HasCanonicalForm) : s.text ≠ [] := by
  cases s with
  | alertAll | define => contradiction
  | hideAll hidden => exact (hideAllText_eq hidden).trans_ne (List.cons_ne_nil _ _)
  | entry e => exact List.append_ne_nil_of_right_ne_nil _ (List.cons_ne_nil _ _)

/-- Lines determine the content of their statements. -/
theorem bare_eq_of_join_text {ss ts : List Statement}
    (hss : ∀ s ∈ ss, s.IsRead v ∧ s.HasCanonicalForm)
    (hts : ∀ s ∈ ts, s.IsRead v ∧ s.HasCanonicalForm)
    (heq : Text.join ['\n'] (ss.map Statement.text) = Text.join ['\n'] (ts.map Statement.text)) :
    ss.map Statement.bare = ts.map Statement.bare := by
  -- A program without statements is the only one without text.
  have hempty : ∀ {ss : List Statement}, (∀ s ∈ ss, s.IsRead v ∧ s.HasCanonicalForm) →
      Text.join ['\n'] (ss.map Statement.text) = [] → ss = [] := by
    intro ss hss hnil
    cases ss with
    | nil => rfl
    | cons s ss =>
      have hne := Statement.text_ne_nil (hss s List.mem_cons_self).2
      cases ss <;> simp [Text.join, hne] at hnil
  by_cases hs : ss = []
  · subst hs
    rw [hempty hts heq.symm]
  · have ht : ts ≠ [] := by
      rintro rfl
      exact hs (hempty hss heq)
    have hline : (IsSeparator '\n' ∧ '\n' ≠ ',') ∧ '\n' ≠ ' ' :=
      ⟨⟨⟨rfl, by decide⟩, by decide⟩, by decide⟩
    have hjoin := (Statement.unambiguous_text (v := v)).join hline []
    exact (hjoin ⟨hs, hss⟩ ⟨ht, hts⟩ (by simp) (by simp) (congrArg (· ++ []) heq)).1

/-- Two programs of entries and hidden names that were read from any source texts, and that have
the same canonical text, have the same content. -/
theorem bare_body_of_canonical_eq (hv : v.HasWords) {source source' file file' : Text}
    {p q : Program} (hp : parseSource v source file = .ok p)
    (hq : parseSource v source' file' = .ok q) (hpform : ∀ s ∈ p.body, s.HasCanonicalForm)
    (hqform : ∀ s ∈ q.body, s.HasCanonicalForm) (h : p.canonical = q.canonical) :
    p.body.map Statement.bare = q.body.map Statement.bare := by
  rw [Program.canonical_eq hpform, Program.canonical_eq hqform] at h
  exact bare_eq_of_join_text
    (fun s hs => ⟨(isRead_of_parseSource hv hp).1 s hs, hpform s hs⟩)
    (fun s hs => ⟨(isRead_of_parseSource hv hq).1 s hs, hqform s hs⟩) (Except.ok.inj h)

end

/-- Two entries with a backslash in front of an apostrophe and an infinite number; their canonical
text cannot be read again. -/
theorem bare_body_of_canonical_eq_infinite :
    Vocabulary.default.HasWords ∧ ∃ p q,
      parseSource .default ("0 \"\\\\'\" jump 1".toList ++ Decimal.zeros 309) [] = .ok p ∧
        parseSource .default ("0.0 '\\\\'' jump 2".toList ++ Decimal.zeros 309) [] = .ok q ∧
          (∀ s ∈ p.body, s.HasCanonicalForm) ∧ (∀ s ∈ q.body, s.HasCanonicalForm) ∧
            p.canonical = q.canonical ∧ p.body.map Statement.bare = q.body.map Statement.bare := by
  let text := "0.0 \"\\'\" jump Infinity".toList
  have hread : ∀ source : Text,
      ((parseSource .default source []).toOption.bind fun p => p.canonical.toOption) = some text →
        ∃ p, parseSource .default source [] = .ok p ∧ p.canonical = .ok text :=
    fun _ => exists_canonical_of_toOption
  obtain ⟨p, hp, hptext⟩ :=
    hread ("0 \"\\\\'\" jump 1".toList ++ Decimal.zeros 309) (by decide +kernel)
  obtain ⟨q, hq, hqtext⟩ :=
    hread ("0.0 '\\\\'' jump 2".toList ++ Decimal.zeros 309) (by decide +kernel)
  have hpform := Program.hasCanonicalForm hptext
  have hqform := Program.hasCanonicalForm hqtext
  have hsame := hptext.trans hqtext.symm
  exact ⟨Vocabulary.hasWords_default, p, q, hp, hq, hpform, hqform, hsame,
    bare_body_of_canonical_eq Vocabulary.hasWords_default hp hq hpform hqform hsame⟩

end RaidTimeline
