import RaidTimeline.Proofs.RoundTrip

/-!
# Canonical texts

The canonical text of a program is made up of the canonical texts of its statements, one on each
line, and the text of a statement that was read depends on its content alone.

Main results:

- Definition {lit}`Statement.text`: the canonical text of a statement.
- Theorem {lit}`Program.canonical_eq`: the canonical text of a program.
- Theorem {lit}`Statement.text_bare`: the canonical text depends on the content alone.
- Theorem {lit}`reads_canonical`: how a canonical text is read.
-/

namespace RaidTimeline

/-! ## Canonical texts -/

/-- The canonical text of a statement that has a canonical form. -/
def Statement.text : Statement → Text
  | .hideAll h => hideAllText h
  | .entry e => timeText e.time.value ++ ' ' :: (stringText e.name
      ++ e.modifiers.flatMap fun m => ' ' :: m.text)
  | .alertAll _ => []
  | .define _ => []

/-- The canonical form of a statement that has one is its text. -/
theorem Statement.canonicalStatement_eq {s : Statement} (h : s.HasCanonicalForm) :
    s.toNode.canonicalStatement = .ok s.text := by
  cases s with
  | alertAll | define => contradiction
  | hideAll h => rfl
  | entry e => exact canonicalStatement_entry e

/-- Only statements that have a canonical form are rendered. -/
theorem Statement.hasCanonicalForm_of_eq {s : Statement} {line : Text}
    (h : s.toNode.canonicalStatement = .ok line) : s.HasCanonicalForm := by
  cases s with
  | alertAll | define => contradiction
  | hideAll | entry => trivial

/-- The canonical text of a program whose statements have canonical forms. -/
theorem Program.canonical_eq {p : Program} (h : ∀ s ∈ p.body, s.HasCanonicalForm) :
    p.canonical = .ok (Text.join ['\n'] (p.body.map Statement.text)) := by
  have hlines : Node.canonicalStatements (p.body.map Statement.toNode) =
      .ok (p.body.map Statement.text) := by
    generalize p.body = statements at h
    induction statements with
    | nil => rfl
    | cons s statements ih =>
      rw [List.map_cons, Node.canonicalStatements,
        Statement.canonicalStatement_eq (h s List.mem_cons_self),
        ih fun s hs => h s (List.mem_cons_of_mem _ hs)]
      rfl
  rw [Program.canonical, Program.toNode, Node.canonical, hlines]
  rfl

/-- The statements of a program that has a canonical text have canonical forms. -/
theorem Program.hasCanonicalForm {p : Program} {text : Text} (h : p.canonical = .ok text) :
    ∀ s ∈ p.body, s.HasCanonicalForm := by
  rw [Program.canonical, Program.toNode, Node.canonical] at h
  cases hlines : Node.canonicalStatements (p.body.map Statement.toNode) with
  | error u => simp [hlines, Except.map] at h
  | ok lines =>
    generalize p.body = statements at hlines
    clear h
    induction statements generalizing lines with
    | nil => simp
    | cons s statements ih =>
      rw [List.map_cons, Node.canonicalStatements] at hlines
      cases hline : s.toNode.canonicalStatement with
      | error u => simp [hline] at hlines
      | ok line =>
        rw [hline] at hlines
        cases hrest : Node.canonicalStatements (statements.map Statement.toNode) with
        | error u => simp [hrest, Except.map] at hlines
        | ok rest =>
          exact List.forall_mem_cons.mpr ⟨Statement.hasCanonicalForm_of_eq hline, ih rest hrest⟩

/-- Whether a source text has a canonical text can be evaluated. -/
theorem exists_canonical_of_toOption {v : Vocabulary} {source file text : Text}
    (h : ((parseSource v source file).toOption.bind fun p => p.canonical.toOption) = some text) :
    ∃ p, parseSource v source file = .ok p ∧ p.canonical = .ok text := by
  cases hparse : parseSource v source file with
  | error error => simp [hparse, Except.toOption] at h
  | ok p =>
    refine ⟨p, rfl, ?_⟩
    cases hp : p.canonical <;> simp_all [Except.toOption]

/-! ## The text of the content -/

/-- A literal that is no number, or a finite number without sign. -/
def Literal.IsPlain (l : Literal) : Prop :=
  ∀ x ∈ l.number?, x.isFinite = true ∧ x.HasSign false

/-- A literal that was read is plain, unless it is an infinite number. -/
theorem Literal.isPlain_of_isRead {l : Literal} (hread : l.IsRead) (hfinite : l.IsFinite) :
    l.IsPlain := by
  intro x hx
  cases l with
  | string s => contradiction
  | number n =>
    cases hx
    exact ⟨hfinite n.value rfl, hread⟩

/-- The text of a field does not show where the field stood. -/
theorem fieldText_bare (f : Field) : fieldText f.bare = fieldText f := by
  rcases f with ⟨key, _ | _⟩ <;> rfl

/-- A window whose second number says nothing has no text for it. -/
theorem windowText_bare {w : Window} (hbefore : (Literal.number w.before).IsPlain)
    (hafter : ∀ after ∈ w.after, (Literal.number after).IsPlain) :
    windowText w.bare = windowText w := by
  rcases w with ⟨span, before, _ | after⟩
  · rfl
  · have hsame : sameNumber after.value before.value = true ↔ after.value = before.value := by
      exact sameNumber_iff (hafter after rfl after.value rfl).2 (hbefore before.value rfl).2
    by_cases heq : after.value = before.value
    · have hbare : Window.bare ⟨span, before, some after⟩ = ⟨.none, before.bare, none⟩ := by
        simp [Window.bare, heq]
      have hvalue : before.bare.value = before.value := rfl
      rw [hbare]
      unfold windowText
      simp only [hvalue]
      rw [if_pos (hsame.mpr heq)]
    · have hbare : Window.bare ⟨span, before, some after⟩ =
          ⟨.none, before.bare, some after.bare⟩ := by
        simp [Window.bare, Option.filter, heq]
      rw [hbare]
      rfl

/-- The text of a modifier does not show where the modifier stood. -/
theorem Modifier.text_bare {m : Modifier} (h : ∀ l ∈ m.literals, l.IsPlain) :
    m.bare.text = m.text := by
  cases m with
  | sync s =>
    cases s with
    | regex s => rfl
    | block b =>
      have hfields : (b.fields.map Field.bare).map fieldText = b.fields.map fieldText := by
        simp [fieldText_bare]
      simp only [Modifier.bare, Sync.bare, Modifier.text, blockText, hfields, List.isEmpty_map]
  | window w =>
    apply windowText_bare (h (.number w.before) (by simp [Modifier.literals]))
    intro after hafter
    exact h (.number after) (by simp [Modifier.literals, Option.mem_def.mp hafter])
  | jump | duration => rfl

/-- The canonical text of a statement depends on its content alone. -/
theorem Statement.text_bare {s : Statement} (h : ∀ l ∈ s.literals, l.IsPlain) :
    s.bare.text = s.text := by
  cases s with
  | hideAll | alertAll | define => rfl
  | entry e =>
    have hmodifiers : ∀ m ∈ e.modifiers, ' ' :: m.bare.text = ' ' :: m.text := by
      intro m hm
      rw [Modifier.text_bare fun l hl => h l (Entry.mem_literals hm hl)]
    simp only [Statement.bare, Statement.text, Entry.modifiers_bare, List.flatMap_map,
      List.flatMap_congr hmodifiers]
    rfl

/-- Changed strings change no number. -/
theorem Statement.isPlain_mapStrings {s : Statement} (h : ∀ l ∈ s.literals, l.IsPlain)
    (f : Text → Text) : ∀ l ∈ (s.mapStrings f).literals, l.IsPlain := by
  rw [Statement.literals_mapStrings]
  intro l hl
  rcases List.mem_map.mp hl with ⟨l', hl', rfl⟩
  cases l' with
  | string s => exact fun x hx => by contradiction
  | number n => exact h _ hl'

/-! ## Statements that were read -/

section

variable {v : Vocabulary}

/-- All literals of a statement that was read are plain if its numbers are finite. -/
theorem Statement.isPlain_literals {s : Statement} (hread : s.IsRead v)
    (hfinite : ∀ x ∈ s.numbers, x.isFinite = true) : ∀ l ∈ s.literals, l.IsPlain :=
  fun l hl => Literal.isPlain_of_isRead (hread.literals l hl)
    (s.forall_mem_numbers.mp hfinite l hl)

/-- Statements with the same content have the same texts. -/
theorem map_text_of_map_bare {xs ys : List Statement}
    (hxs : ∀ s ∈ xs, ∀ l ∈ s.literals, l.IsPlain) (hys : ∀ s ∈ ys, ∀ l ∈ s.literals, l.IsPlain)
    (h : xs.map Statement.bare = ys.map Statement.bare) :
    xs.map Statement.text = ys.map Statement.text := by
  have hbare : ∀ {zs : List Statement}, (∀ s ∈ zs, ∀ l ∈ s.literals, l.IsPlain) →
      zs.map Statement.text = (zs.map Statement.bare).map Statement.text := by
    intro zs hzs
    rw [List.map_map]
    exact List.map_congr_left fun s hs => (Statement.text_bare (hzs s hs)).symm
  rw [hbare hxs, hbare hys, h]

/-- The canonical text is read as the lexemes of the statements. -/
theorem reads_canonical (hv : v.HasWords) {source file text : Text} {p : Program}
    (hparse : parseSource v source file = .ok p) (hcanonical : p.canonical = .ok text) :
    Reads v text (p.body.flatMap (Statement.lexemes v)) := by
  rcases Program.exists_canonical hv (p := p) fun s hs =>
    ⟨(isRead_of_parseSource hv hparse).1 s hs, Program.hasCanonicalForm hcanonical s hs⟩ with
    ⟨text', htext', hreads⟩
  obtain rfl : text = text' := Except.ok.inj (hcanonical.symm.trans htext')
  exact hreads

end

end RaidTimeline
