import RaidTimeline.Proofs.Grammar

/-!
# The content of statements

Two statements say the same if they differ in their places, in the raw texts of their literals,
and in windows that repeat their first number.  The content of a statement is what is left
without these; its literals are listed here too.

Main results:

- Definition {lit}`Statement.bare`: the content of a statement.
- Definitions {lit}`Statement.strings` and {lit}`Statement.numbers`: the values of its literals.
- Definition {lit}`Entry.modifiers`: the modifiers of an entry in canonical order.
- Theorem {lit}`Statement.bare_mapStrings_iff`: when changed strings change the content.
- Theorem {lit}`Entry.bare_ofParts`: modifiers in any order with the same last ones of each kind
  make the same content.
-/

namespace RaidTimeline

/-! ## Content -/

/-- A string without its place and raw text. -/
def StringLiteral.bare (s : StringLiteral) : StringLiteral := ⟨.none, s.value, []⟩

/-- A number without its place and raw text. -/
def NumberLiteral.bare (n : NumberLiteral) : NumberLiteral := ⟨.none, n.value, []⟩

/-- A regular expression without its place and raw text. -/
def RegexLiteral.bare (r : RegexLiteral) : RegexLiteral := ⟨.none, r.pattern, [], r.flags⟩

/-- A literal without its place and raw text. -/
def Literal.bare : Literal → Literal
  | .string s => .string s.bare
  | .number n => .number n.bare

/-- The content of a field. -/
def Field.bare (f : Field) : Field := ⟨f.key, f.value.bare⟩

/-- The content of a synchronisation. -/
def Sync.bare : Sync → Sync
  | .regex s => .regex ⟨.none, s.regex.bare⟩
  | .block b => .block ⟨.none, b.logType, b.fields.map Field.bare⟩

/-- The content of a window; a second number that equals the first says nothing. -/
def Window.bare (w : Window) : Window :=
  ⟨.none, w.before.bare,
    (w.after.filter fun after => after.value ≠ w.before.value).map NumberLiteral.bare⟩

/-- The content of a jump. -/
def Jump.bare (j : Jump) : Jump := ⟨.none, j.time.bare⟩

/-- The content of a duration. -/
def Duration.bare (d : Duration) : Duration := ⟨.none, d.time.bare⟩

/-- The content of a modifier. -/
def Modifier.bare : Modifier → Modifier
  | .sync s => .sync s.bare
  | .window w => .window w.bare
  | .jump j => .jump j.bare
  | .duration d => .duration d.bare

/-- The content of a hidden name. -/
def HideAll.bare (h : HideAll) : HideAll := ⟨.none, h.name.bare⟩

/-- The content of an alert. -/
def AlertAll.bare (a : AlertAll) : AlertAll :=
  ⟨.none, a.name.bare, a.before.map fun b => ⟨.none, b.time.bare⟩,
    a.sound.map fun s => ⟨.none, s.file.bare⟩⟩

/-- The content of a definition. -/
def Define.bare (d : Define) : Define := ⟨.none, d.name.bare, d.file.bare, d.defineType⟩

/-- The content of an entry. -/
def Entry.bare (e : Entry) : Entry where
  span := .none
  time := e.time.bare
  name := e.name.bare
  sync := e.sync.map Sync.bare
  window := e.window.map Window.bare
  duration := e.duration.map Duration.bare
  jump := e.jump.map Jump.bare

/-- The content of a statement: places and raw texts are dropped, and so is the second number of
a window if it equals the first. -/
def Statement.bare : Statement → Statement
  | .hideAll h => .hideAll h.bare
  | .alertAll a => .alertAll a.bare
  | .define d => .define d.bare
  | .entry e => .entry e.bare

/-! ## Literals -/

/-- The strings and numbers in a modifier. -/
def Modifier.literals : Modifier → List Literal
  | .sync (.regex _) => []
  | .sync (.block b) => b.fields.map Field.value
  | .window w => .number w.before :: w.after.toList.map Literal.number
  | .jump j => [.number j.time]
  | .duration d => [.number d.time]

/-- The modifiers of an entry, in the order of the canonical form. -/
def Entry.modifiers (e : Entry) : List Modifier :=
  (e.sync.map Modifier.sync).toList ++ (e.duration.map Modifier.duration).toList
    ++ (e.window.map Modifier.window).toList ++ (e.jump.map Modifier.jump).toList

/-- The strings and numbers in a statement. -/
def Statement.literals : Statement → List Literal
  | .hideAll h => [.string h.name]
  | .alertAll a => .string a.name :: a.before.toList.map (fun b => .number b.time)
      ++ a.sound.toList.map fun s => .string s.file
  | .define d => [.string d.name, .string d.file]
  | .entry e => .number e.time :: .string e.name :: e.modifiers.flatMap Modifier.literals

/-- The value of a literal that is a string. -/
def Literal.string? : Literal → Option Text
  | .string s => some s.value
  | .number _ => none

/-- The value of a literal that is a number. -/
def Literal.number? : Literal → Option Binary64
  | .string _ => none
  | .number n => some n.value

/-- The values of the strings in a statement. -/
def Statement.strings (s : Statement) : List Text := s.literals.filterMap Literal.string?

/-- The values of the numbers in a statement. -/
def Statement.numbers (s : Statement) : List Binary64 := s.literals.filterMap Literal.number?

/-- The strings of a statement are those among its literals. -/
theorem Statement.forall_mem_strings {P : Text → Prop} (s : Statement) :
    (∀ t ∈ s.strings, P t) ↔ ∀ l ∈ s.literals, ∀ t ∈ l.string?, P t := by
  rw [Statement.strings]
  constructor
  · intro h l hl t ht
    exact h t (List.mem_filterMap.mpr ⟨l, hl, ht⟩)
  · intro h t ht
    rcases List.mem_filterMap.mp ht with ⟨l, hl, ht⟩
    exact h l hl t ht

/-- So are its numbers. -/
theorem Statement.forall_mem_numbers {P : Binary64 → Prop} (s : Statement) :
    (∀ x ∈ s.numbers, P x) ↔ ∀ l ∈ s.literals, ∀ x ∈ l.number?, P x := by
  rw [Statement.numbers]
  constructor
  · intro h l hl x hx
    exact h x (List.mem_filterMap.mpr ⟨l, hl, hx⟩)
  · intro h x hx
    rcases List.mem_filterMap.mp hx with ⟨l, hl, hx⟩
    exact h l hl x hx

/-- The literals of a modifier are among those of its entry. -/
theorem Entry.mem_literals {e : Entry} {m : Modifier} (hm : m ∈ e.modifiers) {l : Literal}
    (hl : l ∈ m.literals) : l ∈ (Statement.entry e).literals := by
  simp only [Statement.literals, List.mem_cons, List.mem_flatMap]
  exact Or.inr (Or.inr ⟨m, hm, hl⟩)

/-! ## Changed strings -/

/-- A string with another value. -/
def StringLiteral.map (f : Text → Text) (s : StringLiteral) : StringLiteral :=
  ⟨s.span, f s.value, s.raw⟩

/-- A literal of which a string has another value. -/
def Literal.mapStrings (f : Text → Text) : Literal → Literal
  | .string s => .string (s.map f)
  | .number n => .number n

/-- A field of which a string has another value. -/
def Field.mapStrings (f : Text → Text) (field : Field) : Field :=
  ⟨field.key, field.value.mapStrings f⟩

/-- A synchronisation whose strings have other values. -/
def Sync.mapStrings (f : Text → Text) : Sync → Sync
  | .regex s => .regex s
  | .block b => .block ⟨b.span, b.logType, b.fields.map (Field.mapStrings f)⟩

/-- A modifier whose strings have other values. -/
def Modifier.mapStrings (f : Text → Text) : Modifier → Modifier
  | .sync s => .sync (s.mapStrings f)
  | m => m

/-- An entry whose strings have other values. -/
def Entry.mapStrings (f : Text → Text) (e : Entry) : Entry :=
  { e with name := e.name.map f, sync := e.sync.map (Sync.mapStrings f) }

/-- A statement whose strings have other values. -/
def Statement.mapStrings (f : Text → Text) : Statement → Statement
  | .hideAll h => .hideAll ⟨h.span, h.name.map f⟩
  | .alertAll a => .alertAll { a with
      name := a.name.map f, sound := a.sound.map fun s => ⟨s.span, s.file.map f⟩ }
  | .define d => .define ⟨d.span, d.name.map f, d.file.map f, d.defineType⟩
  | .entry e => .entry (e.mapStrings f)

section

variable {f : Text → Text}

/-- Respelling a string leaves its content alone exactly if it leaves its value alone. -/
theorem StringLiteral.bare_map_iff (s : StringLiteral) :
    (s.map f).bare = s.bare ↔ f s.value = s.value := by
  simp [StringLiteral.bare, StringLiteral.map]

/-- Respelling a literal leaves its content alone exactly if its string, if it has one, stays. -/
theorem Literal.bare_mapStrings_iff (l : Literal) :
    (l.mapStrings f).bare = l.bare ↔ ∀ t ∈ l.string?, f t = t := by
  cases l with
  | string s => simp [Literal.mapStrings, Literal.bare, Literal.string?, s.bare_map_iff]
  | number n => simp [Literal.mapStrings, Literal.bare, Literal.string?]

/-- Respelling a field leaves its content alone exactly if its string, if it has one, stays. -/
theorem Field.bare_mapStrings_iff (field : Field) :
    (field.mapStrings f).bare = field.bare ↔ ∀ t ∈ field.value.string?, f t = t := by
  simp [Field.mapStrings, Field.bare, field.value.bare_mapStrings_iff]

/-- Respelling a modifier leaves its content alone exactly if all of its strings stay. -/
theorem Modifier.bare_mapStrings_iff (m : Modifier) :
    (m.mapStrings f).bare = m.bare ↔ ∀ l ∈ m.literals, ∀ t ∈ l.string?, f t = t := by
  cases m with
  | sync s =>
    cases s with
    | regex s => simp [Modifier.mapStrings, Sync.mapStrings, Modifier.literals]
    | block b =>
      simp [Modifier.mapStrings, Sync.mapStrings, Modifier.bare, Sync.bare, Modifier.literals,
        Field.bare_mapStrings_iff]
  | window w =>
    obtain ⟨span, before, _ | after⟩ := w <;>
      simp [Modifier.mapStrings, Modifier.literals, Literal.string?]
  | jump j => simp [Modifier.mapStrings, Modifier.literals, Literal.string?]
  | duration d => simp [Modifier.mapStrings, Modifier.literals, Literal.string?]

end

/-! ## The modifiers of an entry -/

theorem lastOf_map {α β α' β' : Type} {pick : α → Option β} {pick' : α' → Option β'} {f : α → α'}
    {g : β → β'} (h : ∀ x, pick' (f x) = (pick x).map g) (xs : List α) :
    lastOf pick' (xs.map f) = (lastOf pick xs).map g := by
  have hpick : pick' ∘ f = fun x => (pick x).map g := funext h
  rw [lastOf, lastOf, List.filterMap_map, hpick, ← List.map_filterMap, List.getLast?_map]

namespace Entry

variable (e : Entry)

/-- The modifiers of an entry are its synchronisation, duration, window and jump. -/
theorem lastOf_modifiers :
    lastOf Modifier.sync? e.modifiers = e.sync ∧
      lastOf Modifier.window? e.modifiers = e.window ∧
        lastOf Modifier.duration? e.modifiers = e.duration ∧
          lastOf Modifier.jump? e.modifiers = e.jump := by
  rcases e with ⟨span, time, name, sync, window, duration, jump⟩
  cases sync <;> cases window <;> cases duration <;> cases jump <;> exact ⟨rfl, rfl, rfl, rfl⟩

theorem modifiers_bare : e.bare.modifiers = e.modifiers.map Modifier.bare := by
  rcases e with ⟨span, time, name, sync, window, duration, jump⟩
  cases sync <;> cases window <;> cases duration <;> cases jump <;> rfl

theorem modifiers_mapStrings (f : Text → Text) :
    (e.mapStrings f).modifiers = e.modifiers.map (Modifier.mapStrings f) := by
  rcases e with ⟨span, time, name, sync, window, duration, jump⟩
  cases sync <;> cases window <;> cases duration <;> cases jump <;> rfl

/-- An entry has no other content than its time, its name, and its modifiers. -/
theorem bare_eq_iff {d : Entry} : d.bare = e.bare ↔ d.time.bare = e.time.bare ∧
    d.name.bare = e.name.bare ∧ d.modifiers.map Modifier.bare = e.modifiers.map Modifier.bare := by
  constructor
  · intro h
    rw [← modifiers_bare, ← modifiers_bare, h]
    exact ⟨congrArg Entry.time h, congrArg Entry.name h, rfl⟩
  · rintro ⟨htime, hname, hmodifiers⟩
    rw [← modifiers_bare, ← modifiers_bare] at hmodifiers
    have hd := d.bare.lastOf_modifiers
    rw [hmodifiers] at hd
    rcases e.bare.lastOf_modifiers with ⟨hsync, hwindow, hduration, hjump⟩
    rw [hsync, hwindow, hduration, hjump] at hd
    rcases hd with ⟨hsync, hwindow, hduration, hjump⟩
    simp only [Entry.bare] at hsync hwindow hduration hjump ⊢
    rw [htime, hname, hsync, hwindow, hduration, hjump]

/-- Modifiers with the content of those of an entry make an entry with its content. -/
theorem bare_ofParts {span : Span} {time name : Token} {parts : List Modifier}
    (htime : time.toNumber.bare = e.time.bare) (hname : name.toString.bare = e.name.bare)
    (hparts : parts.map Modifier.bare = e.modifiers.map Modifier.bare) :
    (Entry.ofParts span time name parts).bare = e.bare := by
  have hlast : ∀ {β : Type} (pick : Modifier → Option β) (bare : β → β),
      (∀ m : Modifier, pick m.bare = (pick m).map bare) →
        (lastOf pick parts).map bare = (lastOf pick e.modifiers).map bare := by
    intro β pick bare h
    rw [← lastOf_map h, ← lastOf_map h, hparts]
  have hsync := hlast Modifier.sync? Sync.bare fun m => by cases m <;> rfl
  have hwindow := hlast Modifier.window? Window.bare fun m => by cases m <;> rfl
  have hduration := hlast Modifier.duration? Duration.bare fun m => by cases m <;> rfl
  have hjump := hlast Modifier.jump? Jump.bare fun m => by cases m <;> rfl
  rcases e.lastOf_modifiers with ⟨esync, ewindow, eduration, ejump⟩
  rw [esync] at hsync
  rw [ewindow] at hwindow
  rw [eduration] at hduration
  rw [ejump] at hjump
  simp only [Entry.ofParts, Entry.bare, htime, hname, hsync, hwindow, hduration, hjump]

end Entry

theorem Modifier.literals_mapStrings (f : Text → Text) (m : Modifier) :
    (m.mapStrings f).literals = m.literals.map (Literal.mapStrings f) := by
  rcases m with (s | b) | ⟨span, before, _ | after⟩ | j | d
  · rfl
  · simp [Modifier.mapStrings, Sync.mapStrings, Modifier.literals, Field.mapStrings]
  all_goals rfl

/-- Changed strings change the literals one by one. -/
theorem Statement.literals_mapStrings (f : Text → Text) (s : Statement) :
    (s.mapStrings f).literals = s.literals.map (Literal.mapStrings f) := by
  cases s with
  | hideAll | define => rfl
  | alertAll a =>
    rcases a with ⟨span, name, _ | before, _ | sound⟩ <;> rfl
  | entry e =>
    simp only [Statement.mapStrings, Statement.literals, Entry.modifiers_mapStrings,
      List.flatMap_map, Modifier.literals_mapStrings, List.map_cons, List.map_flatMap]
    rfl

/-- Changed strings leave the content as it is exactly if none of them changes. -/
theorem Statement.bare_mapStrings_iff {f : Text → Text} (s : Statement) :
    (s.mapStrings f).bare = s.bare ↔ ∀ t ∈ s.strings, f t = t := by
  rw [Statement.forall_mem_strings]
  cases s with
  | hideAll h =>
    simp [Statement.mapStrings, Statement.bare, HideAll.bare, Statement.literals,
      Literal.string?, h.name.bare_map_iff]
  | alertAll a =>
    rcases a with ⟨span, name, before, sound⟩
    cases before <;> cases sound <;>
      simp [Statement.mapStrings, Statement.bare, AlertAll.bare, Statement.literals,
        Literal.string?, StringLiteral.bare_map_iff]
  | define d =>
    simp [Statement.mapStrings, Statement.bare, Define.bare, Statement.literals,
      Literal.string?, StringLiteral.bare_map_iff]
  | entry e =>
    have hname : (e.mapStrings f).name.bare = e.name.bare ↔ f e.name.value = e.name.value :=
      e.name.bare_map_iff
    have htime : (e.mapStrings f).time = e.time := rfl
    simp only [Statement.mapStrings, Statement.bare, Statement.entry.injEq, Entry.bare_eq_iff,
      hname, htime, Entry.modifiers_mapStrings, List.map_map, List.map_inj_left,
      Function.comp_apply, Modifier.bare_mapStrings_iff, Statement.literals, List.mem_cons,
      List.mem_flatMap, true_and]
    constructor
    · rintro ⟨hname, hmodifiers⟩ l (rfl | rfl | ⟨m, hm, hl⟩) t ht
      · simp [Literal.string?] at ht
      · simp only [Literal.string?, Option.mem_some_iff] at ht
        rwa [← ht]
      · exact hmodifiers m hm l hl t ht
    · intro h
      refine ⟨h (.string e.name) (Or.inr (Or.inl rfl)) e.name.value rfl, ?_⟩
      intro m hm l hl t ht
      exact h l (Or.inr (Or.inr ⟨m, hm, hl⟩)) t ht

/-- The content of a modifier has the same numbers. -/
theorem Modifier.mem_numbers_bare (m : Modifier) (x : Binary64) :
    x ∈ m.bare.literals.filterMap Literal.number? ↔
      x ∈ m.literals.filterMap Literal.number? := by
  cases m with
  | sync s =>
    cases s with
    | regex s => rfl
    | block b =>
      have hfield : Literal.number? ∘ (Field.value ∘ Field.bare) =
          Literal.number? ∘ Field.value := by
        funext f
        rcases f with ⟨key, _ | _⟩ <;> rfl
      simp only [Modifier.bare, Sync.bare, Modifier.literals, List.map_map, List.filterMap_map,
        hfield]
  | window w =>
    rcases w with ⟨span, before, _ | after⟩
    · rfl
    · by_cases heq : after.value = before.value
      · simp [Modifier.bare, Window.bare, Modifier.literals, NumberLiteral.bare, Literal.number?,
          heq]
      · have hkept : (some after).filter (fun a => decide (a.value ≠ before.value)) =
            some after := by
          simp [Option.filter, heq]
        rw [Modifier.bare, Window.bare, hkept]
        rfl
  | jump j => rfl
  | duration d => rfl

/-- The content of a statement has the same numbers. -/
theorem Statement.mem_numbers_bare (s : Statement) (x : Binary64) :
    x ∈ s.bare.numbers ↔ x ∈ s.numbers := by
  cases s with
  | hideAll h => rfl
  | alertAll a =>
    rcases a with ⟨span, name, before, sound⟩
    cases before <;> cases sound <;> rfl
  | define d => rfl
  | entry e =>
    have htime : e.bare.time.value = e.time.value := rfl
    simp only [Statement.bare, Statement.numbers, Statement.literals, List.filterMap_cons,
      Literal.number?, htime, List.filterMap_flatMap, Entry.modifiers_bare, List.flatMap_map,
      List.mem_cons, List.mem_flatMap, Modifier.mem_numbers_bare]

end RaidTimeline
