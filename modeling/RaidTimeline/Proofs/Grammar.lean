import RaidTimeline.Timeline.Draft
import RaidTimeline.Token.Vocabulary

/-!
# The grammar of timelines

A timeline is a sequence of statements, and every construct is a sequence of significant tokens.
The grammar says which tokens make up a construct, and what the construct is: it spans all its
tokens, and of several modifiers of one kind the last counts.

Main results:

- Definitions {lit}`IsSlots`, {lit}`IsModifier` and {lit}`IsStatement`: the constructs.
- Definition {lit}`IsTimeline`: statements up to the end of the text.
- Definition {lit}`Vocabulary.SparesStatements`: tables in which no log line type begins a
  statement.
-/

namespace RaidTimeline

/-! ## Tokens and sequences -/

@[simp]
theorem Token.holds_iff (t : Token) (kind : Kind) (value : Text) :
    t.holds kind value = true ↔ t.kind = kind ∧ t.value = value := by
  simp [Token.holds]

/-- The span from the first of several tokens to the last one. -/
def spanOf (ts : List Token) : Span :=
  match ts.head?, ts.getLast? with
  | some first, some last => first.span.through last.span
  | _, _ => .none

/-- More tokens move the end of the span. -/
theorem spanOf_append {ts us : List Token} (hts : ts ≠ []) (hus : us ≠ []) :
    spanOf (ts ++ us) = (spanOf ts).through (spanOf us) := by
  rcases List.exists_cons_of_ne_nil hts with ⟨first, ts, rfl⟩
  rcases List.exists_cons_of_ne_nil hus with ⟨next, us, rfl⟩
  simp [spanOf, List.getLast?_cons, Span.through]

/-- Any number of constructs of one kind, one behind the other. -/
inductive Many {α : Type} (IsItem : List Token → α → Prop) : List Token → List α → Prop where
  | nil : Many IsItem [] []
  | concat {ts us : List Token} {xs : List α} {x : α} :
      Many IsItem ts xs → IsItem us x → Many IsItem (ts ++ us) (xs ++ [x])

/-- The last of several parts that is of a kind. -/
def lastOf {α β : Type} (pick : α → Option β) (parts : List α) : Option β :=
  (parts.filterMap pick).getLast?

@[simp]
theorem lastOf_nil {α β : Type} (pick : α → Option β) : lastOf pick [] = none :=
  rfl

/-- The last part counts if it is of the kind. -/
@[simp]
theorem lastOf_concat {α β : Type} (pick : α → Option β) (parts : List α) (part : α) :
    lastOf pick (parts ++ [part]) = (pick part).or (lastOf pick parts) := by
  cases h : pick part <;> simp [lastOf, h]

/-! ## Structured synchronisations -/

/-- A field: a key, a colon, and a string or a number. -/
inductive IsField : List Token → Field → Prop where
  | string {key colon value : Token} :
      key.kind = .identifier → colon.holds .punctuator [':'] → value.kind = .string →
        IsField [key, colon, value] ⟨key.value, .string value.toString⟩
  | number {key colon value : Token} :
      key.kind = .identifier → colon.holds .punctuator [':'] → value.kind = .number →
        IsField [key, colon, value] ⟨key.value, .number value.toNumber⟩

/-- A slot is empty or holds a field. -/
inductive IsSlot : List Token → List Field → Prop where
  | empty : IsSlot [] []
  | field {ts : List Token} {f : Field} : IsField ts f → IsSlot ts [f]

/-- A list of slots with commas between them. -/
inductive IsSlots : List Token → List Field → Prop where
  | first {ts : List Token} {fs : List Field} : IsSlot ts fs → IsSlots ts fs
  | next {ts us : List Token} {comma : Token} {fs gs : List Field} :
      IsSlots ts fs → comma.holds .punctuator [','] → IsSlot us gs →
        IsSlots (ts ++ comma :: us) (fs ++ gs)

/-! ## Modifiers -/

/-- A modifier of an entry: its keyword decides what follows, and the words of log line types
begin structured synchronisations only. -/
inductive IsModifier (logTypes : List Text) : List Token → Modifier → Prop where
  | block {keyword opening closing : Token} {ts : List Token} {fs : List Field} :
      keyword.kind = .keyword → keyword.value ∈ logTypes → opening.holds .brace ['\x7b'] →
        IsSlots ts fs → closing.holds .brace ['\x7d'] →
          IsModifier logTypes (keyword :: opening :: (ts ++ [closing]))
            (.sync (.block
              ⟨spanOf (keyword :: opening :: (ts ++ [closing])), keyword.value, fs⟩))
  | regex {keyword pattern : Token} :
      keyword.holds .keyword "sync".toList → keyword.value ∉ logTypes →
        pattern.kind = .regex →
          IsModifier logTypes [keyword, pattern]
            (.sync (.regex ⟨spanOf [keyword, pattern], pattern.toRegex⟩))
  | window {keyword before : Token} :
      keyword.holds .keyword "window".toList → keyword.value ∉ logTypes →
        before.kind = .number →
          IsModifier logTypes [keyword, before]
            (.window ⟨spanOf [keyword, before], before.toNumber, none⟩)
  | windowAfter {keyword before comma after : Token} :
      keyword.holds .keyword "window".toList → keyword.value ∉ logTypes →
        before.kind = .number → comma.holds .punctuator [','] → after.kind = .number →
          IsModifier logTypes [keyword, before, comma, after]
            (.window
              ⟨spanOf [keyword, before, comma, after], before.toNumber, some after.toNumber⟩)
  | jump {keyword time : Token} :
      keyword.holds .keyword "jump".toList → keyword.value ∉ logTypes → time.kind = .number →
        IsModifier logTypes [keyword, time] (.jump ⟨spanOf [keyword, time], time.toNumber⟩)
  | duration {keyword time : Token} :
      keyword.holds .keyword "duration".toList → keyword.value ∉ logTypes →
        time.kind = .number →
          IsModifier logTypes [keyword, time] (.duration ⟨spanOf [keyword, time], time.toNumber⟩)

namespace Modifier

/-- The synchronisation that a modifier is. -/
def sync? : Modifier → Option Sync
  | .sync s => some s
  | _ => none

/-- The window that a modifier is. -/
def window? : Modifier → Option Window
  | .window w => some w
  | _ => none

/-- The jump that a modifier is. -/
def jump? : Modifier → Option Jump
  | .jump j => some j
  | _ => none

/-- The duration that a modifier is. -/
def duration? : Modifier → Option Duration
  | .duration d => some d
  | _ => none

end Modifier

/-- The parts that may follow the name of an alert. -/
inductive AlertPart where
  | before (part : Before)
  | sound (part : Sound)

namespace AlertPart

/-- The lead time that a part is. -/
def before? : AlertPart → Option Before
  | .before b => some b
  | .sound _ => none

/-- The sound that a part is. -/
def sound? : AlertPart → Option Sound
  | .sound s => some s
  | .before _ => none

end AlertPart

/-- A part of an alert: a lead time or a sound. -/
inductive IsAlertPart : List Token → AlertPart → Prop where
  | before {keyword time : Token} :
      keyword.holds .keyword "before".toList → time.kind = .number →
        IsAlertPart [keyword, time] (.before ⟨spanOf [keyword, time], time.toNumber⟩)
  | sound {keyword file : Token} :
      keyword.holds .keyword "sound".toList → file.kind = .string →
        IsAlertPart [keyword, file] (.sound ⟨spanOf [keyword, file], file.toString⟩)

/-! ## Statements -/

/-- The entry of a time, a name and modifiers. -/
def Entry.ofParts (span : Span) (time name : Token) (parts : List Modifier) : Entry where
  span := span
  time := time.toNumber
  name := name.toString
  sync := lastOf Modifier.sync? parts
  window := lastOf Modifier.window? parts
  duration := lastOf Modifier.duration? parts
  jump := lastOf Modifier.jump? parts

/-- The alert of a name and parts. -/
def AlertAll.ofParts (span : Span) (name : Token) (parts : List AlertPart) : AlertAll where
  span := span
  name := name.toString
  before := lastOf AlertPart.before? parts
  sound := lastOf AlertPart.sound? parts

/-- A statement of a timeline. -/
inductive IsStatement (logTypes : List Text) : List Token → Statement → Prop where
  | hideAll {keyword name : Token} :
      keyword.holds .keyword "hideall".toList → name.kind = .string →
        IsStatement logTypes [keyword, name]
          (.hideAll ⟨spanOf [keyword, name], name.toString⟩)
  | alertAll {keyword name : Token} {ts : List Token} {parts : List AlertPart} :
      keyword.holds .keyword "alertall".toList → name.kind = .string →
        Many IsAlertPart ts parts →
          IsStatement logTypes (keyword :: name :: ts)
            (.alertAll (.ofParts (spanOf (keyword :: name :: ts)) name parts))
  | define {keyword defineType name file : Token} :
      keyword.holds .keyword "define".toList →
        defineType.holds .identifier "alertsound".toList → name.kind = .string →
          file.kind = .string →
            IsStatement logTypes [keyword, defineType, name, file]
              (.define ⟨spanOf [keyword, defineType, name, file], name.toString, file.toString,
                defineType.value⟩)
  | entry {time name : Token} {ts : List Token} {parts : List Modifier} :
      time.kind = .number → name.kind = .string → Many (IsModifier logTypes) ts parts →
        IsStatement logTypes (time :: name :: ts)
          (.entry (.ofParts (spanOf (time :: name :: ts)) time name parts))

/-- A timeline: a sequence of statements and the end of the text behind it. -/
def IsTimeline (logTypes : List Text) (ts : List Token) (statements : List Statement) : Prop :=
  ∃ us last, ts = us ++ [last] ∧ last.kind = .eof ∧ Many (IsStatement logTypes) us statements

/-- The keyword that a statement begins with. -/
def Statement.keyword? : Statement → Option Text
  | .hideAll _ => some "hideall".toList
  | .alertAll _ => some "alertall".toList
  | .define _ => some "define".toList
  | .entry _ => none

/-- No log line type of a vocabulary is a word that begins a statement. -/
def Vocabulary.SparesStatements (v : Vocabulary) : Prop :=
  ∀ word ∈ v.logTypes, word ∉ ["hideall", "alertall", "define"].map String.toList

instance (v : Vocabulary) : Decidable v.SparesStatements :=
  inferInstanceAs (Decidable (∀ word ∈ v.logTypes, word ∉ _))

/-- In the usual tables the words that begin statements are no log line types. -/
theorem Vocabulary.sparesStatements_default : Vocabulary.default.SparesStatements := by
  decide +kernel

/-- One statement may follow another: the keyword behind an entry is not one of its
synchronisations. -/
def MayFollow (logTypes : List Text) : Statement → Statement → Prop
  | .entry _, next => ∀ word ∈ next.keyword?, word ∉ logTypes
  | _, _ => True

/-! ## Where constructs begin -/

/-- A modifier begins with a keyword. -/
theorem IsModifier.exists_keyword {logTypes : List Text} {ts : List Token} {m : Modifier}
    (h : IsModifier logTypes ts m) : ∃ keyword rest, ts = keyword :: rest ∧
      keyword.kind = .keyword := by
  cases h <;> simp_all

/-- A statement begins with a number or with its keyword. -/
theorem IsStatement.exists_first {logTypes : List Text} {ts : List Token} {s : Statement}
    (h : IsStatement logTypes ts s) : ∃ first rest, ts = first :: rest ∧
      (first.kind = .number ∧ s.keyword? = none ∨
        first.kind = .keyword ∧ s.keyword? = some first.value) := by
  cases h <;> simp_all [Statement.keyword?]

/-- Statements may follow each other in any order where log line types do not begin them. -/
theorem Vocabulary.SparesStatements.mayFollow {v : Vocabulary} (hv : v.SparesStatements)
    (s next : Statement) : MayFollow v.logTypes s next := by
  cases s with
  | entry e =>
    intro word hword hmem
    apply hv word hmem
    cases next <;> simp_all [Statement.keyword?]
  | hideAll | alertAll | define => trivial

end RaidTimeline
