import RaidTimeline.Proofs.Parsed

/-!
# The parts of canonical texts

The canonical text of a modifier is a word, a blank, and what is behind it: a pattern between
slashes, fields between braces, or one or two numbers.

Main results:

- Definitions {lit}`Modifier.word` and {lit}`Modifier.behindWord`: the parts of the text of a
  modifier.
- Theorem {lit}`Modifier.text_eq`: the text is made up of its parts.
-/

namespace RaidTimeline

/-- A text that is a word, a blank and more, and what follows. -/
theorem append_of_blank {s w u : Text} (h : s = w ++ ' ' :: u) (t : Text) :
    s ++ t = w ++ ' ' :: (u ++ t) := by
  rw [h, List.append_assoc, List.cons_append]

/-! ## Synchronisations -/

/-- A pattern between slashes. -/
def patternText (r : RegexLiteral) : Text := '/' :: (escapeRegex r.pattern ++ ['/'])

theorem regexText_eq (s : RegexSync) :
    regexText s = "sync".toList ++ ' ' :: patternText s.regex := by
  have hword : "sync /".toList = "sync".toList ++ ' ' :: ['/'] := by decide +kernel
  exact (List.append_assoc ..).trans (append_of_blank hword _)

/-- The canonical text of a literal. -/
def Literal.text : Literal → Text
  | .string s => stringText s
  | .number n => numberText n.value

theorem fieldText_eq (f : Field) : fieldText f = f.key ++ ':' :: ' ' :: f.value.text := by
  rcases f with ⟨key, _ | _⟩ <;> rfl

/-- The fields of a structured synchronisation between braces. -/
def bracesText (fs : List Field) : Text :=
  if fs.isEmpty then ['\x7b', '\x7d']
  else '\x7b' :: ' ' :: (Text.join [',', ' '] (fs.map fieldText) ++ [' ', '\x7d'])

theorem blockText_eq (b : BlockSync) :
    blockText b = b.logType ++ ' ' :: bracesText b.fields := by
  by_cases hempty : b.fields = [] <;> simp [blockText, bracesText, hempty]

/-! ## Windows -/

/-- The second number of a window, unless it repeats the first. -/
def Window.second (w : Window) : Option NumberLiteral :=
  w.after.filter fun after => after.value ≠ w.before.value

/-- The numbers of a window behind its keyword. -/
def Window.numbersText (w : Window) : Text :=
  numberText w.before.value ++ w.second.toList.flatMap fun n => ',' :: numberText n.value

/-- What is known of the numbers of a window that was read. -/
def Window.HasNoSign (w : Window) : Prop :=
  w.before.value.HasSign false ∧ ∀ after ∈ w.after, after.value.HasSign false

/-- The numbers of a window that was read have no sign. -/
theorem Window.hasNoSign {w : Window} (h : ∀ l ∈ (Modifier.window w).literals, l.IsRead) :
    w.HasNoSign := by
  refine ⟨h (.number w.before) (by simp [Modifier.literals]), ?_⟩
  intro after hafter
  exact h (.number after) (by simp [Modifier.literals, Option.mem_def.mp hafter])

theorem Window.HasNoSign.second {w : Window} (h : w.HasNoSign) :
    ∀ n ∈ w.second, n.value.HasSign false :=
  fun n hn => h.2 n (Option.mem_filter_iff.mp hn).1

/-- What a window has for its second number, it has for a number that says something new. -/
theorem Window.elim_after {w : Window} (h : w.HasNoSign) {α : Type}
    (f : NumberLiteral → List α) :
    (w.after.elim [] fun after =>
      if sameNumber after.value w.before.value then [] else f after) =
        w.second.toList.flatMap f := by
  rw [Window.second]
  cases hcases : w.after with
  | none => rfl
  | some after =>
    have hsame := sameNumber_iff (h.2 after hcases) h.1
    by_cases heq : after.value = w.before.value
    · rw [Option.elim_some, if_pos (hsame.mpr heq)]
      simp [Option.filter, heq]
    · simp [mt hsame.mp heq, Option.filter, heq]

/-- A window of numbers without sign is spelt as a keyword and these numbers. -/
theorem windowText_eq {w : Window} (h : w.HasNoSign) :
    windowText w = "window ".toList ++ w.numbersText := by
  rw [Window.numbersText, ← Window.elim_after h, ← List.append_assoc]
  rcases w with ⟨span, before, _ | after⟩ <;> rfl

/-! ## Modifiers -/

namespace Modifier

/-- The canonical text of a modifier. -/
def text : Modifier → Text
  | .sync (.regex s) => regexText s
  | .sync (.block b) => blockText b
  | .window w => windowText w
  | .jump j => jumpText j
  | .duration d => durationText d

/-- The word that a modifier begins with. -/
def word : Modifier → Text
  | .sync (.regex _) => "sync".toList
  | .sync (.block b) => b.logType
  | .window _ => "window".toList
  | .jump _ => "jump".toList
  | .duration _ => "duration".toList

/-- The canonical text of a modifier behind its word. -/
def behindWord : Modifier → Text
  | .sync (.regex s) => patternText s.regex
  | .sync (.block b) => bracesText b.fields
  | .window w => w.numbersText
  | .jump j => numberText j.time.value
  | .duration d => numberText d.time.value

/-- The canonical text of a modifier is its word, a blank, and what is behind it. -/
theorem text_eq {m : Modifier} (h : ∀ l ∈ m.literals, l.IsRead) :
    m.text = m.word ++ ' ' :: m.behindWord := by
  cases m with
  | sync s =>
    cases s with
    | regex s => exact regexText_eq s
    | block b => exact blockText_eq b
  | window w =>
    have hword : "window ".toList = "window".toList ++ [' '] := by decide +kernel
    rw [text, windowText_eq (Window.hasNoSign h), hword, List.append_assoc]
    rfl
  | jump j =>
    have hword : "jump ".toList = "jump".toList ++ [' '] := by decide +kernel
    exact append_of_blank hword _
  | duration d =>
    have hword : "duration ".toList = "duration".toList ++ [' '] := by decide +kernel
    exact append_of_blank hword _

/-- The word that begins a modifier is a name. -/
theorem isName_word {v : Vocabulary} {m : Modifier} (h : m.HasNames v) : IsName m.word := by
  have hwords : IsName "sync".toList ∧ IsName "window".toList ∧ IsName "jump".toList ∧
      IsName "duration".toList := by
    decide +kernel
  rcases hwords with ⟨hsync, hwindow, hjump, hduration⟩
  rcases m with (s | b) | w | j | d
  exacts [hsync, h.2.1, hwindow, hjump, hduration]

end Modifier

end RaidTimeline
