import Mathlib.Data.List.Infix
import RaidTimeline.Token.Cursor

/-!
# Escapes

Where a delimited literal ends depends on its escapes, and so does what it denotes.  This module
says which bodies close, which texts the bodies denote, and what is left of a text that is escaped
and read again.

Main results:

- Definition {lit}`ClosesAt`: the bodies of strings between two quotes.
- Definition {lit}`IsDecoded`: the texts that such bodies denote.
- Theorem {lit}`IsSpelling.closesAt`: these texts, spelt with escapes, are such bodies.
- Theorem {lit}`escapeString_inj`: these texts are escaped to different texts.
- Theorem {lit}`unescapeString_escapeString_iff`: which of them survive.
- Definition {lit}`IsRegexBody`: the bodies of regular expressions between slashes.
- Theorem {lit}`IsPattern.unescapeRegex_escapeRegex`: all patterns survive.
-/

namespace RaidTimeline

/-! ## Bodies of strings -/

/-- A quote behind a text closes it: no line ends in the text, every quote in it and not the one
behind it follows a backslash.  {lit}`escaped` says whether a backslash stands in front. -/
def ClosesAt (quote : Char) : Bool → Text → Prop
  | escaped, [] => escaped = false
  | escaped, c :: body =>
      c ≠ '\n' ∧ (c = quote → escaped = true) ∧ ClosesAt quote (c == '\\') body

/-- The quote that closes a text ends a body. -/
theorem closingLength?_eq_some {quote : Char} {escaped : Bool} {text : Text} {n : Nat}
    (hquote : quote ≠ '\n') : closingLength? quote escaped text = some n ↔
      ∃ body rest, text = body ++ quote :: rest ∧ ClosesAt quote escaped body ∧
        n = body.length + 1 := by
  induction text generalizing escaped n with
  | nil => simp [closingLength?]
  | cons c text ih =>
    rw [closingLength?]
    by_cases hline : c = '\n'
    · rw [if_pos hline]
      constructor
      · intro h
        contradiction
      · rintro ⟨body, rest, htext, hcloses, -⟩
        cases body with
        | nil => exact absurd ((List.cons.inj htext).1.symm.trans hline) hquote
        | cons d body => exact absurd ((List.cons.inj htext).1.symm.trans hline) hcloses.1
    · rw [if_neg hline]
      by_cases hclose : c = quote ∧ escaped = false
      · rw [if_pos hclose]
        constructor
        · intro h
          cases h
          exact ⟨[], text, by rw [hclose.1, List.nil_append], hclose.2, rfl⟩
        · rintro ⟨body, rest, htext, hcloses, rfl⟩
          cases body with
          | nil => rfl
          | cons d body =>
            have hd : d = quote := (List.cons.inj htext).1.symm.trans hclose.1
            have hescaped := hcloses.2.1 hd
            rw [hclose.2] at hescaped
            contradiction
      · rw [if_neg hclose]
        constructor
        · intro h
          rcases Option.map_eq_some_iff.mp h with ⟨m, hm, rfl⟩
          rcases ih.mp hm with ⟨body, rest, rfl, hcloses, rfl⟩
          refine ⟨c :: body, rest, rfl, ⟨hline, ?_, hcloses⟩, rfl⟩
          intro hc
          simpa [hc] using hclose
        · rintro ⟨body, rest, htext, hcloses, rfl⟩
          cases body with
          | nil => exact absurd ⟨(List.cons.inj htext).1, hcloses⟩ hclose
          | cons d body =>
            rcases List.cons.inj htext with ⟨rfl, rfl⟩
            rw [ih.mpr ⟨body, rest, rfl, hcloses.2.2, rfl⟩]
            rfl

/-- The body of a string does not end in a backslash. -/
theorem ClosesAt.getLast?_ne {quote : Char} {escaped : Bool} {body : Text}
    (h : ClosesAt quote escaped body) : body.getLast? ≠ some '\\' := by
  induction body generalizing escaped with
  | nil => simp
  | cons c body ih =>
    cases body with
    | nil => simpa [ClosesAt] using h.2.2
    | cons d body => simpa using ih h.2.2

/-! ## What strings denote -/

/-- A letter that a backslash would turn into a line end or a tab. -/
def IsEscapeLetter (c : Char) : Prop := c = 'n' ∨ c = 't' ∨ c = 'r'

instance (c : Char) : Decidable (IsEscapeLetter c) :=
  inferInstanceAs (Decidable (c = 'n' ∨ c = 't' ∨ c = 'r'))

/-- The texts that strings denote: a backslash stands in front of a character, and not of one of
the letters that it would have been read with. -/
def IsDecoded : Text → Prop
  | [] => True
  | [c] => c ≠ '\\'
  | c :: d :: tail => (c = '\\' → ¬IsEscapeLetter d) ∧ IsDecoded (d :: tail)

theorem IsDecoded.tail {c : Char} {t : Text} (h : IsDecoded (c :: t)) : IsDecoded t := by
  cases t with
  | nil => trivial
  | cons d t => exact h.2

/-- A character that is no backslash may stand in front of any text. -/
theorem IsDecoded.cons {c : Char} {t : Text} (hc : c ≠ '\\') (h : IsDecoded t) :
    IsDecoded (c :: t) := by
  cases t with
  | nil => exact hc
  | cons d t => exact ⟨fun heq => absurd heq hc, h⟩

/-- An escape denotes neither a backslash nor one of those letters. -/
theorem escapedChar?_ne {c e : Char} (h : escapedChar? c = some e) :
    e ≠ '\\' ∧ ¬IsEscapeLetter e := by
  unfold escapedChar? at h
  repeat' split at h
  all_goals
    first
    | contradiction
    | (cases h; decide)

/-- A letter is not left behind a backslash. -/
theorem not_isEscapeLetter_of_escapedChar? {c : Char} (h : escapedChar? c = none) :
    ¬IsEscapeLetter c := by
  rintro (rfl | rfl | rfl) <;> contradiction

@[simp]
theorem unescapeString_cons {c : Char} (hc : c ≠ '\\') (t : Text) :
    unescapeString (c :: t) = c :: unescapeString t := by
  cases t with
  | nil => rfl
  | cons d t => simp [unescapeString, hc]

/-- An escape is read as the character that it stands for. -/
theorem unescapeString_escape {c e : Char} (h : escapedChar? c = some e) (t : Text) :
    unescapeString ('\\' :: c :: t) = e :: unescapeString t := by
  simp [unescapeString, h]

/-- A backslash that begins no escape is read as it is. -/
theorem unescapeString_backslash {c : Char} (h : escapedChar? c = none) (t : Text) :
    unescapeString ('\\' :: c :: t) = '\\' :: unescapeString (c :: t) := by
  simp [unescapeString, h]

/-- A text that goes on with no letter denotes one that does not either. -/
theorem exists_unescapeString_eq_cons {c : Char} (hc : ¬IsEscapeLetter c) (t : Text) :
    ∃ d u, unescapeString (c :: t) = d :: u ∧ ¬IsEscapeLetter d := by
  by_cases hbackslash : c = '\\'
  · subst hbackslash
    cases t with
    | nil => exact ⟨'\\', [], rfl, hc⟩
    | cons d t =>
      cases hd : escapedChar? d with
      | some e => exact ⟨e, _, unescapeString_escape hd t, (escapedChar?_ne hd).2⟩
      | none => exact ⟨'\\', _, unescapeString_backslash hd t, hc⟩
  · exact ⟨c, _, unescapeString_cons hbackslash t, hc⟩

/-- What does not end in a backslash denotes a decoded text. -/
theorem isDecoded_unescapeString {body : Text} (h : body.getLast? ≠ some '\\') :
    IsDecoded (unescapeString body) := by
  fun_induction unescapeString body with
  | case1 => trivial
  | case2 c => simpa [IsDecoded] using h
  | case3 d tail e he ih =>
    apply IsDecoded.cons (escapedChar?_ne he).1
    apply ih
    intro htail
    apply h
    rw [List.getLast?_cons_of_ne_nil (List.cons_ne_nil d tail), List.getLast?_cons, htail]
    rfl
  | case4 d tail he ih =>
    rw [List.getLast?_cons_cons] at h
    obtain ⟨c, u, hdecoded, hletter⟩ :=
      exists_unescapeString_eq_cons (not_isEscapeLetter_of_escapedChar? he) tail
    have hrest := ih h
    rw [hdecoded] at hrest ⊢
    exact ⟨fun _ => hletter, hrest⟩
  | case5 c d tail hc ih =>
    rw [List.getLast?_cons_cons] at h
    exact IsDecoded.cons hc (ih h)

/-! ## Strings that are escaped again -/

@[simp]
theorem escapeString_nil : escapeString [] = [] :=
  rfl

@[simp]
theorem escapeString_cons (c : Char) (t : Text) :
    escapeString (c :: t) = escapeStringChar c ++ escapeString t :=
  rfl

/-- A character is escaped by a backslash and a name for it, or stands for itself. -/
theorem escapeStringChar_cases (c : Char) :
    (∃ name, escapeStringChar c = ['\\', name] ∧ escapedChar? name = some c ∧ name ≠ '\n' ∧
      name ≠ '\r' ∧ name ≠ '\\') ∨
      (escapeStringChar c = [c] ∧ c ≠ '"' ∧ c ≠ '\n' ∧ c ≠ '\r' ∧ c ≠ '\t') := by
  unfold escapeStringChar
  split
  · exact Or.inl ⟨'"', by simp_all [escapedChar?]⟩
  · split
    · exact Or.inl ⟨'n', by simp_all [escapedChar?]⟩
    · split
      · exact Or.inl ⟨'r', by simp_all [escapedChar?]⟩
      · split
        · exact Or.inl ⟨'t', by simp_all [escapedChar?]⟩
        · exact Or.inr ⟨rfl, ‹_›, ‹_›, ‹_›, ‹_›⟩

/-- A spelling writes every character as an escape for it or as itself, and a character that closes
a string or ends its line not as itself. -/
def IsSpelling (quote : Char) (spell : Char → Text) : Prop :=
  ∀ c, (∃ name, spell c = ['\\', name] ∧ escapedChar? name = some c ∧ name ≠ '\n' ∧
    name ≠ '\\') ∨ (spell c = [c] ∧ c ≠ quote ∧ c ≠ '\n')

/-- A decoded text that is spelt is a body between quotes. -/
theorem IsSpelling.closesAt {quote : Char} {spell : Char → Text} (h : IsSpelling quote spell)
    (hquote : quote ≠ '\\') {t : Text} (ht : IsDecoded t) {escaped : Bool}
    (hescaped : t = [] → escaped = false) : ClosesAt quote escaped (t.flatMap spell) := by
  induction t generalizing escaped with
  | nil => exact hescaped rfl
  | cons c t ih =>
    rw [List.flatMap_cons]
    rcases h c with ⟨name, hname, -, hline, hbackslash⟩ | ⟨hname, hclose, hline⟩
    · rw [hname]
      refine ⟨by decide, fun heq => absurd heq.symm hquote, hline, fun _ => rfl, ?_⟩
      exact ih ht.tail fun _ => beq_eq_false_iff_ne.mpr hbackslash
    · rw [hname]
      refine ⟨hline, fun heq => absurd heq hclose, ih ht.tail ?_⟩
      rintro rfl
      exact beq_eq_false_iff_ne.mpr ht

/-- The escapes that are written can be read between double quotes. -/
theorem isSpelling_escapeStringChar : IsSpelling '"' escapeStringChar := by
  intro c
  rcases escapeStringChar_cases c with ⟨name, hname, hescaped, hline, -, hbackslash⟩ |
    ⟨hname, hquote, hline, -⟩
  · exact Or.inl ⟨name, hname, hescaped, hline, hbackslash⟩
  · exact Or.inr ⟨hname, hquote, hline⟩

/-- An escaped text between double quotes is read as one literal. -/
theorem IsDecoded.stringLength?_eq {t : Text} (h : IsDecoded t) (rest : Text) :
    stringLength? ('"' :: (escapeString t ++ '"' :: rest)) =
      some ((escapeString t).length + 2) := by
  have hclosing : closingLength? '"' false (escapeString t ++ '"' :: rest) =
      some ((escapeString t).length + 1) :=
    (closingLength?_eq_some (by decide)).mpr
      ⟨_, rest, rfl, isSpelling_escapeStringChar.closesAt (by decide) h fun _ => rfl, rfl⟩
  simp [stringLength?, hclosing]

/-- The name of an escaped character is a quote or a letter. -/
theorem eq_or_isEscapeLetter_of_escapeStringChar {c name : Char}
    (h : escapeStringChar c = ['\\', name]) : name = '"' ∨ IsEscapeLetter name := by
  unfold escapeStringChar at h
  repeat' split at h
  all_goals cases h <;> decide

/-- Behind a backslash of a decoded text stands no name of an escaped character. -/
theorem escapeString_ne_name {name : Char} {t u : Text} (hu : IsDecoded ('\\' :: u))
    (hname : name = '"' ∨ IsEscapeLetter name) : escapeString u ≠ name :: t := by
  intro h
  cases u with
  | nil => exact absurd rfl hu
  | cons d u =>
    rw [escapeString_cons] at h
    rcases escapeStringChar_cases d with ⟨name', hd, -⟩ | ⟨hd, hquote, -⟩
    · rw [hd] at h
      have hbackslash : '\\' = name := (List.cons.inj h).1
      rcases hname with rfl | rfl | rfl | rfl <;> contradiction
    · rw [hd] at h
      obtain rfl : d = name := (List.cons.inj h).1
      exact hname.elim hquote (hu.1 rfl)

/-- Different decoded texts are escaped to different texts. -/
theorem escapeString_inj {t u : Text} (ht : IsDecoded t) (hu : IsDecoded u)
    (h : escapeString t = escapeString u) : t = u := by
  have hne : ∀ (c : Char) (w : Text), escapeString (c :: w) ≠ [] := by
    intro c w
    rcases escapeStringChar_cases c with ⟨name, hc, -⟩ | ⟨hc, -⟩ <;> simp [hc]
  induction t generalizing u with
  | nil =>
    cases u with
    | nil => rfl
    | cons d u => exact absurd h.symm (hne d u)
  | cons c t ih =>
    cases u with
    | nil => exact absurd h (hne c t)
    | cons d u =>
      rw [escapeString_cons, escapeString_cons] at h
      rcases escapeStringChar_cases c with ⟨name, hc, hescaped, -⟩ | ⟨hc, -⟩ <;>
        rcases escapeStringChar_cases d with ⟨name', hd, hescaped', -⟩ | ⟨hd, -⟩ <;>
          rw [hc, hd] at h <;> rcases List.cons.inj h with ⟨hfirst, hrest⟩
      · rcases List.cons.inj hrest with ⟨rfl, htail⟩
        rw [Option.some.inj (hescaped.symm.trans hescaped'), ih ht.tail hu.tail htail]
      · subst hfirst
        have hname := eq_or_isEscapeLetter_of_escapeStringChar hc
        exact absurd hrest.symm (escapeString_ne_name hu hname)
      · subst hfirst
        have hname := eq_or_isEscapeLetter_of_escapeStringChar hd
        exact absurd hrest (escapeString_ne_name ht hname)
      · rw [hfirst, ih ht.tail hu.tail hrest]

/-- What a text that is escaped and read again has lost. -/
theorem unescapeString_escapeString_cons {c : Char} (hc : c ≠ '\\') (t : Text) :
    unescapeString (escapeString (c :: t)) = c :: unescapeString (escapeString t) := by
  rw [escapeString_cons]
  rcases escapeStringChar_cases c with ⟨name, hname, hescaped, -⟩ | ⟨hname, -⟩
  · rw [hname]
    exact unescapeString_escape hescaped _
  · rw [hname]
    exact unescapeString_cons hc _

/-- A backslash that stands in front of an apostrophe is lost. -/
theorem unescapeString_escapeString_apostrophe (t : Text) :
    unescapeString (escapeString ('\\' :: '\'' :: t)) = '\'' :: unescapeString (escapeString t) :=
  rfl

/-- A backslash that stands in front of anything else than an apostrophe is kept. -/
theorem unescapeString_escapeString_backslash {d : Char} (hletter : ¬IsEscapeLetter d)
    (hd : d ≠ '\'') (t : Text) :
    unescapeString (escapeString ('\\' :: d :: t)) =
      '\\' :: unescapeString (escapeString (d :: t)) := by
  rw [escapeString_cons, escapeString_cons, show escapeStringChar '\\' = ['\\'] from rfl]
  rcases escapeStringChar_cases d with ⟨name, hname, -⟩ | ⟨hname, hquote, -⟩
  · rw [hname]
    exact unescapeString_backslash rfl _
  · rw [hname]
    apply unescapeString_backslash
    simp only [IsEscapeLetter, not_or] at hletter
    simp [escapedChar?, hd, hquote, hletter]

/-- A text that a string denotes survives exactly if it has no backslash in front of an
apostrophe. -/
theorem unescapeString_escapeString_iff {t : Text} (h : IsDecoded t) :
    unescapeString (escapeString t) = t ↔ ¬['\\', '\''] <:+: t := by
  induction t with
  | nil => simp [unescapeString]
  | cons c t ih =>
    rw [List.infix_cons_iff, not_or, ← ih h.tail]
    by_cases hc : c = '\\'
    · subst hc
      cases t with
      | nil => exact absurd rfl h
      | cons d t =>
        by_cases hd : d = '\''
        · subst hd
          rw [unescapeString_escapeString_apostrophe]
          simp
        · rw [unescapeString_escapeString_backslash (h.1 rfl) hd, List.cons.injEq]
          simp [Ne.symm hd]
    · rw [unescapeString_escapeString_cons hc, List.cons.injEq]
      simp [Ne.symm hc]

/-- There is no carriage return in an escaped text. -/
theorem not_mem_escapeString (t : Text) : '\r' ∉ escapeString t := by
  induction t with
  | nil => simp
  | cons c t ih =>
    rw [escapeString_cons]
    rcases escapeStringChar_cases c with ⟨name, hname, -, -, hreturn, -⟩ |
      ⟨hname, -, -, hreturn, -⟩
    · simp [hname, ih, Ne.symm hreturn]
    · simp [hname, ih, Ne.symm hreturn]

/-! ## Bodies of regular expressions -/

/-- A slash behind a text closes it: no line ends in the text, every backslash takes the next
character with it, and every other slash stands between brackets.  The flag says whether a
bracket is open in front of the text. -/
inductive IsRegexBody : Bool → Text → Prop where
  | nil : IsRegexBody false []
  | pair {bracket : Bool} {d : Char} {body : Text} :
      d ≠ '\n' → IsRegexBody bracket body → IsRegexBody bracket ('\\' :: d :: body)
  | inside {c : Char} {body : Text} :
      c ≠ '\n' → c ≠ '\\' → IsRegexBody (c != ']') body → IsRegexBody true (c :: body)
  | outside {c : Char} {body : Text} :
      c ≠ '\n' → c ≠ '\\' → c ≠ '/' → IsRegexBody (c == '[') body → IsRegexBody false (c :: body)

/-- The slash that closes a text ends a body. -/
theorem exists_isRegexBody {bracket : Bool} {text : Text} {n : Nat}
    (h : regexTailLength? bracket text = some n) :
    ∃ body rest, text = body ++ '/' :: rest ∧ IsRegexBody bracket body ∧
      n = body.length + 1 := by
  fun_induction regexTailLength? bracket text generalizing n with
  | case1 => contradiction
  | case2 => contradiction
  | case3 => contradiction
  | case4 => contradiction
  | case5 bracket d tail hd _ ih =>
    rcases Option.map_eq_some_iff.mp h with ⟨m, hm, rfl⟩
    rcases ih hm with ⟨body, rest, rfl, hbody, rfl⟩
    exact ⟨'\\' :: d :: body, rest, rfl, .pair hd hbody, rfl⟩
  | case6 c rest hline hbackslash ih =>
    rcases Option.map_eq_some_iff.mp h with ⟨m, hm, rfl⟩
    rcases ih hm with ⟨body, rest, rfl, hbody, rfl⟩
    exact ⟨c :: body, rest, rfl, .inside hline hbackslash hbody, rfl⟩
  | case7 bracket rest hbracket =>
    cases h
    rw [Bool.not_eq_true] at hbracket
    exact ⟨[], rest, rfl, hbracket ▸ .nil, rfl⟩
  | case8 bracket c rest hline hbackslash hbracket hslash ih =>
    rcases Option.map_eq_some_iff.mp h with ⟨m, hm, rfl⟩
    rcases ih hm with ⟨body, rest, rfl, hbody, rfl⟩
    rw [Bool.not_eq_true] at hbracket
    exact ⟨c :: body, rest, rfl, hbracket ▸ .outside hline hbackslash hslash hbody, rfl⟩

/-- A character other than the backslash opens or closes brackets, or ends the pattern, or goes on
with it. -/
theorem regexTailLength?_cons {c : Char} (hline : c ≠ '\n') (hbackslash : c ≠ '\\')
    (bracket : Bool) (rest : Text) :
    regexTailLength? bracket (c :: rest) =
      if bracket then (regexTailLength? (c != ']') rest).map (· + 1)
      else if c = '/' then some 1
      else (regexTailLength? (c == '[') rest).map (· + 1) := by
  cases rest with
  | nil => rw [regexTailLength?.eq_2, if_neg hline, if_neg hbackslash]
  | cons d rest => rw [regexTailLength?, if_neg hline, if_neg hbackslash]

/-- A slash behind a body closes it. -/
theorem IsRegexBody.regexTailLength?_eq {bracket : Bool} {body : Text}
    (h : IsRegexBody bracket body) (rest : Text) :
    regexTailLength? bracket (body ++ '/' :: rest) = some (body.length + 1) := by
  induction h with
  | nil => rw [List.nil_append, regexTailLength?_cons (by decide) (by decide)]; rfl
  | pair hd _ ih => simp [regexTailLength?, hd, ih]
  | inside hline hbackslash _ ih =>
    simp [List.cons_append, regexTailLength?_cons hline hbackslash, ih]
  | outside hline hbackslash hslash _ ih =>
    simp [List.cons_append, regexTailLength?_cons hline hbackslash, hslash, ih]

/-! ## Patterns that are escaped again -/

theorem unescapeRegex_slash (t : Text) :
    unescapeRegex ('\\' :: '/' :: t) = '/' :: unescapeRegex t := by
  simp [unescapeRegex]

theorem unescapeRegex_pair {d : Char} (hd : d ≠ '/') (t : Text) :
    unescapeRegex ('\\' :: d :: t) = '\\' :: d :: unescapeRegex t := by
  simp [unescapeRegex, hd]

theorem unescapeRegex_cons {c : Char} (hc : c ≠ '\\') (t : Text) :
    unescapeRegex (c :: t) = c :: unescapeRegex t := by
  cases t with
  | nil => rfl
  | cons d t => simp [unescapeRegex, hc]

theorem escapeRegex_pair (d : Char) (t : Text) :
    escapeRegex ('\\' :: d :: t) = '\\' :: d :: escapeRegex t := by
  simp [escapeRegex]

theorem escapeRegex_slash (t : Text) : escapeRegex ('/' :: t) = '\\' :: '/' :: escapeRegex t := by
  cases t with
  | nil => rfl
  | cons d t => simp [escapeRegex]

theorem escapeRegex_cons {c : Char} (hc : c ≠ '\\') (hslash : c ≠ '/') (t : Text) :
    escapeRegex (c :: t) = c :: escapeRegex t := by
  cases t with
  | nil => simp [escapeRegex, hslash]
  | cons d t => simp [escapeRegex, hc, hslash]

/-- The pattern of a body is escaped to a body with the same pattern. -/
theorem IsRegexBody.escape {bracket : Bool} {body : Text} (h : IsRegexBody bracket body) :
    IsRegexBody bracket (escapeRegex (unescapeRegex body)) ∧
      unescapeRegex (escapeRegex (unescapeRegex body)) = unescapeRegex body := by
  induction h with
  | nil => exact ⟨.nil, rfl⟩
  | @pair bracket d body hd _ ih =>
    by_cases hslash : d = '/'
    · subst hslash
      rw [unescapeRegex_slash, escapeRegex_slash, unescapeRegex_slash, ih.2]
      exact ⟨.pair hd ih.1, rfl⟩
    · rw [unescapeRegex_pair hslash, escapeRegex_pair, unescapeRegex_pair hslash, ih.2]
      exact ⟨.pair hd ih.1, rfl⟩
  | @inside c body hline hbackslash _ ih =>
    rw [unescapeRegex_cons hbackslash]
    by_cases hslash : c = '/'
    · subst hslash
      rw [escapeRegex_slash, unescapeRegex_slash, ih.2]
      exact ⟨.pair (by decide) ih.1, rfl⟩
    · rw [escapeRegex_cons hbackslash hslash, unescapeRegex_cons hbackslash, ih.2]
      exact ⟨.inside hline hbackslash ih.1, rfl⟩
  | @outside c body hline hbackslash hslash _ ih =>
    rw [unescapeRegex_cons hbackslash, escapeRegex_cons hbackslash hslash,
      unescapeRegex_cons hbackslash, ih.2]
    exact ⟨.outside hline hbackslash hslash ih.1, rfl⟩

/-- The patterns that regular expressions denote: those of bodies that do not begin with one of
the barred characters. -/
def IsPattern (t : Text) : Prop :=
  ∃ c body, IsRegexBody false (c :: body) ∧ isRegexBar c = false ∧ '\r' ∉ c :: body ∧
    t = unescapeRegex (c :: body)

/-- What a pattern begins with is not barred, nor is the escape of a slash. -/
theorem exists_escapeRegex_eq_cons {c : Char} {body : Text} (h : IsRegexBody false (c :: body))
    (hc : isRegexBar c = false) :
    ∃ d u, escapeRegex (unescapeRegex (c :: body)) = d :: u ∧ isRegexBar d = false := by
  cases h with
  | @pair _ d body _ _ =>
    by_cases hslash : d = '/'
    · subst hslash
      rw [unescapeRegex_slash, escapeRegex_slash]
      exact ⟨'\\', _, rfl, rfl⟩
    · rw [unescapeRegex_pair hslash, escapeRegex_pair]
      exact ⟨'\\', _, rfl, rfl⟩
  | outside _ hbackslash hslash _ =>
    rw [unescapeRegex_cons hbackslash, escapeRegex_cons hbackslash hslash]
    exact ⟨c, _, rfl, hc⟩

namespace IsPattern

variable {t : Text}

/-- A pattern that is escaped and read again is the same. -/
theorem unescapeRegex_escapeRegex (h : IsPattern t) : unescapeRegex (escapeRegex t) = t := by
  rcases h with ⟨c, body, hbody, -, -, rfl⟩
  exact hbody.escape.2

/-- An escaped pattern between slashes is read as one literal. -/
theorem regexLength?_eq (h : IsPattern t) (rest : Text) :
    regexLength? ('/' :: (escapeRegex t ++ '/' :: rest)) =
      some ((escapeRegex t).length + 2) := by
  rcases h with ⟨c, body, hbody, hc, -, rfl⟩
  have htail := hbody.escape.1.regexTailLength?_eq rest
  rcases exists_escapeRegex_eq_cons hbody hc with ⟨d, u, heq, hd⟩
  rw [heq] at htail ⊢
  rw [List.cons_append] at htail ⊢
  simp [regexLength?, hd, htail]

end IsPattern

/-- Escapes change no other character than the backslash. -/
theorem mem_escapeRegex {c : Char} (hc : c ≠ '\\') {t : Text} (h : c ∈ escapeRegex t) : c ∈ t := by
  fun_induction escapeRegex t with
  | case1 => exact h
  | case2 => simpa [hc] using h
  | case3 => exact h
  | case4 d tail ih =>
    simp only [List.mem_cons, hc, false_or] at h ⊢
    exact h.imp_right ih
  | case5 d tail _ ih =>
    simp only [List.mem_cons, hc, false_or] at h
    exact List.mem_cons.mpr (h.imp_right ih)
  | case6 e d tail _ _ ih => exact List.mem_cons.mpr ((List.mem_cons.mp h).imp_right ih)

/-- A pattern has only characters of its body. -/
theorem mem_unescapeRegex {c : Char} {t : Text} (h : c ∈ unescapeRegex t) : c ∈ t := by
  fun_induction unescapeRegex t with
  | case1 => exact h
  | case2 => exact h
  | case3 tail ih =>
    exact List.mem_cons_of_mem _ (List.mem_cons.mpr ((List.mem_cons.mp h).imp_right ih))
  | case4 d tail _ ih =>
    rcases List.mem_cons.mp h with rfl | h
    · exact List.mem_cons_self
    · exact List.mem_cons_of_mem _ (List.mem_cons.mpr ((List.mem_cons.mp h).imp_right ih))
  | case5 e d tail _ ih => exact List.mem_cons.mpr ((List.mem_cons.mp h).imp_right ih)

/-- There is no carriage return in an escaped pattern. -/
theorem IsPattern.not_mem_escapeRegex {t : Text} (h : IsPattern t) : '\r' ∉ escapeRegex t := by
  rcases h with ⟨c, body, -, -, hreturn, rfl⟩
  exact fun hmem => hreturn (mem_unescapeRegex (mem_escapeRegex (by decide) hmem))

end RaidTimeline
