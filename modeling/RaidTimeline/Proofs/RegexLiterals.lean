import RaidTimeline.Proofs.PrintedStrings

/-!
# Regular expression literals

A regular expression goes from a slash to the slash that closes it, on one line.  What stands
between them is a row of units: single characters, pairs of a backslash and a character, and
brackets, in which a slash is plain.  No matter how a row is cut out of a text, it can end in one
place only, so nothing depends on the order in which the possible ends are tried.

Main results:

- Definitions {lit}`IsRegexUnit` and {lit}`IsRegexLiteral`: the units, and rows of them between
  slashes.
- Theorem {lit}`isRegexBody_iff`: bodies that are scanned character by character are rows of units.
- Theorem {lit}`regexLength?_eq_some_iff`: the scan finds the literal that a text begins with.
- Theorem {lit}`IsRegexLiteral.eq_of_prefix`: a text begins with no more than one literal.
- Definition {lit}`Lexer.DelimitsRegex`: how a lexer reads a regular expression.
- Theorem {lit}`regexLiterals_exact`: which regular expressions are read.
-/

namespace RaidTimeline

/-! ## Units -/

/-- One character between brackets: by itself, or with a backslash in front of it. -/
inductive IsBracketItem : Text → Prop where
  | plain {c : Char} : c ≠ '\n' → c ≠ ']' → c ≠ '\\' → IsBracketItem [c]
  | escape {d : Char} : d ≠ '\n' → IsBracketItem ['\\', d]

/-- A unit of a regular expression: a character by itself, one with a backslash in front of it, or
brackets with any number of characters between them. -/
inductive IsRegexUnit : Text → Prop where
  | plain {c : Char} : c ≠ '\n' → c ≠ '[' → c ≠ '/' → c ≠ '\\' → IsRegexUnit [c]
  | escape {d : Char} : d ≠ '\n' → IsRegexUnit ['\\', d]
  | brackets {items : List Text} :
      (∀ item ∈ items, IsBracketItem item) → IsRegexUnit ('[' :: (items.flatten ++ [']']))

/-- A regular expression as it is written: between two slashes there are one or more units, of
which the first is none of the characters that repeat what stands in front of them. -/
def IsRegexLiteral (raw : Text) : Prop :=
  ∃ units : List Text, units ≠ [] ∧ (∀ unit ∈ units, IsRegexUnit unit) ∧
    (∀ c ∈ units.flatten.head?, c ∉ ['*', '+', '?']) ∧ raw = '/' :: (units.flatten ++ ['/'])

/-! ## Units and bodies -/

namespace IsRegexBody

variable {items units : List Text} {rest body : Text}

/-- Behind an open bracket, characters between brackets lead to the bracket that closes it. -/
theorem bracketItems (hitems : ∀ item ∈ items, IsBracketItem item)
    (hrest : IsRegexBody false rest) :
    IsRegexBody true (items.flatten ++ ']' :: rest) := by
  induction items with
  | nil => exact .inside (by decide) (by decide) hrest
  | cons item items ih =>
    have hbehind := ih fun i hi => hitems i (List.mem_cons_of_mem item hi)
    rw [List.flatten_cons, List.append_assoc]
    cases hitems item List.mem_cons_self with
    | @plain c hline hclosing hbackslash =>
      refine .inside hline hbackslash ?_
      rwa [bne_iff_ne.mpr hclosing]
    | escape hline => exact .pair hline hbehind

/-- A row of units is a body. -/
theorem flatten (hunits : ∀ unit ∈ units, IsRegexUnit unit) : IsRegexBody false units.flatten := by
  induction units with
  | nil => exact .nil
  | cons unit units ih =>
    have hbehind := ih fun u hu => hunits u (List.mem_cons_of_mem unit hu)
    rw [List.flatten_cons]
    cases hunits unit List.mem_cons_self with
    | @plain c hline hopening hslash hbackslash =>
      refine .outside hline hbackslash hslash ?_
      rwa [beq_eq_false_iff_ne.mpr hopening]
    | escape hline => exact .pair hline hbehind
    | brackets hitems =>
      rw [List.cons_append, List.append_assoc]
      exact .outside (by decide) (by decide) (by decide) (bracketItems hitems hbehind)

/-- A body is a row of units; if a bracket is open in front of it, characters between brackets and
the closing one come first. -/
theorem exists_units {bracket : Bool} (h : IsRegexBody bracket body) :
    ∃ items units : List Text, (∀ item ∈ items, IsBracketItem item) ∧
      (∀ unit ∈ units, IsRegexUnit unit) ∧
      body = if bracket then items.flatten ++ ']' :: units.flatten else units.flatten := by
  induction h with
  | nil => exact ⟨[], [], by simp⟩
  | @pair bracket d body hline _ ih =>
    rcases ih with ⟨items, units, hitems, hunits, rfl⟩
    cases bracket with
    | false =>
      exact ⟨items, ['\\', d] :: units, hitems, List.forall_mem_cons.mpr ⟨.escape hline, hunits⟩,
        rfl⟩
    | true =>
      exact ⟨['\\', d] :: items, units, List.forall_mem_cons.mpr ⟨.escape hline, hitems⟩, hunits,
        rfl⟩
  | @inside c body hline hbackslash _ ih =>
    rcases ih with ⟨items, units, hitems, hunits, rfl⟩
    by_cases hclosing : c = ']'
    · subst hclosing
      exact ⟨[], units, by simp, hunits, rfl⟩
    · refine ⟨[c] :: items, units,
        List.forall_mem_cons.mpr ⟨.plain hline hclosing hbackslash, hitems⟩, hunits, ?_⟩
      rw [bne_iff_ne.mpr hclosing]
      rfl
  | @outside c body hline hbackslash hslash _ ih =>
    rcases ih with ⟨items, units, hitems, hunits, rfl⟩
    by_cases hopening : c = '['
    · -- The characters up to the closing bracket make one unit.
      subst hopening
      refine ⟨[], ('[' :: (items.flatten ++ [']'])) :: units, by simp,
        List.forall_mem_cons.mpr ⟨.brackets hitems, hunits⟩, ?_⟩
      simp
    · refine ⟨[], [c] :: units, by simp,
        List.forall_mem_cons.mpr ⟨.plain hline hopening hslash hbackslash, hunits⟩, ?_⟩
      rw [beq_eq_false_iff_ne.mpr hopening]
      rfl

/-- A slash at the start of a body would end it. -/
theorem head?_ne_slash (h : IsRegexBody false body) : body.head? ≠ some '/' := by
  cases h with
  | nil => simp
  | pair => simp
  | outside _ _ hslash => simpa using hslash

end IsRegexBody

/-- The bodies that are scanned character by character are the rows of units. -/
theorem isRegexBody_iff {body : Text} :
    IsRegexBody false body ↔
      ∃ units : List Text, (∀ unit ∈ units, IsRegexUnit unit) ∧ body = units.flatten := by
  constructor
  · intro h
    rcases h.exists_units with ⟨_, units, -, hunits, hbody⟩
    exact ⟨units, hunits, hbody⟩
  · rintro ⟨units, hunits, rfl⟩
    exact .flatten hunits

theorem IsRegexUnit.ne_nil {unit : Text} (h : IsRegexUnit unit) : unit ≠ [] := by
  cases h <;> simp

/-- A regular expression by the first character and the rest of its body. -/
theorem isRegexLiteral_iff {raw : Text} :
    IsRegexLiteral raw ↔
      ∃ c body, IsRegexBody false (c :: body) ∧ isRegexBar c = false ∧
        raw = '/' :: (c :: body ++ ['/']) := by
  have hbar : ∀ c : Char, isRegexBar c = false ↔ c ≠ '/' ∧ c ∉ ['*', '+', '?'] := by
    intro c
    simp [isRegexBar, and_assoc]
  constructor
  · rintro ⟨units, hne, hunits, hfirst, rfl⟩
    have hbody : IsRegexBody false units.flatten := .flatten hunits
    have hflatten : units.flatten ≠ [] := by
      rcases List.exists_cons_of_ne_nil hne with ⟨unit, units, rfl⟩
      rw [List.flatten_cons]
      exact List.append_ne_nil_of_left_ne_nil (hunits unit List.mem_cons_self).ne_nil _
    rcases List.exists_cons_of_ne_nil hflatten with ⟨c, body, heq⟩
    rw [heq] at hbody hfirst ⊢
    have hslash : c ≠ '/' := fun h => hbody.head?_ne_slash (congrArg some h)
    exact ⟨c, body, hbody, (hbar c).mpr ⟨hslash, hfirst c rfl⟩, rfl⟩
  · rintro ⟨c, body, hbody, hc, rfl⟩
    rcases isRegexBody_iff.mp hbody with ⟨units, hunits, heq⟩
    rw [heq]
    refine ⟨units, ?_, hunits, ?_, rfl⟩
    · rintro rfl
      exact List.cons_ne_nil c body heq
    · rw [← heq]
      rintro d ⟨⟩
      exact ((hbar c).mp hc).2

/-! ## The literal at the start of a text -/

section

variable {text raw raw' : Text} {n : Nat}

/-- The length of a regular expression at the start of a text is that of a literal. -/
theorem regexLength?_eq_some_iff :
    regexLength? text = some n ↔ ∃ raw, IsRegexLiteral raw ∧ raw <+: text ∧ n = raw.length := by
  constructor
  · intro h
    unfold regexLength? at h
    split at h
    · next c rest =>
      split_ifs at h with hc
      rcases Option.map_eq_some_iff.mp h with ⟨m, hm, rfl⟩
      rcases exists_isRegexBody hm with ⟨body, behind, htext, hbody, rfl⟩
      cases body with
      | nil =>
        -- A slash directly behind the first one is barred.
        obtain rfl : c = '/' := (List.cons.inj htext).1
        contradiction
      | cons d body =>
        obtain rfl : c = d := (List.cons.inj htext).1
        refine ⟨_, isRegexLiteral_iff.mpr ⟨c, body, hbody, by simpa using hc, rfl⟩,
          ⟨behind, ?_⟩, by simp⟩
        simp [htext]
    · contradiction
  · rintro ⟨raw, hraw, ⟨behind, rfl⟩, rfl⟩
    rcases isRegexLiteral_iff.mp hraw with ⟨c, body, hbody, hc, rfl⟩
    have htail := hbody.regexTailLength?_eq behind
    simp only [List.cons_append, List.append_assoc, List.nil_append] at htail ⊢
    simp [regexLength?, hc, htail]

/-- A text begins with no more than one regular expression. -/
theorem IsRegexLiteral.eq_of_prefix (h : IsRegexLiteral raw) (hraw : raw <+: text)
    (h' : IsRegexLiteral raw') (hraw' : raw' <+: text) : raw = raw' := by
  have hlength := regexLength?_eq_some_iff.mpr ⟨raw, h, hraw, rfl⟩
  have hlength' := regexLength?_eq_some_iff.mpr ⟨raw', h', hraw', rfl⟩
  have hsame : raw.length = raw'.length := Option.some.inj (hlength.symm.trans hlength')
  exact (List.prefix_of_prefix_length_le hraw hraw' hsame.le).eq_of_length hsame

end

/-! ## Reading regular expressions -/

/-- Where a slash stands there is a regular expression or nothing. -/
theorem recognise?_slash {v : Vocabulary} (hv : v.HasWords) (before : Option Char) (tail : Text) :
    recognise? v before ('/' :: tail) =
      (regexLength? ('/' :: tail)).map fun n => (.regex, n) := by
  rw [recognise?_of_not_isWord hv before rfl]
  cases hlength : regexLength? ('/' :: tail) <;>
    simp [Kind.length?, runLength?, isLayout, commentLength?, oneOf?, numberLength?,
      fractionLength, stringLength?, hlength]

/-- A lexer in front of a slash reads a regular expression exactly if its text begins with one, and
then just that; otherwise it reads nothing. -/
structure Lexer.DelimitsRegex (l : Lexer) : Prop where
  sameToken : l.next = l.nextRaw
  kind_iff : l.nextRaw.1.kind = .regex ↔ ∃ raw, IsRegexLiteral raw ∧ raw <+: l.cursor.rest
  unique : ∀ raw raw', IsRegexLiteral raw → raw <+: l.cursor.rest → IsRegexLiteral raw' →
    raw' <+: l.cursor.rest → raw = raw'
  isRaw : ∀ raw, IsRegexLiteral raw → raw <+: l.cursor.rest →
    l.nextRaw.1.raw = raw ∧ l.nextRaw.1.span.start = l.cursor.offset ∧
      l.nextRaw.1.span.stop = l.cursor.offset + raw.length
  unread : (¬∃ raw, IsRegexLiteral raw ∧ raw <+: l.cursor.rest) → l.nextRaw.1.kind = .unknown

/-- A lexer that keeps no token reads regular expressions in this way, wherever it is in its
text. -/
theorem regexLiterals_exact {v : Vocabulary} (hv : v.HasWords) {l : Lexer}
    (hvocabulary : l.vocabulary = v) (hpending : l.pending = none)
    (hslash : l.cursor.rest.head? = some '/') : l.DelimitsRegex := by
  rcases List.head?_eq_some_iff.mp hslash with ⟨tail, hrest⟩
  have hnext : l.next = l.nextRaw := (Lexer.nextRaw_eq_next (by rw [hrest]; rfl)).symm
  have hraw : l.nextRaw.1 = (l.cursor.scan v).1 := by
    rw [Lexer.nextRaw_eq hpending, hvocabulary]
  have hfound := recognise?_slash hv l.cursor.before tail
  rw [← hrest] at hfound
  have hunique : ∀ raw raw', IsRegexLiteral raw → raw <+: l.cursor.rest → IsRegexLiteral raw' →
      raw' <+: l.cursor.rest → raw = raw' :=
    fun _ _ h hprefix h' hprefix' => h.eq_of_prefix hprefix h' hprefix'
  rcases l.cursor.scan_cases v with ⟨hnil, -⟩ | ⟨-, hnone, hscan⟩ | ⟨kind, n, -, hsome, hscan⟩
  · rw [hrest] at hnil
    contradiction
  · -- The text begins with no regular expression.
    rw [hnone, eq_comm, Option.map_eq_none_iff] at hfound
    have hno : ¬∃ raw, IsRegexLiteral raw ∧ raw <+: l.cursor.rest := by
      rintro ⟨raw, h, hprefix⟩
      have hlength := regexLength?_eq_some_iff.mpr ⟨raw, h, hprefix, rfl⟩
      rw [hfound] at hlength
      contradiction
    rw [hscan] at hraw
    constructor
    · exact hnext
    · simp [hraw, Cursor.emptyToken, hno]
    · exact hunique
    · exact fun raw h hprefix => absurd ⟨raw, h, hprefix⟩ hno
    · simp [hraw, Cursor.emptyToken]
  · rw [hsome, eq_comm, Option.map_eq_some_iff] at hfound
    rcases hfound with ⟨m, hm, heq⟩
    cases heq
    rcases regexLength?_eq_some_iff.mp hm with ⟨raw, h, hprefix, rfl⟩
    have htake : l.cursor.rest.take raw.length = raw := (List.prefix_iff_eq_take.mp hprefix).symm
    rw [hscan, htake] at hraw
    constructor
    · exact hnext
    · simp only [hraw, true_iff]
      exact ⟨raw, h, hprefix⟩
    · exact hunique
    · intro raw' h' hprefix'
      obtain rfl := hunique raw raw' h hprefix h' hprefix'
      simp [hraw, Cursor.spanTo, htake]
    · exact fun hno => absurd ⟨raw, h, hprefix⟩ hno

/-- The slash between brackets and the one behind a backslash do not close this literal; where the
bracket stays open there is none. -/
theorem regexLiterals_exact_bracket :
    let l := Lexer.ofSource .default "/[^/]\\/b*/ # c/".toList
    let l' := Lexer.ofSource .default "/[^/]".toList
    Vocabulary.default.HasWords ∧ l.pending = none ∧ l.cursor.rest.head? = some '/' ∧
      l.next.1.kind = .regex ∧ l.next.1.raw = "/[^/]\\/b*/".toList ∧ l.next.1.span.stop = 10 ∧
      l'.cursor.rest.head? = some '/' ∧ ¬∃ raw, IsRegexLiteral raw ∧ raw <+: l'.cursor.rest := by
  intro l l'
  have hdelimits : l.DelimitsRegex :=
    regexLiterals_exact Vocabulary.hasWords_default rfl rfl (by decide)
  have hdelimits' : l'.DelimitsRegex :=
    regexLiterals_exact Vocabulary.hasWords_default rfl rfl (by decide)
  have hliteral : IsRegexLiteral "/[^/]\\/b*/".toList := by
    refine isRegexLiteral_iff.mpr ⟨'[', "^/]\\/b*".toList, ?_, rfl, by decide⟩
    refine .outside (by decide) (by decide) (by decide) ?_
    refine .inside (by decide) (by decide) (.inside (by decide) (by decide)
      (.inside (by decide) (by decide) (.pair (by decide) ?_)))
    exact .outside (by decide) (by decide) (by decide)
      (.outside (by decide) (by decide) (by decide) .nil)
  have hprefix : "/[^/]\\/b*/".toList <+: l.cursor.rest := by
    decide
  rcases hdelimits.isRaw _ hliteral hprefix with ⟨hraw, -, hstop⟩
  rw [← hdelimits.sameToken] at hraw hstop
  have hkind := hdelimits.kind_iff.mpr ⟨_, hliteral, hprefix⟩
  rw [← hdelimits.sameToken] at hkind
  refine ⟨Vocabulary.hasWords_default, rfl, by decide, hkind, hraw, hstop, by decide, ?_⟩
  rw [← hdelimits'.kind_iff]
  decide

end RaidTimeline
