import RaidTimeline.Proofs.Parsed

/-!
# What follows a token

Every rule for tokens looks at the text behind a token only to see that the token does not go on.
So a token that lies in one piece of a text is recognised with many other pieces behind that one.
Three conditions on the new piece suffice: it separates itself and all keywords are words; it
begins a new line; or it is empty.

Main results:

- Definition {lit}`EndsLine`: texts behind which, or in front of which, a line ends.
- Theorem {lit}`recognise?_append_congr`: what has to be checked when another text follows.
- Theorems {lit}`recognise?_append_of_hasWords`, {lit}`recognise?_append_of_endsLine` and
  {lit}`recognise?_of_append`: the three cases.
- Theorem {lit}`recognise?_append_eq_none`: text that cannot be read on its line.
-/

namespace RaidTimeline

/-- A text in front of which a line ends: it is empty or begins with a line feed. -/
def EndsLine (t : Text) : Prop := ∀ c ∈ t.head?, c = '\n'

theorem EndsLine.nil : EndsLine [] := by
  simp [EndsLine]

theorem EndsLine.cons (t : Text) : EndsLine ('\n' :: t) := by
  simp [EndsLine]

theorem EndsLine.separates {t : Text} (h : EndsLine t) : Separates t := by
  intro c hc
  obtain rfl := h c hc
  exact ⟨rfl, by decide⟩

/-! ## Runs and numbers -/

/-- A run that ends within a text, or with it, is the same whatever follows. -/
theorem takeWhile_append_congr {p : Char → Bool} {t w w' : Text}
    (h : ((t ++ w).takeWhile p).length ≤ t.length)
    (hw : ((t ++ w).takeWhile p).length = t.length → ∀ c ∈ w'.head?, p c = false) :
    (t ++ w').takeWhile p = (t ++ w).takeWhile p := by
  induction t with
  | nil =>
    have hnil : w.takeWhile p = [] := by
      simpa using h
    rw [List.nil_append, List.nil_append, hnil]
    have hstop := takeWhile_append_of_head? (t := []) (by simp) (hw (by simp [hnil]))
    rwa [List.nil_append] at hstop
  | cons c t ih =>
    cases hc : p c with
    | false => simp [hc]
    | true =>
      simp only [List.cons_append, List.takeWhile_cons_of_pos hc, List.length_cons,
        Nat.add_le_add_iff_right, Nat.add_right_cancel_iff] at h hw ⊢
      rw [ih h hw]

/-- A run within a text does not depend on what follows, as long as that does not go on with it. -/
theorem runLength?_append_congr {p : Char → Bool} {t w w' : Text} (ht : t ≠ [])
    (h : ∀ n ∈ runLength? p (t ++ w), n ≤ t.length)
    (hw : runLength? p (t ++ w) = some t.length → ∀ c ∈ w'.head?, p c = false) :
    runLength? p (t ++ w') = runLength? p (t ++ w) := by
  have hpos := List.length_pos_iff.mpr ht
  have hrun : (t ++ w').takeWhile p = (t ++ w).takeWhile p := by
    apply takeWhile_append_congr
    · by_cases hnil : ((t ++ w).takeWhile p).length = 0
      · omega
      · exact h _ (runLength?_eq_some.mpr ⟨by omega, rfl⟩)
    · intro hlength
      exact hw (runLength?_eq_some.mpr ⟨hpos, hlength⟩)
  simp only [runLength?, hrun]

/-- A comment within a text does not depend on what follows, if that begins on a new line. -/
theorem commentLength?_append_congr {t w w' : Text} (ht : t ≠ [])
    (h : ∀ n ∈ commentLength? (t ++ w), n ≤ t.length)
    (hw : commentLength? (t ++ w) = some t.length → EndsLine w') :
    commentLength? (t ++ w') = commentLength? (t ++ w) := by
  rcases List.exists_cons_of_ne_nil ht with ⟨c, t, rfl⟩
  by_cases hc : c = '#'
  · subst hc
    simp only [List.cons_append, commentLength?, Option.mem_some_iff, forall_eq',
      List.length_cons, Option.some.injEq] at h hw ⊢
    have hline : (t ++ w').takeWhile (· != '\n') = (t ++ w).takeWhile (· != '\n') := by
      apply takeWhile_append_congr (by omega)
      intro hlength d hd
      simp [hw (by omega) d hd]
    rw [hline]
  · simp [commentLength?, hc]

/-- A fraction within a text does not depend on what follows, if that separates. -/
theorem fractionLength_append_congr {t w w' : Text}
    (h : fractionLength (t ++ w) ≤ t.length) (hw : Separates w') :
    fractionLength (t ++ w') = fractionLength (t ++ w) := by
  cases t with
  | nil =>
    rw [List.nil_append, List.nil_append, fractionLength_of_endsNumber hw.endsNumber]
    simpa [eq_comm] using h
  | cons c t =>
    by_cases hc : c = '.'
    · subst hc
      have hdigits : (t ++ w').takeWhile Char.isDigit = (t ++ w).takeWhile Char.isDigit := by
        apply takeWhile_append_congr
        · simp only [List.cons_append, fractionLength, List.length_cons] at h
          split at h <;> omega
        · exact fun _ => hw.isDigit_head
      simp only [List.cons_append, fractionLength, hdigits]
    · simp [fractionLength, hc]

/-- A number within a text does not depend on what follows, if that separates. -/
theorem numberLength?_append_congr {t w w' : Text} (ht : t ≠ [])
    (h : ∀ n ∈ numberLength? (t ++ w), n ≤ t.length) (hw : Separates w') :
    numberLength? (t ++ w') = numberLength? (t ++ w) := by
  rcases List.exists_cons_of_ne_nil ht with ⟨c, t, rfl⟩
  simp only [List.cons_append, numberLength?] at h ⊢
  by_cases hzero : c = '0'
  · simp only [if_pos hzero, Option.mem_some_iff, forall_eq', List.length_cons] at h ⊢
    have hfraction : fractionLength (t ++ w') = fractionLength (t ++ w) :=
      fractionLength_append_congr (by omega) hw
    rw [hfraction]
  rw [if_neg hzero] at h ⊢
  rw [if_neg hzero]
  by_cases hdigit : c.isDigit = true
  · simp only [if_pos hdigit, Option.mem_some_iff, forall_eq', List.length_cons] at h ⊢
    have hdigits : (t ++ w').takeWhile Char.isDigit = (t ++ w).takeWhile Char.isDigit :=
      takeWhile_append_congr (by omega) fun _ => hw.isDigit_head
    rw [hdigits]
    generalize hm : ((t ++ w).takeWhile Char.isDigit).length = m at h ⊢
    have hle : m ≤ t.length := by omega
    rw [List.drop_append_of_le_length hle] at h ⊢
    have hfraction : fractionLength (t.drop m ++ w') = fractionLength (t.drop m ++ w) := by
      apply fractionLength_append_congr _ hw
      rw [List.length_drop]
      omega
    rw [List.drop_append_of_le_length hle, hfraction]
  · rw [if_neg hdigit] at h ⊢
    rw [if_neg hdigit]
    have hfraction : fractionLength (c :: t ++ w') = fractionLength (c :: t ++ w) := by
      apply fractionLength_append_congr _ hw
      by_cases hnone : fractionLength (c :: t ++ w) = 0
      · omega
      · exact h _ (by simpa using hnone)
    simp only [List.cons_append] at hfraction
    rw [hfraction]

/-! ## Delimited literals -/

/-- A rule for literals on one line that have an end of their own: what stands behind the end has
no part in it. -/
def ClosesItself (length? : Text → Option Nat) : Prop :=
  ∀ {text n}, length? text = some n → ∃ piece rest, text = piece ++ rest ∧ piece.length = n ∧
    '\n' ∉ piece ∧ ∀ rest', length? (piece ++ rest') = some n

/-- A string is on one line. -/
theorem ClosesAt.newline_not_mem {quote : Char} {escaped : Bool} {body : Text}
    (h : ClosesAt quote escaped body) : '\n' ∉ body := by
  induction body generalizing escaped with
  | nil => simp
  | cons c body ih => simp [Ne.symm h.1, ih h.2.2]

/-- A regular expression is on one line. -/
theorem IsRegexBody.newline_not_mem {bracket : Bool} {body : Text}
    (h : IsRegexBody bracket body) : '\n' ∉ body := by
  induction h with
  | nil => simp
  | pair hd _ ih => simp [Ne.symm hd, ih]
  | inside hline _ _ ih => simp [Ne.symm hline, ih]
  | outside hline _ _ _ ih => simp [Ne.symm hline, ih]

/-- Strings have an end of their own. -/
theorem closesItself_stringLength? : ClosesItself stringLength? := by
  intro text n h
  unfold stringLength? at h
  split at h
  · contradiction
  · next c text =>
    split at h
    · next hquote =>
      have hline : c ≠ '\n' := by
        rcases hquote with rfl | rfl <;> decide
      rcases Option.map_eq_some_iff.mp h with ⟨m, hm, rfl⟩
      rcases (closingLength?_eq_some hline).mp hm with ⟨body, rest, rfl, hcloses, rfl⟩
      refine ⟨c :: (body ++ [c]), rest, by simp, by simp, ?_, fun rest' => ?_⟩
      · simp [Ne.symm hline, hcloses.newline_not_mem]
      · have hclosing := (closingLength?_eq_some hline).mpr
          ⟨body, rest', rfl, hcloses, rfl⟩
        simp [stringLength?, hquote, hclosing]
    · contradiction

/-- Regular expressions have an end of their own. -/
theorem closesItself_regexLength? : ClosesItself regexLength? := by
  intro text n h
  unfold regexLength? at h
  split at h
  · next c text =>
    split at h
    · contradiction
    · next hbar =>
      rcases Option.map_eq_some_iff.mp h with ⟨m, hm, rfl⟩
      rcases exists_isRegexBody hm with ⟨body, rest, htext, hbody, rfl⟩
      rcases body with _ | ⟨d, body⟩
      · cases htext
        contradiction
      rcases List.cons.inj htext with ⟨rfl, rfl⟩
      refine ⟨'/' :: c :: (body ++ ['/']), rest, by simp, by simp, ?_, fun rest' => ?_⟩
      · have hline := hbody.newline_not_mem
        simp only [List.mem_cons, not_or] at hline
        simp [hline]
      · have htail := hbody.regexTailLength?_eq rest'
        simp only [List.cons_append, List.append_assoc] at htail ⊢
        simp [regexLength?, hbar, htail]
  · contradiction

namespace ClosesItself

variable {length? : Text → Option Nat} {t w w' : Text}

/-- A literal that ends within a text is the same whatever follows. -/
theorem append_of_le (hclose : ClosesItself length?) {n : Nat} (h : length? (t ++ w) = some n)
    (hn : n ≤ t.length) : length? (t ++ w') = some n := by
  rcases hclose h with ⟨piece, rest, htext, rfl, -, hpiece⟩
  rcases List.append_eq_append_iff.mp htext with ⟨u, rfl, -⟩ | ⟨u, rfl, rfl⟩
  · rw [List.length_append] at hn
    obtain rfl : u = [] := List.length_eq_zero_iff.mp (by omega)
    simpa using hpiece w'
  · rw [List.append_assoc]
    exact hpiece (u ++ w')

/-- A literal without an end on its line has none on a line that ends sooner. -/
theorem append_eq_none (hclose : ClosesItself length?) (h : length? (t ++ w) = none)
    (hw : EndsLine w') : length? (t ++ w') = none := by
  cases hfound : length? (t ++ w') with
  | none => rfl
  | some n =>
    have hle : n ≤ t.length := by
      rcases hclose hfound with ⟨piece, rest, htext, rfl, hline, -⟩
      rcases List.append_eq_append_iff.mp htext with ⟨u, rfl, hu⟩ | ⟨u, rfl, -⟩
      · cases u with
        | nil => simp
        | cons c u =>
          obtain rfl := hw c (by simp [hu])
          simp at hline
      · simp
    rw [hclose.append_of_le hfound hle] at h
    contradiction

end ClosesItself

/-! ## Words -/

/-- With tables of words, only the run of word characters decides which keyword stands there. -/
theorem keywordLength?_eq {v : Vocabulary} (hv : v.HasWords) (text : Text) :
    keywordLength? v none text =
      if text.takeWhile isWord ∈ v.words then some (text.takeWhile isWord).length else none := by
  have hstop : ∀ c ∈ (text.dropWhile isWord).head?, isWord c = false := by
    intro c hc
    have hnot := List.head?_dropWhile_not isWord text
    rw [Option.mem_def.mp hc] at hnot
    simpa using hnot
  have hfound := keywordLength?_append hv (w := text.takeWhile isWord)
    (fun c hc => List.mem_takeWhile_imp hc) hstop
  rwa [List.takeWhile_append_dropWhile] at hfound

/-- A word within a text stands there whatever follows. -/
theorem standsAt_append_of_lt {word t : Text} (h : word.length < t.length) (w : Text) :
    standsAt none (t ++ w) word = standsAt none t word := by
  have hstart : word <+: t ++ w ↔ word <+: t :=
    ⟨fun hp => List.prefix_of_prefix_length_le hp (List.prefix_append t w) (by omega),
      fun hp => hp.trans (List.prefix_append t w)⟩
  have hhead : ((t ++ w).drop word.length).head? = (t.drop word.length).head? := by
    rw [List.head?_drop, List.head?_drop, List.getElem?_append_left h]
  rw [standsAt, standsAt, hhead, Bool.eq_iff_iff]
  simp only [Bool.and_eq_true, List.isPrefixOf_iff_prefix, hstart]

/-- Where a line ends, no word goes on. -/
theorem standsAt_append_of_endsLine {word t w : Text} (hword : '\n' ∉ word) (hw : EndsLine w) :
    standsAt none (t ++ w) word = standsAt none t word := by
  by_cases hlt : word.length < t.length
  · exact standsAt_append_of_lt hlt w
  rw [standsAt, standsAt, Bool.eq_iff_iff]
  simp only [Bool.and_eq_true, List.isPrefixOf_iff_prefix]
  have hwhole : word <+: t ++ w ∨ word <+: t → word = t := by
    rintro (⟨u, hu⟩ | hp)
    · rcases List.append_eq_append_iff.mp hu with ⟨x, rfl, -⟩ | ⟨x, rfl, hx⟩
      · simp only [List.length_append] at hlt
        obtain rfl : x = [] := List.length_eq_zero_iff.mp (by omega)
        simp
      · cases x with
        | nil => simp
        | cons c x =>
          obtain rfl := hw c (by simp [hx])
          simp at hword
    · exact hp.eq_of_length_le (by omega)
  have hhead : isWordAt w.head? = false := by
    cases w with
    | nil => rfl
    | cons c w =>
      obtain rfl := hw c rfl
      rfl
  -- The word is the whole text, and behind it stands no word character either way.
  have hnone : isWordAt (([] : Text).head?) = false := rfl
  constructor
  · rintro ⟨hp, hboundary⟩
    obtain rfl := hwhole (Or.inl hp)
    rw [List.drop_left, isBoundary, hhead] at hboundary
    rw [List.drop_length, isBoundary, hnone]
    exact ⟨List.prefix_refl word, hboundary⟩
  · rintro ⟨hp, hboundary⟩
    obtain rfl := hwhole (Or.inr hp)
    rw [List.drop_length, isBoundary, hnone] at hboundary
    rw [List.drop_left, isBoundary, hhead]
    exact ⟨List.prefix_append word w, hboundary⟩

/-- Where no word would go on from a text into what follows, a keyword in the text is the same
without what follows, unless the keyword is all of the text. -/
theorem keywordLength?_of_append {v : Vocabulary} {t w : Text}
    (hshort : ∀ word ∈ v.words, standsAt none (t ++ w) word = true → word.length < t.length)
    (hboundary : isWordAt t.getLast? = true → isWordAt w.head? = false) :
    keywordLength? v none t = keywordLength? v none (t ++ w) := by
  apply keywordLength?_congr
  intro word hmem
  by_cases hlt : word.length < t.length
  · exact (standsAt_append_of_lt hlt w).symm
  have hlong : standsAt none (t ++ w) word = false := by
    rw [← Bool.not_eq_true]
    exact fun hstands => hlt (hshort word hmem hstands)
  rw [hlong, ← Bool.not_eq_true]
  intro hstands
  rw [standsAt, Bool.and_eq_true, List.isPrefixOf_iff_prefix] at hstands
  rcases hstands with ⟨hstart, hend⟩
  obtain rfl : word = t := hstart.eq_of_length_le (by omega)
  -- The keyword that is all of the text would stand there also with what follows.
  have hlast : isWordAt (lastOr none word) = true := by
    simpa [isBoundary, isWordAt] using hend
  have hword : isWordAt word.getLast? = true := by
    simpa [lastOr] using hlast
  have hstands : standsAt none (word ++ w) word = true := by
    rw [standsAt, List.drop_left, isBoundary, hlast, hboundary hword, Bool.and_eq_true,
      List.isPrefixOf_iff_prefix]
    exact ⟨List.prefix_append word w, rfl⟩
  rw [hlong] at hstands
  contradiction

/-! ## Whole tokens -/

/-- Another text is recognised in the same way if the rule that matches does, and the rules tried
before it do not match there either. -/
theorem recognise?_congr {v : Vocabulary} {text text' : Text} {kind : Kind} {n : Nat}
    (h : recognise? v none text = some (kind, n)) (hkind : kind.length? v none text' = some n)
    (hnone : ∀ k ∈ Kind.precedence.takeWhile (· ≠ kind), k.length? v none text = none →
      k.length? v none text' = none) :
    recognise? v none text' = some (kind, n) := by
  rw [recognise?, List.findSome?_eq_some_iff] at h
  rcases h with ⟨earlier, found, later, hsplit, hfound, hearlier⟩
  rcases Option.map_eq_some_iff.mp hfound with ⟨m, -, heq⟩
  cases heq
  have hnot : kind ∉ earlier := by
    intro hmem
    have hnil := hearlier kind hmem
    rw [hfound] at hnil
    contradiction
  have htake : Kind.precedence.takeWhile (· ≠ kind) = earlier := by
    rw [hsplit, List.takeWhile_append_of_pos, List.takeWhile_cons_of_neg (by simp),
      List.append_nil]
    intro k hk
    exact decide_eq_true fun heq => hnot (heq ▸ hk)
  rw [recognise?, List.findSome?_eq_some_iff]
  refine ⟨earlier, kind, later, hsplit, by rw [hkind]; rfl, fun k hk => ?_⟩
  rw [hnone k (htake ▸ hk) (Option.map_eq_none_iff.mp (hearlier k hk))]
  rfl

section

variable {v : Vocabulary} {t w w' : Text} {kind : Kind} {n : Nat}

/-- The rules that need no end: if what they match lies within a text, it is the same with another
text behind it that separates itself. -/
theorem Kind.length?_append_congr (ht : t ≠ []) (hw : Separates w')
    (hkind : kind ∉ [Kind.string, .regex, .keyword])
    (h : ∀ m ∈ kind.length? v none (t ++ w), m ≤ t.length)
    (hblank : kind = .blank → kind.length? v none (t ++ w) = some t.length →
      ∀ c ∈ w'.head?, isLayout c = false)
    (hcomment : kind = .comment → kind.length? v none (t ++ w) = some t.length → EndsLine w') :
    kind.length? v none (t ++ w') = kind.length? v none (t ++ w) := by
  rcases List.exists_cons_of_ne_nil ht with ⟨c, u, rfl⟩
  cases kind with
  | blank => exact runLength?_append_congr ht h (hblank rfl)
  | comment => exact commentLength?_append_congr ht h (hcomment rfl)
  | number => exact numberLength?_append_congr ht h hw
  | identifier => exact runLength?_append_congr ht h fun _ => hw.isWord_head
  | punctuator | brace | eof | unknown => rfl
  | string | regex | keyword => simp at hkind

/-- Where a regular expression begins there is no string, whatever follows. -/
theorem stringLength?_eq_none_of_regexLength? (ht : t ≠ [])
    (h : regexLength? (t ++ w) = some n) : stringLength? (t ++ w') = none := by
  rcases List.exists_cons_of_ne_nil ht with ⟨c, u, rfl⟩
  unfold regexLength? at h
  split at h
  · next heq =>
    obtain rfl := (List.cons.inj heq).1
    rfl
  · contradiction

/-- A word begins with a word character. -/
theorem exists_isWord_head (ht : t ≠ []) (h : runLength? isWord (t ++ w) = some n) :
    ∃ c u, t = c :: u ∧ isWord c = true := by
  rcases List.exists_cons_of_ne_nil ht with ⟨c, u, rfl⟩
  refine ⟨c, u, rfl, ?_⟩
  rw [← Bool.not_eq_false]
  intro hc
  rcases runLength?_eq_some.mp h with ⟨hpos, hrun⟩
  simp [hc] at hrun
  omega

/-- A token within a text is recognised also with another text behind it, if that separates
itself, if layout and comments do not go on there, and if no literal that has no end in the text
comes to one there and no keyword is found or lost. -/
theorem recognise?_append_congr (ht : t ≠ []) (h : recognise? v none (t ++ w) = some (kind, n))
    (hn : n ≤ t.length) (hw : Separates w')
    (hblank : kind = .blank → n = t.length → ∀ c ∈ w'.head?, isLayout c = false)
    (hcomment : kind = .comment → n = t.length → EndsLine w')
    (hliterals : kind = .keyword →
      (stringLength? (t ++ w) = none → stringLength? (t ++ w') = none) ∧
        (regexLength? (t ++ w) = none → regexLength? (t ++ w') = none))
    (hword : kind = .keyword ∨ kind = .identifier →
      keywordLength? v none (t ++ w') = keywordLength? v none (t ++ w)) :
    recognise? v none (t ++ w') = some (kind, n) := by
  have hlength := (length?_of_recognise? h).2
  apply recognise?_congr h
  · -- The rule that matches.
    rw [← hlength]
    by_cases hclosed : kind ∈ [Kind.string, .regex, .keyword]
    · simp only [List.mem_cons, List.not_mem_nil, or_false] at hclosed
      rcases hclosed with rfl | rfl | rfl
      · exact (closesItself_stringLength?.append_of_le (t := t) hlength hn).trans hlength.symm
      · exact (closesItself_regexLength?.append_of_le (t := t) hlength hn).trans hlength.symm
      · exact hword (Or.inl rfl)
    · rw [hlength]
      have hmatched : ∀ m ∈ kind.length? v none (t ++ w), m ≤ t.length := by
        simpa [hlength] using hn
      apply (Kind.length?_append_congr ht hw hclosed hmatched _ _).trans hlength
      · intro hkind hm
        exact hblank hkind (Option.some.inj (hlength.symm.trans hm))
      · intro hkind hm
        exact hcomment hkind (Option.some.inj (hlength.symm.trans hm))
  · -- The rules that are tried before it.
    intro k hk hnone
    by_cases hclosed : k ∈ [Kind.string, .regex, .keyword]
    · have hlast := ne_last_of_recognise? h
      have hhead : kind = .identifier → ∃ c u, t = c :: u ∧ isWord c = true := by
        rintro rfl
        exact exists_isWord_head ht hlength
      simp only [List.mem_cons, List.not_mem_nil, or_false] at hclosed
      rcases hclosed with rfl | rfl | rfl
      · have hkind : kind = .regex ∨ kind = .keyword ∨ kind = .identifier := by
          revert hk hlast
          cases kind <;> simp [Kind.precedence]
        rcases hkind with rfl | rfl | rfl
        · exact stringLength?_eq_none_of_regexLength? ht hlength
        · exact (hliterals rfl).1 hnone
        · rcases hhead rfl with ⟨c, u, rfl, hc⟩
          exact stringLength?_eq_none hc (u ++ w')
      · have hkind : kind = .keyword ∨ kind = .identifier := by
          revert hk hlast
          cases kind <;> simp [Kind.precedence]
        rcases hkind with rfl | rfl
        · exact (hliterals rfl).2 hnone
        · rcases hhead rfl with ⟨c, u, rfl, hc⟩
          exact regexLength?_eq_none hc (u ++ w')
      · have hkind : kind = .identifier := by
          revert hk hlast
          cases kind <;> simp [Kind.precedence]
        exact (hword (Or.inr hkind)).trans hnone
    · exact (Kind.length?_append_congr ht hw hclosed (by simp [hnone]) (by simp [hnone])
        (by simp [hnone])).trans hnone

/-! ## Three kinds of seam -/

/-- With tables of words, a text that separates itself may follow. -/
theorem recognise?_append_of_hasWords (hv : v.HasWords) (ht : t ≠ [])
    (h : recognise? v none (t ++ w) = some (kind, n)) (hn : n ≤ t.length) (hw : Separates w')
    (hblank : kind = .blank → n = t.length → ∀ c ∈ w'.head?, isLayout c = false)
    (hcomment : kind = .comment → n = t.length → EndsLine w') :
    recognise? v none (t ++ w') = some (kind, n) := by
  have hlength := (length?_of_recognise? h).2
  have hrun : kind = .keyword ∨ kind = .identifier →
      0 < n ∧ ((t ++ w).takeWhile isWord).length = n := by
    rintro (rfl | rfl)
    · have hkeyword := hlength
      simp only [Kind.length?, keywordLength?_eq hv] at hkeyword
      split at hkeyword
      · exact ⟨recognise?_pos hv.hasNoEmptyWord h, Option.some.inj hkeyword⟩
      · contradiction
    · exact runLength?_eq_some.mp hlength
  apply recognise?_append_congr ht h hn hw hblank hcomment
  · intro hkind
    rcases exists_isWord_head ht (runLength?_eq_some.mpr (hrun (Or.inl hkind))) with
      ⟨c, u, rfl, hc⟩
    exact ⟨fun _ => stringLength?_eq_none hc (u ++ w'), fun _ => regexLength?_eq_none hc (u ++ w')⟩
  · intro hkind
    have hsame : (t ++ w').takeWhile isWord = (t ++ w).takeWhile isWord :=
      takeWhile_append_congr ((hrun hkind).2.trans_le hn) fun _ => hw.isWord_head
    rw [keywordLength?_eq hv, keywordLength?_eq hv, hsame]

/-- With tables that have no line feeds, a line may end behind the text instead of its end, and
the other way round. -/
theorem recognise?_append_of_endsLine (hlines : ∀ word ∈ v.words, '\n' ∉ word) (ht : t ≠ [])
    (h : recognise? v none (t ++ w) = some (kind, n)) (hn : n ≤ t.length) (hw : EndsLine w)
    (hw' : EndsLine w') (hblank : kind = .blank → n = t.length → w' = []) :
    recognise? v none (t ++ w') = some (kind, n) := by
  apply recognise?_append_congr ht h hn hw'.separates
  · intro hkind hlength
    simp [hblank hkind hlength]
  · exact fun _ _ => hw'
  · exact fun _ => ⟨fun hnone => closesItself_stringLength?.append_eq_none hnone hw',
      fun hnone => closesItself_regexLength?.append_eq_none hnone hw'⟩
  · intro _
    apply keywordLength?_congr
    intro word hmem
    rw [standsAt_append_of_endsLine (hlines word hmem) hw,
      standsAt_append_of_endsLine (hlines word hmem) hw']

/-- With tables that have no line feeds, text that cannot be read stays so if a line ends behind
it. -/
theorem recognise?_append_eq_none (hlines : ∀ word ∈ v.words, '\n' ∉ word) (ht : t ≠ [])
    (h : recognise? v none t = none) (hw : EndsLine w) : recognise? v none (t ++ w) = none := by
  rw [← List.append_nil t] at h
  have hnone : ∀ k ∈ Kind.precedence, k.length? v none (t ++ []) = none :=
    fun k hk => Option.map_eq_none_iff.mp (List.findSome?_eq_none_iff.mp h k hk)
  refine List.findSome?_eq_none_iff.mpr fun k hk => Option.map_eq_none_iff.mpr ?_
  have hk := hnone k hk
  by_cases hclosed : k ∈ [Kind.string, .regex, .keyword]
  · simp only [List.mem_cons, List.not_mem_nil, or_false] at hclosed
    rcases hclosed with rfl | rfl | rfl
    · exact closesItself_stringLength?.append_eq_none hk hw
    · exact closesItself_regexLength?.append_eq_none hk hw
    · refine (keywordLength?_congr fun word hmem => ?_).trans hk
      rw [standsAt_append_of_endsLine (hlines word hmem) hw,
        standsAt_append_of_endsLine (hlines word hmem) EndsLine.nil]
  · refine (Kind.length?_append_congr ht hw.separates hclosed ?_ ?_ ?_).trans hk <;>
      rw [hk] <;> simp

/-- A token within a text is recognised without what follows the text, unless a word would go on
there; a keyword at the end of the text may need what follows it. -/
theorem recognise?_of_append (ht : t ≠ []) (h : recognise? v none (t ++ w) = some (kind, n))
    (hn : n ≤ t.length) (hkeyword : n = t.length → kind ≠ .keyword)
    (hboundary : isWordAt t.getLast? = true → isWordAt w.head? = false) :
    recognise? v none t = some (kind, n) := by
  rw [← List.append_nil t]
  apply recognise?_append_congr ht h hn Separates.nil
  · simp
  · exact fun _ _ => EndsLine.nil
  · exact fun _ => ⟨fun hnone => closesItself_stringLength?.append_eq_none hnone EndsLine.nil,
      fun hnone => closesItself_regexLength?.append_eq_none hnone EndsLine.nil⟩
  · intro hkind
    rw [List.append_nil]
    refine keywordLength?_of_append (fun word hmem hstands => ?_) hboundary
    -- Every word that stands there is as long as the keyword, or there is none.
    rcases hkind with rfl | rfl
    · have hle := (keywordLength?_eq_some (length?_of_recognise? h).2).2 word hmem hstands
      have hne := hkeyword
      simp only [ne_eq, not_true_eq_false, imp_false] at hne
      omega
    · have hnone : keywordLength? v none (t ++ w) = none :=
        length?_eq_none_of_recognise? [.blank, .comment, .punctuator, .brace, .number, .string,
          .regex, .keyword] rfl h (by decide) .keyword (by decide)
      rcases exists_keywordLength?_eq hmem hstands with ⟨m, hm⟩
      rw [hnone] at hm
      contradiction

end

end RaidTimeline
