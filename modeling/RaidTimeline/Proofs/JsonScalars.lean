import RaidTimeline.Data.Json
import RaidTimeline.Data.JsonReader
import RaidTimeline.Proofs.Numerals

/-!
# Strings and numbers of JSON texts

What is written for a string or a number is read back, whatever follows a string, and unless more
of a number follows a number.  Escapes are the only way in which a quote, a backslash or a control
character stands in a string; a number with a fraction or an exponent is not whole.

Main results:

- Theorem {lit}`Json.readCodes_writeChar`: a character of a string is read back.
- Theorem {lit}`Json.readString_writeString`: a string is read back.
- Theorem {lit}`Json.readNumber_append`: the parts of a number.
- Theorems {lit}`Json.readNumber_ofInt` and {lit}`Json.readNumber_text`: numbers are read back.
- Definition {lit}`Json.IsScalarText`: the texts of words and numbers, which are read back.
-/

namespace RaidTimeline.Json

/-! ## Characters of strings -/

/-- A character that needs no escape stands for itself. -/
theorem readCodes_plain {c : Char} (hquote : c ≠ '"') (hescape : c ≠ '\\')
    (hcontrol : ¬c.toNat < 0x20) (rest : Text) :
    readCodes (c :: rest) = (readCodes rest).map (prepend c.toNat) := by
  rw [readCodes.eq_def]
  simp only [if_neg hquote, if_neg hescape, if_neg hcontrol]

/-- A backslash and a letter stand for one character. -/
theorem readCodes_escape {e : Char} {code : Nat} (h : escapedCode? e = some code) (rest : Text) :
    readCodes ('\\' :: e :: rest) = (readCodes rest).map (prepend code) := by
  have hu : e ≠ 'u' := by
    rintro rfl
    contradiction
  rw [readCodes, if_neg (by decide), if_pos rfl]
  · simp [h]
  · exact fun _ _ _ _ _ heq => absurd heq hu

/-- A control character is written with four hexadecimal digits. -/
theorem readCodes_hex {n : Nat} (h : n < 0x20) (rest : Text) :
    readCodes ('\\' :: 'u' :: Text.ofHex 4 n ++ rest) = (readCodes rest).map (prepend n) := by
  have hvalue : ∀ k : Fin 0x20, hexNumber? (Text.ofHex 4 k) = some k.val := by decide
  have hdigits := hvalue ⟨n, h⟩
  simp only [Text.ofHex, List.nil_append, List.cons_append] at hdigits ⊢
  rw [readCodes, if_neg (by decide), if_pos rfl]
  simp only [hdigits]

/-- What is written for a character is read as its code. -/
theorem readCodes_writeChar (c : Char) (rest : Text) :
    readCodes (writeChar c ++ rest) = (readCodes rest).map (prepend c.toNat) := by
  unfold writeChar
  split_ifs with hquote hescape hline hreturn htab hback hfeed hcontrol
  · subst hquote
    exact readCodes_escape rfl rest
  · subst hescape
    exact readCodes_escape rfl rest
  · subst hline
    exact readCodes_escape rfl rest
  · subst hreturn
    exact readCodes_escape rfl rest
  · subst htab
    exact readCodes_escape rfl rest
  · subst hback
    exact readCodes_escape rfl rest
  · subst hfeed
    exact readCodes_escape rfl rest
  · exact readCodes_hex hcontrol rest
  · exact readCodes_plain hquote hescape hcontrol rest

/-! ## Strings -/

/-- The characters that are written are read back as their code points, up to the closing quote. -/
theorem readCodes_flatMap_writeChar (t rest : Text) :
    readCodes (t.flatMap writeChar ++ '"' :: rest) = some (t.map Char.toNat, rest) := by
  induction t with
  | nil =>
    rw [List.flatMap_nil, List.nil_append, readCodes.eq_def]
    rfl
  | cons c t ih =>
    rw [List.flatMap_cons, List.append_assoc, readCodes_writeChar, ih]
    rfl

/-- No character is a surrogate, so every code stands for itself. -/
theorem joinCodes_cons (c : Char) (codes : List Nat) :
    joinCodes (c.toNat :: codes) = c :: joinCodes codes := by
  have hvalid : ¬(0xD800 ≤ c.toNat ∧ c.toNat < 0xE000) := by
    have hchar : c.toNat < 0xD800 ∨ 0xDFFF < c.toNat ∧ c.toNat < 0x110000 := c.valid
    omega
  cases codes with
  | nil => simp [joinCodes, hvalid, Char.ofNat_toNat]
  | cons m codes =>
    rw [joinCodes, if_neg (by omega), if_neg hvalid, Char.ofNat_toNat]

theorem joinCodes_map_toNat (t : Text) : joinCodes (t.map Char.toNat) = t := by
  induction t with
  | nil => rfl
  | cons c t ih => rw [List.map_cons, joinCodes_cons, ih]

/-- A string is read back, whatever follows it. -/
theorem readString_writeString (t rest : Text) :
    readString (t.flatMap writeChar ++ '"' :: rest) = some (t, rest) := by
  rw [readString, readCodes_flatMap_writeChar, Option.map_some]
  simp only [joinCodes_map_toNat]

/-! ## Parts of numbers -/

/-- Digits are read up to the first other character. -/
theorem spanDigits_append {ds rest : Text} (hds : AreDigits ds)
    (h : ∀ c ∈ rest.head?, c.isDigit = false) : Decimal.spanDigits (ds ++ rest) = (ds, rest) := by
  have htake : (ds ++ rest).takeWhile Char.isDigit = ds := takeWhile_append_of_head? hds h
  have hsplit := List.takeWhile_append_dropWhile (p := Char.isDigit) (l := ds ++ rest)
  rw [htake] at hsplit
  rw [Decimal.spanDigits, htake, List.append_cancel_left hsplit]

/-- The whole part ends where no digit goes on; behind a zero it ends in any case. -/
theorem readWhole_append {w rest : Text} (hw : IsWholePart w)
    (h : ∀ c ∈ rest.head?, c.isDigit = false) : readWhole (w ++ rest) = (w, rest) := by
  rcases List.exists_cons_of_ne_nil hw.ne_nil with ⟨c, ds, rfl⟩
  by_cases hzero : c = '0'
  · have hlone : c :: ds = ['0'] := hw.lone (by rw [hzero, List.head?_cons])
    rw [hlone]
    rfl
  · rw [← spanDigits_append hw.digits h]
    simp [readWhole, hzero]

/-- No fraction is read without a point. -/
theorem readFraction_of_head? {rest : Text} (h : ∀ c ∈ rest.head?, c ≠ '.') :
    readFraction rest = ([], rest) := by
  unfold readFraction
  split
  · exact absurd rfl (h '.' rfl)
  · rfl

/-- A fraction is read up to the first character that is neither a digit nor a point. -/
theorem readFraction_pointed {ds rest : Text} (hds : AreDigits ds)
    (h : ∀ c ∈ rest.head?, c.isDigit = false ∧ c ≠ '.') :
    readFraction (Decimal.pointed ds ++ rest) = (ds, rest) := by
  cases ds with
  | nil => exact readFraction_of_head? fun c hc => (h c hc).2
  | cons c ds =>
    have hsplit := spanDigits_append hds fun d hd => (h d hd).1
    rw [List.cons_append] at hsplit
    simp [Decimal.pointed, readFraction, hsplit]

/-- No exponent is read where no word goes on. -/
theorem readExponent_of_separates {rest : Text} (h : Separates rest) :
    readExponent rest = (none, rest) := by
  unfold readExponent
  split
  · rfl
  · next c rest =>
    have hword := h.isWord_head c rfl
    rw [if_neg]
    rintro (rfl | rfl)
    · contradiction
    · contradiction

/-- An exponent is a letter, a sign and digits. -/
theorem readExponent_append {exponent : Int} {ds rest : Text} (hne : ds ≠ [])
    (hds : AreDigits ds) (hvalue : Text.toNat ds = exponent.natAbs)
    (h : ∀ c ∈ rest.head?, c.isDigit = false) :
    readExponent ('e' :: (if exponent < 0 then '-' else '+') :: (ds ++ rest)) =
      (some exponent, rest) := by
  have hsplit := spanDigits_append hds h
  rcases List.exists_cons_of_ne_nil hne with ⟨c, ds, rfl⟩
  rw [List.cons_append] at hsplit
  by_cases hnegative : exponent < 0
  · have hexponent : -(Text.toNat (c :: ds) : Int) = exponent := by omega
    simp [readExponent, Decimal.spanSign, hnegative, hsplit, hexponent]
  · have hexponent : (Text.toNat (c :: ds) : Int) = exponent := by omega
    simp [readExponent, Decimal.spanSign, hnegative, hsplit, hexponent]

/-- A number is read part by part: its sign, its whole part, its fraction and its exponent. -/
theorem readNumber_append (negative : Bool) {w f tail behind rest : Text} {exponent : Option Int}
    (hw : IsWholePart w) (htail : ∀ c ∈ tail.head?, c.isDigit = false)
    (hfraction : readFraction tail = (f, behind))
    (hexponent : readExponent behind = (exponent, rest)) :
    readNumber (Binary64.sign negative ++ (w ++ tail)) =
      if f.isEmpty && exponent.isNone then
        some (.integer (if negative then -(Text.toNat w : Int) else Text.toNat w), rest)
      else
        some (.real (.ofDecimal negative ⟨(Decimal.ofParts w f).digits,
          (Decimal.ofParts w f).exponent + exponent.getD 0⟩), rest) := by
  have hwhole := readWhole_append hw htail
  rcases List.exists_cons_of_ne_nil hw.ne_nil with ⟨c, ds, rfl⟩
  have hminus : c ≠ '-' := by
    rintro rfl
    exact absurd (hw.digits '-' List.mem_cons_self) (by decide)
  rw [List.cons_append] at hwhole
  cases negative with
  | true =>
    simp only [readNumber, Binary64.sign, if_true, List.cons_append, List.nil_append, hwhole,
      hfraction, hexponent]
  | false =>
    simp [readNumber, Binary64.sign, hminus, hwhole, hfraction, hexponent]

/-! ## Numbers -/

section

variable {rest : Text} (h : Separates rest)
include h

/-- A whole number is read back. -/
theorem readNumber_ofInt (n : Int) :
    readNumber (Text.ofInt n ++ rest) = some (.integer n, rest) := by
  have hfraction : readFraction rest = ([], rest) := readFraction_of_head? fun c hc => (h c hc).2
  have hexponent := readExponent_of_separates h
  cases n with
  | ofNat k =>
    have hread := readNumber_append false (isWholePart_ofNat k) h.isDigit_head hfraction hexponent
    rw [Text.toNat_ofNat] at hread
    exact hread
  | negSucc k =>
    have hread := readNumber_append true (isWholePart_ofNat (k + 1)) h.isDigit_head hfraction
      hexponent
    rw [Text.toNat_ofNat] at hread
    exact hread

/-- A number with a fraction is read as the decimal number that its digits denote. -/
theorem readNumber_pointed (negative : Bool) {w f : Text} (hw : IsWholePart w) (hf : AreDigits f)
    (hne : f ≠ []) :
    readNumber (Binary64.sign negative ++ (w ++ Decimal.pointed f) ++ rest) =
      some (.real (.ofDecimal negative (Decimal.ofParts w f)), rest) := by
  have htail : ∀ c ∈ (Decimal.pointed f ++ rest).head?, c.isDigit = false := by
    rcases List.exists_cons_of_ne_nil hne with ⟨c, f, rfl⟩
    simp [Decimal.pointed]
  have hfraction : readFraction (Decimal.pointed f ++ rest) = (f, rest) :=
    readFraction_pointed hf fun c hc => ⟨h.isDigit_head c hc, (h c hc).2⟩
  have hread := readNumber_append negative hw htail hfraction (readExponent_of_separates h)
  rw [List.append_assoc, List.append_assoc, hread]
  simp [hne]

/-- A number with an exponent is read as the decimal number that its digits denote. -/
theorem readNumber_exponent (negative : Bool) {w f ds : Text} {exponent : Int}
    (hw : IsWholePart w) (hf : AreDigits f) (hds : AreDigits ds) (hne : ds ≠ [])
    (hvalue : Text.toNat ds = exponent.natAbs) :
    readNumber (Binary64.sign negative ++
        (w ++ (Decimal.pointed f ++ 'e' :: (if exponent < 0 then '-' else '+') :: ds)) ++ rest) =
      some (.real (.ofDecimal negative
        ⟨(Decimal.ofParts w f).digits, (Decimal.ofParts w f).exponent + exponent⟩), rest) := by
  have hexponent := readExponent_append hne hds hvalue h.isDigit_head
  generalize htext : 'e' :: (if exponent < 0 then '-' else '+') :: (ds ++ rest) = text at hexponent
  have hhead : ∀ c ∈ text.head?, c.isDigit = false ∧ c ≠ '.' := by
    simp [← htext]
  have htail : ∀ c ∈ (Decimal.pointed f ++ text).head?, c.isDigit = false := by
    cases f with
    | nil => exact fun c hc => (hhead c hc).1
    | cons => simp [Decimal.pointed]
  have hread := readNumber_append negative hw htail (readFraction_pointed hf hhead) hexponent
  rw [← htext] at hread
  simpa using hread

end

/-! ## Layouts of numbers -/

/-- A positive decimal number is laid out with one digit in front of the point, and the exponent
of that digit. -/
theorem exists_scientific_eq {d : Decimal} (h : d.digits ≠ 0) :
    ∃ w f ds, d.scientific =
        w ++ (Decimal.pointed f ++ 'e' :: (if d.point - 1 < 0 then '-' else '+') :: ds) ∧
      IsWholePart w ∧ w.length = 1 ∧ AreDigits f ∧ w ++ f = Text.ofNat d.digits ∧
        AreDigits ds ∧ ds ≠ [] ∧ Text.toNat ds = (d.point - 1).natAbs := by
  have hwhole := isWholePart_ofNat d.digits
  have hhead := head?_ofNat_ne_zero h
  have hplaces := isWholePart_ofNat (d.point - 1).natAbs
  rcases hdigits : Text.ofNat d.digits with _ | ⟨c, f⟩
  · exact absurd hdigits hwhole.ne_nil
  rw [hdigits] at hwhole hhead
  refine ⟨[c], f, Decimal.zeros (2 - (Text.ofNat (d.point - 1).natAbs).length) ++
    Text.ofNat (d.point - 1).natAbs, ?_, ?_, rfl, ?_, rfl, ?_, ?_, ?_⟩
  · cases f <;> simp [Decimal.scientific, hdigits, Decimal.pointed]
  · exact isWholePart_of_head? (List.cons_ne_nil _ _)
      (fun d hd => hwhole.digits d (by simp_all)) hhead
  · exact fun d hd => hwhole.digits d (List.mem_cons_of_mem c hd)
  · exact (AreDigits.zeros _).append hplaces.digits
  · simp [hplaces.ne_nil]
  · rw [Text.toNat_zeros_append, Text.toNat_ofNat]

section

variable {d : Decimal} (hd : d.digits ≠ 0) (negative : Bool) {rest : Text} (h : Separates rest)
include hd h

/-- A number with an exponent is read back. -/
theorem readNumber_scientific :
    readNumber (Binary64.sign negative ++ d.scientific ++ rest) =
      some (.real (.ofDecimal negative d), rest) := by
  rcases exists_scientific_eq hd with
    ⟨w, f, ds, htext, hw, hone, hf, hdigits, hds, hne, hvalue⟩
  have hparts : Decimal.ofParts w f = ⟨d.digits, -(f.length : Int)⟩ := by
    rw [Decimal.ofParts, hdigits, Text.toNat_ofNat]
  have hlength : (Text.ofNat d.digits).length = f.length + 1 := by
    rw [← hdigits, List.length_append]
    omega
  have hexponent : -(f.length : Int) + (d.point - 1) = d.exponent := by
    rw [Decimal.point, hlength]
    omega
  rw [htext, readNumber_exponent h negative hw hf hds hne hvalue, hparts, hexponent]

/-- A number with a fraction is read back. -/
theorem readNumber_positional (hexponent : d.exponent < 0) :
    readNumber (Binary64.sign negative ++ d.positional ++ rest) =
      some (.real (.ofDecimal negative d), rest) := by
  rcases Decimal.exists_positional_eq hd with ⟨w, f, htext, hw, hf, hvalue, hlength⟩
  have hne : f ≠ [] := by
    rw [← List.length_pos_iff]
    omega
  have hparts : Decimal.ofParts w f = d := by
    have hscale : d.exponent.toNat = 0 := by omega
    have hplaces : -(f.length : Int) = d.exponent := by omega
    rw [Decimal.ofParts, hvalue, hscale, Nat.pow_zero, Nat.mul_one, hplaces]
  rw [htext, readNumber_pointed h negative hw hf hne, hparts]

/-- A whole number with a zero behind its point is read back, as a number that has a fraction. -/
theorem readNumber_positional_zero (hexponent : 0 ≤ d.exponent) :
    readNumber (Binary64.sign negative ++ (d.positional ++ ".0".toList) ++ rest) =
      some (.real (.ofDecimal negative d), rest) := by
  rcases Decimal.exists_positional_eq hd with ⟨w, f, htext, hw, -, hvalue, hlength⟩
  obtain rfl : f = [] := by
    rw [← List.length_eq_zero_iff]
    omega
  have hparts : Decimal.ofParts w ['0'] = ⟨d.digits * 10 ^ d.exponent.toNat * 10 ^ 1, -1⟩ := by
    rw [List.append_nil] at hvalue
    rw [Decimal.ofParts, show ['0'] = Decimal.zeros 1 from rfl, Text.toNat_append_zeros, hvalue]
    rfl
  have hscale : -1 + ((1 : Nat) : Int) + (d.exponent.toNat : Int) = d.exponent := by omega
  have hread := readNumber_pointed h negative hw (AreDigits.zeros 1) (List.cons_ne_nil _ _)
  rw [show Decimal.zeros 1 = ['0'] from rfl, hparts, Binary64.ofDecimal_rescale,
    Binary64.ofDecimal_rescale, hscale] at hread
  rw [htext, Decimal.pointed, List.append_nil]
  exact hread

end

/-- A finite number is read back, with its sign, and never as a whole number. -/
theorem readNumber_text (v : Binary64.Finite) {rest : Text} (h : Separates rest) :
    readNumber ((Binary64.finite v).text ++ rest) = some (.real (.finite v), rest) := by
  have hshortest := v.ofDecimal_shortest
  by_cases hzero : v.mantissa = 0
  · have hunits : v.units = 0 := by
      rw [Binary64.Finite.units, hzero, Nat.zero_mul]
    have hread := readNumber_pointed h v.negative isWholePart_zero (AreDigits.zeros 1)
      (List.cons_ne_nil _ _)
    rw [Binary64.ofDecimal_of_digits_eq_zero rfl, ← Binary64.finite_eq_zero hunits] at hread
    simp only [Binary64.text, if_pos hzero]
    exact hread
  · have hdigits := Binary64.Finite.digits_shortest_ne_zero hzero
    simp only [Binary64.text, if_neg hzero]
    split_ifs with hlarge hexponent
    · rw [readNumber_scientific hdigits v.negative h, hshortest]
    · rw [readNumber_positional_zero hdigits v.negative h hexponent, hshortest]
    · rw [readNumber_positional hdigits v.negative h (by omega), hshortest]

/-! ## Words and numbers -/

/-- A number is written as a sign, a whole part and what belongs to it. -/
def IsNumberText (t : Text) : Prop :=
  ∃ negative w tail, t = Binary64.sign negative ++ (w ++ tail) ∧ IsWholePart w

/-- An integer is written as a number. -/
theorem isNumberText_ofInt (n : Int) : IsNumberText (Text.ofInt n) := by
  cases n with
  | ofNat k => exact ⟨false, _, [], (List.append_nil _).symm, isWholePart_ofNat k⟩
  | negSucc k => exact ⟨true, _, [], by rw [List.append_nil]; rfl, isWholePart_ofNat (k + 1)⟩

/-- A finite floating point number is written as a number. -/
theorem isNumberText_text (v : Binary64.Finite) : IsNumberText (Binary64.finite v).text := by
  by_cases hzero : v.mantissa = 0
  · simp only [Binary64.text, if_pos hzero]
    exact ⟨v.negative, ['0'], ".0".toList, rfl, isWholePart_zero⟩
  · have hdigits := Binary64.Finite.digits_shortest_ne_zero hzero
    rcases exists_scientific_eq hdigits with ⟨w, f, ds, hscientific, hw, -⟩
    rcases Decimal.exists_positional_eq hdigits with ⟨w', f', hpositional, hw', -⟩
    simp only [Binary64.text, if_neg hzero]
    split_ifs
    · exact ⟨v.negative, w, _, by rw [hscientific], hw⟩
    · exact ⟨v.negative, w', _, by rw [hpositional, List.append_assoc], hw'⟩
    · exact ⟨v.negative, w', _, by rw [hpositional], hw'⟩

/-- A number begins with a minus sign or a digit. -/
theorem IsNumberText.exists_head {t : Text} (h : IsNumberText t) :
    ∃ c rest, t = c :: rest ∧ (c = '-' ∨ c.isDigit = true) := by
  rcases h with ⟨negative, w, tail, rfl, hw⟩
  cases negative with
  | true => exact ⟨'-', w ++ tail, rfl, Or.inl rfl⟩
  | false =>
    rcases List.exists_cons_of_ne_nil hw.ne_nil with ⟨c, ds, rfl⟩
    exact ⟨c, ds ++ tail, rfl, Or.inr (hw.digits c List.mem_cons_self)⟩

/-- No word stands in front of a number. -/
theorem IsNumberText.readScalar_append {t : Text} (h : IsNumberText t) (rest : Text) :
    readScalar (t ++ rest) = readNumber (t ++ rest) := by
  rcases h with ⟨negative, w, tail, rfl, hw⟩
  rcases List.exists_cons_of_ne_nil hw.ne_nil with ⟨c, ds, rfl⟩
  have hc : c.isDigit = true := hw.digits c List.mem_cons_self
  have hne : ∀ {d : Char}, d.isDigit = false → d ≠ c := by
    rintro d hd rfl
    rw [hc] at hd
    contradiction
  have hnames : names.find?
      (·.1.isPrefixOf (Binary64.sign negative ++ (c :: ds ++ tail) ++ rest)) = none := by
    cases negative <;> simp [names, Binary64.sign, hne]
  rw [readScalar, hnames]

/-- The text of a value that is a word or a number: it begins as nothing else does, and is read
back unless a word or a number goes on. -/
structure IsScalarText (t : Text) (v : Value) : Prop where
  head : ∃ c rest, t = c :: rest ∧ isBlank c = false ∧ c ∉ ['"', '[', ']', '\x7b']
  read : ∀ rest, Separates rest → readScalar (t ++ rest) = some (v, rest)

/-- A number that is read back is the text of its value. -/
theorem IsNumberText.isScalarText {t : Text} {v : Value} (h : IsNumberText t)
    (hread : ∀ rest, Separates rest → readNumber (t ++ rest) = some (v, rest)) :
    IsScalarText t v where
  head := by
    rcases h.exists_head with ⟨c, rest, rfl, hc⟩
    refine ⟨c, rest, rfl, ?_⟩
    have hne : ∀ {d : Char}, d ≠ '-' → d.isDigit = false → c ≠ d := by
      rintro d hminus hdigit rfl
      rcases hc with rfl | hc
      · contradiction
      · rw [hc] at hdigit
        contradiction
    simp [isBlank, hne]
  read := by
    intro rest hrest
    rw [h.readScalar_append, hread rest hrest]

theorem isScalarText_null : IsScalarText (write .null) .null :=
  ⟨⟨'n', _, rfl, rfl, by decide⟩, fun _ _ => rfl⟩

theorem isScalarText_bool (b : Bool) : IsScalarText (write (.bool b)) (.bool b) := by
  cases b with
  | true => exact ⟨⟨'t', _, rfl, rfl, by decide⟩, fun _ _ => rfl⟩
  | false => exact ⟨⟨'f', _, rfl, rfl, by decide⟩, fun _ _ => rfl⟩

theorem isScalarText_integer (n : Int) : IsScalarText (write (.integer n)) (.integer n) :=
  (isNumberText_ofInt n).isScalarText fun _ h => readNumber_ofInt h n

/-- Floating point numbers are read back, the special ones by their names. -/
theorem isScalarText_real (x : Binary64) : IsScalarText (write (.real x)) (.real x) := by
  cases x with
  | nan => exact ⟨⟨'N', _, rfl, rfl, by decide⟩, fun _ _ => rfl⟩
  | infinite negative =>
    cases negative with
    | true => exact ⟨⟨'-', _, rfl, rfl, by decide⟩, fun _ _ => rfl⟩
    | false => exact ⟨⟨'I', _, rfl, rfl, by decide⟩, fun _ _ => rfl⟩
  | finite v => exact (isNumberText_text v).isScalarText fun _ h => readNumber_text v h

end RaidTimeline.Json
