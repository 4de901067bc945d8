/-!
# Texts

A text is the list of its characters.  Every offset, column and length of the library counts
characters of such a list.

Main results:

- Definition {lit}`Text.ofNat`: the decimal digits of a natural number.
- Definition {lit}`Text.splitOn`: the parts of a text between separators.
- Theorems {lit}`Text.splitOn_join` and {lit}`Text.join_splitOn`: splitting and joining undo each
  other.
-/

namespace RaidTimeline

/-- A text is the list of its characters. -/
abbrev Text := List Char

namespace Text

/-- The decimal digit of a number below ten. -/
def digit (n : Nat) : Char := Char.ofNat (48 + n % 10)

/-- The decimal digits of a natural number, without leading zeros. -/
def ofNat (n : Nat) : Text :=
  if n < 10 then [digit n] else ofNat (n / 10) ++ [digit n]
termination_by n

/-- The decimal digits of an integer, after a minus sign if it is negative. -/
def ofInt : Int → Text
  | .ofNat n => ofNat n
  | .negSucc n => '-' :: ofNat (n + 1)

/-- The value of a decimal digit; other characters count as zero. -/
def digitValue (c : Char) : Nat := if c.isDigit then c.toNat - 48 else 0

/-- The number that a run of decimal digits denotes. -/
def toNat (t : Text) : Nat := t.foldl (fun n c => 10 * n + digitValue c) 0

/-- The lowercase hexadecimal digit of a number below sixteen. -/
def hexDigit (n : Nat) : Char :=
  if n % 16 < 10 then Char.ofNat (48 + n % 16) else Char.ofNat (87 + n % 16)

/-- The lowest {lit}`width` hexadecimal digits of a number. -/
def ofHex : Nat → Nat → Text
  | 0, _ => []
  | width + 1, n => ofHex width (n / 16) ++ [hexDigit n]

/-- The parts of a text between occurrences of a separator; there is always at least one. -/
def splitOn (separator : Char) : Text → List Text
  | [] => [[]]
  | c :: rest =>
      if c = separator then [] :: splitOn separator rest
      else
        match splitOn separator rest with
        | [] => [[c]]
        | part :: parts => (c :: part) :: parts

/-- The parts of a list of texts, with a separator between neighbours. -/
def join (separator : Text) : List Text → Text
  | [] => []
  | [part] => part
  | part :: next :: parts => part ++ separator ++ join separator (next :: parts)

/-- There is always a part. -/
theorem splitOn_ne_nil (separator : Char) (t : Text) : splitOn separator t ≠ [] := by
  fun_cases splitOn separator t <;> simp

/-- A text without separators is one part. -/
theorem splitOn_of_not_mem {separator : Char} {t : Text} (h : separator ∉ t) :
    splitOn separator t = [t] := by
  induction t with
  | nil => rfl
  | cons c t ih =>
    rw [List.mem_cons, not_or] at h
    rw [splitOn, if_neg (Ne.symm h.1), ih h.2]

/-- In front of the first separator is the first part, and the others are those behind it. -/
theorem splitOn_append_cons {separator : Char} {part : Text} (h : separator ∉ part)
    (rest : Text) :
    splitOn separator (part ++ separator :: rest) = part :: splitOn separator rest := by
  induction part with
  | nil => simp [splitOn]
  | cons c part ih =>
    rw [List.mem_cons, not_or] at h
    rw [List.cons_append, splitOn, if_neg (Ne.symm h.1), ih h.2]

/-- Parts without separators can be read off the text that they are joined to. -/
theorem splitOn_join {separator : Char} {parts : List Text} (hne : parts ≠ [])
    (h : ∀ part ∈ parts, separator ∉ part) :
    splitOn separator (join [separator] parts) = parts := by
  fun_induction join [separator] parts with
  | case1 => contradiction
  | case2 part => exact splitOn_of_not_mem (h part List.mem_cons_self)
  | case3 part next parts ih =>
    rw [List.append_assoc, List.singleton_append,
      splitOn_append_cons (h part List.mem_cons_self),
      ih (List.cons_ne_nil next parts) fun p hp => h p (List.mem_cons_of_mem part hp)]

/-- The parts of a text are joined to the text again. -/
theorem join_splitOn (separator : Char) (t : Text) :
    join [separator] (splitOn separator t) = t := by
  fun_induction splitOn separator t with
  | case1 => rfl
  | case2 rest ih =>
    rcases List.exists_cons_of_ne_nil (splitOn_ne_nil separator rest) with ⟨part, parts, heq⟩
    rw [heq] at ih ⊢
    rw [join, ih]
    rfl
  | case3 c rest hc heq ih => exact absurd heq (splitOn_ne_nil separator rest)
  | case4 c rest hc part parts heq ih =>
    rw [heq] at ih
    cases parts with
    | nil => exact congrArg (c :: ·) ih
    | cons next parts => exact congrArg (c :: ·) ih

/-- No part of a text has a separator in it. -/
theorem not_mem_of_mem_splitOn {separator : Char} {t : Text} :
    ∀ part ∈ splitOn separator t, separator ∉ part := by
  fun_induction splitOn separator t with
  | case1 => simp
  | case2 rest ih => simpa using ih
  | case3 c rest hc heq ih => exact absurd heq (splitOn_ne_nil separator rest)
  | case4 c rest hc part parts heq ih =>
    rw [heq, List.forall_mem_cons] at ih
    rw [List.forall_mem_cons, List.mem_cons, not_or]
    exact ⟨⟨Ne.symm hc, ih.1⟩, ih.2⟩

/-- There is one part more than there are separators. -/
theorem length_splitOn (separator : Char) (t : Text) :
    (splitOn separator t).length = t.count separator + 1 := by
  fun_induction splitOn separator t with
  | case1 => rfl
  | case2 rest ih => rw [List.length_cons, ih, List.count_cons_self]
  | case3 c rest hc heq ih => exact absurd heq (splitOn_ne_nil separator rest)
  | case4 c rest hc part parts heq ih =>
    rw [heq] at ih
    rw [List.count_cons_of_ne hc, ← ih]
    rfl

/-- Every part followed by a line end. -/
def lines (parts : List Text) : Text := parts.flatMap (· ++ ['\n'])

/-- A text is searched for in a list by comparing it with every member. -/
instance (t : Text) (parts : List Text) : Decidable (t ∈ parts) := inferInstance

end Text

end RaidTimeline
