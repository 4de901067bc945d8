import Mathlib.Data.List.Forall2
import Mathlib.Data.List.Induction
import Mathlib.Data.List.TakeWhile
import RaidTimeline.Proofs.Fallback

/-!
# Effective tables

The tables of words can be written in several ways: as a list, as a text with commas, or not at
all.  However they are written, the log line types are those of their own setting, unchanged, and
behind them the extra ones that are not among them, each once; and there are always keywords.

Main results:

- Definition {lit}`Text.Trims` and theorem {lit}`Text.trim_eq_iff`: texts without the white space
  around them.
- Definition {lit}`Settings.StandsFor`: the words that a setting stands for.
- Definition {lit}`Settings.IsAddition`: words that are added to a table.
- Theorem {lit}`Settings.exists_isAddition`: extra words are added, and nothing else is changed.
- Definition {lit}`Settings.HasTables`: the tables that belong to the fields of a file.
- Theorem {lit}`Settings.loadWith_tables`: the settings of every file have these tables, in
  whichever way the words are written.
-/

namespace RaidTimeline

/-! ## White space around words -/

namespace Text

/-- A word is what is left of a text without the white space around it: it neither begins nor ends
with white space. -/
structure Trims (t word : Text) : Prop where
  around : ∃ front back, t = front ++ (word ++ back) ∧
    (∀ c ∈ front, isBlank c = true) ∧ ∀ c ∈ back, isBlank c = true
  first : ∀ c ∈ word.head?, isBlank c = false
  last : ∀ c ∈ word.getLast?, isBlank c = false

/-- Nothing is dropped from a text that begins with something else. -/
theorem dropWhile_eq_self {p : Char → Bool} {t : Text} (h : ∀ c ∈ t.head?, p c = false) :
    t.dropWhile p = t := by
  cases t with
  | nil => rfl
  | cons c t => rw [List.dropWhile_cons_of_neg (by simp [h c rfl])]

/-- What is left begins with something else. -/
theorem head?_dropWhile {p : Char → Bool} {t : Text} :
    ∀ c ∈ (t.dropWhile p).head?, p c = false := by
  intro c hc
  have hhead := List.head?_dropWhile_not p t
  rwa [Option.mem_def.mp hc] at hhead

/-- Trimming leaves the word that white space stands around. -/
theorem trim_eq_iff {t word : Text} : t.trim = word ↔ t.Trims word := by
  constructor
  · rintro rfl
    -- The text is cut in front of the word, and the rest, read backwards, behind it.
    have hfront := List.takeWhile_append_dropWhile (p := isBlank) (l := t)
    have hback := List.takeWhile_append_dropWhile (p := isBlank)
      (l := (t.dropWhile isBlank).reverse)
    have hrest : t.dropWhile isBlank =
        t.trim ++ ((t.dropWhile isBlank).reverse.takeWhile isBlank).reverse := by
      rw [trim, ← List.reverse_append, hback, List.reverse_reverse]
    refine ⟨⟨t.takeWhile isBlank, ((t.dropWhile isBlank).reverse.takeWhile isBlank).reverse,
      ?_, ?_, ?_⟩, ?_, ?_⟩
    · rw [← hrest, hfront]
    · exact fun c hc => List.mem_takeWhile_imp hc
    · exact fun c hc => List.mem_takeWhile_imp (List.mem_reverse.mp hc)
    · intro c hc
      refine head?_dropWhile (t := t) c ?_
      rw [hrest, List.head?_append, Option.mem_def.mp hc]
      rfl
    · intro c hc
      rw [trim, List.getLast?_reverse] at hc
      exact head?_dropWhile c hc
  · rintro ⟨⟨front, back, rfl, hfront, hback⟩, hfirst, hlast⟩
    rw [trim, List.dropWhile_append_of_pos hfront]
    cases word with
    | nil => simp [List.dropWhile_eq_nil_iff.mpr hback]
    | cons c word =>
      have hkept : ((c :: word) ++ back).dropWhile isBlank = (c :: word) ++ back :=
        dropWhile_eq_self fun d hd => hfirst d (by simpa using hd)
      have hback' : ∀ d ∈ back.reverse, isBlank d = true :=
        fun d hd => hback d (List.mem_reverse.mp hd)
      rw [hkept, List.reverse_append, List.dropWhile_append_of_pos hback', dropWhile_eq_self,
        List.reverse_reverse]
      intro d hd
      rw [List.head?_reverse] at hd
      exact hlast d hd

end Text

namespace Settings

/-! ## What a setting stands for -/

/-- The words that a setting stands for: the members of a list in words, or what is left of the
parts of a text between commas without the white space around them, if anything is.  A setting
that is missing or has no value stands for no words, and one of another kind for the words that
are used otherwise. -/
inductive StandsFor (otherwise : List Text) : Option Value → List Text → Prop where
  | missing : StandsFor otherwise none []
  | null : StandsFor otherwise (some .null) []
  | list (items : List Value) : StandsFor otherwise (some (.array items)) (items.map Value.text)
  | text {parts words : List Text} :
      parts ≠ [] → (∀ part ∈ parts, ',' ∉ part) → List.Forall₂ Text.Trims parts words →
        StandsFor otherwise (some (.string (Text.join [','] parts)))
          (words.filter (!·.isEmpty))
  | other {v : Value} :
      v ≠ .null → (∀ items, v ≠ .array items) → (∀ t, v ≠ .string t) →
        StandsFor otherwise (some v) otherwise

/-- The words of parts with commas between them. -/
theorem wordsOf_join {parts words : List Text} (hne : parts ≠ [])
    (hcomma : ∀ part ∈ parts, ',' ∉ part) (hwords : List.Forall₂ Text.Trims parts words) :
    wordsOf (Text.join [','] parts) = words.filter (!·.isEmpty) := by
  have htrim : parts.map Text.trim = words := by
    clear hne hcomma
    induction hwords with
    | nil => rfl
    | cons hword _ ih => rw [List.map_cons, Text.trim_eq_iff.mpr hword, ih]
  rw [wordsOf, Text.splitOn_join hne hcomma, htrim]

/-- Every text stands for its words. -/
theorem standsFor_wordsOf (otherwise : List Text) (t : Text) :
    StandsFor otherwise (some (.string t)) (wordsOf t) := by
  have hwords : List.Forall₂ Text.Trims (Text.splitOn ',' t)
      ((Text.splitOn ',' t).map Text.trim) :=
    List.forall₂_map_right_iff.mpr
      (List.forall₂_same.mpr fun part _ => Text.trim_eq_iff.mp rfl)
  have htext : StandsFor otherwise (some (.string (Text.join [','] (Text.splitOn ',' t)))) _ :=
    .text (Text.splitOn_ne_nil ',' t) Text.not_mem_of_mem_splitOn hwords
  rwa [Text.join_splitOn] at htext

variable {s : Settings} {key : Text} {otherwise words : List Text}

/-- The words of a setting are those that it stands for. -/
theorem wordsOr_eq_iff :
    s.wordsOr key otherwise = words ↔ StandsFor otherwise (Value.field? s.values key) words := by
  unfold wordsOr
  constructor
  · rintro rfl
    rcases Value.field? s.values key with _ | v
    · exact .missing
    · cases v with
      | null => exact .null
      | array items => exact .list items
      | string t => exact standsFor_wordsOf otherwise t
      | bool | integer | real | object =>
        exact .other Value.noConfusion (fun _ => Value.noConfusion) fun _ => Value.noConfusion
  · intro h
    generalize Value.field? s.values key = v at h ⊢
    cases h with
    | missing | null | list => rfl
    | text hne hcomma hwords => exact wordsOf_join hne hcomma hwords
    | @other v hnull harray hstring =>
      cases v with
      | null => contradiction
      | array items => exact absurd rfl (harray items)
      | string t => exact absurd rfl (hstring t)
      | bool | integer | real | object => rfl

/-! ## Words that are added to a table -/

/-- Words that are added to a table: those of the extra words that the table does not have, each
once, in the order in which they appear first. -/
structure IsAddition (base extra added : List Text) : Prop where
  mem_iff : ∀ word, word ∈ added ↔ word ∈ extra ∧ word ∉ base
  nodup : added.Nodup
  ordered : added.Pairwise fun u w => extra.idxOf u < extra.idxOf w

namespace IsAddition

variable {base extra added : List Text} {word : Text}

theorem nil (base : List Text) : IsAddition base [] [] where
  mem_iff := by simp
  nodup := List.nodup_nil
  ordered := List.Pairwise.nil

/-- Words that are added appear first where they did before other extra words followed. -/
theorem idxOf_append (h : IsAddition base extra added) (rest : List Text) :
    ∀ w ∈ added, (extra ++ rest).idxOf w = extra.idxOf w := by
  intro w hw
  exact List.idxOf_append_of_mem ((h.mem_iff w).mp hw).1

/-- The order of first appearance stays when another extra word follows. -/
theorem ordered_append (h : IsAddition base extra added) (rest : List Text) :
    added.Pairwise fun u w => (extra ++ rest).idxOf u < (extra ++ rest).idxOf w := by
  refine h.ordered.imp_of_mem fun hu hw hlt => ?_
  rwa [h.idxOf_append rest _ hu, h.idxOf_append rest _ hw]

/-- A word that is there already is not added. -/
theorem concat_of_mem (h : IsAddition base extra added) (hword : word ∈ base ++ added) :
    IsAddition base (extra ++ [word]) added where
  mem_iff := by
    intro w
    rw [h.mem_iff, List.mem_append, List.mem_singleton]
    constructor
    · rintro ⟨hextra, hbase⟩
      exact ⟨Or.inl hextra, hbase⟩
    · rintro ⟨hextra | rfl, hbase⟩
      · exact ⟨hextra, hbase⟩
      · exact (h.mem_iff w).mp ((List.mem_append.mp hword).resolve_left hbase)
  nodup := h.nodup
  ordered := h.ordered_append [word]

/-- A word that is not there yet is added behind the others. -/
theorem concat_of_not_mem (h : IsAddition base extra added) (hword : word ∉ base ++ added) :
    IsAddition base (extra ++ [word]) (added ++ [word]) := by
  rw [List.mem_append, not_or] at hword
  have hextra : word ∉ extra := fun hw => hword.2 ((h.mem_iff word).mpr ⟨hw, hword.1⟩)
  constructor
  · intro w
    rw [List.mem_append, List.mem_append, List.mem_singleton, h.mem_iff]
    constructor
    · rintro (⟨hw, hbase⟩ | rfl)
      · exact ⟨Or.inl hw, hbase⟩
      · exact ⟨Or.inr rfl, hword.1⟩
    · rintro ⟨hw | rfl, hbase⟩
      · exact Or.inl ⟨hw, hbase⟩
      · exact Or.inr rfl
  · refine List.nodup_append.mpr ⟨h.nodup, List.pairwise_singleton _ word, ?_⟩
    rintro u hu w hw rfl
    exact hword.2 (List.mem_singleton.mp hw ▸ hu)
  · refine List.pairwise_append.mpr ⟨h.ordered_append [word], List.pairwise_singleton _ word, ?_⟩
    intro u hu w hw
    obtain rfl := List.mem_singleton.mp hw
    rw [h.idxOf_append [w] u hu, List.idxOf_append_of_notMem hextra]
    exact Nat.lt_of_lt_of_le (List.idxOf_lt_length_iff.mpr ((h.mem_iff u).mp hu).1)
      (Nat.le_add_right _ _)

end IsAddition

/-- One more extra word is added unless the table has it by then. -/
theorem extend_concat (base extra : List Text) (word : Text) :
    extend base (extra ++ [word]) =
      if word ∈ extend base extra then extend base extra else extend base extra ++ [word] := by
  rw [extend, List.foldl_append]
  rfl

/-- A table keeps its words when others are added. -/
theorem exists_isAddition (base extra : List Text) :
    ∃ added, extend base extra = base ++ added ∧ IsAddition base extra added := by
  -- The loop looks for a word in the table that it makes itself longer, so the invariant is about
  -- the extra words up to now.
  induction extra using List.reverseRecOn with
  | nil => exact ⟨[], (List.append_nil base).symm, .nil base⟩
  | append_singleton extra word ih =>
    rcases ih with ⟨added, hextend, hadded⟩
    rw [extend_concat, hextend]
    by_cases hword : word ∈ base ++ added
    · rw [if_pos hword]
      exact ⟨added, rfl, hadded.concat_of_mem hword⟩
    · rw [if_neg hword]
      exact ⟨added ++ [word], List.append_assoc _ _ _, hadded.concat_of_not_mem hword⟩

example :
    extend (["Map", "None", "Map"].map String.toList) (["B", "Map", "B", "A"].map String.toList) =
      ["Map", "None", "Map", "B", "A"].map String.toList := by
  decide

/-! ## The tables of a file -/

section

variable (useEnvironment : Bool) (environment : Environment) (fields : List (Text × Value))

/-- What a file gives for a setting, or else the defaults. -/
def given (key : Text) : Option Value :=
  (Value.field? fields.reverse key).or (Value.field? defaults key)

/-- What an environment gives for a setting, if it may be used. -/
def overriding (name : Text) : Option Value :=
  if useEnvironment then (environment.find? (·.1 == name)).map (.string ·.2) else none

/-- The tables that belong to the fields of a file and to an environment. -/
structure HasTables (s : Settings) : Prop where
  logTypes : ∃ base extra added,
    StandsFor Vocabulary.defaultLogTypes (given fields "log_types".toList) base ∧
      StandsFor [] ((overriding useEnvironment environment "SUO_EXTRA_LOG_TYPES".toList).or
        (given fields "extra_log_types".toList)) extra ∧
      IsAddition base extra added ∧ s.logTypes = base ++ added
  keywords : ∃ words, StandsFor [] (given fields "keywords".toList) words ∧
    s.keywords = if words = [] then Vocabulary.defaultKeywords else words
  keywords_ne_nil : s.keywords ≠ []

variable {useEnvironment environment fields}

/-- The keywords of a setting without words are the usual ones. -/
theorem keywords_eq (s : Settings) :
    s.keywords = if s.wordsOr "keywords".toList [] = [] then Vocabulary.defaultKeywords
      else s.wordsOr "keywords".toList [] := by
  unfold keywords
  split
  · next hwords => rw [if_pos hwords]
  · next hwords => rw [if_neg hwords]

/-- There are always keywords. -/
theorem keywords_ne_nil (s : Settings) : s.keywords ≠ [] := by
  rw [keywords_eq]
  split
  · exact List.cons_ne_nil _ _
  · assumption

/-- Settings have the tables of the fields that they are made of. -/
theorem MadeOf.hasTables {path : Option Text}
    (h : MadeOf useEnvironment environment path fields s) :
    HasTables useEnvironment environment fields s where
  logTypes := by
    rcases exists_isAddition (s.wordsOr "log_types".toList Vocabulary.defaultLogTypes)
      (s.wordsOr "extra_log_types".toList []) with ⟨added, hextend, hadded⟩
    refine ⟨_, _, added, ?_, ?_, hadded, hextend⟩
    · rw [given, ← h.others _ (by decide)]
      exact wordsOr_eq_iff.mp rfl
    · rw [given, overriding, ← h.overridden _ _ (by decide)]
      exact wordsOr_eq_iff.mp rfl
  keywords := by
    refine ⟨_, ?_, keywords_eq s⟩
    rw [given, ← h.others _ (by decide)]
    exact wordsOr_eq_iff.mp rfl
  keywords_ne_nil := keywords_ne_nil s

end

/-! ## Other ways of writing words -/

/-- Two settings are written in the same way, or one is a text and the other one the list of the
words between its commas. -/
inductive SameWords : Option Value → Option Value → Prop where
  | refl (v : Option Value) : SameWords v v
  | spelled {parts words : List Text} :
      parts ≠ [] → (∀ part ∈ parts, ',' ∉ part) → List.Forall₂ Text.Trims parts words →
        SameWords (some (.string (Text.join [','] parts)))
          (some (.array ((words.filter (!·.isEmpty)).map .string)))

namespace SameWords

variable {v v' : Option Value}

/-- They have the same words. -/
theorem words?_eq (h : SameWords v v') : words? v = words? v' := by
  cases h with
  | refl => rfl
  | spelled hne hcomma hwords =>
    have htext : ∀ words : List Text, (words.map Value.string).map Value.text = words := by
      intro words
      rw [List.map_map]
      exact List.map_id words
    rw [words?, words?, wordsOf_join hne hcomma hwords, htext]

/-- Defaults fill in for both of them or for neither. -/
theorem or (h : SameWords v v') (otherwise : Option Value) :
    SameWords (v.or otherwise) (v'.or otherwise) := by
  cases h with
  | refl => exact .refl _
  | spelled hne hcomma hwords => exact .spelled hne hcomma hwords

/-- An environment overrides both of them or neither. -/
theorem overridden (h : SameWords v v') (first : Option Value) :
    SameWords (first.or v) (first.or v') := by
  cases first with
  | none => exact h
  | some value => exact .refl _

end SameWords

/-- Two files say the same, up to the ways in which words are written. -/
def HaveSameWords (fields fields' : List (Text × Value)) : Prop :=
  ∀ key, SameWords (Value.field? fields.reverse key) (Value.field? fields'.reverse key)

section

variable {read read' : Text → Option Value} {store : Store} {candidates : List Text}
  {fields fields' : List (Text × Value)}

/-- The tables do not depend on the way in which words are written. -/
theorem vocabulary_settled_congr (useEnvironment : Bool) (environment : Environment)
    (path path' : Option Text) (h : HaveSameWords fields fields') :
    (settled useEnvironment environment path fields).vocabulary =
      (settled useEnvironment environment path' fields').vocabulary := by
  have hwords : ∀ key otherwise, (settled useEnvironment environment path fields).wordsOr key
      otherwise = (settled useEnvironment environment path' fields').wordsOr key otherwise := by
    intro key otherwise
    have hfield : SameWords
        (Value.field? (settled useEnvironment environment path fields).values key)
        (Value.field? (settled useEnvironment environment path' fields').values key) := by
      simp only [settled, Value.field?_putAll]
      exact ((h key).or _).overridden _
    rw [wordsOr, wordsOr, hfield.words?_eq]
  rw [vocabulary, vocabulary, keywords_eq, keywords_eq, logTypes, logTypes]
  simp only [hwords]

/-- The fields that a search finds: those of the first candidate that can be used, or none if all
are passed over. -/
def Finds (read : Text → Option Value) (store : Store) (candidates : List Text)
    (fields : List (Text × Value)) : Prop :=
  (∃ path, IsFirst read store candidates path ∧ HasFields read store path fields) ∨
    ((∀ q ∈ candidates, IsPassedOver read store q) ∧ fields = [])

/-- The fields that are found are loaded. -/
theorem Finds.exists_loadWith_eq (h : Finds read store candidates fields) (useEnvironment : Bool)
    (environment : Environment) :
    ∃ path ws, loadWith read store candidates useEnvironment environment =
      .ok (settled useEnvironment environment path fields, ws) := by
  rcases h with ⟨path, hfirst, hfields⟩ | ⟨hall, rfl⟩
  · exact ⟨some path, loadWith_of_hasFields useEnvironment environment hfirst hfields⟩
  · exact ⟨none, loadWith_of_isPassedOver useEnvironment environment hall⟩

/-- Whatever a file holds, loading it gives the tables that belong to its fields: the log line types
are those of the file or the usual ones, and behind them the extra ones that are not among them,
each once, in the order in which they appear first; and there are keywords.  A file in which texts
with commas are written as lists, or lists as such texts, gives the same tables. -/
theorem loadWith_tables (hfound : Finds read store candidates fields) (useEnvironment : Bool)
    (environment : Environment) :
    ∃ s ws, loadWith read store candidates useEnvironment environment = .ok (s, ws) ∧
      HasTables useEnvironment environment fields s ∧
      ∀ store' candidates' fields', Finds read' store' candidates' fields' →
        (HaveSameWords fields fields' ∨ HaveSameWords fields' fields) →
          ∃ s' ws', loadWith read' store' candidates' useEnvironment environment =
            .ok (s', ws') ∧ s'.vocabulary = s.vocabulary := by
  rcases hfound.exists_loadWith_eq useEnvironment environment with ⟨path, ws, hload⟩
  refine ⟨_, ws, hload, (madeOf_settled useEnvironment path fields).hasTables, ?_⟩
  intro store' candidates' fields' hfound' hwords
  rcases hfound'.exists_loadWith_eq useEnvironment environment with ⟨path', ws', hload'⟩
  refine ⟨_, ws', hload', ?_⟩
  rcases hwords with hwords | hwords
  · exact (vocabulary_settled_congr useEnvironment environment path path' hwords).symm
  · exact vocabulary_settled_congr useEnvironment environment path' path hwords

/-- Extra words in a text and in a list give the same tables. -/
theorem loadWith_tables_text_list :
    let store : Store :=
      [("a.yaml".toList, .file (Text.encode "extra_log_types: 'B, Map, ,B'\n".toList)),
        ("b.yaml".toList, .file (Text.encode "extra_log_types:\n- B\n- Map\n- B\n".toList))]
    ∃ s s' ws ws' fields, loadWith Yaml.read? store ["a.yaml".toList] true [] = .ok (s, ws) ∧
      HasTables true [] fields s ∧
        loadWith Yaml.read? store ["b.yaml".toList] true [] = .ok (s', ws') ∧
          s'.vocabulary = s.vocabulary := by
  intro store
  let key := "extra_log_types".toList
  let parts := ["B", " Map", " ", "B"].map String.toList
  let words := ["B", "Map", "", "B"].map String.toList
  have hwords : List.Forall₂ Text.Trims parts words := by
    simp only [parts, words, List.map_cons, List.map_nil, List.forall₂_cons,
      List.forall₂_nil_right_iff, ← Text.trim_eq_iff]
    decide +kernel
  have htext : HasFields Yaml.read? store "a.yaml".toList
      [(key, .string (Text.join [','] parts))] := by
    refine ⟨_, "extra_log_types: 'B, Map, ,B'\n".toList, _, rfl, rfl, ?_, Or.inl rfl⟩
    with_unfolding_all rfl
  have hlist : HasFields Yaml.read? store "b.yaml".toList
      [(key, .array ((words.filter (!·.isEmpty)).map .string))] := by
    refine ⟨_, "extra_log_types:\n- B\n- Map\n- B\n".toList, _, rfl, rfl, ?_, Or.inl rfl⟩
    with_unfolding_all rfl
  have hsame : HaveSameWords [(key, .string (Text.join [','] parts))]
      [(key, .array ((words.filter (!·.isEmpty)).map .string))] := by
    intro other
    rw [List.reverse_singleton, List.reverse_singleton, Value.field?_cons, Value.field?_cons]
    split
    · exact .spelled (by decide) (by decide) hwords
    · exact .refl _
  have hfirst : ∀ path, IsFirst Yaml.read? store [path] path := fun path => ⟨[], [], rfl, by simp⟩
  rcases loadWith_tables (Or.inl ⟨_, hfirst _, htext⟩) true [] with
    ⟨s, ws, hload, htables, hspelled⟩
  rcases hspelled store _ _ (Or.inl ⟨_, hfirst _, hlist⟩) (Or.inl hsame) with
    ⟨s', ws', hload', hvocabulary⟩
  exact ⟨s, s', ws, ws', _, hload, htables, hload', hvocabulary⟩

end

end Settings

end RaidTimeline
