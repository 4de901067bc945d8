import RaidTimeline.Command.Run

/-!
# Where settings come from

Settings are looked for in one candidate after the other.  Most candidates that cannot be used are
passed over; the first one that can be used is taken, and the environment and the defaults fill in
the rest.  Only octets that are no text stop the search with a fault.

Main results:

- Theorem {lit}`Value.field?_putAll`: the fields of a list into which others were put.
- Definition {lit}`Settings.IsPassedOver`: paths behind which the search goes on.
- Theorem {lit}`Settings.path_cases`: any other path has a file with fields, or one that is no text.
- Theorem {lit}`Settings.search_append`: candidates that are passed over only add warnings.
- Definition {lit}`Settings.MadeOf`: settings made of a file, an environment and the defaults.
- Theorem {lit}`Settings.loadWith_cases`: loading falls back to the next candidate or the defaults,
  unless it meets a file that is no text.
-/

namespace RaidTimeline

/-! ## Fields that are put into others -/

namespace Value

/-- A field that is put has its value, and no other field changes. -/
theorem field?_put (key : Text) (value : Value) (fields : List (Text × Value)) (other : Text) :
    field? (put key value fields) other =
      if key = other then some value else field? fields other := by
  induction fields with
  | nil => rw [put, field?_cons]
  | cons f fields ih =>
    rw [put]
    by_cases hkey : f.1 = key
    · rw [if_pos hkey, field?_cons, field?_cons, hkey]
      split <;> rfl
    · rw [if_neg hkey, field?_cons, field?_cons, ih]
      by_cases hother : key = other
      · rw [if_pos hother, if_pos hother, if_neg fun h => hkey (h.trans hother.symm)]
      · rw [if_neg hother, if_neg hother]

/-- Of several fields of a key that are put, the last one counts; the old field counts if none is
put. -/
theorem field?_putAll (fields new : List (Text × Value)) (key : Text) :
    field? (putAll fields new) key = (field? new.reverse key).or (field? fields key) := by
  induction new generalizing fields with
  | nil => rfl
  | cons f new ih =>
    have hfirst : putAll fields (f :: new) = putAll (put f.1 f.2 fields) new := rfl
    rw [hfirst, ih, field?_put, List.reverse_cons, field?_append, Option.or_assoc, field?_cons]
    congr 1
    split <;> rfl

/-- Of the mappings only the empty one says nothing. -/
theorem eq_nil_of_isBlank {fields : List (Text × Value)} (h : (object fields).isBlank = true) :
    fields = [] := by
  simpa [isBlank] using h

end Value

/-! ## Candidates -/

namespace Settings

section

variable (read : Text → Option Value) (store : Store)

/-- A path leads to a file that is no text. -/
def IsNoText (path : Text) (fault : Utf8Fault) : Prop :=
  ∃ octets found, store.resolve path = .ok (.file octets) ∧ Text.decode octets = .error found ∧
    pieceFault found = fault

/-- A path leads to a file with some fields: a mapping, or a document that says nothing. -/
def HasFields (path : Text) (fields : List (Text × Value)) : Prop :=
  ∃ octets text value, store.resolve path = .ok (.file octets) ∧ Text.decode octets = .ok text ∧
    read (Text.foldLineEnds text) = some value ∧
      (value = .object fields ∨ value.isBlank = true ∧ fields = [])

/-- The search goes on behind a path: nothing is stored there, or a directory, or a file whose text
is malformed or says something without being a mapping. -/
inductive IsPassedOver (path : Text) : Prop where
  | missing {fault : StorageFault} : store.resolve path = .error fault → IsPassedOver path
  | directory : store.resolve path = .ok .directory → IsPassedOver path
  | malformed {octets : List UInt8} {text : Text} : store.resolve path = .ok (.file octets) →
      Text.decode octets = .ok text → read (Text.foldLineEnds text) = none → IsPassedOver path
  | notMapping {octets : List UInt8} {text : Text} {value : Value} :
      store.resolve path = .ok (.file octets) → Text.decode octets = .ok text →
        read (Text.foldLineEnds text) = some value → value.isBlank = false →
          (∀ fields, value ≠ .object fields) → IsPassedOver path

/-- All candidates in front of a path are passed over. -/
def IsFirst (candidates : List Text) (path : Text) : Prop :=
  ∃ skipped rest, candidates = skipped ++ path :: rest ∧
    ∀ q ∈ skipped, IsPassedOver read store q

variable {read store}

/-- A document is a mapping, says nothing, or is of no use. -/
theorem candidateOf_cases (read : Text → Option Value) (octets : List UInt8) :
    (∃ found, Text.decode octets = .error found ∧
      candidateOf read octets = .undecodable (pieceFault found)) ∨
      ∃ text, Text.decode octets = .ok text ∧
        ((read (Text.foldLineEnds text) = none ∧ candidateOf read octets = .unreadable) ∨
          ∃ value, read (Text.foldLineEnds text) = some value ∧
            ((∃ fields, value = .object fields ∧ candidateOf read octets = .mapping fields) ∨
              (value.isBlank = true ∧ candidateOf read octets = .mapping []) ∨
                (value.isBlank = false ∧ (∀ fields, value ≠ .object fields) ∧
                  candidateOf read octets = .notMapping))) := by
  cases hdecode : Text.decode octets with
  | error found => exact Or.inl ⟨found, rfl, by simp [candidateOf, hdecode]⟩
  | ok text =>
    refine Or.inr ⟨text, rfl, ?_⟩
    cases hread : read (Text.foldLineEnds text) with
    | none => exact Or.inl ⟨rfl, by simp [candidateOf, hdecode, hread]⟩
    | some value =>
      refine Or.inr ⟨value, rfl, ?_⟩
      cases value with
      | object fields => exact Or.inl ⟨fields, rfl, by simp [candidateOf, hdecode, hread]⟩
      | null | bool | integer | real | string | array =>
        simp only [candidateOf, hdecode, hread]
        refine Or.inr ?_
        split
        · next hblank => exact Or.inl ⟨hblank, rfl⟩
        · next hblank => exact Or.inr ⟨by simpa using hblank, by simp, rfl⟩

/-- The search stops with a fault exactly at a file that is no text. -/
theorem candidate_eq_undecodable_iff {path : Text} {fault : Utf8Fault} :
    candidate read store path = .undecodable fault ↔ IsNoText store path fault := by
  unfold candidate IsNoText
  cases store.resolve path with
  | error fault => simp
  | ok stored =>
    cases stored with
    | directory => simp
    | file octets =>
      rcases candidateOf_cases read octets with
        ⟨found, hdecode, hof⟩ | ⟨text, hdecode, ⟨-, hof⟩ | ⟨value, -, ⟨fields, -, hof⟩ |
          ⟨-, hof⟩ | ⟨-, -, hof⟩⟩⟩ <;>
        simp [hof, hdecode]

/-- The search ends with some fields exactly at a file that has them. -/
theorem candidate_eq_mapping_iff {path : Text} {fields : List (Text × Value)} :
    candidate read store path = .mapping fields ↔ HasFields read store path fields := by
  unfold candidate HasFields
  cases store.resolve path with
  | error fault => simp
  | ok stored =>
    cases stored with
    | directory => simp
    | file octets =>
      rcases candidateOf_cases read octets with
        ⟨found, hdecode, hof⟩ | ⟨text, hdecode, ⟨hread, hof⟩ | ⟨value, hread, ⟨found, rfl, hof⟩ |
          ⟨hblank, hof⟩ | ⟨hblank, hobject, hof⟩⟩⟩
      · simp [hof, hdecode]
      · simp [hof, hdecode, hread]
      · simp only [hof, hdecode, hread, Candidate.mapping.injEq, Except.ok.injEq,
          Stored.file.injEq, Option.some.injEq, Value.object.injEq, exists_and_left,
          exists_eq_left']
        constructor
        · exact Or.inl
        · rintro (rfl | ⟨hblank, rfl⟩)
          · rfl
          · exact Value.eq_nil_of_isBlank hblank
      · simp only [hof, hdecode, hread, Candidate.mapping.injEq, Except.ok.injEq,
          Stored.file.injEq, Option.some.injEq, exists_and_left, exists_eq_left']
        constructor
        · rintro rfl
          exact Or.inr ⟨hblank, rfl⟩
        · rintro (rfl | ⟨-, rfl⟩)
          · exact (Value.eq_nil_of_isBlank hblank).symm
          · rfl
      · simp [hof, hdecode, hread, hblank, hobject]

/-- A path that is passed over has none of the candidates that end the search. -/
theorem IsPassedOver.candidate_eq {path : Text} (h : IsPassedOver read store path) :
    candidate read store path = .absent ∨ candidate read store path = .unreadable ∨
      candidate read store path = .notMapping := by
  cases h with
  | missing hresolve => simp [candidate, hresolve]
  | directory hresolve => simp [candidate, hresolve]
  | malformed hresolve hdecode hread => simp [candidate, hresolve, candidateOf, hdecode, hread]
  | notMapping hresolve hdecode hread hblank hobject =>
    simp only [candidate, hresolve, candidateOf, hdecode, hread]
    simp [hblank]

/-- A path is passed over, has a file that is no text, or has a file with some fields. -/
theorem path_cases (read : Text → Option Value) (store : Store) (path : Text) :
    IsPassedOver read store path ∨ (∃ fault, IsNoText store path fault) ∨
      ∃ fields, HasFields read store path fields := by
  cases hresolve : store.resolve path with
  | error fault => exact Or.inl (.missing hresolve)
  | ok stored =>
    cases stored with
    | directory => exact Or.inl (.directory hresolve)
    | file octets =>
      rcases candidateOf_cases read octets with
        ⟨found, hdecode, -⟩ | ⟨text, hdecode, ⟨hread, -⟩ | ⟨value, hread, ⟨fields, rfl, -⟩ |
          ⟨hblank, -⟩ | ⟨hblank, hobject, -⟩⟩⟩
      · exact Or.inr (Or.inl ⟨_, octets, found, hresolve, hdecode, rfl⟩)
      · exact Or.inl (.malformed hresolve hdecode hread)
      · exact Or.inr (Or.inr ⟨fields, octets, text, _, hresolve, hdecode, hread, Or.inl rfl⟩)
      · exact Or.inr (Or.inr ⟨[], octets, text, value, hresolve, hdecode, hread,
          Or.inr ⟨hblank, rfl⟩⟩)
      · exact Or.inl (.notMapping hresolve hdecode hread hblank hobject)

/-! ## Searching -/

/-- Candidates that are passed over only add warnings. -/
theorem search_append {skipped : List Text} (hskipped : ∀ q ∈ skipped, IsPassedOver read store q)
    (rest : List Text) :
    ∃ front, search read store (skipped ++ rest) =
      (search read store rest).map fun (s, ws) => (s, front ++ ws) := by
  induction skipped with
  | nil =>
    refine ⟨[], ?_⟩
    rw [List.nil_append]
    cases search read store rest <;> rfl
  | cons path skipped ih =>
    rcases List.forall_mem_cons.mp hskipped with ⟨hpath, hbehind⟩
    rcases ih hbehind with ⟨front, hfront⟩
    have hsearch : ∃ warning, search read store (path :: (skipped ++ rest)) =
        (search read store (skipped ++ rest)).map fun (s, ws) => (s, warning ++ ws) := by
      rw [search]
      rcases hpath.candidate_eq with hcandidate | hcandidate | hcandidate
      · refine ⟨[], ?_⟩
        rw [hcandidate]
        cases search read store (skipped ++ rest) <;> rfl
      · exact ⟨[.unreadable path], by rw [hcandidate]; rfl⟩
      · exact ⟨[.notMapping path], by rw [hcandidate]; rfl⟩
    rcases hsearch with ⟨warning, hsearch⟩
    refine ⟨warning ++ front, ?_⟩
    rw [List.cons_append, hsearch, hfront]
    cases search read store rest with
    | error fault => rfl
    | ok found => simp [Except.map]

/-- Either all candidates are passed over, or the first one that is not is a file that is no text
or a file with some fields. -/
theorem isFirst_cases (read : Text → Option Value) (store : Store) (candidates : List Text) :
    (∀ q ∈ candidates, IsPassedOver read store q) ∨
      ∃ path, IsFirst read store candidates path ∧
        ((∃ fault, IsNoText store path fault) ∨ ∃ fields, HasFields read store path fields) := by
  induction candidates with
  | nil => exact Or.inl (by simp)
  | cons path rest ih =>
    rcases path_cases read store path with hskipped | hends
    · rcases ih with hall | ⟨first, ⟨skipped, behind, rfl, hbehind⟩, hends⟩
      · exact Or.inl (List.forall_mem_cons.mpr ⟨hskipped, hall⟩)
      · exact Or.inr ⟨first, ⟨path :: skipped, behind, rfl,
          List.forall_mem_cons.mpr ⟨hskipped, hbehind⟩⟩, hends⟩
    · exact Or.inr ⟨path, ⟨[], rest, rfl, by simp⟩, hends⟩

end

/-! ## Settings that are made of a file and an environment -/

section

variable (useEnvironment : Bool) (environment : Environment)

/-- The settings of the fields of a file, over the defaults and under an environment. -/
def settled (path : Option Text) (fields : List (Text × Value)) : Settings :=
  ⟨Value.putAll (Value.putAll defaults fields)
    (if useEnvironment then environmentFields environment else []), path⟩

/-- Settings are made of the fields of a file, over the defaults and under an environment: a
setting that can be overridden has the text of its variable, if that is set and may be used.
Otherwise, and for all other settings, the last field of the file counts, or else the default. -/
structure MadeOf (path : Option Text) (fields : List (Text × Value)) (s : Settings) : Prop where
  path : s.path = path
  overridden : ∀ name key, (name, key) ∈ overrides → Value.field? s.values key =
    (if useEnvironment then (environment.find? (·.1 == name)).map (.string ·.2) else none).or
      ((Value.field? fields.reverse key).or (Value.field? defaults key))
  others : ∀ key, key ∉ overrides.map Prod.snd → Value.field? s.values key =
    (Value.field? fields.reverse key).or (Value.field? defaults key)

variable {environment}

/-- The setting that a variable overrides, if the variable is set. -/
def environmentField? (environment : Environment) (override : Text × Text) :
    Option (Text × Value) :=
  (environment.find? (·.1 == override.1)).map fun found => (override.2, .string found.2)

/-- No variable overrides other settings. -/
theorem field?_filterMap_of_not_mem {named : List (Text × Text)} {key : Text}
    (h : key ∉ named.map Prod.snd) :
    Value.field? (named.filterMap (environmentField? environment)) key = none := by
  induction named with
  | nil => rfl
  | cons n named ih =>
    rw [List.map_cons, List.mem_cons, not_or] at h
    cases hfound : environmentField? environment n with
    | none =>
      rw [List.filterMap_cons_none hfound]
      exact ih h.2
    | some f =>
      rcases Option.map_eq_some_iff.mp hfound with ⟨found, -, rfl⟩
      rw [List.filterMap_cons_some hfound, Value.field?_cons, if_neg (Ne.symm h.1)]
      exact ih h.2

/-- A setting that only one variable overrides has the text of that variable. -/
theorem field?_filterMap_of_mem {named : List (Text × Text)} {name key : Text}
    (hkeys : (named.map Prod.snd).Nodup) (h : (name, key) ∈ named) :
    Value.field? (named.filterMap (environmentField? environment)) key =
      (environment.find? (·.1 == name)).map (.string ·.2) := by
  induction named with
  | nil => contradiction
  | cons n named ih =>
    rw [List.map_cons, List.nodup_cons] at hkeys
    cases hfound : environmentField? environment n with
    | none =>
      rw [List.filterMap_cons_none hfound]
      rcases List.mem_cons.mp h with rfl | h
      · rw [field?_filterMap_of_not_mem hkeys.1, Option.map_eq_none_iff.mp hfound]
        rfl
      · exact ih hkeys.2 h
    | some f =>
      rcases Option.map_eq_some_iff.mp hfound with ⟨found, hfind, rfl⟩
      rw [List.filterMap_cons_some hfound, Value.field?_cons]
      rcases List.mem_cons.mp h with rfl | h
      · rw [if_pos rfl, hfind]
        rfl
      · rw [if_neg, ih hkeys.2 h]
        rintro rfl
        exact hkeys.1 (List.mem_map.mpr ⟨_, h, rfl⟩)

theorem reverse_environmentFields :
    (environmentFields environment).reverse =
      overrides.reverse.filterMap (environmentField? environment) :=
  List.filterMap_reverse.symm

/-- Fields over the defaults and under an environment make such settings. -/
theorem madeOf_settled (path : Option Text) (fields : List (Text × Value)) :
    MadeOf useEnvironment environment path fields
      (settled useEnvironment environment path fields) where
  path := rfl
  overridden := by
    intro name key h
    rw [settled, Value.field?_putAll, Value.field?_putAll]
    cases useEnvironment with
    | false => rfl
    | true =>
      rw [if_pos rfl, if_pos rfl, reverse_environmentFields,
        field?_filterMap_of_mem (by decide) (List.mem_reverse.mpr h)]
  others := by
    intro key h
    rw [settled, Value.field?_putAll, Value.field?_putAll]
    cases useEnvironment with
    | false => rfl
    | true =>
      rw [if_pos rfl, reverse_environmentFields, field?_filterMap_of_not_mem (by simpa using h),
        Option.none_or]

end

/-! ## Loading -/

section

variable {read : Text → Option Value} {store : Store} {candidates : List Text} {path : Text}
  (useEnvironment : Bool) (environment : Environment)

/-- If all candidates are passed over, the defaults are left. -/
theorem loadWith_of_isPassedOver (h : ∀ q ∈ candidates, IsPassedOver read store q) :
    ∃ ws, loadWith read store candidates useEnvironment environment =
      .ok (settled useEnvironment environment none [], ws) := by
  rcases search_append h [] with ⟨front, hfront⟩
  rw [List.append_nil] at hfront
  exact ⟨front ++ [], by rw [loadWith, hfront]; rfl⟩

/-- The fields of the first candidate that is not passed over are taken. -/
theorem loadWith_of_hasFields {fields : List (Text × Value)}
    (hfirst : IsFirst read store candidates path) (hfields : HasFields read store path fields) :
    ∃ ws, loadWith read store candidates useEnvironment environment =
      .ok (settled useEnvironment environment (some path) fields, ws) := by
  rcases hfirst with ⟨skipped, rest, rfl, hskipped⟩
  rcases search_append hskipped (path :: rest) with ⟨front, hfront⟩
  refine ⟨front ++ [], ?_⟩
  rw [loadWith, hfront, search, candidate_eq_mapping_iff.mpr hfields]
  rfl

/-- The same settings are loaded from that candidate alone, without warnings. -/
theorem loadWith_singleton {fields : List (Text × Value)}
    (hfields : HasFields read store path fields) :
    loadWith read store [path] useEnvironment environment =
      .ok (settled useEnvironment environment (some path) fields, []) := by
  rw [loadWith, search, candidate_eq_mapping_iff.mpr hfields]
  rfl

/-- If the first candidate that is not passed over is no text, loading fails. -/
theorem loadWith_of_isNoText {fault : Utf8Fault} (hfirst : IsFirst read store candidates path)
    (hfault : IsNoText store path fault) :
    loadWith read store candidates useEnvironment environment = .error fault := by
  rcases hfirst with ⟨skipped, rest, rfl, hskipped⟩
  rcases search_append hskipped (path :: rest) with ⟨front, hfront⟩
  have hpath : candidate read store path = .undecodable fault :=
    candidate_eq_undecodable_iff.mpr hfault
  rw [loadWith, hfront, search, hpath]
  rfl

end

/-- Loading fails exactly if the first candidate that is not passed over is a file that is no text.
Otherwise the settings are made of the fields of the first such candidate, or of none if there is
no such candidate, and they are the same without the other candidates. -/
theorem loadWith_cases (read : Text → Option Value) (store : Store) (candidates : List Text)
    (useEnvironment : Bool) (environment : Environment) :
    (∀ fault, loadWith read store candidates useEnvironment environment = .error fault ↔
        ∃ path, IsFirst read store candidates path ∧ IsNoText store path fault) ∧
      ∀ s ws, loadWith read store candidates useEnvironment environment = .ok (s, ws) →
        (∃ path fields, IsFirst read store candidates path ∧ HasFields read store path fields ∧
          MadeOf useEnvironment environment (some path) fields s ∧
            loadWith read store [path] useEnvironment environment = .ok (s, [])) ∨
          ((∀ q ∈ candidates, IsPassedOver read store q) ∧
            MadeOf useEnvironment environment none [] s ∧
              loadWith read store [] useEnvironment environment = .ok (s, [])) := by
  constructor
  · intro fault
    constructor
    · intro hload
      rcases isFirst_cases read store candidates with
        hall | ⟨path, hfirst, ⟨found, hfound⟩ | ⟨fields, hfields⟩⟩
      · rcases loadWith_of_isPassedOver useEnvironment environment hall with ⟨ws, hok⟩
        rw [hok] at hload
        contradiction
      · rw [loadWith_of_isNoText useEnvironment environment hfirst hfound] at hload
        cases hload
        exact ⟨path, hfirst, hfound⟩
      · rcases loadWith_of_hasFields useEnvironment environment hfirst hfields with ⟨ws, hok⟩
        rw [hok] at hload
        contradiction
    · rintro ⟨path, hfirst, hfault⟩
      exact loadWith_of_isNoText useEnvironment environment hfirst hfault
  · intro s ws hload
    rcases isFirst_cases read store candidates with
      hall | ⟨path, hfirst, ⟨found, hfound⟩ | ⟨fields, hfields⟩⟩
    · rcases loadWith_of_isPassedOver useEnvironment environment hall with ⟨ws', hok⟩
      cases hok.symm.trans hload
      exact Or.inr ⟨hall, madeOf_settled useEnvironment none [], rfl⟩
    · rw [loadWith_of_isNoText useEnvironment environment hfirst hfound] at hload
      contradiction
    · rcases loadWith_of_hasFields useEnvironment environment hfirst hfields with ⟨ws', hok⟩
      cases hok.symm.trans hload
      exact Or.inl ⟨path, fields, hfirst, hfields, madeOf_settled useEnvironment _ fields,
        loadWith_singleton useEnvironment environment hfields⟩

/-- A malformed file, a directory and a missing file are passed over, and the file behind them is
taken. -/
theorem loadWith_cases_malformed :
    let store : Store := [("a.yaml".toList, .file (Text.encode "target: [a\n".toList)),
      ("b.yaml".toList, .directory), ("d.yaml".toList, .file (Text.encode "target: d\n".toList))]
    let candidates := ["a.yaml".toList, "b.yaml".toList, "c.yaml".toList, "d.yaml".toList]
    let environment : Environment := [("SUO_LOG_LEVEL".toList, "info".toList)]
    ∃ s ws fields, loadWith Yaml.read? store candidates true environment = .ok (s, ws) ∧
      MadeOf true environment (some "d.yaml".toList) fields s := by
  intro store candidates environment
  have hfound : (loadWith Yaml.read? store candidates true environment).toOption.map
      (fun found => found.1.path) = some (some "d.yaml".toList) := by
    decide +kernel
  cases hload : loadWith Yaml.read? store candidates true environment with
  | error fault => simp [hload, Except.toOption] at hfound
  | ok found =>
    rcases found with ⟨s, ws⟩
    rw [hload] at hfound
    have hpath : s.path = some "d.yaml".toList := Option.some.inj hfound
    rcases (loadWith_cases Yaml.read? store candidates true environment).2 s ws hload with
      ⟨path, fields, -, -, hmade, -⟩ | ⟨-, hmade, -⟩
    · obtain rfl : path = "d.yaml".toList := Option.some.inj (hmade.path.symm.trans hpath)
      exact ⟨s, ws, fields, rfl, hmade⟩
    · rw [hmade.path] at hpath
      contradiction

/-- A file that is no text is not passed over, although a file behind it could be used. -/
theorem load_noText :
    ∃ fault, load [("a.yaml".toList, .file [0x74, 0x3A, 0x20, 0xFF]),
      ("b.yaml".toList, .file (Text.encode "target: b\n".toList))]
      ["a.yaml".toList, "b.yaml".toList] [] = .error fault :=
  ⟨_, rfl⟩

end Settings

end RaidTimeline
