import RaidTimeline.Proofs.JsonScalars

/-!
# JSON texts are read back

What is written for a value is read back as the same value, with its fields in their order and
whole numbers apart from others, if no object has two fields of one key.  The reader is given more
fuel than it needs: it spends less on a value than the value has characters.

Main results:

- Definition {lit}`Value.HasDistinctKeys`: values whose objects have no key twice.
- Definition {lit}`Json.Reads`: the values that some fuel is enough for are read back.
- Theorem {lit}`Json.reads`: every fuel is enough for the values that are not longer.
- Theorem {lit}`Json.read?_write`: values are read back.
-/

namespace RaidTimeline

/-! ## Keys -/

namespace Value

/-- No object within a value has two fields of one key. -/
inductive HasDistinctKeys : Value → Prop where
  | null : HasDistinctKeys .null
  | bool (b : Bool) : HasDistinctKeys (.bool b)
  | integer (n : Int) : HasDistinctKeys (.integer n)
  | real (x : Binary64) : HasDistinctKeys (.real x)
  | string (t : Text) : HasDistinctKeys (.string t)
  | array {items : List Value} : (∀ v ∈ items, v.HasDistinctKeys) → HasDistinctKeys (.array items)
  | object {fields : List (Text × Value)} : (fields.map Prod.fst).Nodup →
      (∀ f ∈ fields, f.2.HasDistinctKeys) → HasDistinctKeys (.object fields)

/-- A new key comes last. -/
theorem put_of_not_mem {key : Text} {fields : List (Text × Value)}
    (h : key ∉ fields.map Prod.fst) (v : Value) : put key v fields = fields ++ [(key, v)] := by
  induction fields with
  | nil => rfl
  | cons f fields ih =>
    simp only [List.map_cons, List.mem_cons, not_or] at h
    rw [put, if_neg (Ne.symm h.1), ih h.2, List.cons_append]

/-- Fields of new keys come last, in their order. -/
theorem putAll_of_nodup {fields new : List (Text × Value)}
    (h : ((fields ++ new).map Prod.fst).Nodup) : putAll fields new = fields ++ new := by
  induction new generalizing fields with
  | nil => rw [List.append_nil]; rfl
  | cons f new ih =>
    have hkey : f.1 ∉ fields.map Prod.fst := by
      rw [List.map_append, List.map_cons, List.nodup_append] at h
      exact fun hmem => h.2.2 _ hmem _ List.mem_cons_self rfl
    rw [List.append_cons] at h ⊢
    rw [← ih h, putAll, List.foldl_cons, put_of_not_mem hkey]
    rfl

end Value

namespace Json

/-! ## Heads of texts -/

/-- Where no blank stands, none is skipped. -/
theorem skipBlanks_cons {c : Char} (h : isBlank c = false) (rest : Text) :
    skipBlanks (c :: rest) = c :: rest := by
  rw [skipBlanks, List.dropWhile_cons_of_neg (by simp [h])]

/-- Every value begins with a character that is neither a blank nor the end of an array. -/
theorem exists_head_write (v : Value) :
    ∃ c rest, write v = c :: rest ∧ isBlank c = false ∧ c ≠ ']' := by
  have hscalar : ∀ {t : Text} {u : Value}, IsScalarText t u →
      ∃ c rest, t = c :: rest ∧ isBlank c = false ∧ c ≠ ']' := by
    rintro t u ⟨⟨c, rest, rfl, hblank, hmem⟩, -⟩
    exact ⟨c, rest, rfl, hblank, by simp_all⟩
  cases v with
  | null => exact hscalar isScalarText_null
  | bool b => exact hscalar (isScalarText_bool b)
  | integer n => exact hscalar (isScalarText_integer n)
  | real x => exact hscalar (isScalarText_real x)
  | string t => exact ⟨'"', _, rfl, rfl, by decide⟩
  | array items => exact ⟨'[', _, rfl, rfl, by decide⟩
  | object fields => exact ⟨'\x7b', _, rfl, rfl, by decide⟩

/-- No blank is skipped in front of a value. -/
theorem skipBlanks_write (v : Value) (rest : Text) :
    skipBlanks (write v ++ rest) = write v ++ rest := by
  rcases exists_head_write v with ⟨c, t, htext, hblank, -⟩
  rw [htext, List.cons_append, skipBlanks_cons hblank]

/-- No value is written as the empty text. -/
theorem length_write_pos (v : Value) : 0 < (write v).length := by
  rcases exists_head_write v with ⟨c, t, htext, -⟩
  simp [htext]

/-- The items of an array begin as the first of them does. -/
theorem exists_head_writeItems (v : Value) (vs : List Value) (rest : Text) :
    ∃ c tail, writeItems (v :: vs) ++ rest = c :: tail ∧ isBlank c = false ∧ c ≠ ']' := by
  rcases exists_head_write v with ⟨c, t, htext, hc⟩
  cases vs with
  | nil => exact ⟨c, t ++ rest, by rw [writeItems, htext, List.cons_append], hc⟩
  | cons u us =>
    refine ⟨c, t ++ ',' :: (writeItems (u :: us) ++ rest), ?_, hc⟩
    rw [writeItems, htext]
    simp

/-- The fields of an object begin with the key of the first of them. -/
theorem exists_head_writeFields (f : Text × Value) (fs : List (Text × Value)) (rest : Text) :
    ∃ tail, writeFields (f :: fs) ++ rest = '"' :: tail := by
  cases fs with
  | nil => exact ⟨_, by rw [writeFields]; rfl⟩
  | cons g gs => exact ⟨_, by rw [writeFields]; rfl⟩

/-! ## Values -/

/-- The values that some fuel is enough for are read back: alone, as the items of an array, and as
the fields of an object. -/
structure Reads (fuel : Nat) : Prop where
  value : ∀ v, v.HasDistinctKeys → (write v).length ≤ fuel → ∀ rest, Separates rest →
    readValue fuel (write v ++ rest) = some (v, rest)
  items : ∀ v vs, (∀ u ∈ v :: vs, u.HasDistinctKeys) → (writeItems (v :: vs)).length < fuel →
    ∀ rest, readItems fuel (writeItems (v :: vs) ++ ']' :: rest) = some (v :: vs, rest)
  fields : ∀ f fs, (∀ g ∈ f :: fs, g.2.HasDistinctKeys) → (writeFields (f :: fs)).length < fuel →
    ∀ rest, readFields fuel (writeFields (f :: fs) ++ '\x7d' :: rest) = some (f :: fs, rest)

/-- A word or a number is read as one. -/
theorem readValue_scalar {t rest : Text} {v : Value} (h : IsScalarText t v) (fuel : Nat)
    (hrest : Separates rest) : readValue (fuel + 1) (t ++ rest) = some (v, rest) := by
  have hread := h.read rest hrest
  rcases h.head with ⟨c, tail, rfl, -, hc⟩
  simp only [List.mem_cons, List.not_mem_nil, or_false, not_or] at hc
  rw [List.cons_append] at hread ⊢
  rw [← hread]
  unfold readValue
  simp [hc]

/-- A string is read back. -/
theorem readValue_string (t : Text) (fuel : Nat) (rest : Text) :
    readValue (fuel + 1) (write (.string t) ++ rest) = some (.string t, rest) := by
  have hread := readString_writeString t rest
  simp only [write, writeString, List.cons_append, List.append_assoc, List.nil_append, readValue,
    hread, Option.map_some]

namespace Reads

variable {fuel : Nat} (h : Reads fuel)
include h

/-- An array is read back if its items are. -/
theorem readValue_array {items : List Value} (hitems : ∀ v ∈ items, v.HasDistinctKeys)
    (hfuel : (write (.array items)).length ≤ fuel + 1) (rest : Text) :
    readValue (fuel + 1) (write (.array items) ++ rest) = some (.array items, rest) := by
  cases items with
  | nil => simp [write, writeItems, readValue, skipBlanks, isBlank]
  | cons v vs =>
    have hlength : (writeItems (v :: vs)).length < fuel := by
      simp only [write, List.length_cons, List.length_append, List.length_nil] at hfuel
      omega
    have hread := h.items v vs hitems hlength rest
    rcases exists_head_writeItems v vs (']' :: rest) with ⟨c, tail, htext, hblank, hclose⟩
    have hwhole : write (.array (v :: vs)) ++ rest = '[' :: c :: tail := by
      rw [← htext, write]
      simp
    rw [htext] at hread
    rw [hwhole]
    simp [readValue, skipBlanks_cons hblank, hclose, hread]

/-- An object is read back if its fields are: every key is set once, in its place. -/
theorem readValue_object {fields : List (Text × Value)} (hkeys : (fields.map Prod.fst).Nodup)
    (hfields : ∀ f ∈ fields, f.2.HasDistinctKeys)
    (hfuel : (write (.object fields)).length ≤ fuel + 1) (rest : Text) :
    readValue (fuel + 1) (write (.object fields) ++ rest) = some (.object fields, rest) := by
  cases fields with
  | nil => simp [write, writeFields, readValue, skipBlanks, isBlank]
  | cons f fs =>
    have hlength : (writeFields (f :: fs)).length < fuel := by
      simp only [write, List.length_cons, List.length_append, List.length_nil] at hfuel
      omega
    have hread := h.fields f fs hfields hlength rest
    rcases exists_head_writeFields f fs ('\x7d' :: rest) with ⟨tail, htext⟩
    have hwhole : write (.object (f :: fs)) ++ rest = '\x7b' :: '"' :: tail := by
      rw [← htext, write]
      simp
    have hput : Value.putAll [] (f :: fs) = f :: fs := Value.putAll_of_nodup (by simpa using hkeys)
    rw [htext] at hread
    rw [hwhole]
    simp [readValue, skipBlanks_cons, isBlank, hread, hput]

/-- The last item of an array. -/
theorem readItems_last {v : Value} (hv : v.HasDistinctKeys) (hfuel : (write v).length ≤ fuel)
    (rest : Text) : readItems (fuel + 1) (write v ++ ']' :: rest) = some ([v], rest) := by
  have hvalue := h.value v hv hfuel (']' :: rest) (.cons (by decide) (by decide) rest)
  simp [readItems, hvalue, skipBlanks_cons, isBlank]

/-- An item of an array in front of others. -/
theorem readItems_next {v : Value} (hv : v.HasDistinctKeys) (hfuel : (write v).length ≤ fuel)
    {t rest : Text} {vs : List Value} (hread : readItems fuel (skipBlanks t) = some (vs, rest)) :
    readItems (fuel + 1) (write v ++ ',' :: t) = some (v :: vs, rest) := by
  have hvalue := h.value v hv hfuel (',' :: t) (.cons (by decide) (by decide) t)
  simp [readItems, hvalue, skipBlanks_cons, isBlank, hread]

/-- The items of an array are read back one by one. -/
theorem readItems_writeItems (v : Value) (vs : List Value)
    (hitems : ∀ u ∈ v :: vs, u.HasDistinctKeys)
    (hfuel : (writeItems (v :: vs)).length < fuel + 1) (rest : Text) :
    readItems (fuel + 1) (writeItems (v :: vs) ++ ']' :: rest) = some (v :: vs, rest) := by
  have hv := hitems v List.mem_cons_self
  cases vs with
  | nil =>
    rw [writeItems] at hfuel ⊢
    exact h.readItems_last hv (by omega) rest
  | cons u us =>
    have hpos := length_write_pos v
    simp only [writeItems, List.length_append, List.length_cons] at hfuel
    have hread := h.items u us (fun w hw => hitems w (List.mem_cons_of_mem v hw)) (by omega) rest
    rcases exists_head_writeItems u us (']' :: rest) with ⟨c, tail, htext, hblank, -⟩
    rw [htext, ← skipBlanks_cons hblank] at hread
    rw [writeItems, List.append_assoc, List.cons_append, htext]
    exact h.readItems_next hv (by omega) hread

/-- The last field of an object. -/
theorem readFields_last (key : Text) {v : Value} (hv : v.HasDistinctKeys)
    (hfuel : (write v).length ≤ fuel) (rest : Text) :
    readFields (fuel + 1) (writeString key ++ ':' :: write v ++ '\x7d' :: rest) =
      some ([(key, v)], rest) := by
  have hkey := readString_writeString key (':' :: (write v ++ '\x7d' :: rest))
  have hvalue := h.value v hv hfuel ('\x7d' :: rest) (.cons (by decide) (by decide) rest)
  simp [writeString, readFields, hkey, skipBlanks_write, hvalue, skipBlanks_cons, isBlank]

/-- A field of an object in front of others. -/
theorem readFields_next (key : Text) {v : Value} (hv : v.HasDistinctKeys)
    (hfuel : (write v).length ≤ fuel) {t rest : Text} {fs : List (Text × Value)}
    (hread : readFields fuel (skipBlanks t) = some (fs, rest)) :
    readFields (fuel + 1) (writeString key ++ ':' :: write v ++ ',' :: t) =
      some ((key, v) :: fs, rest) := by
  have hkey := readString_writeString key (':' :: (write v ++ ',' :: t))
  have hvalue := h.value v hv hfuel (',' :: t) (.cons (by decide) (by decide) t)
  simp [writeString, readFields, hkey, skipBlanks_write, hvalue, skipBlanks_cons, isBlank, hread]

/-- The fields of an object are read back one by one. -/
theorem readFields_writeFields (f : Text × Value) (fs : List (Text × Value))
    (hfields : ∀ g ∈ f :: fs, g.2.HasDistinctKeys)
    (hfuel : (writeFields (f :: fs)).length < fuel + 1) (rest : Text) :
    readFields (fuel + 1) (writeFields (f :: fs) ++ '\x7d' :: rest) = some (f :: fs, rest) := by
  rcases f with ⟨key, v⟩
  have hv : v.HasDistinctKeys := hfields (key, v) List.mem_cons_self
  cases fs with
  | nil =>
    simp only [writeFields, List.length_append, List.length_cons] at hfuel
    rw [writeFields]
    exact h.readFields_last key hv (by omega) rest
  | cons g gs =>
    simp only [writeFields, List.length_append, List.length_cons] at hfuel
    have hread := h.fields g gs (fun w hw => hfields w (List.mem_cons_of_mem _ hw)) (by omega) rest
    rcases exists_head_writeFields g gs ('\x7d' :: rest) with ⟨tail, htext⟩
    rw [htext, ← skipBlanks_cons (show isBlank '"' = false from rfl)] at hread
    rw [writeFields, List.append_assoc, List.cons_append, htext]
    exact h.readFields_next key hv (by omega) hread

/-- One more unit of fuel is enough for values that are longer by one. -/
theorem succ : Reads (fuel + 1) where
  value := by
    intro v hv hlength rest hrest
    cases hv with
    | null => exact readValue_scalar isScalarText_null fuel hrest
    | bool b => exact readValue_scalar (isScalarText_bool b) fuel hrest
    | integer n => exact readValue_scalar (isScalarText_integer n) fuel hrest
    | real x => exact readValue_scalar (isScalarText_real x) fuel hrest
    | string t => exact readValue_string t fuel rest
    | array hitems => exact h.readValue_array hitems hlength rest
    | object hkeys hfields => exact h.readValue_object hkeys hfields hlength rest
  items := h.readItems_writeItems
  fields := h.readFields_writeFields

end Reads

/-- Every fuel is enough for the values that are not longer. -/
theorem reads (fuel : Nat) : Reads fuel := by
  -- Every function of the reader spends one unit and leaves the rest to those that it calls.
  induction fuel with
  | zero =>
    refine ⟨fun v _ hlength => ?_, fun v vs _ hlength => ?_, fun f fs _ hlength => ?_⟩
    · have hpos := length_write_pos v
      omega
    · omega
    · omega
  | succ fuel ih => exact ih.succ

/-- A value is read back. -/
theorem read?_write {v : Value} (hv : v.HasDistinctKeys) : read? (write v) = some v := by
  have hread := (reads (2 * (write v).length + 2)).value v hv (by omega) [] Separates.nil
  have hskip := skipBlanks_write v []
  rw [List.append_nil] at hread hskip
  rw [read?, hskip, hread]
  rfl

end Json

end RaidTimeline
