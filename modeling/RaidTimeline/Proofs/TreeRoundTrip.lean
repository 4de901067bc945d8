import RaidTimeline.Proofs.JsonRoundTrip
import RaidTimeline.Proofs.Octets
import RaidTimeline.Timeline.Tree

/-!
# Exported nodes are read back

A node as data has no key twice in any object, whatever other nodes it is made of: the keys that
every node begins with are none of its own, and an optional part has a key of its own.  So the data
is read back from the octets in which it is stored.

Main results:

- Definition {lit}`AreFields`: fields with known keys in a known order.
- Theorem {lit}`Node.hasDistinctKeys_tree`: nodes as data have no key twice.
- Definitions {lit}`Node.serialize` and {lit}`deserialize?`: nodes as octets, and the data of
  octets.
- Theorem {lit}`Node.deserialize?_serialize`: exported nodes are read back.
-/

namespace RaidTimeline

/-! ## Fields of nodes -/

/-- Fields whose keys are some of a list of keys, in its order, and whose values have no key
twice. -/
structure AreFields (keys : List Text) (fields : List (Text × Value)) : Prop where
  keys_sublist : (fields.map Prod.fst).Sublist keys
  values : ∀ f ∈ fields, f.2.HasDistinctKeys

namespace AreFields

variable {keys keys' : List Text} {fields fields' : List (Text × Value)} {key : Text} {v : Value}

theorem nil : AreFields keys [] :=
  ⟨List.nil_sublist keys, by simp⟩

/-- A field whose key comes first stands in front of the others. -/
theorem cons (hv : v.HasDistinctKeys) (h : AreFields keys fields) :
    AreFields (key :: keys) ((key, v) :: fields) := by
  refine ⟨h.keys_sublist.cons_cons key, ?_⟩
  intro f hf
  rcases List.mem_cons.mp hf with rfl | hf
  · exact hv
  · exact h.values f hf

theorem single (hv : v.HasDistinctKeys) : AreFields [key] [(key, v)] :=
  .cons hv .nil

theorem append (h : AreFields keys fields) (h' : AreFields keys' fields') :
    AreFields (keys ++ keys') (fields ++ fields') := by
  refine ⟨by simpa using h.keys_sublist.append h'.keys_sublist, ?_⟩
  intro f hf
  rcases List.mem_append.mp hf with hf | hf
  · exact h.values f hf
  · exact h'.values f hf

/-- An optional field has its key or none. -/
theorem optional {α : Type} {tree : α → Value} (h : ∀ x, (tree x).HasDistinctKeys)
    (x : Option α) : AreFields [key] (optionalField key tree x) := by
  cases x with
  | none => exact .nil
  | some x => exact .single (h x)

theorem raw (locations : Bool) (t : Text) : AreFields ["raw".toList] (rawField locations t) := by
  cases locations with
  | true => exact .single (.string t)
  | false => exact .nil

/-- Fields whose keys are different make up an object. -/
theorem object (h : AreFields keys fields) (hkeys : keys.Nodup) :
    (Value.object fields).HasDistinctKeys :=
  .object (hkeys.sublist h.keys_sublist) h.values

end AreFields

theorem Position.hasDistinctKeys_tree (p : Position) : p.tree.HasDistinctKeys :=
  (AreFields.cons (.integer p.line) (.single (.integer p.column))).object (by decide)

/-- The fields that every node begins with. -/
theorem AreFields.head (locations : Bool) (typeName : Text) (s : Span) :
    AreFields (["type", "range", "loc"].map String.toList) (headFields locations typeName s) := by
  refine .cons (.string typeName) ?_
  cases locations with
  | false => exact .nil
  | true =>
    have hrange : ∀ v ∈ [Value.ofNat s.start, .ofNat s.stop], v.HasDistinctKeys := by
      simpa using ⟨.integer s.start, .integer s.stop⟩
    exact .cons (.array hrange) (.single ((AreFields.cons s.first.hasDistinctKeys_tree
      (.single s.last.hasDistinctKeys_tree)).object (by decide)))

/-- A node whose own fields have different keys, none of which is one that every node has. -/
theorem AreFields.node {keys : List Text} {fields : List (Text × Value)}
    (h : AreFields keys fields) (locations : Bool) (typeName : Text) (s : Span)
    (hkeys : (["type", "range", "loc"].map String.toList ++ keys).Nodup) :
    (Value.object (headFields locations typeName s ++ fields)).HasDistinctKeys :=
  ((AreFields.head locations typeName s).append h).object hkeys

/-! ## Nodes -/

section

variable (locations : Bool)

theorem Comment.hasDistinctKeys_tree (c : Comment) : (c.tree locations).HasDistinctKeys :=
  (AreFields.cons (.string c.value) (.raw locations c.raw)).node locations _ c.span (by decide)

theorem StringLiteral.hasDistinctKeys_tree (s : StringLiteral) :
    (s.tree locations).HasDistinctKeys :=
  (AreFields.cons (.string s.value) (.raw locations s.raw)).node locations _ s.span (by decide)

theorem NumberLiteral.hasDistinctKeys_tree (n : NumberLiteral) :
    (n.tree locations).HasDistinctKeys :=
  (AreFields.cons (.real n.value) (.raw locations n.raw)).node locations _ n.span (by decide)

theorem RegexLiteral.hasDistinctKeys_tree (r : RegexLiteral) :
    (r.tree locations).HasDistinctKeys := by
  rw [RegexLiteral.tree, List.append_assoc]
  exact ((AreFields.cons (.string r.pattern) (.raw locations r.raw)).append
    (.single (.string r.flags))).node locations _ r.span (by decide)

theorem Literal.hasDistinctKeys_tree (l : Literal) : (l.tree locations).HasDistinctKeys := by
  cases l with
  | string s => exact s.hasDistinctKeys_tree locations
  | number n => exact n.hasDistinctKeys_tree locations

theorem Field.hasDistinctKeys_tree (f : Field) : (f.tree locations).HasDistinctKeys :=
  (AreFields.cons (.string f.key) (.single (f.value.hasDistinctKeys_tree locations))).object
    (by decide)

theorem RegexSync.hasDistinctKeys_tree (s : RegexSync) : (s.tree locations).HasDistinctKeys :=
  (AreFields.single (s.regex.hasDistinctKeys_tree locations)).node locations _ s.span (by decide)

theorem BlockSync.hasDistinctKeys_tree (s : BlockSync) : (s.tree locations).HasDistinctKeys := by
  have hfields : ∀ v ∈ s.fields.map (Field.tree locations), v.HasDistinctKeys := by
    intro v hv
    rcases List.mem_map.mp hv with ⟨f, -, rfl⟩
    exact f.hasDistinctKeys_tree locations
  exact (AreFields.cons (.string s.logType) (.single (.array hfields))).node locations _ s.span
    (by decide)

theorem Window.hasDistinctKeys_tree (w : Window) : (w.tree locations).HasDistinctKeys :=
  (AreFields.cons (w.before.hasDistinctKeys_tree locations)
    (.optional (NumberLiteral.hasDistinctKeys_tree locations) w.after)).node locations _ w.span
    (by decide)

theorem Jump.hasDistinctKeys_tree (j : Jump) : (j.tree locations).HasDistinctKeys :=
  (AreFields.single (j.time.hasDistinctKeys_tree locations)).node locations _ j.span (by decide)

theorem Duration.hasDistinctKeys_tree (d : Duration) : (d.tree locations).HasDistinctKeys :=
  (AreFields.single (d.time.hasDistinctKeys_tree locations)).node locations _ d.span (by decide)

theorem Before.hasDistinctKeys_tree (b : Before) : (b.tree locations).HasDistinctKeys :=
  (AreFields.single (b.time.hasDistinctKeys_tree locations)).node locations _ b.span (by decide)

theorem Sound.hasDistinctKeys_tree (s : Sound) : (s.tree locations).HasDistinctKeys :=
  (AreFields.single (s.file.hasDistinctKeys_tree locations)).node locations _ s.span (by decide)

theorem HideAll.hasDistinctKeys_tree (h : HideAll) : (h.tree locations).HasDistinctKeys :=
  (AreFields.single (h.name.hasDistinctKeys_tree locations)).node locations _ h.span (by decide)

theorem AlertAll.hasDistinctKeys_tree (a : AlertAll) : (a.tree locations).HasDistinctKeys := by
  rw [AlertAll.tree, List.append_assoc]
  exact ((AreFields.cons (a.name.hasDistinctKeys_tree locations)
    (.optional (Before.hasDistinctKeys_tree locations) a.before)).append
      (.optional (Sound.hasDistinctKeys_tree locations) a.sound)).node locations _ a.span
    (by decide)

theorem Define.hasDistinctKeys_tree (d : Define) : (d.tree locations).HasDistinctKeys :=
  (AreFields.cons (d.name.hasDistinctKeys_tree locations)
    (.cons (d.file.hasDistinctKeys_tree locations) (.single (.string d.defineType)))).node
    locations _ d.span (by decide)

/-- The fields that an entry has in any case, with its synchronisation, which is any node. -/
theorem areFields_entry (time : NumberLiteral) (name : StringLiteral) {sync : List (Text × Value)}
    (hsync : AreFields ["sync".toList] sync) (window : Option Window) (duration : Option Duration)
    (jump : Option Jump) :
    AreFields (["time", "name", "sync", "window", "duration", "jump"].map String.toList)
      (("time".toList, time.tree locations) :: ("name".toList, name.tree locations) :: sync
        ++ optionalField "window".toList (Window.tree locations) window
        ++ optionalField "duration".toList (Duration.tree locations) duration
        ++ optionalField "jump".toList (Jump.tree locations) jump) :=
  (((AreFields.cons (time.hasDistinctKeys_tree locations)
    (.cons (name.hasDistinctKeys_tree locations) hsync)).append
      (.optional (Window.hasDistinctKeys_tree locations) window)).append
        (.optional (Duration.hasDistinctKeys_tree locations) duration)).append
          (.optional (Jump.hasDistinctKeys_tree locations) jump)

mutual

/-- No object of a node as data has a key twice. -/
theorem Node.hasDistinctKeys_tree : ∀ n : Node, (n.tree locations).HasDistinctKeys
  | .comment n => n.hasDistinctKeys_tree locations
  | .string n => n.hasDistinctKeys_tree locations
  | .number n => n.hasDistinctKeys_tree locations
  | .regex n => n.hasDistinctKeys_tree locations
  | .hideAll n => n.hasDistinctKeys_tree locations
  | .alertAll n => n.hasDistinctKeys_tree locations
  | .define n => n.hasDistinctKeys_tree locations
  | .regexSync n => n.hasDistinctKeys_tree locations
  | .blockSync n => n.hasDistinctKeys_tree locations
  | .window n => n.hasDistinctKeys_tree locations
  | .jump n => n.hasDistinctKeys_tree locations
  | .duration n => n.hasDistinctKeys_tree locations
  | .before n => n.hasDistinctKeys_tree locations
  | .sound n => n.hasDistinctKeys_tree locations
  | .entry span time name s w d j => by
    have hfields := areFields_entry locations time name (Node.areFields_sync s) w d j
    have hnode := hfields.node locations "Entry".toList span (by decide)
    rwa [← List.append_assoc, ← List.append_assoc, ← List.append_assoc] at hnode
  | .program span body comments sourceFile sourceType => by
    have hcomments : ∀ v ∈ comments.map (Comment.tree locations), v.HasDistinctKeys := by
      intro v hv
      rcases List.mem_map.mp hv with ⟨c, -, rfl⟩
      exact c.hasDistinctKeys_tree locations
    exact (AreFields.cons (.array (Node.hasDistinctKeys_trees body)) (.cons (.array hcomments)
      (.cons (.string sourceFile) (.single (.string sourceType))))).node locations _ span
      (by decide)

/-- Exported nodes have no key twice. -/
theorem Node.hasDistinctKeys_trees : ∀ nodes : List Node,
    ∀ v ∈ Node.trees locations nodes, v.HasDistinctKeys
  | [] => by simp [Node.trees]
  | n :: rest => by
    intro v hv
    rcases List.mem_cons.mp hv with rfl | hv
    · exact Node.hasDistinctKeys_tree n
    · exact Node.hasDistinctKeys_trees rest v hv

/-- The synchronisation of an entry is one field or none. -/
theorem Node.areFields_sync : ∀ sync : Option Node,
    AreFields ["sync".toList] (Node.syncField locations sync)
  | none => .nil
  | some n => .single (Node.hasDistinctKeys_tree n)

end

end

/-! ## Exported nodes -/

/-- A node as data, in octets. -/
def Node.serialize (locations : Bool) (n : Node) : List UInt8 :=
  Text.encode (Json.write (n.tree locations))

/-- The data that some octets hold, if they are the code of a JSON text. -/
def deserialize? (octets : List UInt8) : Option Value :=
  (Text.decode octets).toOption.bind Json.read?

/-- An exported node is read back, with the order of its fields and with whole numbers apart from
others, from its octets as well as from the text that they are the code of. -/
theorem Node.deserialize?_serialize (n : Node) (locations : Bool) :
    deserialize? (n.serialize locations) = some (n.tree locations) ∧
      ∃ t, Text.decode (n.serialize locations) = .ok t ∧
        Json.read? t = some (n.tree locations) := by
  have hdecode : Text.decode (n.serialize locations) = .ok (Json.write (n.tree locations)) :=
    Text.decode_encode _
  have hread := Json.read?_write (n.hasDistinctKeys_tree locations)
  refine ⟨?_, _, hdecode, hread⟩
  rw [deserialize?, hdecode]
  exact hread

end RaidTimeline
