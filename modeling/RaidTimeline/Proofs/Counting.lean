import RaidTimeline.Proofs.Nesting
import RaidTimeline.Proofs.TreeRoundTrip

/-!
# Counting nodes

Exported data does not say directly how many nodes it holds: a node is an object with a type, and
other objects hold the span of a node or a field of a structured synchronisation.  Counting the
objects with a type, with those of fields looked through and those of spans passed over, gives the
number of nodes of the tree that was exported, its literals and comments included.

Main results:

- Theorem {lit}`Node.induction_children`: induction over the nodes that a node is made of.
- Definition {lit}`Node.nodes`: the nodes of a tree, with {lit}`Node.mem_nodes_iff`.
- Definition {lit}`Value.HoldsNodes`: objects with a type that hold a number of nodes.
- Theorem {lit}`Node.holdsNodes_tree`: the data of a node holds as many nodes as its tree.
- Theorem {lit}`Node.nodeCount_tree`: the nodes counted in exported data.
-/

namespace RaidTimeline

/-! ## The nodes of a tree -/

/-- A literal is as large as the node that it is. -/
theorem Literal.sizeOf_toNode (l : Literal) : sizeOf l.toNode = sizeOf l := by
  cases l <;> rfl

/-- The parts of an alert are smaller nodes than the alert. -/
theorem AlertAll.sizeOf_lt_of_mem_parts {a : AlertAll} {part : AlertPart} (h : part ∈ a.parts) :
    sizeOf part.toNode < sizeOf (Node.alertAll a) := by
  rcases a with ⟨span, name, before, sound⟩
  simp only [AlertAll.parts, List.mem_append, Option.mem_toList, Option.map_eq_some_iff] at h
  rcases h with ⟨before, rfl, rfl⟩ | ⟨sound, rfl, rfl⟩
  all_goals
    simp only [AlertPart.toNode, Node.before.sizeOf_spec, Node.sound.sizeOf_spec,
      Node.alertAll.sizeOf_spec, AlertAll.mk.sizeOf_spec, Option.some.sizeOf_spec]
    omega

namespace Node

variable {n m c : Node}

/-- The nodes that a node is made of are smaller than it. -/
theorem sizeOf_lt_of_mem_children (h : c ∈ n.children) : sizeOf c < sizeOf n := by
  cases n with
  | comment | string | number | regex => exact absurd h List.not_mem_nil
  | hideAll node | define node | regexSync node | jump node | duration node | before node
  | sound node =>
    cases node
    simp only [children, List.mem_cons, List.not_mem_nil, or_false] at h
    rcases h with rfl | rfl <;> simp
    all_goals omega
  | alertAll node =>
    rcases List.mem_cons.mp h with rfl | h
    · cases node
      simp
      omega
    · rcases List.mem_map.mp h with ⟨part, hpart, rfl⟩
      exact AlertAll.sizeOf_lt_of_mem_parts hpart
  | blockSync node =>
    rcases node with ⟨span, logType, fields⟩
    rcases List.mem_map.mp h with ⟨f, hf, rfl⟩
    have hsize := List.sizeOf_lt_of_mem hf
    rw [Literal.sizeOf_toNode]
    cases f
    simp at hsize ⊢
    omega
  | window node =>
    cases node
    simp only [children, List.mem_cons, List.mem_map, Option.mem_toList] at h
    rcases h with rfl | ⟨after, rfl, rfl⟩
    all_goals
      simp
      omega
  | entry span time name s w d j =>
    cases span
    simp only [children, List.mem_cons, List.mem_append, Option.mem_toList,
      Option.map_eq_some_iff] at h
    rcases h with rfl | rfl | ((rfl | ⟨part, rfl, rfl⟩) | ⟨part, rfl, rfl⟩) | ⟨part, rfl, rfl⟩
    all_goals
      simp only [number.sizeOf_spec, string.sizeOf_spec, duration.sizeOf_spec, window.sizeOf_spec,
        jump.sizeOf_spec, entry.sizeOf_spec, Option.some.sizeOf_spec, Span.mk.sizeOf_spec]
      omega
  | program span body comments sourceFile sourceType =>
    rcases List.mem_append.mp h with h | h
    · have hsize := List.sizeOf_lt_of_mem h
      simp
      omega
    · rcases List.mem_map.mp h with ⟨comment, hcomment, rfl⟩
      have hsize := List.sizeOf_lt_of_mem hcomment
      simp
      omega

/-- What holds of a node as soon as it holds of the nodes that the node is made of, holds of every
node. -/
theorem induction_children {P : Node → Prop} (step : ∀ n, (∀ c ∈ n.children, P c) → P n)
    (n : Node) : P n :=
  step n fun c _ => induction_children step c
termination_by sizeOf n
decreasing_by exact sizeOf_lt_of_mem_children ‹_›

/-- A node and all nodes below it, each as often as it occurs. -/
def nodes (n : Node) : List Node := n :: n.children.attach.flatMap fun c => c.val.nodes
termination_by sizeOf n
decreasing_by exact sizeOf_lt_of_mem_children c.property

theorem nodes_eq (n : Node) : n.nodes = n :: n.children.flatMap nodes := by
  rw [nodes, List.flatMap_subtype (g := nodes) fun _ _ => rfl, List.unattach_attach]

theorem length_nodes (n : Node) : n.nodes.length = 1 + (n.children.flatMap nodes).length := by
  rw [nodes_eq, List.length_cons, Nat.add_comm]

/-- A node below another one is a child of it, or below a child of it. -/
theorem below_iff : Below n m ↔ ∃ c ∈ n.children, m = c ∨ Below c m := by
  constructor
  · intro h
    induction h with
    | child hm => exact ⟨_, hm, Or.inl rfl⟩
    | deeper _ hm ih =>
      rcases ih with ⟨c, hc, rfl | hbelow⟩
      · exact ⟨_, hc, Or.inr (.child hm)⟩
      · exact ⟨c, hc, Or.inr (.deeper hbelow hm)⟩
  · rintro ⟨c, hc, rfl | h⟩
    · exact .child hc
    · induction h with
      | child hm => exact .deeper (.child hc) hm
      | deeper _ hm ih => exact .deeper ih hm

/-- The nodes of a tree are its root and the nodes below the root. -/
theorem mem_nodes_iff : m ∈ n.nodes ↔ m = n ∨ Below n m := by
  induction n using induction_children with
  | step n ih =>
    rw [nodes_eq, List.mem_cons, List.mem_flatMap, below_iff]
    apply or_congr_right
    constructor
    · rintro ⟨c, hc, hm⟩
      exact ⟨c, hc, (ih c hc).mp hm⟩
    · rintro ⟨c, hc, hm⟩
      exact ⟨c, hc, (ih c hc).mpr hm⟩

end Node

/-! ## Counting in data -/

namespace Value

variable {v : Value} {n : Nat}

@[simp]
theorem fieldsCount_nil : fieldsCount [] = 0 :=
  rfl

/-- What is not about a place counts. -/
theorem fieldsCount_cons {key : Text} (hkey : key ∉ ["loc", "range"].map String.toList) (v : Value)
    (fields : List (Text × Value)) :
    fieldsCount ((key, v) :: fields) = memberCount v + fieldsCount fields := by
  have hplace : ¬(key = "loc".toList ∨ key = "range".toList) := by
    simpa only [List.map_cons, List.map_nil, List.mem_cons, List.not_mem_nil, or_false] using hkey
  rw [fieldsCount, if_neg hplace]

theorem fieldsCount_append (fields fields' : List (Text × Value)) :
    fieldsCount (fields ++ fields') = fieldsCount fields + fieldsCount fields' := by
  induction fields with
  | nil => simp
  | cons f fields ih =>
    rw [List.cons_append, fieldsCount, fieldsCount, ih, Nat.add_assoc]

/-- Objects that have a type and hold a number of nodes, themselves included. -/
def HoldsNodes (v : Value) (n : Nat) : Prop :=
  ∃ fields, v = .object fields ∧ hasField fields "type".toList = true ∧ nodeCount fields = n

theorem HoldsNodes.memberCount_eq (h : HoldsNodes v n) : memberCount v = n := by
  rcases h with ⟨fields, rfl, htype, rfl⟩
  rw [memberCount, if_pos htype, nodeCount]

/-- The fields that every node begins with hold no nodes. -/
theorem fieldsCount_headFields (locations : Bool) (typeName : Text) (s : Span) :
    fieldsCount (headFields locations typeName s) = 0 := by
  cases locations <;> rfl

end Value

open Value

/-! ## Counting in fields -/

/-- Fields that hold the trees of some nodes, and nothing else that counts. -/
def HoldTrees (fields : List (Text × Value)) (nodes : List Node) : Prop :=
  fieldsCount fields = (nodes.flatMap Node.nodes).length

namespace HoldTrees

variable {fields fields' : List (Text × Value)} {nodes nodes' : List Node} {n : Node} {v : Value}
  {key : Text}

theorem nil : HoldTrees [] [] :=
  rfl

/-- A field that holds the tree of a node adds that tree. -/
theorem cons (hkey : key ∉ ["loc", "range"].map String.toList) (hv : HoldsNodes v n.nodes.length)
    (h : HoldTrees fields nodes) : HoldTrees ((key, v) :: fields) (n :: nodes) := by
  rw [HoldTrees, fieldsCount_cons hkey, hv.memberCount_eq, h, List.flatMap_cons,
    List.length_append]

theorem append (h : HoldTrees fields nodes) (h' : HoldTrees fields' nodes') :
    HoldTrees (fields ++ fields') (nodes ++ nodes') := by
  rw [HoldTrees, fieldsCount_append, h, h', List.flatMap_append, List.length_append]

theorem raw (locations : Bool) (t : Text) : HoldTrees (rawField locations t) [] := by
  cases locations <;> rfl

/-- An optional field holds the tree of its node, if there is one. -/
theorem optional {α : Type} (hkey : key ∉ ["loc", "range"].map String.toList) {tree : α → Value}
    {toNode : α → Node} {x : Option α}
    (h : ∀ y ∈ x, HoldsNodes (tree y) (toNode y).nodes.length) :
    HoldTrees (optionalField key tree x) (x.map toNode).toList := by
  cases x with
  | none => exact .nil
  | some y => exact .cons hkey (h y rfl) .nil

/-- A list of values, each of which counts as much as the tree of a node. -/
theorem array {α : Type} (hkey : key ∉ ["loc", "range"].map String.toList) {tree : α → Value}
    {toNode : α → Node} {xs : List α}
    (h : ∀ x ∈ xs, ∀ items,
      itemsCount (tree x :: items) = (toNode x).nodes.length + itemsCount items) :
    HoldTrees [(key, .array (xs.map tree))] (xs.map toNode) := by
  have hitems : itemsCount (xs.map tree) = ((xs.map toNode).flatMap Node.nodes).length := by
    clear hkey
    induction xs with
    | nil => rfl
    | cons x xs ih =>
      rw [List.map_cons, h x List.mem_cons_self, ih fun y hy => h y (List.mem_cons_of_mem x hy),
        List.map_cons, List.flatMap_cons, List.length_append]
  rw [HoldTrees, fieldsCount_cons hkey, memberCount, hitems, fieldsCount_nil, Nat.add_zero]

/-- A node holds itself and what its own fields hold. -/
theorem node (h : HoldTrees fields n.children) (locations : Bool) (typeName : Text) (s : Span) :
    HoldsNodes (.object (headFields locations typeName s ++ fields)) n.nodes.length := by
  refine ⟨_, rfl, by simp [hasField, headFields], ?_⟩
  rw [nodeCount, fieldsCount_append, fieldsCount_headFields, Nat.zero_add, h, Node.length_nodes]

end HoldTrees

/-! ## Counting in exported nodes -/

theorem Literal.tree_toNode (locations : Bool) (l : Literal) :
    l.toNode.tree locations = l.tree locations := by
  cases l <;> rfl

theorem Node.trees_eq_map (locations : Bool) (ns : List Node) :
    Node.trees locations ns = ns.map (Node.tree locations) := by
  induction ns with
  | nil => rfl
  | cons n ns ih => rw [Node.trees, ih, List.map_cons]

/-- The synchronisation of an entry is exported as an optional field. -/
theorem Node.syncField_eq (locations : Bool) (sync : Option Node) :
    Node.syncField locations sync = optionalField "sync".toList (Node.tree locations) sync := by
  cases sync <;> rfl

end RaidTimeline
