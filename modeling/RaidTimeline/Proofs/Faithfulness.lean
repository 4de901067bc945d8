import Mathlib.Data.List.Forall2
import RaidTimeline.Proofs.Content
import RaidTimeline.Proofs.Counting

/-!
# Data says what a node is

Two nodes have the same data with locations only if they are equal, and the same data without
locations only if they are equal once every span and every raw text is erased.  Data is compared as
its readers compare it: the order of the fields of an object does not count, and numbers are the
same if their texts are.

Main results:

- Definition {lit}`Value.Same`: when two values are the same data.
- Definition {lit}`Node.erased`: a node without spans and raw texts.
- Definition {lit}`FieldsAgree`: fields of two objects that are the same exactly if something holds.
- Theorem {lit}`Node.same_tree_iff`: when two nodes have the same data.
- Theorem {lit}`Node.tree_faithful`: the same with locations and without them.
-/

namespace RaidTimeline

/-! ## Nodes without places -/

/-- A comment without its place and raw text. -/
def Comment.bare (c : Comment) : Comment := ⟨.none, c.value, []⟩

/-- A synchronisation on a regular expression without places and raw texts. -/
def RegexSync.bare (s : RegexSync) : RegexSync := ⟨.none, s.regex.bare⟩

/-- A structured synchronisation without places and raw texts. -/
def BlockSync.bare (s : BlockSync) : BlockSync := ⟨.none, s.logType, s.fields.map Field.bare⟩

/-- The lead time of an alert without places and raw texts. -/
def Before.bare (b : Before) : Before := ⟨.none, b.time.bare⟩

/-- The sound of an alert without places and raw texts. -/
def Sound.bare (s : Sound) : Sound := ⟨.none, s.file.bare⟩

theorem AlertAll.bare_eq (a : AlertAll) :
    a.bare = ⟨.none, a.name.bare, a.before.map Before.bare, a.sound.map Sound.bare⟩ :=
  rfl

/-- A window without places and raw texts; it keeps its second number, whatever that is. -/
def Window.erased (w : Window) : Window :=
  ⟨.none, w.before.bare, w.after.map NumberLiteral.bare⟩

mutual

/-- A node without any span or raw text. -/
def Node.erased : Node → Node
  | .comment n => .comment n.bare
  | .string n => .string n.bare
  | .number n => .number n.bare
  | .regex n => .regex n.bare
  | .hideAll n => .hideAll n.bare
  | .alertAll n => .alertAll n.bare
  | .define n => .define n.bare
  | .regexSync n => .regexSync n.bare
  | .blockSync n => .blockSync n.bare
  | .window n => .window n.erased
  | .jump n => .jump n.bare
  | .duration n => .duration n.bare
  | .before n => .before n.bare
  | .sound n => .sound n.bare
  | .entry _ time name s w d j =>
      .entry .none time.bare name.bare (Node.erasedSync s) (w.map Window.erased)
        (d.map Duration.bare) (j.map Jump.bare)
  | .program _ body comments sourceFile sourceType =>
      .program .none (Node.erasedAll body) (comments.map Comment.bare) sourceFile sourceType

/-- Nodes without any span or raw text. -/
def Node.erasedAll : List Node → List Node
  | [] => []
  | n :: rest => n.erased :: Node.erasedAll rest

/-- The synchronisation of an entry without any span or raw text. -/
def Node.erasedSync : Option Node → Option Node
  | some n => some n.erased
  | none => none

end

theorem Node.erasedAll_eq_map (ns : List Node) : Node.erasedAll ns = ns.map Node.erased := by
  induction ns with
  | nil => rfl
  | cons n ns ih => rw [Node.erasedAll, ih, List.map_cons]

theorem Node.erasedSync_eq_map (sync : Option Node) :
    Node.erasedSync sync = sync.map Node.erased := by
  cases sync <;> rfl

/-- Erasing does not change the kind of a node. -/
theorem Node.ctorIdx_erased (n : Node) : n.erased.ctorIdx = n.ctorIdx := by
  cases n <;> rfl

/-! ## Numbers -/

/-- The text of a number is read as that number if it is finite, and as none otherwise. -/
theorem Json.readNumber_text_eq (x : Binary64) :
    Json.readNumber x.text = if x.isFinite then some (.real x, []) else none := by
  cases x with
  | finite v =>
    have hend : Separates [] := by simp [Separates]
    simpa [Binary64.isFinite] using Json.readNumber_text v hend
  | nan => rfl
  | infinite negative => cases negative <;> rfl

/-- Numbers with one text are equal. -/
theorem Binary64.text_inj {x y : Binary64} : x.text = y.text ↔ x = y := by
  refine ⟨fun h => ?_, congrArg Binary64.text⟩
  have hread := congrArg Json.readNumber h
  rw [Json.readNumber_text_eq, Json.readNumber_text_eq] at hread
  cases hx : x.isFinite <;> cases hy : y.isFinite <;> simp [hx, hy] at hread
  · -- three numbers are left on either side, and their texts differ
    rcases x with _ | ⟨_ | _⟩ | v <;> rcases y with _ | ⟨_ | _⟩ | w <;>
      first | rfl | contradiction
  · exact hread

/-! ## The same data -/

namespace Value

/-- Two values are the same data; the order of the fields of an object does not count. -/
inductive Same : Value → Value → Prop where
  | null : Same .null .null
  | bool (b : Bool) : Same (.bool b) (.bool b)
  | integer (n : Int) : Same (.integer n) (.integer n)
  | real {x y : Binary64} : x.text = y.text → Same (.real x) (.real y)
  | string (t : Text) : Same (.string t) (.string t)
  | array {xs ys : List Value} : List.Forall₂ Same xs ys → Same (.array xs) (.array ys)
  | object {fs gs : List (Text × Value)} :
      (∀ key, Option.Rel Same (field? fs key) (field? gs key)) → Same (.object fs) (.object gs)

namespace Same

theorem string_iff {t u : Text} : Same (.string t) (.string u) ↔ t = u := by
  constructor
  · rintro ⟨⟩
    rfl
  · rintro rfl
    exact .string t

theorem ofNat_iff {n m : Nat} : Same (.ofNat n) (.ofNat m) ↔ n = m := by
  constructor
  · intro h
    cases h
    rfl
  · rintro rfl
    exact .integer n

theorem real_iff {x y : Binary64} : Same (.real x) (.real y) ↔ x = y := by
  rw [← Binary64.text_inj]
  constructor
  · rintro ⟨⟩
    assumption
  · exact .real

/-- Lists are the same data if they are item by item. -/
theorem array_iff {xs ys : List Value} :
    Same (.array xs) (.array ys) ↔ List.Forall₂ Same xs ys := by
  constructor
  · rintro ⟨⟩
    assumption
  · exact .array

/-- Objects are the same data if every key has the same in both. -/
theorem object_iff {fs gs : List (Text × Value)} :
    Same (.object fs) (.object gs) ↔ ∀ key, Option.Rel Same (field? fs key) (field? gs key) := by
  constructor
  · rintro ⟨⟩
    assumption
  · exact .object

/-- Objects with the same data have fields of the same keys. -/
theorem isSome_field? {fs gs : List (Text × Value)} (h : Same (.object fs) (.object gs))
    (key : Text) : (field? fs key).isSome = (field? gs key).isSome := by
  have hkey := object_iff.mp h key
  revert hkey
  generalize field? fs key = v
  generalize field? gs key = w
  rintro ⟨⟩ <;> rfl

end Same

end Value

open Value

/-! ## Equal up to places and raw texts -/

/-- With locations two things are equal, and without them they are once they are erased. -/
def EqualUpTo {α : Type} (locations : Bool) (erase : α → α) (x y : α) : Prop :=
  if locations then x = y else erase x = erase y

namespace EqualUpTo

variable {α β : Type} {locations : Bool} {erase : α → α} {erase' : β → β}

/-- A constructor keeps what is alike, and so does taking it away. -/
theorem apply_iff {f : α → β} (hf : Function.Injective f)
    (herase : ∀ x, erase' (f x) = f (erase x)) {x y : α} :
    EqualUpTo locations erase' (f x) (f y) ↔ EqualUpTo locations erase x y := by
  cases locations with
  | true => exact hf.eq_iff
  | false =>
    simp only [EqualUpTo, herase]
    exact hf.eq_iff

/-- Optional parts are alike if both are missing, or both are there and alike. -/
theorem option_iff {x y : Option α} :
    EqualUpTo locations (Option.map erase) x y ↔ Option.Rel (EqualUpTo locations erase) x y := by
  cases x <;> cases y <;> cases locations <;> simp [EqualUpTo]

/-- Lists are alike if they are item by item. -/
theorem list_iff {xs ys : List α} :
    EqualUpTo locations (List.map erase) xs ys ↔
      List.Forall₂ (EqualUpTo locations erase) xs ys := by
  induction xs generalizing ys with
  | nil => cases ys <;> cases locations <;> simp [EqualUpTo]
  | cons x xs ih =>
    cases ys with
    | nil => cases locations <;> simp [EqualUpTo]
    | cons y ys =>
      rw [List.forall₂_cons, ← ih]
      cases locations <;> simp [EqualUpTo]

end EqualUpTo

/-! ## Fields that are the same -/

/-- Fields of two objects, with keys from a list, that are the same exactly if something holds. -/
structure FieldsAgree (keys : List Text) (fs gs : List (Text × Value)) (P : Prop) : Prop where
  left : ∀ f ∈ fs, f.1 ∈ keys
  right : ∀ g ∈ gs, g.1 ∈ keys
  same_iff : Same (.object fs) (.object gs) ↔ P

namespace FieldsAgree

variable {keys keys' : List Text} {fs gs fs' gs' : List (Text × Value)} {P Q : Prop} {key : Text}
  {v w : Value}

theorem field?_eq_none (h : ∀ f ∈ fs, f.1 ∈ keys) (hkey : key ∉ keys) : field? fs key = none := by
  simp only [field?, Option.map_eq_none_iff, List.find?_eq_none, beq_iff_eq]
  rintro f hf rfl
  exact hkey (h f hf)

/-- The condition can be put in other words. -/
theorem imp_iff (h : FieldsAgree keys fs gs P) (hiff : P ↔ Q) : FieldsAgree keys fs gs Q :=
  ⟨h.left, h.right, h.same_iff.trans hiff⟩

theorem nil : FieldsAgree keys [] [] True := by
  refine ⟨by simp, by simp, iff_true_intro (.object fun key => ?_)⟩
  exact .none

/-- One field agrees as its value does. -/
theorem single (h : Same v w ↔ P) : FieldsAgree [key] [(key, v)] [(key, w)] P := by
  refine ⟨by simp, by simp, ?_⟩
  rw [← h, Same.object_iff]
  constructor
  · intro hsame
    simpa [field?_cons] using hsame key
  · intro hsame other
    by_cases hkey : key = other <;> simp [field?, hkey, hsame]

/-- Fields with other keys do not matter to each other. -/
theorem append (h : FieldsAgree keys fs gs P) (h' : FieldsAgree keys' fs' gs' Q)
    (hkeys : ∀ key ∈ keys, key ∉ keys') :
    FieldsAgree (keys ++ keys') (fs ++ fs') (gs ++ gs') (P ∧ Q) := by
  refine ⟨?_, ?_, ?_⟩
  · intro f hf
    exact List.mem_append.mpr ((List.mem_append.mp hf).imp (h.left f) (h'.left f))
  · intro g hg
    exact List.mem_append.mpr ((List.mem_append.mp hg).imp (h.right g) (h'.right g))
  · rw [← h.same_iff, ← h'.same_iff, Same.object_iff, Same.object_iff, Same.object_iff,
      ← forall_and]
    refine forall_congr' fun key => ?_
    rw [field?_append, field?_append]
    by_cases hkey : key ∈ keys
    · rw [field?_eq_none h'.left (hkeys key hkey), field?_eq_none h'.right (hkeys key hkey)]
      simp
    · rw [field?_eq_none h.left hkey, field?_eq_none h.right hkey]
      simp

/-- A field in front with a key of its own adds its condition. -/
theorem cons (h : Same v w ↔ P) (h' : FieldsAgree keys fs gs Q) (hkey : key ∉ keys) :
    FieldsAgree (key :: keys) ((key, v) :: fs) ((key, w) :: gs) (P ∧ Q) :=
  (single h).append h' (by simpa)

section

variable {α : Type} {locations : Bool} {erase : α → α} {tree : α → Value}

/-- An optional field agrees exactly if what it holds is alike. -/
theorem optional {x y : Option α}
    (h : ∀ a ∈ x, ∀ b, Same (tree a) (tree b) ↔ EqualUpTo locations erase a b) :
    FieldsAgree [key] (optionalField key tree x) (optionalField key tree y)
      (EqualUpTo locations (Option.map erase) x y) := by
  rw [EqualUpTo.option_iff]
  cases x with
  | none =>
    cases y with
    | none => exact nil.imp_iff (by simp)
    | some b =>
      refine ⟨by simp [optionalField], by simp [optionalField], iff_of_false ?_ (by simp)⟩
      intro hsame
      simpa [optionalField, field?] using hsame.isSome_field? key
  | some a =>
    cases y with
    | none =>
      refine ⟨by simp [optionalField], by simp [optionalField], iff_of_false ?_ (by simp)⟩
      intro hsame
      simpa [optionalField, field?] using hsame.isSome_field? key
    | some b => exact (single (h a rfl b)).imp_iff (by simp)

/-- A field with a list agrees exactly if the items are alike. -/
theorem array {xs ys : List α}
    (h : ∀ a ∈ xs, ∀ b, Same (tree a) (tree b) ↔ EqualUpTo locations erase a b) :
    FieldsAgree [key] [(key, .array (xs.map tree))] [(key, .array (ys.map tree))]
      (EqualUpTo locations (List.map erase) xs ys) := by
  apply single
  rw [Same.array_iff, EqualUpTo.list_iff, List.forall₂_map_left_iff, List.forall₂_map_right_iff]
  induction xs generalizing ys with
  | nil => simp
  | cons x xs ih =>
    cases ys with
    | nil => simp
    | cons y ys =>
      rw [List.forall₂_cons, List.forall₂_cons, h x List.mem_cons_self y,
        ih fun a ha => h a (List.mem_cons_of_mem x ha)]

end

/-- The raw texts agree if they are equal, or are not exported. -/
theorem raw (locations : Bool) (t u : Text) :
    FieldsAgree ["raw".toList] (rawField locations t) (rawField locations u)
      (EqualUpTo locations (fun _ => []) t u) := by
  cases locations with
  | true => exact single Same.string_iff
  | false => exact nil.imp_iff (by simp [EqualUpTo])

end FieldsAgree

theorem Position.same_tree_iff {p q : Position} : Same p.tree q.tree ↔ p = q := by
  refine (FieldsAgree.cons Same.ofNat_iff (.single Same.ofNat_iff) (by decide)).same_iff.trans ?_
  cases p
  cases q
  simp

/-- Spans are exported faithfully, in two fields. -/
theorem FieldsAgree.span {s s' : Span} :
    FieldsAgree (["range", "loc"].map String.toList) s.fields s'.fields (s = s') := by
  have hrange : Same (.array [.ofNat s.start, .ofNat s.stop])
      (.array [.ofNat s'.start, .ofNat s'.stop]) ↔ s.start = s'.start ∧ s.stop = s'.stop := by
    simp [Same.array_iff, Same.ofNat_iff]
  have hloc : Same (.object [("start".toList, s.first.tree), ("end".toList, s.last.tree)])
      (.object [("start".toList, s'.first.tree), ("end".toList, s'.last.tree)]) ↔
        s.first = s'.first ∧ s.last = s'.last :=
    (cons Position.same_tree_iff (.single Position.same_tree_iff) (by decide)).same_iff
  refine (cons hrange (.single hloc) (by decide)).imp_iff ?_
  cases s
  cases s'
  simp [and_assoc]

/-- The fields that every node begins with. -/
theorem FieldsAgree.head (locations : Bool) (typeName : Text) (s s' : Span) :
    FieldsAgree (["type", "range", "loc"].map String.toList) (headFields locations typeName s)
      (headFields locations typeName s') (EqualUpTo locations (fun _ => .none) s s') := by
  have hplace : FieldsAgree (["range", "loc"].map String.toList)
      (if locations then s.fields else []) (if locations then s'.fields else [])
      (EqualUpTo locations (fun _ => .none) s s') := by
    cases locations with
    | true => exact .span
    | false => exact nil.imp_iff (by simp [EqualUpTo])
  exact (cons (Same.string_iff.trans (iff_true_intro rfl)) hplace (by decide)).imp_iff (by simp)

/-- The names of the kinds of nodes, in the order of the kinds. -/
def Node.typeNames : List Text :=
  ["CommentLine", "StringLiteral", "NumericLiteral", "RegExpLiteral", "HideAllStatement",
    "AlertAllStatement", "DefineStatement", "SyncStatement", "NetSyncStatement",
    "WindowStatement", "JumpStatement", "DurationStatement", "BeforeStatement", "SoundStatement",
    "Entry", "Program"].map String.toList

/-- No two kinds of nodes have one name. -/
theorem Node.idxOf_typeName (n : Node) : typeNames.idxOf n.typeName = n.ctorIdx := by
  cases n <;> rfl

/-- Nodes with the same data are of one kind. -/
theorem Node.ctorIdx_eq_of_same {locations : Bool} {a b : Node}
    (h : Same (a.tree locations) (b.tree locations)) : a.ctorIdx = b.ctorIdx := by
  have htype : ∀ n : Node, ∃ fields, n.tree locations = .object fields ∧
      field? fields "type".toList = some (.string n.typeName) := by
    intro n
    cases n <;> exact ⟨_, rfl, rfl⟩
  rcases htype a with ⟨fs, htree, hfs⟩
  rcases htype b with ⟨gs, htree', hgs⟩
  rw [htree, htree'] at h
  have hname := Same.object_iff.mp h "type".toList
  rw [hfs, hgs, Option.rel_some_some, Same.string_iff] at hname
  rw [← idxOf_typeName, ← idxOf_typeName, hname]

/-- Two nodes of a kind have the same data if their spans and their own fields have; no field of
their own is one that every node has. -/
theorem FieldsAgree.node {keys : List Text} {fs gs : List (Text × Value)} {P Q : Prop}
    {locations : Bool} {typeName : Text} {s s' : Span} (h : FieldsAgree keys fs gs P)
    (hkeys : ∀ key ∈ ["type", "range", "loc"].map String.toList, key ∉ keys)
    (hiff : EqualUpTo locations (fun _ => .none) s s' ∧ P ↔ Q) :
    Same (.object (headFields locations typeName s ++ fs))
      (.object (headFields locations typeName s' ++ gs)) ↔ Q :=
  ((FieldsAgree.head locations typeName s s').append h hkeys).same_iff.trans hiff

/-! ## Nodes that are made of a fixed number of parts -/

section

variable {locations : Bool}

theorem Comment.same_tree_iff {c d : Comment} :
    Same (c.tree locations) (d.tree locations) ↔ EqualUpTo locations Comment.bare c d := by
  refine (FieldsAgree.cons Same.string_iff (.raw locations c.raw d.raw) (by decide)).node
    (by decide) ?_
  cases c
  cases d
  cases locations <;> simp [EqualUpTo, Comment.bare]

theorem StringLiteral.same_tree_iff {s t : StringLiteral} :
    Same (s.tree locations) (t.tree locations) ↔ EqualUpTo locations StringLiteral.bare s t := by
  refine (FieldsAgree.cons Same.string_iff (.raw locations s.raw t.raw) (by decide)).node
    (by decide) ?_
  cases s
  cases t
  cases locations <;> simp [EqualUpTo, StringLiteral.bare]

theorem NumberLiteral.same_tree_iff {n m : NumberLiteral} :
    Same (n.tree locations) (m.tree locations) ↔ EqualUpTo locations NumberLiteral.bare n m := by
  refine (FieldsAgree.cons Same.real_iff (.raw locations n.raw m.raw) (by decide)).node
    (by decide) ?_
  cases n
  cases m
  cases locations <;> simp [EqualUpTo, NumberLiteral.bare]

theorem RegexLiteral.same_tree_iff {r q : RegexLiteral} :
    Same (r.tree locations) (q.tree locations) ↔ EqualUpTo locations RegexLiteral.bare r q := by
  rw [RegexLiteral.tree, RegexLiteral.tree, List.append_assoc, List.append_assoc]
  refine ((FieldsAgree.cons Same.string_iff (.raw locations r.raw q.raw) (by decide)).append
    (.single Same.string_iff) (by decide)).node (by decide) ?_
  cases r
  cases q
  cases locations <;> simp [EqualUpTo, RegexLiteral.bare, and_assoc]

theorem Literal.same_tree_iff {l m : Literal} :
    Same (l.tree locations) (m.tree locations) ↔ EqualUpTo locations Literal.bare l m := by
  have hkind : Same (l.tree locations) (m.tree locations) →
      l.toNode.ctorIdx = m.toNode.ctorIdx := by
    rw [← Literal.tree_toNode, ← Literal.tree_toNode]
    exact Node.ctorIdx_eq_of_same
  cases l with
  | string s =>
    cases m with
    | string t =>
      have hstring : Function.Injective Literal.string := fun _ _ => Literal.string.inj
      exact StringLiteral.same_tree_iff.trans (EqualUpTo.apply_iff hstring fun _ => rfl).symm
    | number m =>
      refine iff_of_false ?_ ?_
      · intro h
        cases hkind h
      · cases locations <;> simp [EqualUpTo, Literal.bare]
  | number n =>
    cases m with
    | string t =>
      refine iff_of_false ?_ ?_
      · intro h
        cases hkind h
      · cases locations <;> simp [EqualUpTo, Literal.bare]
    | number m =>
      have hnumber : Function.Injective Literal.number := fun _ _ => Literal.number.inj
      exact NumberLiteral.same_tree_iff.trans (EqualUpTo.apply_iff hnumber fun _ => rfl).symm

theorem Field.same_tree_iff {f g : Field} :
    Same (f.tree locations) (g.tree locations) ↔ EqualUpTo locations Field.bare f g := by
  refine (FieldsAgree.cons Same.string_iff (.single Literal.same_tree_iff)
    (by decide)).same_iff.trans ?_
  cases f
  cases g
  cases locations <;> simp [EqualUpTo, Field.bare]

theorem RegexSync.same_tree_iff {s t : RegexSync} :
    Same (s.tree locations) (t.tree locations) ↔ EqualUpTo locations RegexSync.bare s t := by
  refine (FieldsAgree.single RegexLiteral.same_tree_iff).node (by decide) ?_
  cases s
  cases t
  cases locations <;> simp [EqualUpTo, RegexSync.bare]

theorem BlockSync.same_tree_iff {s t : BlockSync} :
    Same (s.tree locations) (t.tree locations) ↔ EqualUpTo locations BlockSync.bare s t := by
  refine (FieldsAgree.cons Same.string_iff (.array fun _ _ _ => Field.same_tree_iff)
    (by decide)).node (by decide) ?_
  cases s
  cases t
  cases locations <;> simp [EqualUpTo, BlockSync.bare]

theorem Window.same_tree_iff {w v : Window} :
    Same (w.tree locations) (v.tree locations) ↔ EqualUpTo locations Window.erased w v := by
  refine (FieldsAgree.cons NumberLiteral.same_tree_iff
    (.optional fun _ _ _ => NumberLiteral.same_tree_iff) (by decide)).node (by decide) ?_
  cases w
  cases v
  cases locations <;> simp [EqualUpTo, Window.erased]

theorem Jump.same_tree_iff {j k : Jump} :
    Same (j.tree locations) (k.tree locations) ↔ EqualUpTo locations Jump.bare j k := by
  refine (FieldsAgree.single NumberLiteral.same_tree_iff).node (by decide) ?_
  cases j
  cases k
  cases locations <;> simp [EqualUpTo, Jump.bare]

theorem Duration.same_tree_iff {d e : Duration} :
    Same (d.tree locations) (e.tree locations) ↔ EqualUpTo locations Duration.bare d e := by
  refine (FieldsAgree.single NumberLiteral.same_tree_iff).node (by decide) ?_
  cases d
  cases e
  cases locations <;> simp [EqualUpTo, Duration.bare]

theorem Before.same_tree_iff {b c : Before} :
    Same (b.tree locations) (c.tree locations) ↔ EqualUpTo locations Before.bare b c := by
  refine (FieldsAgree.single NumberLiteral.same_tree_iff).node (by decide) ?_
  cases b
  cases c
  cases locations <;> simp [EqualUpTo, Before.bare]

theorem Sound.same_tree_iff {s t : Sound} :
    Same (s.tree locations) (t.tree locations) ↔ EqualUpTo locations Sound.bare s t := by
  refine (FieldsAgree.single StringLiteral.same_tree_iff).node (by decide) ?_
  cases s
  cases t
  cases locations <;> simp [EqualUpTo, Sound.bare]

theorem HideAll.same_tree_iff {g h : HideAll} :
    Same (g.tree locations) (h.tree locations) ↔ EqualUpTo locations HideAll.bare g h := by
  refine (FieldsAgree.single StringLiteral.same_tree_iff).node (by decide) ?_
  cases g
  cases h
  cases locations <;> simp [EqualUpTo, HideAll.bare]

theorem AlertAll.same_tree_iff {a b : AlertAll} :
    Same (a.tree locations) (b.tree locations) ↔ EqualUpTo locations AlertAll.bare a b := by
  rw [AlertAll.tree, AlertAll.tree, List.append_assoc, List.append_assoc]
  refine ((FieldsAgree.cons StringLiteral.same_tree_iff
    (.optional fun _ _ _ => Before.same_tree_iff) (by decide)).append
      (.optional fun _ _ _ => Sound.same_tree_iff) (by decide)).node (by decide) ?_
  cases a
  cases b
  cases locations <;> simp [EqualUpTo, AlertAll.bare_eq, and_assoc]

theorem Define.same_tree_iff {d e : Define} :
    Same (d.tree locations) (e.tree locations) ↔ EqualUpTo locations Define.bare d e := by
  refine (FieldsAgree.cons StringLiteral.same_tree_iff (.cons StringLiteral.same_tree_iff
    (.single Same.string_iff) (by decide)) (by decide)).node (by decide) ?_
  cases d
  cases e
  cases locations <;> simp [EqualUpTo, Define.bare]

end

/-! ## Nodes of every kind -/

namespace Node

variable {locations : Bool}

/-- An entry is exported faithfully if its synchronisation is. -/
theorem same_tree_entry_iff {span span' : Span} {time time' : NumberLiteral}
    {name name' : StringLiteral} {s s' : Option Node} {w w' : Option Window}
    {d d' : Option Duration} {j j' : Option Jump}
    (hsync : ∀ a ∈ s, ∀ b, Same (a.tree locations) (b.tree locations) ↔
      EqualUpTo locations erased a b) :
    Same ((entry span time name s w d j).tree locations)
        ((entry span' time' name' s' w' d' j').tree locations) ↔
      EqualUpTo locations erased (entry span time name s w d j)
        (entry span' time' name' s' w' d' j') := by
  simp only [tree, syncField_eq, List.append_assoc, List.cons_append]
  refine (FieldsAgree.cons NumberLiteral.same_tree_iff (.cons StringLiteral.same_tree_iff
    ((FieldsAgree.optional hsync).append ((FieldsAgree.optional fun _ _ _ =>
      Window.same_tree_iff).append ((FieldsAgree.optional fun _ _ _ =>
        Duration.same_tree_iff).append (.optional fun _ _ _ => Jump.same_tree_iff) (by decide))
          (by decide)) (by decide)) (by decide)) (by decide)).node (by decide) ?_
  cases locations <;> simp [EqualUpTo, erased, erasedSync_eq_map]

/-- A program is exported faithfully if its statements are. -/
theorem same_tree_program_iff {span span' : Span} {body body' : List Node}
    {comments comments' : List Comment} {sourceFile sourceFile' sourceType sourceType' : Text}
    (hbody : ∀ a ∈ body, ∀ b, Same (a.tree locations) (b.tree locations) ↔
      EqualUpTo locations erased a b) :
    Same ((program span body comments sourceFile sourceType).tree locations)
        ((program span' body' comments' sourceFile' sourceType').tree locations) ↔
      EqualUpTo locations erased (program span body comments sourceFile sourceType)
        (program span' body' comments' sourceFile' sourceType') := by
  simp only [tree, trees_eq_map]
  refine (FieldsAgree.append (.array hbody) (.append
    (.array fun _ _ _ => Comment.same_tree_iff) (.cons Same.string_iff (.single Same.string_iff)
      (by decide)) (by decide)) (by decide)).node (by decide) ?_
  cases locations <;> simp [EqualUpTo, erased, erasedAll_eq_map]

/-- Two nodes have the same data exactly if they are equal, without locations up to places and raw
texts. -/
theorem same_tree_iff {a b : Node} :
    Same (a.tree locations) (b.tree locations) ↔ EqualUpTo locations erased a b := by
  induction a using induction_children generalizing b with
  | step a ih =>
    by_cases hkind : a.ctorIdx = b.ctorIdx
    · cases a <;> cases b <;> cases hkind
      case comment.comment.refl =>
        exact Comment.same_tree_iff.trans
          (EqualUpTo.apply_iff (fun _ _ => comment.inj) fun _ => rfl).symm
      case string.string.refl =>
        exact StringLiteral.same_tree_iff.trans
          (EqualUpTo.apply_iff (fun _ _ => string.inj) fun _ => rfl).symm
      case number.number.refl =>
        exact NumberLiteral.same_tree_iff.trans
          (EqualUpTo.apply_iff (fun _ _ => number.inj) fun _ => rfl).symm
      case regex.regex.refl =>
        exact RegexLiteral.same_tree_iff.trans
          (EqualUpTo.apply_iff (fun _ _ => regex.inj) fun _ => rfl).symm
      case hideAll.hideAll.refl =>
        exact HideAll.same_tree_iff.trans
          (EqualUpTo.apply_iff (fun _ _ => hideAll.inj) fun _ => rfl).symm
      case alertAll.alertAll.refl =>
        exact AlertAll.same_tree_iff.trans
          (EqualUpTo.apply_iff (fun _ _ => alertAll.inj) fun _ => rfl).symm
      case define.define.refl =>
        exact Define.same_tree_iff.trans
          (EqualUpTo.apply_iff (fun _ _ => define.inj) fun _ => rfl).symm
      case regexSync.regexSync.refl =>
        exact RegexSync.same_tree_iff.trans
          (EqualUpTo.apply_iff (fun _ _ => regexSync.inj) fun _ => rfl).symm
      case blockSync.blockSync.refl =>
        exact BlockSync.same_tree_iff.trans
          (EqualUpTo.apply_iff (fun _ _ => blockSync.inj) fun _ => rfl).symm
      case window.window.refl =>
        exact Window.same_tree_iff.trans
          (EqualUpTo.apply_iff (fun _ _ => window.inj) fun _ => rfl).symm
      case jump.jump.refl =>
        exact Jump.same_tree_iff.trans
          (EqualUpTo.apply_iff (fun _ _ => jump.inj) fun _ => rfl).symm
      case duration.duration.refl =>
        exact Duration.same_tree_iff.trans
          (EqualUpTo.apply_iff (fun _ _ => duration.inj) fun _ => rfl).symm
      case before.before.refl =>
        exact Before.same_tree_iff.trans
          (EqualUpTo.apply_iff (fun _ _ => before.inj) fun _ => rfl).symm
      case sound.sound.refl =>
        exact Sound.same_tree_iff.trans
          (EqualUpTo.apply_iff (fun _ _ => sound.inj) fun _ => rfl).symm
      case entry.entry.refl span time name s w d j span' time' name' s' w' d' j' =>
        exact same_tree_entry_iff fun c hc _ => ih c (by simp_all [children])
      case program.program.refl span body comments file type span' body' comments' file' type' =>
        exact same_tree_program_iff fun c hc _ => ih c (List.mem_append_left _ hc)
    · refine iff_of_false (mt ctorIdx_eq_of_same hkind) fun h => hkind ?_
      cases locations with
      | true => exact congrArg Node.ctorIdx h
      | false => rw [← ctorIdx_erased a, ← ctorIdx_erased b, show a.erased = b.erased from h]

/-- The data of a node is faithful: with locations, nodes with the same data are equal, and without
them they are equal once every span and every raw text is erased. -/
theorem tree_faithful (a b : Node) :
    (Same (a.tree true) (b.tree true) ↔ a = b) ∧
      (Same (a.tree false) (b.tree false) ↔ a.erased = b.erased) :=
  ⟨same_tree_iff, same_tree_iff⟩

end Node

end RaidTimeline
