import Mathlib.Data.List.Perm.Subperm
import RaidTimeline.Proofs.Parsed
import RaidTimeline.Proofs.Positions
import RaidTimeline.Proofs.Stopping

/-!
# Spans of nodes

Every node of an accepted source text is made of significant tokens in a row, or is a comment, and
its span runs from the first of its tokens to the last one.  Tokens do not overlap, so the spans of
the nodes form a tree.  Of several modifiers of one kind the last counts; the others have no node,
but their tokens belong to the statement.

Main results:

- Definitions {lit}`Node.children` and {lit}`Node.Below`: the nodes within a node.
- Definition {lit}`Node.IsReadFrom`: the tokens that a node is made of.
- Theorem {lit}`Node.IsReadFrom.exists_along`: the children of a node stand along its tokens.
- Definition {lit}`Program.HasNestedSpans`: the spans of a program form a tree over its text.
- Theorem {lit}`hasNestedSpans_of_parseSource`: they do for every accepted source text.
-/

namespace RaidTimeline

/-! ## Spans -/

namespace Span

/-- A span lies inside another one. -/
def Within (a b : Span) : Prop := b.start ≤ a.start ∧ a.stop ≤ b.stop

/-- A span ends before another one begins. -/
def Precedes (a b : Span) : Prop := a.stop ≤ b.start

/-- Two spans have no character in common: one ends before the other begins. -/
def Apart (a b : Span) : Prop := a.Precedes b ∨ b.Precedes a

theorem Apart.symm {a b : Span} (h : a.Apart b) : b.Apart a :=
  Or.symm h

end Span

/-! ## Nodes within nodes -/

/-- The parts of an alert that count. -/
def AlertAll.parts (a : AlertAll) : List AlertPart :=
  (a.before.map .before).toList ++ (a.sound.map .sound).toList

/-- A part of an alert as a node. -/
def AlertPart.toNode : AlertPart → Node
  | .before part => .before part
  | .sound part => .sound part

namespace Node

/-- The text as written of a comment or a literal. -/
def raw? : Node → Option Text
  | .comment node => some node.raw
  | .string node => some node.raw
  | .number node => some node.raw
  | .regex node => some node.raw
  | _ => none

/-- The nodes that a node is made of. -/
def children : Node → List Node
  | .comment _ | .string _ | .number _ | .regex _ => []
  | .hideAll node => [.string node.name]
  | .alertAll node => .string node.name :: node.parts.map AlertPart.toNode
  | .define node => [.string node.name, .string node.file]
  | .regexSync node => [.regex node.regex]
  | .blockSync node => node.fields.map fun f => f.value.toNode
  | .window node => .number node.before :: node.after.toList.map .number
  | .jump node => [.number node.time]
  | .duration node => [.number node.time]
  | .before node => [.number node.time]
  | .sound node => [.string node.file]
  | .entry _ time name sync? window? duration? jump? =>
      .number time :: .string name :: (sync?.toList ++ (duration?.map .duration).toList
        ++ (window?.map .window).toList ++ (jump?.map .jump).toList)
  | .program _ body comments _ _ => body ++ comments.map .comment

/-- A node below another one: a child of it, or of a node below it. -/
inductive Below (root : Node) : Node → Prop where
  | child {n : Node} : n ∈ root.children → Below root n
  | deeper {n m : Node} : Below root n → m ∈ n.children → Below root m

end Node

/-- The children of an entry are its time, its name and its modifiers. -/
theorem Entry.children_toNode (e : Entry) :
    e.toNode.children =
      .number e.time :: .string e.name :: e.modifiers.map Modifier.toNode := by
  rcases e with ⟨span, time, name, sync, window, duration, jump⟩
  cases sync <;> cases window <;> cases duration <;> cases jump <;> rfl

/-! ## Parts that count -/

/-- The modifiers of an entry are of different kinds. -/
theorem Entry.nodup_modifiers (e : Entry) : e.modifiers.Nodup := by
  rcases e with ⟨span, time, name, sync, window, duration, jump⟩
  cases sync <;> cases window <;> cases duration <;> cases jump <;> simp [Entry.modifiers]

/-- The modifiers of an entry are some of its parts. -/
theorem Entry.modifiers_ofParts_subperm (span : Span) (time name : Token)
    (parts : List Modifier) : (Entry.ofParts span time name parts).modifiers.Subperm parts :=
  List.subperm_of_subset (Entry.nodup_modifiers _)
    (Entry.modifiers_ofParts_subset span time name parts)

/-- The parts of an alert are of different kinds. -/
theorem AlertAll.nodup_parts (a : AlertAll) : a.parts.Nodup := by
  rcases a with ⟨span, name, before, sound⟩
  cases before <;> cases sound <;> simp [AlertAll.parts]

/-- The parts of an alert that count are some of its parts. -/
theorem AlertAll.parts_ofParts_subperm (span : Span) (name : Token) (parts : List AlertPart) :
    (AlertAll.ofParts span name parts).parts.Subperm parts := by
  apply List.subperm_of_subset (AlertAll.nodup_parts _)
  intro part hpart
  simp only [AlertAll.parts, AlertAll.ofParts, List.mem_append] at hpart
  rcases hpart with hpart | hpart
  · exact lastOf_subset (fun part x h => by cases part <;> cases h; rfl) parts hpart
  · exact lastOf_subset (fun part x h => by cases part <;> cases h; rfl) parts hpart

/-! ## Tokens of nodes -/

/-- The tokens that a node is made of. -/
inductive Node.IsReadFrom (logTypes : List Text) : List Token → Node → Prop where
  | comment {t : Token} : t.kind = .comment → IsReadFrom logTypes [t] (.comment t.toComment)
  | string {t : Token} : t.kind = .string → IsReadFrom logTypes [t] (.string t.toString)
  | number {t : Token} : t.kind = .number → IsReadFrom logTypes [t] (.number t.toNumber)
  | regex {t : Token} : t.kind = .regex → IsReadFrom logTypes [t] (.regex t.toRegex)
  | modifier {ts : List Token} {m : Modifier} :
      IsModifier logTypes ts m → IsReadFrom logTypes ts m.toNode
  | alertPart {ts : List Token} {part : AlertPart} :
      IsAlertPart ts part → IsReadFrom logTypes ts part.toNode
  | statement {ts : List Token} {s : Statement} :
      IsStatement logTypes ts s → IsReadFrom logTypes ts s.toNode

namespace Node.IsReadFrom

variable {logTypes : List Text} {ts : List Token} {n : Node}

/-- Every node is read from some token. -/
theorem ne_nil (h : IsReadFrom logTypes ts n) : ts ≠ [] := by
  cases h with
  | comment | string | number | regex => simp
  | modifier hm => cases hm <;> simp
  | alertPart hpart => cases hpart <;> simp
  | statement hs => cases hs <;> simp

/-- The span of a node runs from the first of its tokens to the last one. -/
theorem span_eq (h : IsReadFrom logTypes ts n) : n.span = spanOf ts := by
  cases h with
  | comment | string | number | regex => rfl
  | modifier hm => cases hm <;> rfl
  | alertPart hpart => cases hpart <;> rfl
  | statement hs => cases hs <;> rfl

/-- Comments and literals are one token each, as it is written. -/
theorem exists_raw (h : IsReadFrom logTypes ts n) {raw : Text} (hraw : n.raw? = some raw) :
    ∃ t, ts = [t] ∧ t.isLast = false ∧ n.span = t.span ∧ raw = t.raw := by
  cases h with
  | comment hkind | string hkind | number hkind | regex hkind =>
    cases hraw
    exact ⟨_, rfl, by simp [Token.isLast, hkind], rfl, rfl⟩
  | modifier hm => cases hm <;> cases hraw
  | alertPart hpart => cases hpart <;> cases hraw
  | statement hs => cases hs <;> cases hraw

/-- The literal of a field is read from tokens of the field. -/
theorem along_field {f : Field} (h : IsField ts f) :
    Along (IsReadFrom logTypes) ts [f.value.toNode] := by
  cases h with
  | @string key colon value _ _ hvalue => exact .cons [key, colon] (string hvalue) (.nil [])
  | @number key colon value _ _ hvalue => exact .cons [key, colon] (number hvalue) (.nil [])

/-- The children of a modifier stand along its tokens. -/
theorem along_modifier {m : Modifier} (h : IsModifier logTypes ts m) :
    Along (IsReadFrom logTypes) ts m.toNode.children := by
  cases h with
  | @block keyword opening closing ts fs _ _ _ hslots _ =>
    have hfields : Along (IsReadFrom logTypes) ts (fs.flatMap fun f => [f.value.toNode]) :=
      hslots.along.flatMap along_field
    have hall := (hfields.append (.nil [closing])).behind [keyword, opening]
    rwa [List.append_nil, ← List.map_eq_flatMap] at hall
  | @regex keyword _ _ _ hpattern => exact .cons [keyword] (regex hpattern) (.nil [])
  | @window keyword _ _ _ hbefore => exact .cons [keyword] (number hbefore) (.nil [])
  | @windowAfter keyword _ comma _ _ _ hbefore _ hafter =>
    exact .cons [keyword] (number hbefore) (.cons [comma] (number hafter) (.nil []))
  | @jump keyword _ _ _ htime => exact .cons [keyword] (number htime) (.nil [])
  | @duration keyword _ _ _ htime => exact .cons [keyword] (number htime) (.nil [])

/-- The children of a node stand along its tokens, between nodes that do not count. -/
theorem exists_along (h : IsReadFrom logTypes ts n) :
    ∃ parts, Along (IsReadFrom logTypes) ts parts ∧ n.children.Subperm parts := by
  cases h with
  | comment | string | number | regex => exact ⟨[], .nil _, .refl []⟩
  | modifier hm => exact ⟨_, along_modifier hm, .refl _⟩
  | alertPart hpart =>
    cases hpart with
    | @before keyword _ _ htime =>
      exact ⟨_, .cons [keyword] (number htime) (.nil []), .refl _⟩
    | @sound keyword _ _ hfile =>
      exact ⟨_, .cons [keyword] (string hfile) (.nil []), .refl _⟩
  | statement hs =>
    cases hs with
    | @hideAll keyword _ _ hname =>
      exact ⟨_, .cons [keyword] (string hname) (.nil []), .refl _⟩
    | @alertAll keyword name ts parts _ hname hparts =>
      -- The parts that were replaced stand along the tokens too; the children are the others.
      have hrest : Along (IsReadFrom logTypes) ts (parts.map AlertPart.toNode) :=
        hparts.along.map alertPart
      rcases AlertAll.parts_ofParts_subperm (spanOf (keyword :: name :: ts)) name parts with
        ⟨kept, hperm, hsublist⟩
      exact ⟨_, .cons [keyword] (string hname) hrest,
        (List.subperm_cons _).mpr ⟨_, hperm.map _, hsublist.map _⟩⟩
    | @define keyword defineType _ _ _ _ hname hfile =>
      exact ⟨_, .cons [keyword, defineType] (string hname) (.cons [] (string hfile) (.nil [])),
        .refl _⟩
    | @entry time name ts parts htime hname hparts =>
      have hrest : Along (IsReadFrom logTypes) ts (parts.map Modifier.toNode) :=
        hparts.along.map modifier
      rcases Entry.modifiers_ofParts_subperm (spanOf (time :: name :: ts)) time name parts with
        ⟨kept, hperm, hsublist⟩
      refine ⟨_, .cons [] (number htime) (.cons [] (string hname) hrest), ?_⟩
      change (Entry.toNode _).children.Subperm _
      rw [Entry.children_toNode]
      have hkept : (kept.map Modifier.toNode).Sublist (parts.map Modifier.toNode) :=
        hsublist.map _
      exact (List.subperm_cons _).mpr ((List.subperm_cons _).mpr ⟨_, hperm.map _, hkept⟩)

/-- A child of a node is made of some of its tokens, in a row. -/
theorem exists_child (h : IsReadFrom logTypes ts n) {c : Node} (hc : c ∈ n.children) :
    ∃ us, IsReadFrom logTypes us c ∧ us <:+: ts := by
  rcases h.exists_along with ⟨parts, halong, hsubperm⟩
  exact halong.exists_piece c (hsubperm.subset hc)

end Node.IsReadFrom

/-- All nodes below a node are made of tokens in the rows that its children are made of. -/
theorem Node.Below.exists_row {logTypes : List Text} {root n : Node} {rows : List (List Token)}
    (hroot : ∀ c ∈ root.children, ∃ row ∈ rows, ∃ ts,
      IsReadFrom logTypes ts c ∧ ts <:+: row) (h : Below root n) :
    ∃ row ∈ rows, ∃ ts, IsReadFrom logTypes ts n ∧ ts <:+: row := by
  induction h with
  | child hc => exact hroot _ hc
  | deeper _ hc ih =>
    rcases ih with ⟨row, hmem, ts, hts, hrow⟩
    rcases hts.exists_child hc with ⟨us, hus, hsome⟩
    exact ⟨row, hmem, us, hus, hsome.trans hrow⟩

/-! ## Tokens in order -/

/-- Tokens that have text, each behind the one before it. -/
structure InOrder (ts : List Token) : Prop where
  nonempty : ∀ t ∈ ts, t.span.start < t.span.stop
  pairwise : ts.Pairwise fun t u => t.span.Precedes u.span

/-- The span of some tokens runs from one of them to another one. -/
theorem exists_spanOf_eq {ts : List Token} (h : ts ≠ []) :
    ∃ first ∈ ts, ∃ last ∈ ts, spanOf ts = first.span.through last.span := by
  rcases List.exists_cons_of_ne_nil h with ⟨first, rest, rfl⟩
  refine ⟨first, by simp, (first :: rest).getLast h, List.getLast_mem h, ?_⟩
  rw [spanOf, List.head?_cons, List.getLast?_eq_some_getLast h]

namespace InOrder

variable {ts us : List Token}

theorem sublist (h : InOrder ts) (hsublist : us.Sublist ts) : InOrder us :=
  ⟨fun t ht => h.nonempty t (hsublist.subset ht), h.pairwise.sublist hsublist⟩

/-- Every token lies inside the span of all of them. -/
theorem within_spanOf (h : InOrder ts) {t : Token} (ht : t ∈ ts) :
    t.span.Within (spanOf ts) := by
  constructor
  · rcases List.exists_cons_of_ne_nil (List.ne_nil_of_mem ht) with ⟨first, rest, rfl⟩
    have hstart : (spanOf (first :: rest)).start = first.span.start := by
      simp [spanOf, List.getLast?_cons, Span.through]
    rw [hstart]
    rcases List.mem_cons.mp ht with rfl | ht
    · exact Nat.le_refl _
    · have hprecedes := List.rel_of_pairwise_cons h.pairwise ht
      have hnonempty := h.nonempty first List.mem_cons_self
      unfold Span.Precedes at hprecedes
      omega
  · rcases List.eq_nil_or_concat' ts with rfl | ⟨front, last, rfl⟩
    · contradiction
    have hstop : (spanOf (front ++ [last])).stop = last.span.stop := by
      cases front <;> simp [spanOf, Span.through, List.getLast?_cons]
    rw [hstop]
    rcases List.mem_append.mp ht with ht | ht
    · have hprecedes := (List.pairwise_append.mp h.pairwise).2.2 t ht last (by simp)
      have hnonempty := h.nonempty last (by simp)
      unfold Span.Precedes at hprecedes
      omega
    · rw [List.mem_singleton.mp ht]

/-- The span of some of the tokens lies inside the span of all of them. -/
theorem spanOf_within (h : InOrder ts) (hus : us ≠ []) (hsubset : us ⊆ ts) :
    (spanOf us).Within (spanOf ts) := by
  rcases exists_spanOf_eq hus with ⟨first, hfirst, last, hlast, heq⟩
  rw [heq]
  exact ⟨(h.within_spanOf (hsubset hfirst)).1, (h.within_spanOf (hsubset hlast)).2⟩

/-- The span of some of the tokens is not empty. -/
theorem spanOf_nonempty (h : InOrder ts) (hts : ts ≠ []) :
    (spanOf ts).start < (spanOf ts).stop := by
  rcases List.exists_mem_of_ne_nil ts hts with ⟨t, ht⟩
  have hwithin := h.within_spanOf ht
  have hnonempty := h.nonempty t ht
  unfold Span.Within at hwithin
  omega

end InOrder

/-! ## Nodes along tokens in order -/

section

variable {logTypes : List Text} {ts : List Token} {n : Node}

/-- Nodes that stand along tokens follow each other. -/
theorem Along.pairwise_precedes {nodes : List Node}
    (h : Along (Node.IsReadFrom logTypes) ts nodes) (horder : InOrder ts) :
    nodes.Pairwise fun a b => a.span.Precedes b.span := by
  induction h with
  | nil => exact .nil
  | @cons gap us ts x xs hpiece hrest ih =>
    refine .cons ?_ (ih (horder.sublist (List.sublist_append_right _ ts)))
    intro y hy
    rcases hrest.exists_piece y hy with ⟨vs, hvs, hrow⟩
    rcases exists_spanOf_eq hpiece.ne_nil with ⟨_, _, last, hlast, hx⟩
    rcases exists_spanOf_eq hvs.ne_nil with ⟨first, hfirst, _, _, hy⟩
    rw [hpiece.span_eq, hvs.span_eq, hx, hy]
    exact (List.pairwise_append.mp horder.pairwise).2.2 last (by simp [hlast]) first
      (hrow.subset hfirst)

namespace Node.IsReadFrom

/-- The span of a child lies inside the span of its parent. -/
theorem child_within (h : IsReadFrom logTypes ts n) (horder : InOrder ts) {c : Node}
    (hc : c ∈ n.children) : c.span.Within n.span := by
  rcases h.exists_child hc with ⟨us, hus, hrow⟩
  rw [h.span_eq, hus.span_eq]
  exact horder.spanOf_within hus.ne_nil hrow.subset

/-- The children of a node do not overlap. -/
theorem children_apart (h : IsReadFrom logTypes ts n) (horder : InOrder ts) :
    n.children.Pairwise fun a b => a.span.Apart b.span := by
  rcases h.exists_along with ⟨parts, halong, kept, hperm, hsublist⟩
  -- The children are in the order of the canonical form, and not in that of the tokens.
  have hparts : parts.Pairwise fun a b => a.span.Apart b.span :=
    (halong.pairwise_precedes horder).imp Or.inl
  exact (hperm.pairwise_iff Span.Apart.symm).mp (hparts.sublist hsublist)

end Node.IsReadFrom

end

/-! ## Tokens of a source text -/

/-- Tokens that lie side by side follow each other. -/
theorem pairwise_precedes_of_isChain {ts : List Token}
    (hordered : ∀ t ∈ ts, t.span.start ≤ t.span.stop)
    (h : ts.IsChain fun a b => a.span.stop = b.span.start) :
    ts.Pairwise fun a b => a.span.Precedes b.span := by
  induction ts with
  | nil => exact .nil
  | cons t ts ih =>
    have hrest := ih (fun u hu => hordered u (List.mem_cons_of_mem t hu)) h.tail
    refine .cons ?_ hrest
    intro w hw
    cases ts with
    | nil => contradiction
    | cons u us =>
      have hnext : t.span.stop = u.span.start := h.rel
      unfold Span.Precedes
      rcases List.mem_cons.mp hw with rfl | hw
      · exact hnext.le
      · have hprecedes := List.rel_of_pairwise_cons hrest hw
        have hu := hordered u (by simp)
        unfold Span.Precedes at hprecedes
        omega

/-- The tokens of a source text have spans of it. -/
theorem tokensOf_isIn (v : Vocabulary) (source : Text) (view : Lexer.View) :
    ∀ t ∈ tokensOf v source view, t.span.IsIn (normalize source) :=
  ((Lexer.isIn_ofSource v source).serves (.tokenize view)).1

/-- Some tokens of a source text, in their order and without the last one. -/
structure IsExcerpt (v : Vocabulary) (source : Text) (ts : List Token) : Prop where
  sublist : ts.Sublist (tokensOf v source ⟨true, true⟩)
  not_last : ∀ t ∈ ts, t.isLast = false

namespace IsExcerpt

variable {v : Vocabulary} {source : Text} {ts us : List Token}

theorem of_sublist (h : IsExcerpt v source ts) (hsublist : us.Sublist ts) :
    IsExcerpt v source us :=
  ⟨hsublist.trans h.sublist, fun t ht => h.not_last t (hsublist.subset ht)⟩

/-- Tokens of a source text have text, and follow each other. -/
theorem inOrder (hv : v.HasNoEmptyWord) (h : IsExcerpt v source ts) : InOrder ts where
  nonempty := fun t ht =>
    ((tokensOf_covers hv source).written t (h.sublist.subset ht) (h.not_last t ht)).2.1
  pairwise := by
    have hordered : ∀ t ∈ tokensOf v source ⟨true, true⟩, t.span.start ≤ t.span.stop :=
      fun t ht => (tokensOf_isIn v source _ t ht).ordered
    exact (pairwise_precedes_of_isChain hordered (tokensOf_covers hv source).contiguous).sublist
      h.sublist

/-- Tokens of a source text end in it. -/
theorem stop_le (h : IsExcerpt v source ts) (hts : ts ≠ []) :
    (spanOf ts).stop ≤ (normalize source).length := by
  rcases exists_spanOf_eq hts with ⟨_, _, last, hlast, heq⟩
  rw [heq]
  exact (tokensOf_isIn v source _ last (h.sublist.subset hlast)).inside

end IsExcerpt

/-- The comment tokens of a source text. -/
def commentTokens (v : Vocabulary) (source : Text) : List Token :=
  (tokensOf v source ⟨true, true⟩).filter (·.kind == .comment)

theorem kind_of_mem_commentTokens {v : Vocabulary} {source : Text} :
    ∀ t ∈ commentTokens v source, t.kind = .comment := by
  intro t ht
  simpa using (List.mem_filter.mp ht).2

/-- The comments of a source text are an excerpt of its tokens. -/
theorem isExcerpt_commentTokens (v : Vocabulary) (source : Text) :
    IsExcerpt v source (commentTokens v source) where
  sublist := List.filter_sublist
  not_last := by
    intro t ht
    simp [Token.isLast, kind_of_mem_commentTokens t ht]

/-- The significant tokens in front of the last one are tokens of the source text. -/
theorem isExcerpt_of_significantTokens {v : Vocabulary} (hv : v.HasNoEmptyWord) {source : Text}
    {ts : List Token} {last : Token} (h : significantTokens v source = ts ++ [last]) :
    IsExcerpt v source ts where
  sublist := by
    have hfront := List.sublist_append_left ts [last]
    rw [← h] at hfront
    exact hfront.trans List.filter_sublist
  not_last := by
    rcases significantTokens_eq_concat hv source with ⟨body, final, heq, -, hbody⟩
    rw [h] at heq
    rw [(List.append_inj' heq rfl).1]
    exact hbody

/-! ## Programs -/

/-- A program that is read is made of everything that its reader has found. -/
theorem Reader.eq_program_of_parse {r : Reader} {p : Program} (h : r.parse.1 = .ok p) :
    p = r.parse.2.program := by
  unfold parse at h ⊢
  generalize r.runDraft (ProgramDraft.accept r.logTypes) ⟨r.statements, none⟩ = ran at h ⊢
  rcases ran with ⟨⟨outcome, draft, lexer⟩, behind⟩
  rcases outcome with error | ⟨statements, _ | error⟩
  · contradiction
  · cases h
    rfl
  · contradiction

/-- The span of an accepted source text is all of it. -/
theorem span_of_parseSource {v : Vocabulary} (hv : v.HasNoEmptyWord) {source file : Text}
    {p : Program} (h : parseSource v source file = .ok p) :
    p.span = ⟨0, (normalize source).length, .start,
      .ofOffset (normalize source) (normalize source).length⟩ := by
  rcases exists_stopped hv source file "module".toList with
    ⟨us, t, vs, outcome, final, hvisible, -, hleads, houtcome, hstopped⟩
  have hresult := hstopped.body
  change (parseSource v source file).map _ = _ at hresult
  rw [h] at hresult
  obtain rfl := ProgramEnd.eq_ok_of_result hresult.symm
  have hend := (ProgramDraft.kind_of_outcome hleads houtcome).1
  have ht : t ∈ tokensOf v source ⟨true, true⟩ := by
    have hmem : t ∈ (Cursor.ofText (normalize source)).visible v := by
      rw [hvisible]
      simp
    rw [Cursor.visible, ← tokensOf_eq_tokens hv] at hmem
    exact List.mem_of_mem_filter hmem
  -- Reading stops at the end of the text, with the lexer behind it whether or not it was put back.
  have hstop := ((tokensOf_covers hv source).ended t ht hend).2
  have hlast := (tokensOf_isIn v source _ t ht).last
  rw [Reader.eq_program_of_parse h, Reader.program, hstopped.lexer.offset, hstopped.lexer.position,
    hlast, hstop]

/-- The spans of a program form a tree over its source text: the program covers all of the text,
the statements divide the significant tokens, every node spans the tokens that it is made of, and
nodes lie inside their parents and beside each other. -/
structure Program.HasNestedSpans (v : Vocabulary) (source : Text) (p : Program) : Prop where
  whole : p.span = ⟨0, (normalize source).length, .start,
    .ofOffset (normalize source) (normalize source).length⟩
  divided : ∃ ts last, significantTokens v source = ts ++ [last] ∧ last.kind = .eof ∧
    Many (IsStatement v.logTypes) ts p.body
  consumed : ∀ n, p.toNode.Below n → ∃ ts, Node.IsReadFrom v.logTypes ts n ∧
    n.span = spanOf ts ∧ (ts <:+: significantTokens v source ∨ ts <:+: commentTokens v source)
  nonempty : ∀ n, p.toNode.Below n → n.span.start < n.span.stop
  written : ∀ n, p.toNode.Below n → ∀ raw ∈ n.raw?, raw = n.span.cut (normalize source)
  inside : ∀ n, n = p.toNode ∨ p.toNode.Below n → ∀ c ∈ n.children, c.span.Within n.span
  apart : ∀ n, p.toNode.Below n → n.children.Pairwise fun a b => a.span.Apart b.span
  statements : p.body.Pairwise fun a b => a.span.Precedes b.span
  comments : p.comments.Pairwise fun a b => a.span.Precedes b.span

section

variable {v : Vocabulary} {source file : Text} {p : Program}

/-- The comments of an accepted source text are its comment tokens. -/
theorem comments_eq_map_commentTokens (hv : v.HasNoEmptyWord)
    (h : parseSource v source file = .ok p) :
    p.comments = (commentTokens v source).map Token.toComment := by
  rw [comments_of_parseSource hv h, Cursor.visible, commentsOf_filter_blank,
    ← tokensOf_eq_tokens hv]
  rfl

/-- Every node of an accepted source text is made of tokens in a row: significant ones, or a
comment. -/
theorem exists_isReadFrom_of_below (hv : v.HasNoEmptyWord)
    (h : parseSource v source file = .ok p) {n : Node} (hn : p.toNode.Below n) :
    ∃ us, Node.IsReadFrom v.logTypes us n ∧ IsExcerpt v source us ∧
      (us <:+: significantTokens v source ∨ us <:+: commentTokens v source) := by
  rcases (parseSource_ok_iff_derives hv source file p.body).mp ⟨p, h, rfl⟩ with
    ⟨ts, last, htokens, -, hmany, -⟩
  have hroot : ∀ c ∈ p.toNode.children, ∃ row ∈ [ts, commentTokens v source], ∃ us,
      Node.IsReadFrom v.logTypes us c ∧ us <:+: row := by
    intro c hc
    rcases List.mem_append.mp hc with hc | hc
    · rcases List.mem_map.mp hc with ⟨s, hs, rfl⟩
      rcases hmany.along.exists_piece s hs with ⟨us, hus, hrow⟩
      exact ⟨ts, by simp, us, .statement hus, hrow⟩
    · rcases List.mem_map.mp hc with ⟨comment, hmem, rfl⟩
      change comment ∈ p.comments at hmem
      rw [comments_eq_map_commentTokens hv h] at hmem
      rcases List.mem_map.mp hmem with ⟨t, ht, rfl⟩
      rcases List.append_of_mem ht with ⟨front, rest, heq⟩
      refine ⟨commentTokens v source, by simp, [t], ?_, ⟨front, rest, by simp [heq]⟩⟩
      exact .comment (kind_of_mem_commentTokens t ht)
  rcases hn.exists_row hroot with ⟨row, hmem, us, hus, hrow⟩
  rcases List.mem_pair.mp hmem with rfl | rfl
  · have hexcerpt := (isExcerpt_of_significantTokens hv htokens).of_sublist hrow.sublist
    exact ⟨us, hus, hexcerpt, Or.inl (hrow.trans ⟨[], [last], htokens.symm⟩)⟩
  · have hexcerpt := (isExcerpt_commentTokens v source).of_sublist hrow.sublist
    exact ⟨us, hus, hexcerpt, Or.inr hrow⟩

/-- Statements, as well as comments, follow each other. -/
theorem pairwise_precedes_of_parseSource (hv : v.HasNoEmptyWord)
    (h : parseSource v source file = .ok p) :
    (p.body.Pairwise fun a b => a.span.Precedes b.span) ∧
      p.comments.Pairwise fun a b => a.span.Precedes b.span := by
  rcases (parseSource_ok_iff_derives hv source file p.body).mp ⟨p, h, rfl⟩ with
    ⟨ts, last, htokens, -, hmany, -⟩
  constructor
  · have halong : Along (Node.IsReadFrom v.logTypes) ts (p.body.map Statement.toNode) :=
      hmany.along.map .statement
    have hspans := halong.pairwise_precedes ((isExcerpt_of_significantTokens hv htokens).inOrder hv)
    rwa [List.pairwise_map] at hspans
  · rw [comments_eq_map_commentTokens hv h, List.pairwise_map]
    exact ((isExcerpt_commentTokens v source).inOrder hv).pairwise

/-- The spans of every accepted source text form a tree over it. -/
theorem hasNestedSpans_of_parseSource (hv : v.HasNoEmptyWord)
    (h : parseSource v source file = .ok p) : p.HasNestedSpans v source := by
  constructor
  case whole => exact span_of_parseSource hv h
  case divided =>
    rcases (parseSource_ok_iff_derives hv source file p.body).mp ⟨p, h, rfl⟩ with
      ⟨ts, last, htokens, hend, hmany, -⟩
    exact ⟨ts, last, htokens, hend, hmany⟩
  case consumed =>
    intro n hn
    rcases exists_isReadFrom_of_below hv h hn with ⟨us, hus, -, hrow⟩
    exact ⟨us, hus, hus.span_eq, hrow⟩
  case nonempty =>
    intro n hn
    rcases exists_isReadFrom_of_below hv h hn with ⟨us, hus, hexcerpt, -⟩
    rw [hus.span_eq]
    exact (hexcerpt.inOrder hv).spanOf_nonempty hus.ne_nil
  case written =>
    intro n hn raw hraw
    rcases exists_isReadFrom_of_below hv h hn with ⟨us, hus, hexcerpt, -⟩
    rcases hus.exists_raw hraw with ⟨t, rfl, hlast, hspan, rfl⟩
    rw [hspan]
    exact ((tokensOf_covers hv source).written t (hexcerpt.sublist.subset (by simp)) hlast).2.2.2
  case inside =>
    rintro n (rfl | hn) c hc
    · rcases exists_isReadFrom_of_below hv h (.child hc) with ⟨us, hus, hexcerpt, -⟩
      change c.span.Within p.span
      rw [span_of_parseSource hv h, hus.span_eq]
      exact ⟨Nat.zero_le _, hexcerpt.stop_le hus.ne_nil⟩
    · rcases exists_isReadFrom_of_below hv h hn with ⟨us, hus, hexcerpt, -⟩
      exact hus.child_within (hexcerpt.inOrder hv) hc
  case apart =>
    intro n hn
    rcases exists_isReadFrom_of_below hv h hn with ⟨us, hus, hexcerpt, -⟩
    exact hus.children_apart (hexcerpt.inOrder hv)
  case statements => exact (pairwise_precedes_of_parseSource hv h).1
  case comments => exact (pairwise_precedes_of_parseSource hv h).2

end

/-- A source text with a comment, an overwritten window, and a lead time behind a sound. -/
theorem hasNestedSpans_overwrittenWindow :
    let source := "1 \"n\" window 2 # a\nwindow 3,4 jump 5\nalertall 'b' sound 'c' before 6".toList
    Vocabulary.default.HasNoEmptyWord ∧
      ∃ p, parseSource .default source [] = .ok p ∧ p.HasNestedSpans .default source := by
  intro source
  have hok : (parseSource .default source []).isOk = true := by
    decide +kernel
  rcases exists_parseSource_of_isOk hok with ⟨p, hp⟩
  exact ⟨Vocabulary.hasNoEmptyWord_default, p, hp,
    hasNestedSpans_of_parseSource Vocabulary.hasNoEmptyWord_default hp⟩

end RaidTimeline
