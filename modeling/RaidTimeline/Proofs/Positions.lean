import Mathlib.Data.List.DropRight
import RaidTimeline.Proofs.TokenStream

/-!
# Positions in a source text

A lexer moves its line and its column along with the text that it passes.  Both are decided by the
offset: lines are counted by the line feeds in front of it, and columns from the last of these.
This holds wherever a lexer gets to, whatever it is asked for on the way, and at both ends of
every token that it hands out.

Main results:

- Definition {lit}`Position.ofOffset`: the position of an offset in a text.
- Theorems {lit}`Position.after_eq` and {lit}`Cursor.position_scan`: line and column behind a piece
  of text and behind a token, by its line feeds.
- Theorem {lit}`Position.start_after`: passing text leads to the position of its end.
- Definitions {lit}`Cursor.IsIn` and {lit}`Span.IsIn`: places and spans of a text.
- Definition {lit}`Lexer.Request`: what a lexer is asked for, with {lit}`Lexer.serve` and
  {lit}`Lexer.serveAll`.
- Theorem {lit}`Lexer.serveAll_isIn`: wherever a lexer gets to, it is in its text.
- Theorem {lit}`Lexer.position_serveAll`: positions are right after any requests.
-/

namespace RaidTimeline

/-! ## Lines and columns -/

namespace Text

/-- The offset at which the last line of a text begins: right behind its last line feed, and at
the start of the text if there is none. -/
def lineStart (t : Text) : Nat := (t.rdropWhile (· != '\n')).length

/-- A line begins behind a line feed, and other characters go on with a line. -/
theorem lineStart_concat (t : Text) (c : Char) :
    lineStart (t ++ [c]) = if c = '\n' then t.length + 1 else lineStart t := by
  unfold lineStart
  rw [List.rdropWhile_concat]
  by_cases hc : c = '\n'
  · simp [hc]
  · simp [hc]

theorem lineStart_le (t : Text) : lineStart t ≤ t.length :=
  (List.rdropWhile_prefix _ t).length_le

/-- A text without line feeds is one line. -/
theorem lineStart_eq_zero {t : Text} (h : '\n' ∉ t) : lineStart t = 0 := by
  rw [lineStart, List.length_eq_zero_iff, List.rdropWhile_eq_nil_iff]
  intro c hc
  simpa using fun heq : c = '\n' => h (heq ▸ hc)

end Text

namespace Position

/-- The position of an offset in a text: the line is one more than the number of line feeds in
front of the offset, and the column is counted from behind the last of them. -/
def ofOffset (text : Text) (offset : Nat) : Position :=
  ⟨1 + (text.take offset).count '\n', offset - Text.lineStart (text.take offset)⟩

/-- Every line feed that is passed begins a line. -/
theorem line_after (p : Position) (t : Text) : (p.after t).line = p.line + t.count '\n' := by
  induction t generalizing p with
  | nil => rfl
  | cons c t ih =>
    rw [after_cons, ih, next, List.count_cons]
    by_cases hc : c = '\n'
    · simp only [if_pos hc, beq_iff_eq]
      omega
    · simp [if_neg hc]

/-- The column goes on along a text without line feeds, and is counted anew behind the last line
feed of any other one. -/
theorem column_after (p : Position) (t : Text) :
    (p.after t).column =
      if t.count '\n' = 0 then p.column + t.length else t.length - Text.lineStart t := by
  induction t using List.reverseRecOn with
  | nil => rfl
  | append_singleton t c ih =>
    rw [after_append, after_cons, after_nil, next, Text.lineStart_concat, List.length_append]
    by_cases hc : c = '\n'
    · simp [hc]
    · have hcount : (t ++ [c]).count '\n' = t.count '\n' := by simp [hc]
      have hle := Text.lineStart_le t
      simp only [if_neg hc, ih, hcount, List.length_singleton]
      split_ifs
      · rfl
      · omega

/-- The position behind a piece of text, as it is counted token by token: the number of line feeds
is added to the line, and the column is what stands behind the last of them.  A piece without line
feeds only adds its length to the column. -/
theorem after_eq (p : Position) (t : Text) :
    p.after t =
      if t.count '\n' = 0 then ⟨p.line, p.column + t.length⟩
      else ⟨p.line + t.count '\n', t.length - Text.lineStart t⟩ := by
  have hposition : p.after t = ⟨(p.after t).line, (p.after t).column⟩ := rfl
  rw [hposition, line_after, column_after]
  split_ifs with hnone
  · rw [hnone, Nat.add_zero]
  · rfl

/-- Passing the beginning of a text leads to the position of where it ends. -/
theorem start_after (passed rest : Text) :
    start.after passed = ofOffset (passed ++ rest) passed.length := by
  rw [after_eq, ofOffset, List.take_left]
  split_ifs with hnone
  · have hstart : Text.lineStart passed = 0 :=
      Text.lineStart_eq_zero (List.count_eq_zero.mp hnone)
    rw [hnone, hstart]
    exact congrArg (mk 1) (Nat.zero_add passed.length)
  · rfl

end Position

/-! ## Places and spans of a text -/

/-- A place of a text lies between two pieces that make up the text. -/
def Cursor.IsIn (c : Cursor) (text : Text) : Prop :=
  ∃ passed rest, text = passed ++ rest ∧ c = between passed rest

/-- A span of a text has its two ends in the text, in order, and their positions are right. -/
structure Span.IsIn (s : Span) (text : Text) : Prop where
  ordered : s.start ≤ s.stop
  inside : s.stop ≤ text.length
  first : s.first = Position.ofOffset text s.start
  last : s.last = Position.ofOffset text s.stop

namespace Cursor

variable {text : Text} {c : Cursor}

theorem isIn_ofText (text : Text) : (ofText text).IsIn text :=
  ⟨[], text, rfl, rfl⟩

/-- The place behind a token that has text, as it is counted: the line grows by the line feeds of
the token, and the column by its length, or else it is what stands behind the last line feed. -/
theorem position_scan {v : Vocabulary} (h : (c.scan v).1.isLast = false) :
    (c.scan v).2.position =
      if (c.scan v).1.raw.count '\n' = 0 then
        ⟨c.position.line, c.position.column + (c.scan v).1.raw.length⟩
      else
        ⟨c.position.line + (c.scan v).1.raw.count '\n',
          (c.scan v).1.raw.length - Text.lineStart (c.scan v).1.raw⟩ := by
  rw [← Position.after_eq]
  rcases c.scan_cases v with ⟨-, hscan⟩ | ⟨-, -, hscan⟩ | ⟨kind, n, -, -, hscan⟩
  · simp [hscan, emptyToken, Token.isLast] at h
  · simp [hscan, emptyToken, Token.isLast] at h
  · rw [hscan]
    rfl

namespace IsIn

theorem offset_le (h : c.IsIn text) : c.offset ≤ text.length := by
  rcases h with ⟨passed, rest, rfl, rfl⟩
  simp

/-- The position of a place is that of its offset. -/
theorem position (h : c.IsIn text) : c.position = Position.ofOffset text c.offset := by
  rcases h with ⟨passed, rest, rfl, rfl⟩
  exact Position.start_after passed rest

/-- What is passed behind a place leads to another place of the text. -/
theorem advance (h : c.IsIn text) (n : Nat) : (c.advance n).IsIn text := by
  rcases h with ⟨passed, rest, rfl, rfl⟩
  exact ⟨passed ++ rest.take n, rest.drop n, by simp, between_advance passed rest n⟩

theorem skipLayout (h : c.IsIn text) : c.skipLayout.IsIn text :=
  h.advance _

/-- What is passed behind a place has a span of the text. -/
theorem spanTo_advance (h : c.IsIn text) (n : Nat) : (c.spanTo (c.advance n)).IsIn text where
  ordered := by
    simp only [spanTo, offset_advance]
    omega
  inside := (h.advance n).offset_le
  first := h.position
  last := (h.advance n).position

/-- The empty span at a place is a span of the text. -/
theorem spanTo_self (h : c.IsIn text) : (c.spanTo c).IsIn text :=
  ⟨Nat.le_refl _, h.offset_le, h.position, h.position⟩

/-- A scan leads from place to place, and its token has a span of the text. -/
theorem scan (h : c.IsIn text) (v : Vocabulary) :
    (c.scan v).1.span.IsIn text ∧ (c.scan v).2.IsIn text := by
  rcases c.scan_cases v with ⟨-, hscan⟩ | ⟨-, -, hscan⟩ | ⟨kind, n, -, -, hscan⟩
  · rw [hscan]
    exact ⟨h.spanTo_self, h⟩
  · rw [hscan]
    exact ⟨h.spanTo_self, h⟩
  · rw [hscan]
    exact ⟨h.spanTo_advance n, h.advance n⟩

end IsIn

end Cursor

/-! ## Requests -/

namespace Lexer

/-- What a lexer can be asked for: the next token, with or without layout, consumed or only looked
at, or the tokens of a view, as many as are wanted or all of them. -/
inductive Request where
  | peek
  | next
  | nextRaw
  | take (view : View) (limit : Nat)
  | tokenize (view : View)
deriving DecidableEq, Repr

/-- The tokens that a lexer hands out at a request, and the lexer behind them. -/
def serve (l : Lexer) : Request → List Token × Lexer
  | .peek => ([l.peek.1], l.peek.2)
  | .next => ([l.next.1], l.next.2)
  | .nextRaw => ([l.nextRaw.1], l.nextRaw.2)
  | .take view limit => l.take view limit
  | .tokenize view => l.tokenize view

/-- The tokens that a lexer hands out at several requests, one after the other. -/
def serveAll (l : Lexer) : List Request → List Token × Lexer
  | [] => ([], l)
  | r :: rs => ((l.serve r).1 ++ ((l.serve r).2.serveAll rs).1, ((l.serve r).2.serveAll rs).2)

/-! ## Lexers in a text -/

/-- A lexer is at a place of a text, and the token it has looked at has a span of the text. -/
structure IsIn (l : Lexer) (text : Text) : Prop where
  cursor : l.cursor.IsIn text
  pending : ∀ t ∈ l.pending, t.span.IsIn text

/-- A lexer hands out tokens whose spans are spans of a text, and stays in the text. -/
def Serves (text : Text) (ts : List Token) (l : Lexer) : Prop :=
  (∀ t ∈ ts, t.span.IsIn text) ∧ l.IsIn text

/-- A new lexer stands in its text. -/
theorem isIn_ofSource (v : Vocabulary) (source : Text) :
    (ofSource v source).IsIn (normalize source) :=
  ⟨Cursor.isIn_ofText _, nofun⟩

namespace IsIn

variable {text : Text} {l : Lexer}

/-- The token that was looked at is handed out first, and the place of the lexer stays. -/
theorem serves_pending (h : l.IsIn text) {t : Token} (ht : l.pending = some t) :
    Serves text [t] { l with pending := none } :=
  ⟨by simpa using h.pending t ht, h.cursor, nofun⟩

/-- The next token of any kind has a span of the text. -/
theorem serves_nextRaw (h : l.IsIn text) : Serves text [l.nextRaw.1] l.nextRaw.2 := by
  unfold nextRaw
  split
  · next t ht => exact h.serves_pending ht
  · next ht =>
    have hscan := h.cursor.scan l.vocabulary
    exact ⟨by simpa using hscan.1, hscan.2, by simp [ht]⟩

theorem serves_next (h : l.IsIn text) : Serves text [l.next.1] l.next.2 := by
  unfold next
  split
  · next t ht => exact h.serves_pending ht
  · next ht =>
    have hscan := h.cursor.skipLayout.scan l.vocabulary
    exact ⟨by simpa using hscan.1, hscan.2, by simp [ht]⟩

/-- A token that is only looked at has a span of the text. -/
theorem serves_peek (h : l.IsIn text) : Serves text [l.peek.1] l.peek.2 := by
  rcases h.serves_next with ⟨htoken, hnext⟩
  exact ⟨htoken, hnext.cursor, by simpa [peek, putBack] using htoken⟩

/-- Collecting tokens is handing them out one by one. -/
theorem serves_collect (h : l.IsIn text) (view : View) (fuel limit : Nat) :
    Serves text (collect view fuel limit l).1 (collect view fuel limit l).2 := by
  induction fuel generalizing limit l with
  | zero => exact ⟨by simp [collect], h⟩
  | succ fuel ih =>
    cases limit with
    | zero => exact ⟨by simp [collect], h⟩
    | succ limit =>
      rcases h.serves_nextRaw with ⟨htoken, hnext⟩
      simp only [List.mem_singleton, forall_eq] at htoken
      simp only [collect]
      split_ifs
      · exact ⟨by simpa using htoken, hnext⟩
      · rcases ih hnext limit with ⟨htokens, hlexer⟩
        exact ⟨by simpa using ⟨htoken, htokens⟩, hlexer⟩
      · exact ih hnext (limit + 1)

/-- Whatever a lexer is asked for, it stays in the text. -/
theorem serves (h : l.IsIn text) (r : Request) : Serves text (l.serve r).1 (l.serve r).2 := by
  cases r with
  | peek => exact h.serves_peek
  | next => exact h.serves_next
  | nextRaw => exact h.serves_nextRaw
  | take view limit => exact h.serves_collect view _ limit
  | tokenize view => exact h.serves_collect view _ _

end IsIn

/-- After any requests a lexer is in the text, and so are the tokens that it has handed out. -/
theorem serveAll_isIn {text : Text} {l : Lexer} (h : l.IsIn text) (requests : List Request) :
    Serves text (l.serveAll requests).1 (l.serveAll requests).2 := by
  induction requests generalizing l with
  | nil => exact ⟨by simp [serveAll], h⟩
  | cons r rs ih =>
    rcases h.serves r with ⟨hfirst, hnext⟩
    rcases ih hnext with ⟨hrest, hlexer⟩
    refine ⟨?_, hlexer⟩
    intro t ht
    rcases List.mem_append.mp ht with ht | ht
    · exact hfirst t ht
    · exact hrest t ht

/-- Positions are always right: whatever a lexer has been asked for, its line and its column are
those of its offset in the text, and so are those of both ends of every token that it has handed
out. -/
theorem position_serveAll (v : Vocabulary) (source : Text) (requests : List Request) :
    ((ofSource v source).serveAll requests).2.cursor.position =
        Position.ofOffset (normalize source)
          ((ofSource v source).serveAll requests).2.cursor.offset ∧
      ∀ t ∈ ((ofSource v source).serveAll requests).1,
        t.span.first = Position.ofOffset (normalize source) t.span.start ∧
          t.span.last = Position.ofOffset (normalize source) t.span.stop := by
  rcases serveAll_isIn (isIn_ofSource v source) requests with ⟨htokens, hlexer⟩
  refine ⟨hlexer.cursor.position, ?_⟩
  intro t ht
  exact ⟨(htokens t ht).first, (htokens t ht).last⟩

end Lexer

end RaidTimeline
