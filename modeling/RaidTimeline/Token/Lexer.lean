import RaidTimeline.Token.Cursor

/-!
# Lexers

A lexer hands out the tokens of a source text one by one.  It can look at the next token without
consuming it; the token is then kept until it is asked for, and the place of the lexer is already
behind it.

Main results:

- Definitions {lit}`Lexer.nextRaw`, {lit}`Lexer.next` and {lit}`Lexer.peek`: the next token, with
  or without layout, consumed or not.
- Definition {lit}`Lexer.hasNext`: whether there is text left to read.
- Theorem {lit}`Lexer.remaining_next_add_width_le`: a lexer comes to an end.
- Definitions {lit}`Lexer.tokenize`, {lit}`Lexer.take` and {lit}`Lexer.allTokens`: many tokens.
-/

namespace RaidTimeline

/-- A lexer: its vocabulary, its place, and the token it has looked at. -/
structure Lexer where
  vocabulary : Vocabulary
  cursor : Cursor
  pending : Option Token
deriving DecidableEq, Repr

namespace Lexer

/-- The lexer at the start of a source text. -/
def ofSource (vocabulary : Vocabulary) (source : Text) : Lexer :=
  ⟨vocabulary, .ofText (normalize source), none⟩

/-- Whether nothing has been read or looked at. -/
def isFresh (l : Lexer) : Bool :=
  l.cursor.offset = 0 && l.cursor.position = .start && l.pending.isNone

/-- The next token, layout included. -/
def nextRaw (l : Lexer) : Token × Lexer :=
  match l.pending with
  | some t => (t, { l with pending := none })
  | none =>
      let (t, cursor) := l.cursor.scan l.vocabulary
      (t, { l with cursor })

/-- The next token that is not layout.  Layout is a maximal run, so none is left behind it. -/
def next (l : Lexer) : Token × Lexer :=
  match l.pending with
  | some t => (t, { l with pending := none })
  | none =>
      let (t, cursor) := l.cursor.skipLayout.scan l.vocabulary
      (t, { l with cursor })

/-- Keeps a token for the next call. -/
def putBack (l : Lexer) (t : Token) : Lexer := { l with pending := some t }

/-- A token that was put back comes next. -/
@[simp]
theorem next_putBack (l : Lexer) (t : Token) :
    (l.putBack t).next = (t, { l with pending := none }) :=
  rfl

/-- The next token that is not layout, without consuming it. -/
def peek (l : Lexer) : Token × Lexer :=
  let (t, l) := l.next
  (t, l.putBack t)

/-- Looking at the next token shows the one that is handed out. -/
@[simp]
theorem peek_fst (l : Lexer) : l.peek.1 = l.next.1 :=
  rfl

/-- Whether there is text left to read, or a token looked at that is not the end. -/
def hasNext (l : Lexer) : Bool :=
  match l.pending with
  | some t => t.kind != .eof || !l.cursor.rest.isEmpty
  | none => !l.cursor.rest.isEmpty

/-- How many characters a lexer has still to hand out. -/
def remaining (l : Lexer) : Nat :=
  l.cursor.rest.length + (l.pending.map (·.span.width)).getD 0

/-- What a lexer hands out next, it has not to hand out any more. -/
theorem remaining_next_add_width_le (l : Lexer) :
    l.next.2.remaining + l.next.1.span.width ≤ l.remaining := by
  unfold next
  split
  · rename_i t ht
    simp [remaining, ht]
  · rename_i ht
    have hscan := l.cursor.skipLayout.length_rest_scan l.vocabulary
    have hskip := l.cursor.length_rest_skipLayout_le
    simp only [remaining, ht, Option.map_none, Option.getD_none]
    omega

/-! ## Many tokens -/

/-- Which tokens a list of tokens shows. -/
structure View where
  comments : Bool
  layout : Bool
deriving DecidableEq, Repr

/-- Whether a view shows a token. -/
def View.shows (view : View) (t : Token) : Bool :=
  (t.kind != .comment || view.comments) && (t.kind != .blank || view.layout)

/-- Collects the tokens of a view, at most {lit}`limit` of them, up to and including the last
one; {lit}`fuel` bounds the number of tokens read. -/
def collect (view : View) : Nat → Nat → Lexer → List Token × Lexer
  | 0, _, l => ([], l)
  | _, 0, l => ([], l)
  | fuel + 1, limit + 1, l =>
      let (t, l) := l.nextRaw
      if view.shows t then
        if t.isLast then ([t], l)
        else
          let (ts, l) := collect view fuel limit l
          (t :: ts, l)
      else collect view fuel (limit + 1) l

/-- More tokens than a lexer can hand out before its last one. -/
def bound (l : Lexer) : Nat := l.remaining + 2

/-- The first tokens of a view, no more than {lit}`n` of them; nothing is read behind them. -/
def take (l : Lexer) (view : View) (n : Nat) : List Token × Lexer := collect view (l.bound + n) n l

/-- The tokens of a view up to and including the last one. -/
def tokenize (l : Lexer) (view : View) : List Token × Lexer := collect view l.bound l.bound l

/-- Collects every token while there is text left, and stops behind unreadable text. -/
def collectAll : Nat → Lexer → List Token × Lexer
  | 0, l => ([], l)
  | fuel + 1, l =>
      if l.hasNext then
        let (t, l) := l.nextRaw
        if t.kind = .unknown then ([t], l)
        else
          let (ts, l) := collectAll fuel l
          (t :: ts, l)
      else ([], l)

/-- Every token of a fresh lexer, layout included and the end excluded. -/
def allTokens (l : Lexer) : Option (List Token × Lexer) :=
  if l.isFresh then some (collectAll l.bound l) else none

end Lexer

/-- Every token of a source text that a view shows. -/
def tokensOf (vocabulary : Vocabulary) (source : Text) (view : Lexer.View) : List Token :=
  ((Lexer.ofSource vocabulary source).tokenize view).1

end RaidTimeline
