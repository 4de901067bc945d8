import RaidTimeline.Data.YamlScalar

/-!
# Reading configuration files

Configuration files are small YAML 1.1 texts: block mappings and lists, flow mappings and lists,
quoted and plain scalars, and comments.  Everything else, anchors, tags, block scalars and
several documents among it, is malformed here.

Main results:

- Definition {lit}`Yaml.read?`: the value of a text, or nothing if it is malformed.
- Definition {lit}`Yaml.readFlow`: a value in flow style.
- Definition {lit}`Yaml.readBlock`: a value in block style.
-/

namespace RaidTimeline.Yaml

/-! ## Characters and lines -/

/-- Whether a character may stand in a file. -/
def isAllowed (c : Char) : Bool :=
  let n := c.toNat
  n == 9 || n == 10 || n == 13 || (0x20 ≤ n && n ≤ 0x7E) || n == 0x85
    || (0xA0 ≤ n && n ≤ 0xFFFD) || 0x10000 ≤ n

/-- Whether a character ends a line or separates words on it. -/
def isGap (c : Char) : Bool := c == ' ' || c == '\t' || c == '\n'

/-- Whether a text is at its end or begins with a gap. -/
def atGap : Text → Bool
  | [] => true
  | c :: _ => isGap c

/-- From the start of a line, the indentation of the next line that says something, and the text
from its first character on. -/
def significant : Nat → Bool → Text → Nat × Text
  | _, _, [] => (0, [])
  | indent, comment, c :: rest =>
      if c = '\n' then significant 0 false rest
      else if comment then significant indent true rest
      else if c = ' ' then significant (indent + 1) false rest
      else if c = '#' then significant indent true rest
      else (indent, c :: rest)

/-- Whether a text holds blank lines and comments only. -/
def isVoid (t : Text) : Bool := (significant 0 false t).2.isEmpty

/-- The text behind the current line, if the rest of the line is blank or a comment. -/
def endLine (t : Text) : Option Text :=
  match t.dropWhile (· == ' ') with
  | [] => some []
  | '\n' :: after => some after
  | '#' :: comment => some ((comment.dropWhile (· != '\n')).drop 1)
  | _ => none

/-- Whether a text begins with a mark of one character and a gap. -/
def hasMark (mark : Char) : Text → Bool
  | [] => false
  | c :: rest => c == mark && atGap rest

/-! ## Plain scalars -/

/-- Whether a plain scalar can begin here. -/
def startsPlain (flow : Bool) : Text → Bool
  | [] => false
  | c :: rest =>
      if ",[]\x7b\x7d#&*!|>'\"%@".toList.contains c || c == Char.ofNat 0x60 || isGap c then false
      else if c == '-' then !atGap rest
      else if c == '?' || c == ':' then !flow && !atGap rest
      else true

/-- Whether a character ends a plain scalar in flow style. -/
def isFlowMark (c : Char) : Bool := ",[]\x7b\x7d?".toList.contains c

/-- Whether a colon in front of a text belongs to a field. -/
def endsKey (flow : Bool) (rest : Text) : Bool :=
  atGap rest || (flow && (rest.head?.map fun c => isFlowMark c && c != '?').getD false)

/-- The characters of a plain scalar on one line, and the text behind them; {lit}`gap` says that a
blank has just been read.  A tab ends the scalar. -/
def spanPlain (flow : Bool) (gap : Bool) : Text → Text × Text
  | [] => ([], [])
  | c :: rest =>
      if c = '\n' ∨ c = '\t' then ([], c :: rest)
      else if c = '#' ∧ gap = true then ([], c :: rest)
      else if c = ':' ∧ endsKey flow rest = true then ([], c :: rest)
      else if flow && isFlowMark c then ([], c :: rest)
      else
        let (word, after) := spanPlain flow (c == ' ') rest
        (c :: word, after)

/-- A text without the blanks at its end. -/
def trimEnd (t : Text) : Text := (t.reverse.dropWhile (· == ' ')).reverse

/-- Skips blanks and line ends: how many lines end, how many blanks stand behind the last line
end, and the text from there on. -/
def skipLines : Nat → Nat → Text → Nat × Nat × Text
  | lineEnds, indent, [] => (lineEnds, indent, [])
  | lineEnds, indent, c :: rest =>
      if c = '\n' then skipLines (lineEnds + 1) 0 rest
      else if c = ' ' then skipLines lineEnds (indent + 1) rest
      else (lineEnds, indent, c :: rest)

/-- A plain scalar that may go on behind line ends.  In block style the further lines are
indented more than {lit}`parent`; no further line begins with a number sign. -/
def readPlain (flow : Bool) (parent : Int) : Nat → Text → Text × Text
  | 0, t => ([], t)
  | fuel + 1, t =>
      let (line, after) := spanPlain flow false t
      let word := trimEnd line
      match after with
      | '\n' :: _ =>
          let (lineEnds, indent, next) := skipLines 0 0 after
          if next.head? == some '#' || (!flow && (indent : Int) ≤ parent) then (word, after)
          else
            let (more, rest) := readPlain flow parent fuel next
            if more.isEmpty then (word, after) else (word ++ folded lineEnds ++ more, rest)
      | _ => (word, after)

/-! ## Flow style -/

/-- Skips blanks, line ends and comments. -/
def skipSpace (comment : Bool) : Text → Text
  | [] => []
  | c :: rest =>
      if c = '\n' then skipSpace false rest
      else if comment then skipSpace true rest
      else if c = ' ' then skipSpace false rest
      else if c = '#' then skipSpace true rest
      else c :: rest

/-- The text behind the colon of a field.  A key reaches from a text {lit}`start` to a text
{lit}`stop` behind it; it stands on the line of its colon, and is not longer than 1024
characters with the blanks behind it. -/
def fieldValue? (start stop : Text) : Option Text :=
  match stop.dropWhile (· == ' ') with
  | ':' :: value =>
      let key := start.take (start.length - (value.length + 1))
      if key.contains '\n' || 1024 < key.length then none else some value
  | _ => none

/-- A field of a mapping; list and mapping keys are malformed. -/
def field? (key value : Value) : Option (Text × Value) := (keyText key).map (·, value)

mutual

/-- A value in flow style in front of a text, and what follows it. -/
def readFlow : Nat → Text → Option (Value × Text)
  | 0, _ => none
  | fuel + 1, t =>
      match t with
      | '[' :: rest => (readFlowItems fuel (skipSpace false rest)).map fun (vs, r) => (.array vs, r)
      | '\x7b' :: rest =>
          (readFlowFields fuel (skipSpace false rest)).map fun (fs, r) =>
            (.object (Value.putAll [] fs), r)
      | t =>
          match readQuoted? t with
          | some quoted => quoted.map fun (s, r) => (.string s, r)
          | none =>
              if startsPlain true t then
                let (word, rest) := readPlain true 0 t.length t
                some (resolve word, rest)
              else none

/-- The items of a list in flow style up to its closing bracket, and what follows it. -/
def readFlowItems : Nat → Text → Option (List Value × Text)
  | 0, _ => none
  | fuel + 1, t =>
      match t with
      | ']' :: rest => some ([], rest)
      | '?' :: rest =>
          match readMarkedField fuel (skipSpace false rest) with
          | none => none
          | some (f, rest) =>
              (nextFlowItems fuel (skipSpace false rest)).map fun (vs, r) => (.object [f] :: vs, r)
      | t =>
          match readFlow fuel t with
          | none => none
          | some (v, rest) =>
              match fieldValue? t rest with
              | some value =>
                  match readFlowValue fuel (skipSpace false value) with
                  | none => none
                  | some (w, rest) =>
                      match field? v w with
                      | none => none
                      | some f =>
                          (nextFlowItems fuel (skipSpace false rest)).map fun (vs, r) =>
                            (.object [f] :: vs, r)
              | none => (nextFlowItems fuel (skipSpace false rest)).map fun (vs, r) => (v :: vs, r)

/-- What stands behind an item: a comma and further items, or the closing bracket. -/
def nextFlowItems : Nat → Text → Option (List Value × Text)
  | 0, _ => none
  | fuel + 1, t =>
      match t with
      | ',' :: rest => readFlowItems fuel (skipSpace false rest)
      | ']' :: rest => some ([], rest)
      | _ => none

/-- A field behind the mark of its key; the key and the value may be absent. -/
def readMarkedField : Nat → Text → Option ((Text × Value) × Text)
  | 0, _ => none
  | fuel + 1, t =>
      match if t.head? == some ':' then some (.null, t) else readFlowValue fuel t with
      | none => none
      | some (key, rest) =>
          match skipSpace false rest with
          | ':' :: value =>
              match readFlowValue fuel (skipSpace false value) with
              | none => none
              | some (v, rest) => (field? key v).map fun f => (f, rest)
          | rest => (field? key .null).map fun f => (f, rest)

/-- The value behind a colon, which may be absent. -/
def readFlowValue : Nat → Text → Option (Value × Text)
  | 0, _ => none
  | fuel + 1, t =>
      match t with
      | ',' :: rest => some (.null, ',' :: rest)
      | ']' :: rest => some (.null, ']' :: rest)
      | '\x7d' :: rest => some (.null, '\x7d' :: rest)
      | t => readFlow fuel t

/-- The fields of a mapping in flow style up to its closing brace, and what follows it. -/
def readFlowFields : Nat → Text → Option (List (Text × Value) × Text)
  | 0, _ => none
  | fuel + 1, t =>
      match t with
      | '\x7d' :: rest => some ([], rest)
      | '?' :: rest =>
          match readMarkedField fuel (skipSpace false rest) with
          | none => none
          | some (f, rest) =>
              (nextFlowFields fuel (skipSpace false rest)).map fun (fs, r) => (f :: fs, r)
      | t =>
          match readFlow fuel t with
          | none => none
          | some (key, rest) =>
              match fieldValue? t rest with
              | some value =>
                  match readFlowValue fuel (skipSpace false value) with
                  | none => none
                  | some (v, rest) =>
                      match field? key v with
                      | none => none
                      | some f =>
                          (nextFlowFields fuel (skipSpace false rest)).map fun (fs, r) =>
                            (f :: fs, r)
              | none =>
                  match field? key .null with
                  | none => none
                  | some f =>
                      (nextFlowFields fuel (skipSpace false rest)).map fun (fs, r) => (f :: fs, r)

/-- What stands behind a field: a comma and further fields, or the closing brace. -/
def nextFlowFields : Nat → Text → Option (List (Text × Value) × Text)
  | 0, _ => none
  | fuel + 1, t =>
      match t with
      | ',' :: rest => readFlowFields fuel (skipSpace false rest)
      | '\x7d' :: rest => some ([], rest)
      | _ => none

end

/-- A bound on the steps of reading a text in flow style. -/
def flowBound (t : Text) : Nat := 4 * t.length + 4

/-! ## Block style -/

/-- The key in front of a field on one line, and the text behind its colon. -/
def readKey? (t : Text) : Option (Value × Text) :=
  let key? :=
    match readQuoted? t with
    | some quoted => quoted.map fun (s, rest) => (Value.string s, rest)
    | none =>
        if startsPlain false t then
          let (line, rest) := spanPlain false false t
          some (resolve (trimEnd line), rest)
        else none
  match key? with
  | none => none
  | some (key, rest) =>
      match fieldValue? t rest with
      | some value => if atGap value then some (key, value) else none
      | none => none

/-- Whether a text begins with a field of a mapping. -/
def isKey (t : Text) : Bool := hasMark '?' t || hasMark ':' t || (readKey? t).isSome

/-- A scalar or a value in flow style, up to the end of its last line. -/
def readInline (parent : Int) (t : Text) : Option (Value × Text) :=
  match t with
  | '[' :: _ | '\x7b' :: _ =>
      match readFlow (flowBound t) t with
      | none => none
      | some (v, rest) => (endLine rest).map fun rest => (v, rest)
  | _ =>
      match readQuoted? t with
      | some none => none
      | some (some (s, rest)) => (endLine rest).map fun rest => (.string s, rest)
      | none =>
          if startsPlain false t then
            let (word, rest) := readPlain false parent t.length t
            (endLine rest).map fun rest => (resolve word, rest)
          else none

mutual

/-- The value that begins in a column in front of a text, and the lines behind it; its parent
stands in column {lit}`parent`. -/
def readNode : Nat → Int → Nat → Text → Option (Value × Text)
  | 0, _, _, _ => none
  | fuel + 1, parent, column, t =>
      if hasMark '-' t then (readItems fuel column t).map fun (vs, r) => (.array vs, r)
      else if isKey t then
        (readFields fuel column t).map fun (fs, r) => (.object (Value.putAll [] fs), r)
      else readInline parent t

/-- The value on the lines in front of a text that are indented more than {lit}`parent`. -/
def readBlock : Nat → Int → Text → Option (Value × Text)
  | 0, _, _ => none
  | fuel + 1, parent, t =>
      let (indent, s) := significant 0 false t
      if s.isEmpty || (indent : Int) ≤ parent then some (.null, t)
      else readNode fuel parent indent s

/-- The value behind a mark of one character, on its line or on the lines behind it, and the lines
behind the value. -/
def readBehind : Nat → Nat → Text → Option (Value × Text)
  | 0, _, _ => none
  | fuel + 1, column, t =>
      match endLine (t.drop 1) with
      | some lines => readBlock fuel column lines
      | none =>
          let start := (t.drop 1).dropWhile (· == ' ')
          readNode fuel column (column + t.length - start.length) start

/-- The items of a list whose dashes stand in a column, and the lines behind it. -/
def readItems : Nat → Nat → Text → Option (List Value × Text)
  | 0, _, _ => none
  | fuel + 1, column, t =>
      match readBehind fuel column t with
      | none => none
      | some (v, lines) =>
          let (indent, s) := significant 0 false lines
          if s.isEmpty || indent < column then some ([v], lines)
          else if column < indent then none
          else if hasMark '-' s then (readItems fuel column s).map fun (vs, r) => (v :: vs, r)
          else some ([v], lines)

/-- The value on the lines behind a key; the dashes of a list may stand in the column of the
key. -/
def readLines : Nat → Nat → Text → Option (Value × Text)
  | 0, _, _ => none
  | fuel + 1, column, lines =>
      let (indent, s) := significant 0 false lines
      if indent = column ∧ hasMark '-' s = true then
        (readItems fuel column s).map fun (vs, r) => (.array vs, r)
      else readBlock fuel column lines

/-- The value behind a colon that begins a line. -/
def readMarkedValue : Nat → Nat → Text → Option (Value × Text)
  | 0, _, _ => none
  | fuel + 1, column, t =>
      match endLine (t.drop 1) with
      | some lines => readLines fuel column lines
      | none => readBehind fuel column t

/-- A field whose key stands in a column, and the lines behind it.  A key with a mark in front
may be any value, and its colon begins a line. -/
def readField : Nat → Nat → Text → Option ((Value × Value) × Text)
  | 0, _, _ => none
  | fuel + 1, column, t =>
      if hasMark ':' t then
        (readMarkedValue fuel column t).map fun (v, lines) => ((.null, v), lines)
      else if hasMark '?' t then
        match readBehind fuel column t with
        | none => none
        | some (key, lines) =>
            let (indent, s) := significant 0 false lines
            if indent = column ∧ hasMark ':' s = true then
              (readMarkedValue fuel column s).map fun (v, lines) => ((key, v), lines)
            else some ((key, .null), lines)
      else
        match readKey? t with
        | none => none
        | some (key, after) =>
            (match endLine after with
            | some lines => readLines fuel column lines
            | none => readInline column (after.dropWhile (· == ' '))).map
              fun (v, lines) => ((key, v), lines)

/-- The fields of a mapping whose keys stand in a column, and the lines behind it. -/
def readFields : Nat → Nat → Text → Option (List (Text × Value) × Text)
  | 0, _, _ => none
  | fuel + 1, column, t =>
      match readField fuel column t with
      | none => none
      | some ((key, v), lines) =>
          match field? key v with
          | none => none
          | some f =>
              let (indent, s) := significant 0 false lines
              if s.isEmpty || indent < column then some ([f], lines)
              else if indent = column ∧ isKey s = true then
                (readFields fuel column s).map fun (fs, r) => (f :: fs, r)
              else none

end

/-! ## Documents -/

/-- Whether a line begins with a mark of three characters. -/
def isMark (mark : Text) (t : Text) : Bool := t.take 3 == mark && atGap (t.drop 3)

/-- Whether a line begins with the mark for the start of a document. -/
def isStart (t : Text) : Bool := isMark "---".toList t

/-- Whether a line begins with the mark for the end of a document. -/
def isEnd (t : Text) : Bool := isMark "...".toList t

/-- The text up to the first line that begins with a mark, and the text from the mark on. -/
def spanDocument (lineStart : Bool) : Text → Text × Text
  | [] => ([], [])
  | c :: rest =>
      if lineStart && (isStart (c :: rest) || isEnd (c :: rest)) then ([], c :: rest)
      else
        let (document, after) := spanDocument (c == '\n') rest
        (c :: document, after)

/-- Whether a text holds marks for the end of a document at most. -/
def endsText (t : Text) : Bool :=
  (Text.splitOn '\n' t).all fun line => isVoid (if isEnd line then line.drop 3 else line)

/-- The value of a document without a mark in front. -/
def readDocument (t : Text) : Option Value :=
  match readBlock (4 * t.length + 4) (-1) t with
  | some (v, rest) => if isVoid rest then some v else none
  | none => none

/-- The value of a document behind a mark; on the line of the mark there may be a value in one
piece. -/
def readMarked (t : Text) : Option Value :=
  match endLine t with
  | some lines => readDocument lines
  | none =>
      match readInline (-1) (t.dropWhile (· == ' ')) with
      | some (v, rest) => if isVoid rest then some v else none
      | none => none

/-- The value of a text; an empty text has the absent value. -/
def read? (t : Text) : Option Value :=
  if !t.all isAllowed then none
  else
    let t := t.map fun c => if c = '\u0085' then '\n' else c
    let (document, rest) := spanDocument true (match t with | '\uFEFF' :: rest => rest | t => t)
    if isStart rest && isVoid document then
      let (document, rest) := spanDocument false (rest.drop 3)
      if endsText rest then readMarked document else none
    else if endsText rest && (rest.isEmpty || !isVoid document) then readDocument document
    else none

end RaidTimeline.Yaml
