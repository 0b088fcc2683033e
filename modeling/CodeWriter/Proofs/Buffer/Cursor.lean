import CodeWriter.Buffer.Joining
import CodeWriter.Layout.Rendering

/-! A buffer with its cursor apart. Only some operations move it; nothing says it is at the end. -/

namespace CodeWriter

/-- Lines are referred to, so that the cursor can be at one wherever it comes to stand. -/
structure CursorBuffer where
  /-- Every line that was made. A line is referred to by its place here. -/
  made : List Line
  /-- The lines of the buffer. -/
  order : List Nat
  /-- The line that is written on. -/
  cursor : Nat
  origin : Option Origin
  lineBreak : Text
  gap : Text
deriving DecidableEq, Repr

namespace CursorBuffer

def empty (lineBreak gap : Text) : CursorBuffer where
  made := [Line.blank]
  order := [0]
  cursor := 0
  origin := none
  lineBreak := lineBreak
  gap := gap

def line (ref : Nat) (buffer : CursorBuffer) : Line :=
  buffer.made[ref]?.getD Line.blank

def lines (buffer : CursorBuffer) : List Line :=
  buffer.order.map fun ref => buffer.line ref

def current (buffer : CursorBuffer) : Line :=
  buffer.line buffer.cursor

def settings (buffer : CursorBuffer) : Option Origin × Text × Text :=
  (buffer.origin, buffer.lineBreak, buffer.gap)

/-- The lines as they are read; the cursor is not asked. -/
def view (buffer : CursorBuffer) : Buffer where
  above := buffer.lines.dropLast
  current := buffer.lines.getLast?.getD Line.blank
  origin := buffer.origin
  lineBreak := buffer.lineBreak
  gap := buffer.gap

def stamp (text : Text) (buffer : CursorBuffer) : Token :=
  { text, origin := buffer.origin }

def edit (ref : Nat) (change : Line → Line) (buffer : CursorBuffer) : CursorBuffer :=
  { buffer with made := buffer.made.modify ref change }

/-- New lines before the place; the cursor stays where it is. -/
def insertLines (place : Nat) (inserted : List Line) (buffer : CursorBuffer) : CursorBuffer :=
  { buffer with
    made := buffer.made ++ inserted
    order := buffer.order.take place ++ List.range' buffer.made.length inserted.length ++
      buffer.order.drop place }

/-- A new line at the end; the cursor stays where it is. -/
def addLine (line : Line) (buffer : CursorBuffer) : CursorBuffer :=
  { buffer with made := buffer.made ++ [line], order := buffer.order ++ [buffer.made.length] }

def toEnd (buffer : CursorBuffer) : CursorBuffer :=
  { buffer with cursor := buffer.order.getLast?.getD buffer.cursor }

def push (line : Line) (buffer : CursorBuffer) : CursorBuffer :=
  { buffer.addLine line with cursor := buffer.made.length }

def breakLine (buffer : CursorBuffer) : CursorBuffer :=
  buffer.push Line.blank

def addTokens (tokens : List Token) (buffer : CursorBuffer) : CursorBuffer :=
  buffer.edit buffer.cursor fun line => { line with tokens := line.tokens ++ tokens }

def addTexts : List Text → CursorBuffer → CursorBuffer
  | [], buffer => buffer
  | [[]], buffer => buffer.addLine Line.blank
  | text :: rest, buffer =>
      addTexts rest (buffer.addLine { tokens := [buffer.stamp text] })

/-- The cursor moves once, when all lines are there. -/
def write (text : Text) (buffer : CursorBuffer) : CursorBuffer :=
  let begun := buffer.addTokens [buffer.stamp (text.cut '\n').1]
  if '\n' ∈ text then (addTexts (text.cut '\n').2 begun).toEnd else begun

def writeLine (text : Text) (buffer : CursorBuffer) : CursorBuffer :=
  (buffer.write text).breakLine

def writeBelow (text : Text) (buffer : CursorBuffer) : CursorBuffer :=
  buffer.breakLine.write text

def here (buffer : CursorBuffer) : Mark where
  line := buffer.order.length - 1
  token := buffer.current.tokens.length

def line? (index : Int) (buffer : CursorBuffer) : Option Line :=
  if index < 0 then none else buffer.lines[index.toNat]?

def validate (mark : Mark) (buffer : CursorBuffer) : Except Fault Unit :=
  match buffer.line? mark.line with
  | none => .error (.markOutsideBuffer mark buffer.order.length)
  | some line =>
      if 0 ≤ mark.token ∧ mark.token ≤ line.tokens.length then .ok ()
      else .error (.markOutsideLine mark)

def insertToken (place index : Nat) (token : Token) (buffer : CursorBuffer) : CursorBuffer :=
  match buffer.order[place]? with
  | none => buffer
  | some ref =>
      buffer.edit ref fun marked => { marked with tokens := marked.tokens.insertIdx index token }

def insert (mark : Mark) (text : Text) (buffer : CursorBuffer) : Except Fault CursorBuffer :=
  match buffer.validate mark with
  | .error fault => .error fault
  | .ok () =>
      if mark.token = 0 then
        .ok (buffer.insertLines mark.line.toNat
          (text.withoutFinalBreak.physicalLines.map fun part =>
            { tokens := [buffer.stamp part] }))
      else if '\n' ∈ text then .error .lineBreakInsideLine
      else .ok (buffer.insertToken mark.line.toNat mark.token.toNat (buffer.stamp text))

def cutIndex (index : Int) (buffer : CursorBuffer) : Nat :=
  if index < 0 then (buffer.order.length + index).toNat else index.toNat

def keepTo (index : Int) (buffer : CursorBuffer) : CursorBuffer :=
  { buffer with order := buffer.order.take (buffer.cutIndex index) }

/-- Where no line is left there comes a blank one; then the cursor goes to the end. -/
def dropFrom (index : Int) (buffer : CursorBuffer) : List Line × CursorBuffer :=
  let kept := buffer.keepTo index
  (buffer.lines.drop (buffer.cutIndex index),
    (if kept.order.isEmpty then kept.addLine Line.blank else kept).toEnd)

def replaceTail (index : Int) (line : Line) (buffer : CursorBuffer) : CursorBuffer :=
  (buffer.keepTo index).push line

def takeBack (mark : Mark) (buffer : CursorBuffer) : Except Fault (Text × CursorBuffer) :=
  match buffer.validate mark with
  | .error fault => .error fault
  | .ok () =>
      let (later, kept) := buffer.dropFrom (mark.line + 1)
      let tail := kept.current.tokens.drop mark.token.toNat
      .ok (buffer.view.collectedText tail later, kept.edit kept.cursor fun line =>
        { line with tokens := line.tokens.take mark.token.toNat })

def openBrace (buffer : CursorBuffer) : CursorBuffer :=
  buffer.writeLine ['{']

def fitsBrace (mark : Mark) (width : Int) (buffer : CursorBuffer) : Bool :=
  let opening := (buffer.line? (mark.line - 1)).getD Line.blank
  buffer.order.length ≤ mark.line + 1 && opening.width + buffer.current.width < width

/-- The one line of the body is taken off and its tokens are put behind the brace. -/
def collapse (mark : Mark) (buffer : CursorBuffer) : Except Fault CursorBuffer :=
  match buffer.dropFrom mark.line with
  | ([body], opening) =>
      if body.isBlank then .ok (opening.write [' ', '}'])
      else .ok (((opening.write [' ']).addTokens body.tokens).write [' ', '}'])
  | _ => .error (.raised [])

def closeBrace (mark : Mark) (width : Int) (buffer : CursorBuffer) : Except Fault CursorBuffer :=
  match buffer.validate mark with
  | .error fault => .error fault
  | .ok () =>
      if buffer.fitsBrace mark width then buffer.collapse mark
      else .ok (buffer.writeBelow ['}'])

def joinFrom (mark : Mark) (width : Int) (buffer : CursorBuffer) : Except Fault CursorBuffer :=
  match buffer.validate mark with
  | .error fault => .error fault
  | .ok () =>
      let joined := buffer.lines.drop mark.line.toNat
      if Line.canJoin width joined then
        .ok (buffer.replaceTail mark.line { tokens := Line.joinTokens joined })
      else .ok buffer

def indentFrom (unit : Int) : Int → List Nat → CursorBuffer → CursorBuffer
  | _, [], buffer => buffer
  | indent, ref :: rest, buffer =>
      indentFrom unit (((buffer.line ref).placedAt unit indent).nextIndent unit) rest
        (buffer.edit ref fun line => line.placedAt unit indent)

def indent (unit : Int) (buffer : CursorBuffer) : CursorBuffer :=
  indentFrom unit 0 buffer.order buffer

/-- The list of lines changes, and the cursor is left where it is. -/
def spaceAt (unit : Int) (buffer : CursorBuffer) (place : Nat) : Option CursorBuffer :=
  match buffer.lines[place]?, buffer.lines[place + 1]?, buffer.lines[place + 2]? with
  | some line, some next, some afterNext =>
      if line.isBlank then some { buffer with order := buffer.order.eraseIdx place }
      else if line.precedesComment next then
        some (buffer.insertLines (place + 1) [line.spacerAfter unit])
      else if line.precedesBlock next afterNext then
        some (buffer.insertLines (place + 1) [line.spacerAfter unit])
      else if line.endsBlock next afterNext then
        some (buffer.insertLines (place + 2) [next.spacerAfter unit])
      else some buffer
  | _, _, _ => none

def sweep (unit : Int) (buffer : CursorBuffer) : Option CursorBuffer :=
  (List.range (buffer.order.length - 2)).reverse.foldlM (spaceAt unit) (buffer.indent unit)

def space (unit : Int) (buffer : CursorBuffer) : CursorBuffer :=
  (buffer.sweep unit).getD buffer

def arrange (options : Options) (buffer : CursorBuffer) : CursorBuffer :=
  if options.indents then buffer.space options.indent else buffer

end CursorBuffer

end CodeWriter
