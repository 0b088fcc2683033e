import CodeWriter.Line.Basic

/-! The lines above the cursor and the line at it. Seen as one text, writing adds to its end. -/

namespace CodeWriter

structure Buffer where
  above : List Line := []
  current : Line := {}
  /-- The source in force. -/
  origin : Option Origin := none
  /-- What parts the lines of collected text. -/
  lineBreak : Text := ['\n']
  /-- What parts the rest of the first line of collected text from the lines after it. -/
  gap : Text := ['\n']
deriving DecidableEq, Repr

namespace Buffer

def empty (lineBreak gap : Text) : Buffer :=
  { lineBreak, gap }

def lines (buffer : Buffer) : List Line :=
  buffer.above ++ [buffer.current]

def size (buffer : Buffer) : Nat :=
  buffer.above.length + 1

def text (buffer : Buffer) : Text :=
  ['\n'].intercalate (buffer.lines.map Line.text)

/-- The buffer with other lines; without any line there is one blank line. -/
def withLines (lines : List Line) (buffer : Buffer) : Buffer :=
  { buffer with above := lines.dropLast, current := lines.getLast?.getD Line.blank }

def stamp (text : Text) (buffer : Buffer) : Token :=
  { text, origin := buffer.origin }

def addTokens (tokens : List Token) (buffer : Buffer) : Buffer :=
  { buffer with
    current := { buffer.current with tokens := buffer.current.tokens ++ tokens } }

def push (line : Line) (buffer : Buffer) : Buffer :=
  { buffer with above := buffer.lines, current := line }

def breakLine (buffer : Buffer) : Buffer :=
  buffer.push Line.blank

/-- A line of one token for each text; an empty text at the end is a line without token. -/
def pushTexts : List Text → Buffer → Buffer
  | [], buffer => buffer
  | [[]], buffer => buffer.breakLine
  | text :: rest, buffer =>
      pushTexts rest (buffer.push { tokens := [buffer.stamp text] })

/-- The text goes on the current line up to its first line feed, and on new lines from there. -/
def write (text : Text) (buffer : Buffer) : Buffer :=
  pushTexts (text.cut '\n').2 (buffer.addTokens [buffer.stamp (text.cut '\n').1])

def writeLine (text : Text) (buffer : Buffer) : Buffer :=
  (buffer.write text).breakLine

def writeBelow (text : Text) (buffer : Buffer) : Buffer :=
  buffer.breakLine.write text

@[simp] theorem lines_ne_nil (buffer : Buffer) : buffer.lines ≠ [] := by
  simp [lines]

@[simp] theorem length_lines (buffer : Buffer) : buffer.lines.length = buffer.size := by
  simp [lines, size]

theorem lines_withLines {lines : List Line} (nonempty : lines ≠ []) (buffer : Buffer) :
    (buffer.withLines lines).lines = lines := by
  simp [withLines, Buffer.lines, List.getLast?_eq_some_getLast nonempty,
    List.dropLast_concat_getLast]

@[simp] theorem withLines_lines (buffer : Buffer) :
    buffer.withLines buffer.lines = buffer := by
  simp [withLines, lines]

@[simp] theorem lines_push (line : Line) (buffer : Buffer) :
    (buffer.push line).lines = buffer.lines ++ [line] := rfl

@[simp] theorem origin_push (line : Line) (buffer : Buffer) :
    (buffer.push line).origin = buffer.origin := rfl

@[simp] theorem origin_addTokens (tokens : List Token) (buffer : Buffer) :
    (buffer.addTokens tokens).origin = buffer.origin := rfl

@[simp] theorem stamp_push (text : Text) (line : Line) (buffer : Buffer) :
    (buffer.push line).stamp text = buffer.stamp text := rfl

@[simp] theorem origin_pushTexts (texts : List Text) (buffer : Buffer) :
    (pushTexts texts buffer).origin = buffer.origin := by
  fun_induction pushTexts texts buffer with
  | case1 => rfl
  | case2 => rfl
  | case3 text rest buffer _ ih => exact ih

@[simp] theorem origin_write (text : Text) (buffer : Buffer) :
    (buffer.write text).origin = buffer.origin := by
  simp [write]

@[simp] theorem text_push (line : Line) (buffer : Buffer) :
    (buffer.push line).text = buffer.text ++ '\n' :: line.text := by
  simp [text, Text.intercalate_concat]

@[simp] theorem text_breakLine (buffer : Buffer) :
    buffer.breakLine.text = buffer.text ++ ['\n'] := by
  simp [breakLine]

@[simp] theorem text_addTokens (tokens : List Token) (buffer : Buffer) :
    (buffer.addTokens tokens).text = buffer.text ++ tokens.flatMap Token.text := by
  obtain ⟨above, current, origin, lineBreak, gap⟩ := buffer
  by_cases only : above = []
  · subst only
    simp [text, lines, addTokens, Line.text]
  · simp [text, lines, addTokens, Line.text, Text.intercalate_concat, only]

theorem text_pushTexts (texts : List Text) (buffer : Buffer) :
    (pushTexts texts buffer).text = buffer.text ++ texts.flatMap ('\n' :: ·) := by
  fun_induction pushTexts texts buffer with
  | case1 => simp
  | case2 => simp
  | case3 text rest buffer _ ih =>
      rw [ih, text_push]
      simp [Line.text, stamp]

/-- Writing is concatenation. -/
@[simp] theorem text_write (text : Text) (buffer : Buffer) :
    (buffer.write text).text = buffer.text ++ text := by
  rw [write, text_pushTexts, text_addTokens]
  have whole := Text.cut_flatMap '\n' text
  simpa [stamp, List.append_assoc] using whole

@[simp] theorem text_writeLine (text : Text) (buffer : Buffer) :
    (buffer.writeLine text).text = buffer.text ++ text ++ ['\n'] := by
  simp [writeLine]

@[simp] theorem text_writeBelow (text : Text) (buffer : Buffer) :
    (buffer.writeBelow text).text = buffer.text ++ '\n' :: text := by
  simp [writeBelow]

end Buffer

end CodeWriter
