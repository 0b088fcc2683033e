import CodeWriter.Line.Basic

namespace CodeWriter

namespace Line

/-- The indent that the next line inherits from a line that has its own. -/
def nextIndent (unit : Int) (line : Line) : Int :=
  if line.endsOpening then line.indent + unit else line.indent

/-- The line with the indent it takes when `indent` is inherited. -/
def placedAt (unit indent : Int) (line : Line) : Line :=
  { line with indent := if line.startsClosing then indent - unit else indent }

end Line

namespace Layout

def indentFrom (unit : Int) : Int → List Line → List Line
  | _, [] => []
  | indent, line :: rest =>
      line.placedAt unit indent ::
        indentFrom unit ((line.placedAt unit indent).nextIndent unit) rest

def closingIndentFrom (unit : Int) : Int → List Line → Int
  | indent, [] => indent
  | indent, line :: rest =>
      closingIndentFrom unit ((line.placedAt unit indent).nextIndent unit) rest

def indent (unit : Int) (lines : List Line) : List Line :=
  indentFrom unit 0 lines

def closingIndent (unit : Int) (lines : List Line) : Int :=
  closingIndentFrom unit 0 lines

@[simp] theorem indentFrom_nil (unit indent : Int) :
    indentFrom unit indent [] = [] := rfl

@[simp] theorem indentFrom_cons (unit indent : Int) (line : Line) (rest : List Line) :
    indentFrom unit indent (line :: rest) =
      line.placedAt unit indent ::
        indentFrom unit ((line.placedAt unit indent).nextIndent unit) rest := rfl

@[simp] theorem length_indentFrom (unit indent : Int) (lines : List Line) :
    (indentFrom unit indent lines).length = lines.length := by
  induction lines generalizing indent with
  | nil => rfl
  | cons line rest ih => simp [ih]

theorem map_tokens_indentFrom (unit indent : Int) (lines : List Line) :
    (indentFrom unit indent lines).map Line.tokens = lines.map Line.tokens := by
  induction lines generalizing indent with
  | nil => rfl
  | cons line rest ih => simp [ih, Line.placedAt]

end Layout

end CodeWriter
