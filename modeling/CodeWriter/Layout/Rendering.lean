import CodeWriter.Layout.Options
import CodeWriter.Layout.Spacing

namespace CodeWriter

namespace Layout

/-- Without an indent unit nothing is laid out. -/
def arrange (options : Options) (lines : List Line) : List Line :=
  if options.indents then space options.indent lines else lines

def render (options : Options) (lines : List Line) : Text :=
  options.lineBreak.intercalate (lines.map (Line.render options.indent))

end Layout

end CodeWriter
