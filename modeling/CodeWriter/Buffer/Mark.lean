import CodeWriter.Text.Numeral

namespace CodeWriter

/-- A line, and a token on it. Any integers make a mark; a buffer tells whether it has the place. -/
structure Mark where
  line : Int
  token : Int
deriving DecidableEq, Repr, Inhabited

def Mark.describe (mark : Mark) : Text :=
  "Mark(line_index=".toList ++ Text.ofInt mark.line ++
    ", token_index=".toList ++ Text.ofInt mark.token ++ [')']

end CodeWriter
