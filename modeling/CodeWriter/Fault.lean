import CodeWriter.Buffer.Mark
import CodeWriter.Text.Quoted

/-! Everything that can go wrong, by cause. `Fault.message` is the only place that words one. -/

namespace CodeWriter

inductive Fault where
  | negativeOffset
  | negativeSpan
  | reversedSpan
  | offsetOutside (offset : Int) (length : Nat)
  | nonpositiveWidth
  | negativeIndent
  | unknownProfile (name : Text)
  | markOutsideBuffer (mark : Mark) (lines : Nat)
  | markOutsideLine (mark : Mark)
  | lineBreakInsideLine
  | mappingOutOfOrder (line current : Int)
  | truncatedNumber
  | foreignDigit (digit : Char) (place : Int)
  | placeOutside
  | fileWithoutMap
  | phraseMissing
  | nullInPath
  | raised (message : Text)
  | fileExists (path : Text)
  | isDirectory (path : Text)
  | divisionByZero
deriving DecidableEq, Repr, Inhabited

def Fault.message : Fault → Text
  | .negativeOffset => "TextSize cannot be negative".toList
  | .negativeSpan => "TextRange positions cannot be negative".toList
  | .reversedSpan => "TextRange invariant violated: start > end".toList
  | .offsetOutside offset length =>
      "Offset ".toList ++ Text.ofInt offset ++
        " outside text of length ".toList ++ Text.ofNat length
  | .nonpositiveWidth => "Width budget must be positive".toList
  | .negativeIndent => "Indent unit cannot be negative".toList
  | .unknownProfile name => name.quoted ++ " is not a valid LayoutMode".toList
  | .markOutsideBuffer mark lines =>
      "Mark ".toList ++ mark.describe ++ " is outside the buffer (".toList ++
        Text.ofNat lines ++ " lines)".toList
  | .markOutsideLine mark =>
      "Mark ".toList ++ mark.describe ++ " is outside line ".toList ++ Text.ofInt mark.line
  | .lineBreakInsideLine => "Text inserted inside a line must not contain newlines".toList
  | .mappingOutOfOrder line current =>
      "Mapping for line ".toList ++ Text.ofInt line ++
        " recorded after line ".toList ++ Text.ofInt current
  | .truncatedNumber => "Truncated VLQ value".toList
  | .foreignDigit digit place =>
      "Invalid base64 VLQ digit ".toList ++ Text.quoted [digit] ++ " at ".toList ++
        Text.ofInt place
  | .placeOutside => "string index out of range".toList
  | .fileWithoutMap => "Pass file only when requesting a source map".toList
  | .phraseMissing => "substring not found".toList
  | .nullInPath => "embedded null byte".toList
  | .raised message => message
  | .fileExists path => "[Errno 17] File exists: ".toList ++ path.quoted
  | .isDirectory path => "[Errno 21] Is a directory: ".toList ++ path.quoted
  | .divisionByZero => "float division by zero".toList

end CodeWriter
