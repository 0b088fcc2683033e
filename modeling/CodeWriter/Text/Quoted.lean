import CodeWriter.Text.Numeral
import CodeWriter.Text.Printable

namespace CodeWriter

namespace Text.Quoted

def mark (text : Text) : Char :=
  if text.contains '\'' && !text.contains '"' then '"' else '\''

def escapeCode (code : Nat) : Text :=
  if code ≤ 0xFF then '\\' :: 'x' :: Text.hexadecimal 2 code
  else if code ≤ 0xFFFF then '\\' :: 'u' :: Text.hexadecimal 4 code
  else '\\' :: 'U' :: Text.hexadecimal 8 code

def escape (mark c : Char) : Text :=
  if c = mark ∨ c = '\\' then ['\\', c]
  else if c = '\n' then ['\\', 'n']
  else if c = '\r' then ['\\', 'r']
  else if c = '\t' then ['\\', 't']
  else if isPrintable c then [c]
  else escapeCode c.toNat

end Text.Quoted

def Text.quoted (text : Text) : Text :=
  let mark := Text.Quoted.mark text
  mark :: text.flatMap (Text.Quoted.escape mark) ++ [mark]

end CodeWriter
