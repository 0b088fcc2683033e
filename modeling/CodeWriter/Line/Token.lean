import CodeWriter.Source.Basic
import CodeWriter.Text.Blank

namespace CodeWriter

def isOpeningBracket (c : Char) : Bool :=
  c == '(' || c == '{' || c == '['

def isClosingBracket (c : Char) : Bool :=
  c == ')' || c == '}' || c == ']'

structure Token where
  text : Text
  origin : Option Origin := none
deriving DecidableEq, Repr

namespace Token

def isEmpty (token : Token) : Bool :=
  token.text.isEmpty

def isBlank (token : Token) : Bool :=
  token.text.isBlank

def endsOpening (token : Token) : Bool :=
  token.text.getLast?.any isOpeningBracket

def startsClosing (token : Token) : Bool :=
  token.text.head?.any isClosingBracket

/-- The source of a token that a map has to mention. -/
def mappedOrigin? (token : Token) : Option Origin :=
  if token.isBlank then none else token.origin

end Token

end CodeWriter
