import CodeWriter.Line.Token

/-! What a line is (blank, comment, switch label) hangs on its tokens only. -/

namespace CodeWriter

structure Line where
  tokens : List Token := []
  indent : Int := 0
deriving DecidableEq, Repr

namespace Line

def blank : Line := {}

def ofTexts (texts : List Text) : Line :=
  { tokens := texts.map fun text => { text } }

def text (line : Line) : Text :=
  line.tokens.flatMap Token.text

def width (line : Line) : Nat :=
  line.text.length

def firstVisible? (line : Line) : Option Token :=
  line.tokens.find? fun token => !token.isEmpty

def lastVisible? (line : Line) : Option Token :=
  line.tokens.reverse.find? fun token => !token.isEmpty

def isBlank (line : Line) : Bool :=
  line.tokens.all Token.isEmpty

def commentStart : Text := ['/', '/']

def isComment (line : Line) : Bool :=
  line.firstVisible?.any fun token => token.text.startsWith commentStart

def caseLabels : List Text :=
  ["case ".toList, "default:".toList]

/-- Only the very first token decides, and only by its whole text. -/
def isCaseLabel (line : Line) : Bool :=
  line.tokens.head?.any fun token => caseLabels.contains token.text

def endsOpening (line : Line) : Bool :=
  line.lastVisible?.any Token.endsOpening

def startsClosing (line : Line) : Bool :=
  line.firstVisible?.any Token.startsClosing

/-- Switch labels stand one unit left of the statements they guard; nothing stands left of the
margin. -/
def margin (unit : Int) (line : Line) : Nat :=
  if line.isCaseLabel then (line.indent - unit).toNat else line.indent.toNat

def render (unit : Int) (line : Line) : Text :=
  if line.isBlank then [] else List.replicate (line.margin unit) ' ' ++ line.text

@[simp] theorem text_blank : blank.text = [] := rfl

@[simp] theorem isBlank_blank : blank.isBlank = true := rfl

theorem text_append (first second : List Token) (indent : Int) :
    Line.text ⟨first ++ second, indent⟩ =
      Line.text ⟨first, indent⟩ ++ Line.text ⟨second, indent⟩ := by
  simp [text]

theorem isBlank_iff {line : Line} : line.isBlank = true ↔ line.text = [] := by
  simp [isBlank, text, Token.isEmpty]

theorem firstVisible?_eq_none_iff {line : Line} :
    line.firstVisible? = none ↔ line.isBlank = true := by
  simp [firstVisible?, isBlank]

theorem lastVisible?_eq_none_iff {line : Line} :
    line.lastVisible? = none ↔ line.isBlank = true := by
  simp [lastVisible?, isBlank]

end Line

end CodeWriter
