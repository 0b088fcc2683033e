import CodeWriter.Buffer.Surgery

/-! Statement layout after the fact: blocks on the line of their brace, and joined lines. -/

namespace CodeWriter

namespace Line

/-- The room that a joined line leaves for what follows it. -/
def joinReserve : Int := 10

def spaceToken : Token := { text := [' '] }

/-- Tokens of the lines after the second one, a space before each but the last. -/
def joinRest : List Line → List Token
  | [] => []
  | [last] => last.tokens
  | line :: rest => spaceToken :: line.tokens ++ joinRest rest

/-- Tokens of all lines, spaces nowhere next to the first line or the last. -/
def joinTokens : List Line → List Token
  | first :: second :: rest => first.tokens ++ second.tokens ++ joinRest rest
  | lines => lines.flatMap Line.tokens

def joinedWidth (lines : List Line) : Nat :=
  (lines.flatMap Line.text).length + (lines.length - 3)

def canJoin (width : Int) (lines : List Line) : Bool :=
  1 < lines.length && !lines.any Line.isComment && joinedWidth lines < width - joinReserve

theorem joinRest_cons_cons (line next : Line) (later : List Line) :
    joinRest (line :: next :: later) =
      spaceToken :: line.tokens ++ joinRest (next :: later) := rfl

end Line

namespace Buffer

def openBrace (buffer : Buffer) : Buffer :=
  buffer.writeLine ['{']

/-- The lines from the mark on are one line that fits behind the line with the brace. -/
def fitsBrace (mark : Mark) (width : Int) (buffer : Buffer) : Bool :=
  let opening := (buffer.line? (mark.line - 1)).getD Line.blank
  buffer.size ≤ mark.line + 1 && opening.width + buffer.current.width < width

def collapse (buffer : Buffer) : Buffer :=
  let body := buffer.current
  let opening := buffer.withLines buffer.above
  if body.isBlank then opening.write [' ', '}']
  else ((opening.write [' ']).addTokens body.tokens).write [' ', '}']

def closeBrace (mark : Mark) (width : Int) (buffer : Buffer) : Except Fault Buffer :=
  match buffer.validate mark with
  | .error fault => .error fault
  | .ok () =>
      if buffer.fitsBrace mark width then .ok buffer.collapse
      else .ok (buffer.writeBelow ['}'])

def joinFrom (mark : Mark) (width : Int) (buffer : Buffer) : Except Fault Buffer :=
  match buffer.validate mark with
  | .error fault => .error fault
  | .ok () =>
      let joined := buffer.lines.drop mark.line.toNat
      if Line.canJoin width joined then
        .ok (buffer.replaceTail mark.line { tokens := Line.joinTokens joined })
      else .ok buffer

theorem closeBrace_ok {buffer closed : Buffer} {mark : Mark} {width : Int}
    (done : buffer.closeBrace mark width = .ok closed) :
    closed = buffer.collapse ∨ closed = buffer.writeBelow ['}'] := by
  unfold closeBrace at done
  split at done
  · cases done
  · split at done
    · cases done
      exact .inl rfl
    · cases done
      exact .inr rfl

theorem joinFrom_ok {buffer joined : Buffer} {mark : Mark} {width : Int}
    (done : buffer.joinFrom mark width = .ok joined) :
    joined = buffer ∨
      buffer.cutIndex mark.line = mark.line.toNat ∧
        joined = buffer.replaceTail mark.line
          { tokens := Line.joinTokens (buffer.lines.drop mark.line.toNat) } := by
  unfold joinFrom at done
  split at done
  · cases done
  · rename_i valid
    dsimp only at done
    split at done
    · cases done
      exact .inr ⟨cutIndex_of_validate valid, rfl⟩
    · cases done
      exact .inl rfl

end Buffer

end CodeWriter
