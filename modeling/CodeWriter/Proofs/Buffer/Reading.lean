import CodeWriter.Buffer.Joining

/-! Readings find nothing in empty tokens and spaces, so joining lines adds nothing to them. -/

namespace CodeWriter

def Token.pieces (token : Token) : List Token :=
  token.text.physicalLines.map fun text => { token with text }

theorem Token.pieces_of_not_mem {token : Token} (unbroken : '\n' ∉ token.text) :
    token.pieces = [token] := by
  simp [pieces, Text.physicalLines, Text.split_of_not_mem unbroken]

structure Token.IsReading {α : Type} (read : Token → List α) : Prop where
  empty : ∀ origin, read ⟨[], origin⟩ = []
  space : ∀ origin, read ⟨[' '], origin⟩ = []
  closing : ∀ origin, read ⟨[' ', '}'], origin⟩ = read ⟨['}'], origin⟩

def Line.reading {α : Type} (read : Token → List α) (line : Line) : List α :=
  line.tokens.flatMap read

def Buffer.reading {α : Type} (read : Token → List α) (buffer : Buffer) : List α :=
  buffer.lines.flatMap (Line.reading read)

variable {α : Type} {read : Token → List α}

namespace Line

@[simp] theorem reading_blank : Line.blank.reading read = [] := rfl

theorem reading_of_isBlank (reads : Token.IsReading read) {line : Line}
    (blank : line.isBlank = true) : line.reading read = [] := by
  rw [reading, List.flatMap_eq_nil_iff]
  rintro ⟨text, origin⟩ member
  obtain rfl : text = [] := List.isEmpty_iff.mp (List.all_eq_true.mp blank _ member)
  exact reads.empty origin

theorem flatMap_joinRest (reads : Token.IsReading read) : (lines : List Line) →
    (joinRest lines).flatMap read = lines.flatMap (reading read)
  | [] => rfl
  | [last] => by simp [joinRest, reading]
  | line :: second :: rest => by
      have later := flatMap_joinRest reads (second :: rest)
      have space : read spaceToken = [] := reads.space none
      simp only [joinRest, List.cons_append, List.flatMap_cons, List.flatMap_append, later, space,
        List.nil_append]
      rfl

theorem flatMap_joinTokens (reads : Token.IsReading read) (lines : List Line) :
    (joinTokens lines).flatMap read = lines.flatMap (reading read) := by
  unfold joinTokens
  split
  · simp [flatMap_joinRest reads, reading]
  · rw [List.flatMap_assoc]
    rfl

end Line

namespace Buffer

theorem reading_eq (buffer : Buffer) :
    buffer.reading read =
      buffer.above.flatMap (Line.reading read) ++ buffer.current.reading read := by
  simp [reading, lines]

theorem reading_withLines (lines : List Line) (buffer : Buffer) :
    (buffer.withLines lines).reading read = lines.flatMap (Line.reading read) := by
  by_cases nonempty : lines = []
  · subst nonempty
    rfl
  · rw [reading, lines_withLines nonempty]

@[simp] theorem reading_push (line : Line) (buffer : Buffer) :
    (buffer.push line).reading read = buffer.reading read ++ line.reading read := by
  simp [reading]

@[simp] theorem reading_breakLine (buffer : Buffer) :
    buffer.breakLine.reading read = buffer.reading read := by
  simp [breakLine]

@[simp] theorem reading_addTokens (tokens : List Token) (buffer : Buffer) :
    (buffer.addTokens tokens).reading read = buffer.reading read ++ tokens.flatMap read := by
  simp [reading_eq, addTokens, Line.reading]

theorem reading_pushTexts (reads : Token.IsReading read) (texts : List Text) (buffer : Buffer) :
    (pushTexts texts buffer).reading read =
      buffer.reading read ++ texts.flatMap fun text => read (buffer.stamp text) := by
  fun_induction pushTexts texts buffer with
  | case1 => simp
  | case2 buffer => simp [stamp, reads.empty]
  | case3 text rest buffer _ ih =>
      rw [ih, reading_push]
      simp [Line.reading]

theorem reading_write (reads : Token.IsReading read) (text : Text) (buffer : Buffer) :
    (buffer.write text).reading read =
      buffer.reading read ++ (buffer.stamp text).pieces.flatMap read := by
  rw [write, reading_pushTexts reads, reading_addTokens]
  simp [Token.pieces, Text.physicalLines, Text.split, stamp, List.flatMap_map]

theorem reading_writeLine (reads : Token.IsReading read) (text : Text) (buffer : Buffer) :
    (buffer.writeLine text).reading read =
      buffer.reading read ++ (buffer.stamp text).pieces.flatMap read := by
  rw [writeLine, reading_breakLine, reading_write reads]

theorem reading_writeBelow (reads : Token.IsReading read) (text : Text) (buffer : Buffer) :
    (buffer.writeBelow text).reading read =
      buffer.reading read ++ (buffer.stamp text).pieces.flatMap read := by
  rw [writeBelow, reading_write reads, reading_breakLine]
  rfl

theorem reading_collapse (reads : Token.IsReading read) (buffer : Buffer) :
    buffer.collapse.reading read = buffer.reading read ++ read (buffer.stamp ['}']) := by
  have opening : (buffer.withLines buffer.above).reading read =
      buffer.above.flatMap (Line.reading read) := reading_withLines _ _
  have closing : ((buffer.withLines buffer.above).stamp [' ', '}']).pieces.flatMap read =
      read (buffer.stamp ['}']) := by
    rw [Token.pieces_of_not_mem (by simp [stamp]), List.flatMap_singleton]
    exact reads.closing buffer.origin
  have gap : ((buffer.withLines buffer.above).stamp [' ']).pieces.flatMap read = [] := by
    rw [Token.pieces_of_not_mem (by simp [stamp]), List.flatMap_singleton]
    exact reads.space buffer.origin
  unfold collapse
  dsimp only
  split
  · rename_i blank
    rw [reading_write reads, closing, opening, reading_eq, Line.reading_of_isBlank reads blank,
      List.append_nil]
  · rw [reading_write reads, reading_addTokens, reading_write reads, opening, gap, reading_eq,
      List.append_nil]
    exact congrArg _ closing

theorem reading_closeBrace (reads : Token.IsReading read) {buffer closed : Buffer} {mark : Mark}
    {width : Int} (done : buffer.closeBrace mark width = .ok closed) :
    closed.reading read = buffer.reading read ++ read (buffer.stamp ['}']) := by
  rcases closeBrace_ok done with rfl | rfl
  · exact reading_collapse reads buffer
  · rw [reading_writeBelow reads, Token.pieces_of_not_mem (by simp [stamp]),
      List.flatMap_singleton]

theorem reading_joinFrom (reads : Token.IsReading read) {buffer joined : Buffer} {mark : Mark}
    {width : Int} (done : buffer.joinFrom mark width = .ok joined) :
    joined.reading read = buffer.reading read := by
  rcases joinFrom_ok done with rfl | ⟨cut, rfl⟩
  · rfl
  · have parts := congrArg (List.flatMap (Line.reading read))
      (List.take_append_drop mark.line.toNat buffer.lines)
    rw [List.flatMap_append] at parts
    rw [reading, reading, ← parts, replaceTail, lines, List.flatMap_append, cut]
    simp [Line.reading, Line.flatMap_joinTokens reads]

end Buffer

end CodeWriter
