import CodeWriter.Buffer.Basic

namespace CodeWriter

namespace Buffer

def here (buffer : Buffer) : Mark where
  line := buffer.above.length
  token := buffer.current.tokens.length

def line? (index : Int) (buffer : Buffer) : Option Line :=
  if index < 0 then none else buffer.lines[index.toNat]?

/-- A mark is good while its line is there and has at least as many tokens. -/
def validate (mark : Mark) (buffer : Buffer) : Except Fault Unit :=
  match buffer.line? mark.line with
  | none => .error (.markOutsideBuffer mark buffer.size)
  | some line =>
      if 0 ≤ mark.token ∧ mark.token ≤ line.tokens.length then .ok ()
      else .error (.markOutsideLine mark)

def insertLines (index : Nat) (inserted : List Line) (buffer : Buffer) : Buffer :=
  { buffer with above := buffer.above.take index ++ inserted ++ buffer.above.drop index }

def insertToken (line index : Nat) (token : Token) (buffer : Buffer) : Buffer :=
  buffer.withLines (buffer.lines.modify line fun marked =>
    { marked with tokens := marked.tokens.insertIdx index token })

/-- At the start of a line the text becomes lines of its own before it; further in, a token. -/
def insert (mark : Mark) (text : Text) (buffer : Buffer) : Except Fault Buffer :=
  match buffer.validate mark with
  | .error fault => .error fault
  | .ok () =>
      if mark.token = 0 then
        .ok (buffer.insertLines mark.line.toNat
          (text.withoutFinalBreak.physicalLines.map fun part =>
            { tokens := [buffer.stamp part] }))
      else if '\n' ∈ text then .error .lineBreakInsideLine
      else .ok (buffer.insertToken mark.line.toNat mark.token.toNat (buffer.stamp text))

/-- An index of any sign as a cut of the lines; negative ones count from the end. -/
def cutIndex (index : Int) (buffer : Buffer) : Nat :=
  if index < 0 then (buffer.size + index).toNat else index.toNat

def dropFrom (index : Int) (buffer : Buffer) : List Line × Buffer :=
  (buffer.lines.drop (buffer.cutIndex index),
    buffer.withLines (buffer.lines.take (buffer.cutIndex index)))

def replaceTail (index : Int) (line : Line) (buffer : Buffer) : Buffer :=
  { buffer with above := buffer.lines.take (buffer.cutIndex index), current := line }

/-- The text of the tokens that stood on the marked line, and of the lines after it. -/
def collectedText (buffer : Buffer) (tail : List Token) (later : List Line) : Text :=
  let rest := buffer.lineBreak.intercalate (later.map Line.text)
  if later.isEmpty then tail.flatMap Token.text
  else if tail.isEmpty then rest
  else tail.flatMap Token.text ++ buffer.gap ++ rest

def takeBack (mark : Mark) (buffer : Buffer) : Except Fault (Text × Buffer) :=
  match buffer.validate mark with
  | .error fault => .error fault
  | .ok () =>
      let (later, kept) := buffer.dropFrom (mark.line + 1)
      let tail := kept.current.tokens.drop mark.token.toNat
      let tokens := kept.current.tokens.take mark.token.toNat
      .ok (buffer.collectedText tail later,
        { kept with current := { kept.current with tokens } })

@[simp] theorem line?_natCast (index : Nat) (buffer : Buffer) :
    buffer.line? index = buffer.lines[index]? := by
  have natural : ¬((index : Int) < 0) := by omega
  simp [line?, natural]

theorem line?_eq_some_iff {index : Int} {line : Line} {buffer : Buffer} :
    buffer.line? index = some line ↔ 0 ≤ index ∧ buffer.lines[index.toNat]? = some line := by
  unfold line?
  split
  · rename_i negative
    simp [Int.not_le.mpr negative]
  · rename_i natural
    simp [Int.not_lt.mp natural]

theorem line?_eq_none_iff {index : Int} {buffer : Buffer} :
    buffer.line? index = none ↔ ¬(0 ≤ index ∧ index < buffer.size) := by
  unfold line?
  split
  · rename_i negative
    simp [Int.not_le.mpr negative]
  · rename_i natural
    rw [List.getElem?_eq_none_iff, length_lines]
    omega

theorem validate_iff {buffer : Buffer} {mark : Mark} :
    buffer.validate mark = .ok () ↔
      ∃ line, buffer.line? mark.line = some line ∧ 0 ≤ mark.token ∧
        mark.token ≤ line.tokens.length := by
  unfold validate
  cases buffer.line? mark.line with
  | none => simp
  | some line => simp

theorem validate_error_iff {buffer : Buffer} {mark : Mark} {fault : Fault} :
    buffer.validate mark = .error fault ↔
      (buffer.line? mark.line = none ∧ fault = .markOutsideBuffer mark buffer.size) ∨
        ∃ line, buffer.line? mark.line = some line ∧
          ¬(0 ≤ mark.token ∧ mark.token ≤ line.tokens.length) ∧ fault = .markOutsideLine mark := by
  unfold validate
  cases buffer.line? mark.line with
  | none => simp [eq_comm]
  | some line =>
      simp only [reduceCtorEq, false_and, false_or, Option.some.injEq, exists_eq_left']
      split
      · rename_i within
        simp only [reduceCtorEq, within, and_self, not_true_eq_false, false_and]
      · rename_i outside
        rw [Except.error.injEq, and_iff_right outside, eq_comm]

theorem validate_here (buffer : Buffer) : buffer.validate buffer.here = .ok () := by
  refine validate_iff.mpr ⟨buffer.current, ?_⟩
  simp [here, lines]

theorem insert_ok_iff {buffer changed : Buffer} {mark : Mark} {text : Text} :
    buffer.insert mark text = .ok changed ↔
      buffer.validate mark = .ok () ∧
        (mark.token = 0 ∧ changed = buffer.insertLines mark.line.toNat
            (text.withoutFinalBreak.physicalLines.map fun part =>
              { tokens := [buffer.stamp part] }) ∨
          mark.token ≠ 0 ∧ '\n' ∉ text ∧ changed =
            buffer.insertToken mark.line.toNat mark.token.toNat (buffer.stamp text)) := by
  unfold insert
  cases buffer.validate mark with
  | error other => simp
  | ok _ =>
      dsimp only
      split
      · rename_i atStart
        simp [atStart, eq_comm]
      · rename_i inside
        split
        · rename_i broken
          simp [inside, broken]
        · rename_i flat
          simp [inside, flat, eq_comm]

theorem insert_error_iff {buffer : Buffer} {mark : Mark} {text : Text} {fault : Fault} :
    buffer.insert mark text = .error fault ↔
      buffer.validate mark = .error fault ∨
        buffer.validate mark = .ok () ∧ mark.token ≠ 0 ∧ '\n' ∈ text ∧
          fault = .lineBreakInsideLine := by
  unfold insert
  cases buffer.validate mark with
  | error other => simp
  | ok _ =>
      dsimp only
      split
      · rename_i atStart
        simp [atStart]
      · rename_i inside
        split
        · rename_i broken
          simp [inside, broken, eq_comm]
        · rename_i flat
          simp [flat]

theorem cutIndex_of_validate {buffer : Buffer} {mark : Mark}
    (valid : buffer.validate mark = .ok ()) : buffer.cutIndex mark.line = mark.line.toNat := by
  obtain ⟨line, found, _⟩ := validate_iff.mp valid
  have natural := (line?_eq_some_iff.mp found).1
  rw [cutIndex, if_neg (Int.not_lt.mpr natural)]

end Buffer

end CodeWriter
