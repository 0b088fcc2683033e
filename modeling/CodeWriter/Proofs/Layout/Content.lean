import CodeWriter.Writer

namespace CodeWriter

namespace Layout

section Reading

variable {α : Type} {read : Line → List α}

theorem flatMap_indentFrom (ofTokens : ∀ line indent, read { line with indent } = read line)
    (unit indent : Int) (lines : List Line) :
    (indentFrom unit indent lines).flatMap read = lines.flatMap read := by
  induction lines generalizing indent with
  | nil => rfl
  | cons line rest ih =>
      rw [indentFrom_cons, List.flatMap_cons, List.flatMap_cons, ih, Line.placedAt, ofTokens]

theorem flatMap_spaced (ofBlank : ∀ line, line.isBlank = true → read line = []) (unit : Int)
    (line : Line) (rest : List Line) :
    (spaced unit line rest).flatMap read = read line ++ rest.flatMap read := by
  have spacer : ∀ line : Line, read (line.spacerAfter unit) = [] := fun line => ofBlank _ rfl
  unfold spaced
  split
  · split
    · rename_i blank
      simp [ofBlank line blank]
    · split
      · simp [spacer]
      · split
        · simp [spacer]
        · split <;> simp [spacer]
  · simp

theorem flatMap_space (ofTokens : ∀ line indent, read { line with indent } = read line)
    (ofBlank : ∀ line, line.isBlank = true → read line = []) (unit : Int) (lines : List Line) :
    (space unit lines).flatMap read = lines.flatMap read := by
  rw [← flatMap_indentFrom ofTokens unit 0 lines]
  unfold space indent
  induction indentFrom unit 0 lines with
  | nil => rfl
  | cons line rest ih => rw [List.foldr_cons, flatMap_spaced ofBlank, ih, List.flatMap_cons]

theorem flatMap_arrange (ofTokens : ∀ line indent, read { line with indent } = read line)
    (ofBlank : ∀ line, line.isBlank = true → read line = []) (options : Options)
    (lines : List Line) : (arrange options lines).flatMap read = lines.flatMap read := by
  unfold arrange
  split
  · exact flatMap_space ofTokens ofBlank _ lines
  · rfl

end Reading

theorem space_ne_nil (unit : Int) {lines : List Line} (nonempty : lines ≠ []) :
    space unit lines ≠ [] := by
  obtain ⟨line, rest, rfl⟩ := List.exists_cons_of_ne_nil nonempty
  exact spaced_ne_nil _ _ _

theorem arrange_ne_nil (options : Options) {lines : List Line} (nonempty : lines ≠ []) :
    arrange options lines ≠ [] := by
  unfold arrange
  split
  · exact space_ne_nil _ nonempty
  · exact nonempty

end Layout

namespace Writer

theorem lines_settle {writer : Writer} (unsettled : writer.settled = false) :
    writer.settle.buffer.lines = Layout.arrange writer.options writer.buffer.lines := by
  simp [settle, unsettled,
    Buffer.lines_withLines (Layout.arrange_ne_nil writer.options writer.buffer.lines_ne_nil)]

theorem flatMap_lines_settle {α : Type} {read : Line → List α}
    (ofTokens : ∀ line indent, read { line with indent } = read line)
    (ofBlank : ∀ line, line.isBlank = true → read line = []) (writer : Writer) :
    writer.settle.buffer.lines.flatMap read = writer.buffer.lines.flatMap read := by
  cases settled : writer.settled with
  | true => rw [settle_of_settled settled]
  | false => rw [lines_settle settled, Layout.flatMap_arrange ofTokens ofBlank]

end Writer

end CodeWriter
