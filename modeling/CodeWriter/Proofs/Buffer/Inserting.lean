import CodeWriter.Proofs.Buffer.Collecting
import CodeWriter.Proofs.Buffer.Hoisting

namespace CodeWriter

namespace Buffer

theorem GrowsTo.prefix_text {before after : Buffer} (grown : before.GrowsTo after) :
    before.text <+: after.text := by
  obtain ⟨line, later, lines, tail, tokens⟩ := grown
  rw [text_of_lines lines tokens.symm, List.append_assoc]
  exact List.prefix_append _ _

theorem exists_insert_error_iff {buffer : Buffer} {mark : Mark} {text : Text} :
    (∃ fault, buffer.insert mark text = .error fault) ↔
      ¬(0 ≤ mark.line ∧ mark.line < buffer.size) ∨
        (∃ line, buffer.line? mark.line = some line ∧
          ¬(0 ≤ mark.token ∧ mark.token ≤ line.tokens.length)) ∨
        0 < mark.token ∧ '\n' ∈ text := by
  constructor
  · rintro ⟨fault, failed⟩
    rcases insert_error_iff.mp failed with bad | ⟨good, inside, broken, _⟩
    · rcases validate_error_iff.mp bad with ⟨absent, _⟩ | ⟨line, found, outside, _⟩
      · exact .inl (line?_eq_none_iff.mp absent)
      · exact .inr (.inl ⟨line, found, outside⟩)
    · obtain ⟨_, _, natural, _⟩ := validate_iff.mp good
      exact .inr (.inr ⟨by omega, broken⟩)
  · intro reasons
    cases good : buffer.validate mark with
    | error fault => exact ⟨fault, insert_error_iff.mpr (.inl good)⟩
    | ok _ =>
        obtain ⟨line, found, within⟩ := validate_iff.mp good
        rcases reasons with outside | ⟨other, sameFound, outside⟩ | ⟨inside, broken⟩
        · rw [line?_eq_none_iff.mpr outside] at found
          cases found
        · cases found.symm.trans sameFound
          exact absurd within outside
        · exact ⟨_, insert_error_iff.mpr (.inr ⟨good, by omega, broken, rfl⟩)⟩

section Growing

variable {before after : Buffer} {written : Text} (grown : before.GrowsTo after)
  (whole : after.text = before.text ++ written)
include grown whole

theorem GrowsTo.exists_written :
    ∃ line later tail, after.lines = before.above ++ line :: later ∧
      line.tokens = before.current.tokens ++ tail ∧
      written = tail.flatMap Token.text ++ later.flatMap fun line => '\n' :: line.text := by
  obtain ⟨line, later, lines, tail, tokens⟩ := grown
  refine ⟨line, later, tail, lines, tokens.symm, ?_⟩
  have parts := text_of_lines lines tokens.symm
  rwa [whole, List.append_assoc, List.append_cancel_left_eq] at parts

theorem GrowsTo.insert_inside (inside : before.here.token ≠ 0) {text : Text}
    (flat : '\n' ∉ text) :
    ∃ changed, after.insert before.here text = .ok changed ∧
      changed.text = before.text ++ text ++ written ∧ changed.size = after.size := by
  obtain ⟨line, later, tail, lines, tokens, parts⟩ := grown.exists_written whole
  have newLines := lines_insertToken lines before.current.tokens.length (after.stamp text)
  have newTokens : line.tokens.insertIdx before.current.tokens.length (after.stamp text) =
      before.current.tokens ++ (after.stamp text :: tail) := by
    rw [tokens]
    exact List.modifyTailIdx_add _ 0 _ _
  refine ⟨after.insertToken before.above.length before.current.tokens.length (after.stamp text),
    ?_, ?_, ?_⟩
  · exact insert_ok_iff.mpr ⟨grown.validate, .inr ⟨inside, flat, rfl⟩⟩
  · rw [text_of_lines newLines newTokens, parts, List.flatMap_cons]
    simp [stamp]
  · rw [← length_lines, ← length_lines, newLines, lines, List.length_append, List.length_append]
    rfl

theorem GrowsTo.insert_at_start (start : before.here.token = 0) (text : Text) :
    ∃ changed, after.insert before.here text = .ok changed ∧
      changed.text = before.text ++ text.withoutFinalBreak ++ '\n' :: written ∧
      changed.current = after.current := by
  obtain ⟨line, later, tail, lines, tokens, parts⟩ := grown.exists_written whole
  have nothing : before.current.tokens = [] := by simpa [here] using start
  generalize shown : text.withoutFinalBreak = body
  let row (part : Text) : Line := { tokens := [after.stamp part] }
  have newLines := lines_insertLines lines (body.physicalLines.map row)
  have split : before.above ++ body.physicalLines.map row ++ line :: later =
      before.above ++ row (body.cut '\n').1 ::
        ((body.cut '\n').2.map row ++ line :: later) := by
    rw [List.append_assoc]
    rfl
  refine ⟨after.insertLines before.above.length (body.physicalLines.map row), ?_, ?_, rfl⟩
  · rw [insert_ok_iff, shown]
    exact ⟨grown.validate, .inl ⟨start, rfl⟩⟩
  · have first : (row (body.cut '\n').1).tokens =
        before.current.tokens ++ [after.stamp (body.cut '\n').1] := by
      rw [nothing]
      rfl
    have lineText : line.text = tail.flatMap Token.text := by
      rw [Line.text, tokens, nothing, List.nil_append]
    calc
      (after.insertLines before.above.length (body.physicalLines.map row)).text =
          before.text ++ ((body.cut '\n').1 ++ (body.cut '\n').2.flatMap ('\n' :: ·)) ++
            '\n' :: (line.text ++ later.flatMap fun line => '\n' :: line.text) := by
        rw [text_of_lines (newLines.trans split) first]
        simp [stamp, row, Line.text, List.flatMap_map]
      _ = before.text ++ body ++ '\n' :: written := by
        rw [Text.cut_flatMap, lineText, parts]

end Growing

end Buffer

end CodeWriter
