import CodeWriter.Proofs.Buffer.Growth
import CodeWriter.Proofs.Buffer.Unbroken

namespace CodeWriter

namespace Buffer

/-- What was written after a mark begins on the marked line: a token stands there behind the mark,
or no line comes after it. -/
def goesOnAt (mark : Mark) (buffer : Buffer) : Bool :=
  buffer.size ≤ mark.line + 1 ||
    (buffer.line? mark.line).any fun line => mark.token < line.tokens.length

theorem text_congr {first second : Buffer} (above : first.above = second.above)
    (tokens : first.current.tokens = second.current.tokens) : first.text = second.text := by
  simp [text, lines, Line.text, above, tokens]

theorem map_text_lines {buffer : Buffer} (unbroken : buffer.Unbroken) :
    buffer.lines.map Line.text = buffer.text.physicalLines := by
  have newlineFree : ∀ text ∈ buffer.lines.map Line.text, '\n' ∉ text := by
    intro text member
    obtain ⟨line, among, rfl⟩ := List.mem_map.mp member
    exact (unbroken line among).text
  exact (Text.split_intercalate (by simp) newlineFree).symm

theorem text_of_lines {before after : Buffer} {line : Line} {later : List Line}
    {tail : List Token} (grown : after.lines = before.above ++ line :: later)
    (tokens : line.tokens = before.current.tokens ++ tail) :
    after.text =
      before.text ++ tail.flatMap Token.text ++ later.flatMap fun line => '\n' :: line.text := by
  have texts : after.lines.map Line.text =
      (before.addTokens tail).lines.map Line.text ++ later.map Line.text := by
    rw [grown]
    simp [lines, addTokens, Line.text, tokens]
  rw [text, texts, Text.intercalate_append ['\n'] (by simp), ← text, text_addTokens,
    List.flatMap_map]
  rfl

theorem collectedText_of_gap {buffer : Buffer} (lineBreak : buffer.lineBreak = ['\n'])
    (gap : buffer.gap = ['\n']) (tail : List Token) (later : List Line) :
    tail.flatMap Token.text ++ (later.flatMap fun line => '\n' :: line.text) =
      if later = [] ∨ tail ≠ [] then buffer.collectedText tail later
      else '\n' :: buffer.collectedText tail later := by
  cases later with
  | nil => simp [collectedText]
  | cons next more =>
      cases tail with
      | nil => simp [collectedText, lineBreak, Text.intercalate_cons, List.flatMap_map]
      | cons token rest =>
          simp [collectedText, lineBreak, gap, Text.intercalate_cons, List.flatMap_map]

theorem GrowsTo.text_takeBack {before after kept : Buffer} {text : Text}
    (grown : before.GrowsTo after) (lineBreak : after.lineBreak = ['\n'])
    (gap : after.gap = ['\n']) (taken : after.takeBack before.here = .ok (text, kept)) :
    after.text =
      before.text ++ if after.goesOnAt before.here = true then text else '\n' :: text := by
  have valid := grown.validate
  obtain ⟨line, later, lines, tail, tokens⟩ := grown
  have dropped : after.dropFrom (before.here.line + 1) =
      (later, { after with above := before.above, current := line }) := dropFrom_of_lines lines
  have behind : line.tokens.drop before.here.token.toNat = tail := by
    simp [here, ← tokens]
  have goesOn : after.goesOnAt before.here = true ↔ later = [] ∨ tail ≠ [] := by
    have found : after.line? before.here.line = some line := by simp [here, lines]
    have few : (after.size : Int) ≤ before.here.line + 1 ↔ later = [] := by
      rw [← length_lines, lines, List.length_append, List.length_cons, ← List.length_eq_zero_iff]
      simp only [here]
      omega
    rw [goesOnAt, found, Bool.or_eq_true, decide_eq_true_iff, few]
    simp [here, ← tokens, List.length_pos_iff]
  unfold Buffer.takeBack at taken
  rw [valid, dropped] at taken
  cases taken
  rw [text_of_lines lines tokens.symm, List.append_assoc, behind,
    collectedText_of_gap lineBreak gap]
  simp only [goesOn]

end Buffer

end CodeWriter
