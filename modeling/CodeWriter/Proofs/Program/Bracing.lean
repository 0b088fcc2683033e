import CodeWriter.Proofs.Program.Comments

namespace CodeWriter

namespace Buffer

theorem above_openBrace (buffer : Buffer) :
    buffer.openBrace.above = buffer.above ++ [buffer.braceLine] := rfl

theorem GrowsTo.lines_of_openBrace {before after : Buffer}
    (grown : before.openBrace.GrowsTo after) :
    ∃ first later, after.lines = before.above ++ before.braceLine :: first :: later := by
  obtain ⟨first, later, lines, _⟩ := grown
  refine ⟨first, later, ?_⟩
  rw [lines, above_openBrace, List.append_assoc]
  rfl

section Body

variable {before after : Buffer} {first : Line} {later : List Line}
  (lines : after.lines = before.above ++ before.braceLine :: first :: later)
include lines

theorem size_of_body : after.size = before.size + 1 + later.length := by
  rw [← length_lines, lines]
  simp only [size, List.length_append, List.length_cons]
  omega

theorem above_of_body (single : later = []) :
    after.above = before.above ++ [before.braceLine] ∧ after.current = first := by
  subst single
  have parts : after.above ++ [after.current] =
      (before.above ++ [before.braceLine]) ++ [first] := by
    rw [← Buffer.lines, lines, List.append_assoc]
    rfl
  obtain ⟨above, current⟩ := List.append_inj' parts rfl
  exact ⟨above, (List.cons.inj current).1⟩

theorem fitsBrace_iff (width : Int) :
    after.fitsBrace before.openBrace.here width = true ↔
      later = [] ∧ (before.braceLine.width + first.width : Int) < width := by
  have place : before.openBrace.here.line - 1 = (before.above.length : Nat) := by
    simp [here, above_openBrace]
  have opening : after.line? (before.openBrace.here.line - 1) = some before.braceLine := by
    rw [place, line?_natCast, lines, List.getElem?_append_right (Nat.le_refl _), Nat.sub_self]
    rfl
  have few : (after.size : Int) ≤ before.openBrace.here.line + 1 ↔ later = [] := by
    rw [size_of_body lines, ← List.length_eq_zero_iff]
    simp only [size] at place ⊢
    omega
  rw [fitsBrace, opening, Bool.and_eq_true, decide_eq_true_iff, few, decide_eq_true_iff]
  refine and_congr_right fun single => ?_
  rw [(above_of_body lines single).2]
  rfl

end Body

def bracedLine (before after : Buffer) : Line :=
  { before.braceLine with
    tokens := before.braceLine.tokens ++ (after.bodyTokens ++ [after.stamp [' ', '}']]) }

theorem length_bodyTokens_le (buffer : Buffer) :
    (buffer.bodyTokens.flatMap Token.text).length ≤ buffer.current.width + 1 := by
  unfold bodyTokens
  split
  · exact Nat.zero_le _
  · simp [stamp, Line.width, Line.text]

theorem width_bracedLine_le (before after : Buffer) :
    (before.bracedLine after).width ≤ before.braceLine.width + after.current.width + 3 := by
  have gathered := after.length_bodyTokens_le
  simp only [Line.width, Line.text, bracedLine, List.flatMap_append, List.flatMap_singleton,
    List.length_append] at gathered ⊢
  have closing : (after.stamp [' ', '}']).text.length = 2 := rfl
  omega

theorem GrowsTo.lines_closeBrace {before after : Buffer} (grown : before.openBrace.GrowsTo after)
    {first : Line} {later : List Line}
    (lines : after.lines = before.above ++ before.braceLine :: first :: later) (width : Int) :
    ∃ closed, after.closeBrace before.openBrace.here width = .ok closed ∧
      closed.lines =
        if later = [] ∧ (before.braceLine.width + first.width : Int) < width then
          before.above ++ [before.bracedLine after]
        else after.lines ++ [{ tokens := [after.stamp ['}']] }] := by
  refine ⟨_, grown.closeBrace_eq width, ?_⟩
  simp only [fitsBrace_iff lines]
  split
  · rename_i short
    exact lines_collapse (above_of_body lines short.1).1
  · exact lines_writeBelow_closing after

end Buffer

/-- Around any action that only appends, in any state and at any width, braces end without fault. If
the body is one line and, behind the opening brace, narrower than the width, the block is one line:
the old tokens and the brace, the body behind a space if it has any text, and the closing brace. The
line is wider than the width by two at most. If not, the body stays where it is and the closing
brace gets a line below it. -/
theorem Session.block_is_one_line_if_it_fits {body : Program} (appends : body.Appends)
    (session : Session) (width : Option Int) :
    let before := session.buffer
    let limit := width.getD session.writer.options.width
    let brace := Block.brace width
    ∃ after final first later,
      body.run (brace.enter session) = (.ok (), after) ∧
      brace.around body.run session = (.ok .nothing, final) ∧
      after.buffer.lines = before.above ++ before.braceLine :: first :: later ∧
      before.braceLine.tokens = before.current.tokens ++ [before.stamp ['{']] ∧
      final.buffer.lines.getLast? = some final.buffer.current ∧
      if later = [] ∧ before.braceLine.width + first.width < limit then
        ∃ line : Line, final.buffer.lines = before.above ++ [line] ∧
          final.buffer.size = before.size ∧
          line.tokens = before.braceLine.tokens ++
            ((if first.text = [] then [] else after.buffer.stamp [' '] :: first.tokens) ++
              [after.buffer.stamp [' ', '}']]) ∧
          line.width ≤ limit + 2
      else
        final.buffer.lines = before.above ++ before.braceLine :: first :: later ++
          [{ tokens := [after.buffer.stamp ['}']] }] := by
  intro before limit brace
  obtain ⟨after, completed, grown⟩ := Program.run_of_appends appends (brace.enter session)
  rw [Block.buffer_enter_brace] at grown
  obtain ⟨first, later, lines⟩ := grown.lines_of_openBrace
  have options : after.writer.options = session.writer.options :=
    (Session.kept_options _ _ _).action trivial body.all_true completed rfl
  have sameLimit : width.getD after.writer.options.width = limit := by rw [options]
  obtain ⟨closed, done, result⟩ := grown.lines_closeBrace lines limit
  refine ⟨after, after.withBuffer closed, first, later, completed, ?_, lines, rfl, ?_, ?_⟩
  · apply Block.around_brace completed
    rw [sameLimit]
    exact done
  · simp [Buffer.lines]
  rw [Session.buffer_withBuffer]
  split
  · rename_i short
    rw [if_pos short] at result
    have current : after.buffer.current = first := (Buffer.above_of_body lines short.1).2
    have body : after.buffer.bodyTokens =
        if first.text = [] then [] else after.buffer.stamp [' '] :: first.tokens := by
      simp only [Buffer.bodyTokens, current, Line.isBlank_iff]
    have bound := before.width_bracedLine_le after.buffer
    rw [current] at bound
    refine ⟨before.bracedLine after.buffer, result, ?_, ?_, ?_⟩
    · rw [← Buffer.length_lines, result, List.length_append]
      rfl
    · rw [← body]
      rfl
    · omega
  · rename_i long
    rw [if_neg long] at result
    rw [result, lines]

/-- Behind a condition, a body with a source of its own, a block in it and a call that was
collected. The line that it fits on is wider than the width by two; one column less, and it stays
apart. -/
theorem Session.block_is_one_line_if_it_fits_with_inner_block :
    let origin : Origin := ⟨⟨0, "a".toList, "x".toList⟩, ⟨0, 1, by decide⟩⟩
    let write (text : String) := Operation.write .writer .inline (.literal text.toList)
    let session := ((write "a;\nif (x) ").run (.start .standard {})).2
    let call := "call".toList
    let inner : Program := .block (.collect .writer (some call)) (.step (write "g()") .done)
      (.step (.write .writer .inline (.saved call)) .done)
    let body : Program := .block (.attribute (some origin)) (.step (write "f(); ") .done)
      (.block (.brace none) inner .done)
    let oneLine := "if (x) \x7b f(); \x7b g() \x7d \x7d".toList
    body.Appends ∧ oneLine.length = 21 + 2 ∧
      (∃ final, (Block.brace (some 21)).around body.run session = (.ok .nothing, final) ∧
        final.buffer.lines.map Line.text = ["a;".toList, oneLine] ∧
        final.buffer.current.tokens[3]? = some ⟨"f(); ".toList, some origin⟩) ∧
      ∃ final, (Block.brace (some 20)).around body.run session = (.ok .nothing, final) ∧
        final.buffer.lines.map Line.text =
          ["a;".toList, "if (x) \x7b".toList, "f(); \x7b g() \x7d".toList, "\x7d".toList] := by
  intro origin write session call inner body oneLine
  have appends : body.Appends := by
    simp [body, inner, write, Program.Appends, Program.All, Operation.Appends]
  obtain ⟨_, final, _, _, _, around, _⟩ :=
    Session.block_is_one_line_if_it_fits appends session (some 21)
  obtain ⟨_, apart, _, _, _, aroundApart, _⟩ :=
    Session.block_is_one_line_if_it_fits appends session (some 20)
  have sameFinal : final = ((Block.brace (some 21)).around body.run session).2 := by rw [around]
  have sameApart : apart = ((Block.brace (some 20)).around body.run session).2 := by
    rw [aroundApart]
  refine ⟨appends, by decide, ⟨final, around, ?_, ?_⟩, apart, aroundApart, ?_⟩
  · rw [sameFinal]
    decide +kernel
  · rw [sameFinal]
    decide +kernel
  · rw [sameApart]
    decide +kernel

end CodeWriter
