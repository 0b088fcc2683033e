import CodeWriter.Proofs.Buffer.Nesting
import CodeWriter.Proofs.Program.Emitting

/-! Programs that write no bracket: all brackets of their lines are the braces of their blocks. -/

namespace CodeWriter

def Operation.BracketFree (statementEnd : Text) : Operation → Prop
  | .write _ _ (.literal text) => text.BracketFree
  | .endStatement => statementEnd.BracketFree
  | .setOrigin _ => True
  | _ => False

/-- Texts without brackets, and blocks in braces, on joined lines or under a source. -/
def Program.BracketFree (statementEnd : Text) (program : Program) : Prop :=
  program.All (Operation.BracketFree statementEnd) Block.Emits

theorem Operation.BracketFree.emits {statementEnd : Text} {operation : Operation}
    (bracketFree : operation.BracketFree statementEnd) : operation.Emits := by
  match operation, bracketFree with
  | .write route how (.literal text), _ => trivial
  | .endStatement, _ => trivial
  | .setOrigin origin, _ => trivial

theorem Program.BracketFree.emits {statementEnd : Text} {program : Program}
    (bracketFree : program.BracketFree statementEnd) : program.Emits :=
  All.mono (fun _ => Operation.BracketFree.emits) (fun _ => id) bracketFree

theorem Buffer.NestsTo.withOrigin {before after : Buffer} (nests : before.NestsTo after)
    (origin : Option Origin) : before.NestsTo { after with origin } :=
  nests

theorem Operation.nestsTo_run {statementEnd : Text} {operation : Operation}
    (bracketFree : operation.BracketFree statementEnd) {session : Session}
    (ends : session.writer.options.statementEnd = statementEnd)
    (level : session.buffer.current.openings = 0) :
    session.buffer.NestsTo (operation.run session).2.buffer := by
  match operation, bracketFree with
  | .write route how (.literal text), bracketFree =>
      rw [buffer_run_write]
      cases how with
      | inline => exact Buffer.nestsTo_write level bracketFree
      | lineAfter => exact Buffer.nestsTo_writeLine level bracketFree
      | lineBefore => exact Buffer.nestsTo_writeBelow level bracketFree
  | .endStatement, bracketFree =>
      rw [← ends] at bracketFree
      exact Buffer.nestsTo_write level bracketFree
  | .setOrigin origin, _ => exact (Buffer.NestsTo.refl level).withOrigin origin

namespace Block

theorem level_enter {block : Block} (emits : block.Emits) {session : Session}
    (level : session.buffer.current.openings = 0) :
    (block.enter session).buffer.current.openings = 0 := by
  match block, emits with
  | .brace width, _ =>
      rw [buffer_enter_brace]
      rfl
  | .join width, _ =>
      rw [buffer_enter_join]
      exact level
  | .attribute origin, _ => exact level

theorem nestsTo_conclude {block : Block} (emits : block.Emits) {before after final : Session}
    {reply : Reply} (grown : (block.enter before).buffer.GrowsTo after.buffer)
    (inside : (block.enter before).buffer.NestsTo after.buffer)
    (left : block.conclude (block.enter before).buffer.here (block.restore before after) =
      (.ok reply, final)) :
    before.buffer.NestsTo final.buffer := by
  match block, emits with
  | .brace width, _ =>
      rw [buffer_enter_brace] at grown inside left
      obtain ⟨closed, done, rfl⟩ := Session.change_ok left
      exact Buffer.NestsTo.closeBrace grown inside done
  | .join width, _ =>
      rw [buffer_enter_join] at grown inside left
      obtain ⟨joined, done, rfl⟩ := Session.change_ok left
      exact Buffer.NestsTo.joinFrom grown inside done
  | .attribute origin, _ =>
      cases left
      exact inside.withOrigin _

end Block

theorem Program.nestsTo_run {statementEnd : Text} {program : Program}
    (bracketFree : program.BracketFree statementEnd) {session final : Session}
    (ends : session.writer.options.statementEnd = statementEnd)
    (level : session.buffer.current.openings = 0)
    (completed : program.run session = (.ok (), final)) :
    session.buffer.NestsTo final.buffer := by
  induction program generalizing session final with
  | done =>
      cases completed
      exact .refl level
  | step operation rest ih =>
      have stepped := Operation.nestsTo_run bracketFree.1 ends level
      have sameOptions := operation.options_run session
      unfold run at completed
      split at completed
      · rename_i reply after ran
        rw [ran] at stepped sameOptions
        have later := ih bracketFree.2 (by rw [sameOptions, ends]) stepped.level completed
        exact stepped.trans later
      · cases completed
  | block kind body rest ihBody ihRest =>
      have sameOptions := kind.options_around body session
      unfold run at completed
      split at completed
      · rename_i reply after left
        rw [left] at sameOptions
        obtain ⟨inside, acted, concluded⟩ := kind.around_ok bracketFree.1 left
        obtain ⟨_, again, grown⟩ :=
          Program.run_of_appends (Emits.appends (BracketFree.emits bracketFree.2.1)) (kind.enter session)
        rw [acted] at again
        cases again
        have entered := ihBody bracketFree.2.1 (by rw [kind.options_enter, ends])
          (Block.level_enter bracketFree.1 level) acted
        have whole := Block.nestsTo_conclude bracketFree.1 grown entered concluded
        have later := ihRest bracketFree.2.2 (by rw [sameOptions, ends]) whole.level completed
        exact whole.trans later
      · cases completed

/-- A program that writes no bracket, in braces and on joined lines of any width, ends with lines of
which the indents come back to the margin, and none is negative. -/
theorem Program.indent_returns_to_margin {options : Options} (disk : Disk) {program : Program}
    (bracketFree : program.BracketFree options.statementEnd) :
    ∃ final, program.run (.start options disk) = (.ok (), final) ∧
      ∀ unit : Int, 0 ≤ unit →
        Layout.closingIndent unit final.buffer.lines = 0 ∧
          ∀ line ∈ Layout.indent unit final.buffer.lines, 0 ≤ line.indent := by
  obtain ⟨final, completed, _⟩ :=
    Program.run_of_appends (Emits.appends (BracketFree.emits bracketFree)) (.start options disk)
  obtain ⟨line, later, lines, begins, nested⟩ := Program.nestsTo_run bracketFree rfl rfl completed
  have starts : line.closings = 0 := begins
  have whole : Layout.Nests 0 final.buffer.lines 0 := by
    rw [lines]
    show Layout.Nests 0 (line :: later) 0
    rw [Layout.nests_cons, starts, Nat.sub_zero, Nat.zero_add]
    exact ⟨Nat.le_refl 0, nested⟩
  refine ⟨final, completed, fun unit natural => ⟨?_, ?_⟩⟩
  · simpa [Layout.closingIndent] using whole.closingIndentFrom unit
  · simpa [Layout.indent] using whole.indent_nonneg natural

/-- Text goes on behind a closing brace, and a block inside is put on one line after a blank one. -/
theorem Program.indent_returns_to_margin_after_else :
    let write (text : String) := Operation.write .writer .inline (.literal text.toList)
    let joined : Program :=
      .step (write "\n") (.block (.brace (some 0)) (.step (write "h;") .done) .done)
    let body : Program :=
      .step (write "f") (.step .endStatement (.block (.join none) joined .done))
    let program : Program :=
      .step (write "if x ")
        (.block (.brace none) body
          (.step (write " else ")
            (.block (.attribute none)
              (.block (.brace (some 0)) (.step (write "g;") .done) .done) .done)))
    program.BracketFree Options.standard.statementEnd ∧
      ∃ final, program.run (.start .standard {}) = (.ok (), final) ∧
        final.buffer.lines.map Line.text =
          ["if x \x7b".toList, "f;".toList, "\x7b h;\x7d".toList, "\x7d else \x7b".toList,
            "g;".toList, "\x7d".toList] ∧
        Layout.closingIndent 3 final.buffer.lines = 0 ∧
        ∀ line ∈ Layout.indent 3 final.buffer.lines, 0 ≤ line.indent := by
  intro write joined body program
  have bracketFree : program.BracketFree Options.standard.statementEnd := by
    simp [program, body, joined, write, Program.BracketFree, Program.All, Operation.BracketFree,
      Block.Emits, Text.BracketFree, Options.standard, isOpeningBracket, isClosingBracket]
  obtain ⟨final, completed, balanced⟩ := Program.indent_returns_to_margin {} bracketFree
  have lines : (program.run (.start .standard {})).2.buffer.lines.map Line.text =
      ["if x \x7b".toList, "f;".toList, "\x7b h;\x7d".toList, "\x7d else \x7b".toList,
        "g;".toList, "\x7d".toList] := by
    decide +kernel
  rw [completed] at lines
  exact ⟨bracketFree, final, completed, lines, balanced 3 (by decide)⟩

end CodeWriter
