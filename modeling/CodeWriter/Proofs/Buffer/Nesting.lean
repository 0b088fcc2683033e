import CodeWriter.Proofs.Buffer.Growth
import CodeWriter.Proofs.Layout.Nesting

/-! Buffers in which everything opened since some moment is closed again. -/

namespace CodeWriter

namespace Buffer

/-- The lines from the old current one on close the blocks that they open, and the line in the old
place begins as the old one. -/
def NestsTo (before after : Buffer) : Prop :=
  ∃ line later, after.lines = before.above ++ line :: later ∧
    line.closings = before.current.closings ∧ Layout.Nests line.openings later 0

theorem NestsTo.refl {buffer : Buffer} (level : buffer.current.openings = 0) :
    buffer.NestsTo buffer :=
  ⟨buffer.current, [], rfl, rfl, level⟩

theorem NestsTo.trans {first second third : Buffer} (before : first.NestsTo second)
    (after : second.NestsTo third) : first.NestsTo third := by
  obtain ⟨line, later, lines, begins, nested⟩ := before
  obtain ⟨newLine, newLater, newLines, newBegins, newNested⟩ := after
  rcases current_or_above lines with ⟨rfl, sameAbove, rfl⟩ | ⟨between, rfl, above⟩
  · rw [sameAbove] at newLines
    exact ⟨newLine, newLater, newLines, newBegins.trans begins, newNested⟩
  · obtain ⟨middle, nestedBetween, enough, level⟩ := Layout.nests_append.mp nested
    rw [Layout.nests_nil] at level
    refine ⟨line, between ++ newLine :: newLater, ?_, begins, ?_⟩
    · rw [newLines, above]
      simp
    · refine Layout.nests_append.mpr ⟨middle, nestedBetween, ?_⟩
      rw [Layout.nests_cons, newBegins, show middle - second.current.closings = 0 by omega,
        Nat.zero_add]
      exact ⟨enough, newNested⟩

theorem NestsTo.level {before after : Buffer} (nests : before.NestsTo after) :
    after.current.openings = 0 := by
  obtain ⟨line, later, lines, _, nested⟩ := nests
  rcases current_or_above lines with ⟨rfl, _, rfl⟩ | ⟨between, rfl, _⟩
  · exact nested
  · obtain ⟨middle, _, _, level⟩ := Layout.nests_append.mp nested
    rw [Layout.nests_nil] at level
    omega

section Writing

variable {buffer : Buffer} (level : buffer.current.openings = 0)
include level

theorem nestsTo_addTokens {tokens : List Token} (added : Text.Level (tokens.flatMap Token.text)) :
    buffer.NestsTo (buffer.addTokens tokens) := by
  have text : (buffer.addTokens tokens).current.text =
      buffer.current.text ++ tokens.flatMap Token.text := by
    simp [addTokens, Line.text]
  refine ⟨_, [], rfl, ?_, ?_⟩
  · rw [Line.closings, Line.closings, Line.startsClosing_eq, Line.startsClosing_eq, text,
      Text.closesAtStart_append fun _ => added.1]
  · rw [Layout.nests_nil, Line.openings_eq_zero_iff, text]
    exact Text.opensAtEnd_append (fun _ => Line.openings_eq_zero_iff.mp level) added.2

theorem nestsTo_push {line : Line} (added : line.text.Level) :
    buffer.NestsTo (buffer.push line) := by
  refine ⟨buffer.current, [line], by simp [lines, push], rfl, ?_⟩
  rw [level, Layout.nests_cons, Line.closings_eq_zero_iff.mpr added.1,
    Line.openings_eq_zero_iff.mpr added.2]
  exact ⟨Nat.le_refl 0, rfl⟩

theorem nestsTo_breakLine : buffer.NestsTo buffer.breakLine :=
  nestsTo_push level ⟨rfl, rfl⟩

theorem nestsTo_pushTexts {texts : List Text} (added : ∀ text ∈ texts, text.Level) :
    buffer.NestsTo (pushTexts texts buffer) := by
  fun_induction pushTexts texts buffer with
  | case1 => exact .refl level
  | case2 => exact nestsTo_breakLine level
  | case3 text rest buffer _ ih =>
      rw [List.forall_mem_cons] at added
      have pushed : buffer.NestsTo (buffer.push { tokens := [buffer.stamp text] }) :=
        nestsTo_push level (by simpa [Line.text, stamp] using added.1)
      exact pushed.trans (ih pushed.level added.2)

theorem nestsTo_write {text : Text} (bracketFree : text.BracketFree) :
    buffer.NestsTo (buffer.write text) := by
  have pieces : ∀ piece ∈ text.split '\n', Text.Level piece :=
    fun _ member => (bracketFree.piece member).level
  rw [Text.split, List.forall_mem_cons] at pieces
  have begun : buffer.NestsTo (buffer.addTokens [buffer.stamp (text.cut '\n').1]) :=
    nestsTo_addTokens level (by simpa [stamp] using pieces.1)
  exact begun.trans (nestsTo_pushTexts begun.level pieces.2)

theorem nestsTo_writeLine {text : Text} (bracketFree : text.BracketFree) :
    buffer.NestsTo (buffer.writeLine text) :=
  (nestsTo_write level bracketFree).trans (nestsTo_breakLine (nestsTo_write level bracketFree).level)

theorem nestsTo_writeBelow {text : Text} (bracketFree : text.BracketFree) :
    buffer.NestsTo (buffer.writeBelow text) :=
  (nestsTo_breakLine level).trans (nestsTo_write (nestsTo_breakLine level).level bracketFree)

end Writing

theorem lines_writeBelow_closing (buffer : Buffer) :
    (buffer.writeBelow ['}']).lines = buffer.lines ++ [{ tokens := [buffer.stamp ['}']] }] := rfl

def bodyTokens (buffer : Buffer) : List Token :=
  if buffer.current.isBlank then [] else buffer.stamp [' '] :: buffer.current.tokens

theorem lines_collapse {buffer : Buffer} {above : List Line} {line : Line}
    (opening : buffer.above = above ++ [line]) :
    buffer.collapse.lines =
      above ++
        [{ line with
          tokens := line.tokens ++ (buffer.bodyTokens ++ [buffer.stamp [' ', '}']]) }] := by
  have place : buffer.withLines buffer.above = { buffer with above, current := line } := by
    simp [withLines, opening]
  unfold collapse bodyTokens
  dsimp only
  rw [place]
  split
  · rfl
  · simp [write, pushTexts, Text.cut, addTokens, lines, stamp]

theorem NestsTo.closeBrace {before after closed : Buffer} {width : Int}
    (grown : before.openBrace.GrowsTo after) (inside : before.openBrace.NestsTo after)
    (done : after.closeBrace before.openBrace.here width = .ok closed) :
    before.NestsTo closed := by
  let opening : Line := { before.current with
    tokens := before.current.tokens ++ [before.stamp ['{']] }
  have openingText : opening.text = before.current.text ++ ['{'] := by
    simp [opening, Line.text, stamp]
  have begins : opening.closings = before.current.closings := by
    rw [Line.closings, Line.closings, Line.startsClosing_eq, Line.startsClosing_eq, openingText,
      Text.closesAtStart_append fun _ => rfl]
  rcases grown.closeBrace_cases width with ⟨collapsed, sameAbove⟩ | below
  · rw [collapsed] at done
    cases done
    have above : after.above = before.above ++ [opening] := sameAbove
    have text : Line.text { opening with
          tokens := opening.tokens ++ (after.bodyTokens ++ [after.stamp [' ', '}']]) } =
        before.current.text ++ ('{' :: after.bodyTokens.flatMap Token.text ++ [' ']) ++ ['}'] := by
      simp [opening, Line.text, stamp]
    refine ⟨_, [], lines_collapse above, ?_, ?_⟩
    · rw [Line.closings, Line.closings, Line.startsClosing_eq, Line.startsClosing_eq, text,
        List.append_assoc, Text.closesAtStart_append fun _ => rfl]
    · rw [Layout.nests_nil, Line.openings_eq_zero_iff, text, Text.opensAtEnd_concat]
      rfl
  · rw [below] at done
    cases done
    obtain ⟨line, later, lines, level, nested⟩ := inside
    have opens : opening.openings = 1 := by
      rw [Line.openings, Line.endsOpening_eq, openingText, Text.opensAtEnd_concat]
      rfl
    have starts : line.closings = 0 := level
    refine ⟨opening, line :: later ++ [{ tokens := [after.stamp ['}']] }], ?_, begins, ?_⟩
    · rw [lines_writeBelow_closing, lines]
      simp [openBrace_eq, breakLine, push, Buffer.lines, addTokens, opening]
    · rw [opens, List.cons_append, Layout.nests_cons, starts, Nat.sub_zero, Nat.add_comm,
        Layout.nests_append]
      exact ⟨Nat.zero_le _, _, nested.add 1, Nat.le_refl 1, rfl⟩

theorem NestsTo.joinFrom {before after joined : Buffer} {width : Int}
    (grown : before.GrowsTo after) (inside : before.NestsTo after)
    (done : after.joinFrom before.here width = .ok joined) : before.NestsTo joined := by
  obtain ⟨line, later, lines, begins, nested⟩ := id inside
  obtain ⟨sameStart, level⟩ := nested.joinTokens 0
  obtain ⟨_, same, result⟩ := grown.lines_joinFrom lines width
  cases done.symm.trans same
  split at result
  · refine ⟨_, [], result, sameStart.trans begins, ?_⟩
    rw [Layout.nests_nil, level]
  · rw [result]
    exact inside

end Buffer

end CodeWriter
