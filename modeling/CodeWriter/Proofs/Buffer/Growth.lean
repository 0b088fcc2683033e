import CodeWriter.Buffer.Joining

/-! Buffers that have only grown. Earlier marks are good, and blocks close where they began. -/

namespace CodeWriter

theorem Line.tokens_prefix_joinTokens (line : Line) (later : List Line) :
    line.tokens <+: joinTokens (line :: later) := by
  cases later with
  | nil => simp [joinTokens]
  | cons second rest =>
      rw [joinTokens, List.append_assoc]
      exact List.prefix_append _ _

namespace Buffer

def GrowsTo (before after : Buffer) : Prop :=
  ∃ line later, after.lines = before.above ++ line :: later ∧
    before.current.tokens <+: line.tokens

theorem GrowsTo.refl (buffer : Buffer) : buffer.GrowsTo buffer :=
  ⟨buffer.current, [], rfl, List.prefix_refl _⟩

theorem current_or_above {buffer : Buffer} {above later : List Line} {line : Line}
    (grown : buffer.lines = above ++ line :: later) :
    (later = [] ∧ buffer.above = above ∧ buffer.current = line) ∨
      ∃ between, later = between ++ [buffer.current] ∧
        buffer.above = above ++ line :: between := by
  rcases List.eq_nil_or_concat later with rfl | ⟨between, last, rfl⟩
  · obtain ⟨sameAbove, sameCurrent⟩ := List.append_inj' grown rfl
    exact .inl ⟨rfl, sameAbove, by simpa using sameCurrent⟩
  · have split : buffer.above ++ [buffer.current] = (above ++ line :: between) ++ [last] := by
      rw [← lines, grown]
      simp
    obtain ⟨sameAbove, sameCurrent⟩ := List.append_inj' split rfl
    cases sameCurrent
    exact .inr ⟨between, by simp, sameAbove⟩

theorem GrowsTo.trans {first second third : Buffer} (before : first.GrowsTo second)
    (after : second.GrowsTo third) : first.GrowsTo third := by
  obtain ⟨line, later, grown, start⟩ := before
  obtain ⟨newLine, newLater, grownAgain, newStart⟩ := after
  rcases current_or_above grown with ⟨_, sameAbove, rfl⟩ | ⟨between, _, above⟩
  · rw [sameAbove] at grownAgain
    exact ⟨newLine, newLater, grownAgain, start.trans newStart⟩
  · refine ⟨line, between ++ newLine :: newLater, ?_, start⟩
    rw [grownAgain, above]
    simp

theorem GrowsTo.withOrigin {before after : Buffer} (grown : before.GrowsTo after)
    (origin : Option Origin) : before.GrowsTo { after with origin } :=
  grown

theorem growsTo_of_eq {before after : Buffer} (above : after.above = before.above)
    (tokens : after.current.tokens = before.current.tokens) : before.GrowsTo after :=
  ⟨after.current, [], by simp [lines, above], by simp [tokens]⟩

theorem growsTo_push (line : Line) (buffer : Buffer) : buffer.GrowsTo (buffer.push line) :=
  ⟨buffer.current, [line], by simp [lines, push], List.prefix_refl _⟩

theorem growsTo_addTokens (tokens : List Token) (buffer : Buffer) :
    buffer.GrowsTo (buffer.addTokens tokens) :=
  ⟨_, [], rfl, List.prefix_append _ _⟩

theorem growsTo_breakLine (buffer : Buffer) : buffer.GrowsTo buffer.breakLine :=
  growsTo_push _ buffer

theorem growsTo_pushTexts (texts : List Text) (buffer : Buffer) :
    buffer.GrowsTo (pushTexts texts buffer) := by
  fun_induction pushTexts texts buffer with
  | case1 buffer => exact .refl buffer
  | case2 buffer => exact growsTo_breakLine buffer
  | case3 text rest buffer _ ih => exact (growsTo_push _ buffer).trans ih

theorem growsTo_write (text : Text) (buffer : Buffer) : buffer.GrowsTo (buffer.write text) :=
  (growsTo_addTokens _ buffer).trans (growsTo_pushTexts _ _)

theorem growsTo_writeLine (text : Text) (buffer : Buffer) :
    buffer.GrowsTo (buffer.writeLine text) :=
  (growsTo_write text buffer).trans (growsTo_breakLine _)

theorem growsTo_writeBelow (text : Text) (buffer : Buffer) :
    buffer.GrowsTo (buffer.writeBelow text) :=
  (growsTo_breakLine buffer).trans (growsTo_write text _)

theorem growsTo_openBrace (buffer : Buffer) : buffer.GrowsTo buffer.openBrace :=
  growsTo_writeLine ['{'] buffer

theorem GrowsTo.exists_line? {before after : Buffer} (grown : before.GrowsTo after) {index : Int}
    {old : Line} (found : before.line? index = some old) :
    ∃ line, after.line? index = some line ∧ old.tokens <+: line.tokens := by
  obtain ⟨line, later, lines, start⟩ := grown
  obtain ⟨natural, found⟩ := line?_eq_some_iff.mp found
  simp only [line?_eq_some_iff, lines, natural, true_and]
  rw [Buffer.lines] at found
  rcases Nat.lt_trichotomy index.toNat before.above.length with above | here | below
  · rw [List.getElem?_append_left above] at found ⊢
    exact ⟨old, found, List.prefix_refl _⟩
  · rw [here, List.getElem?_concat_length] at found
    cases found
    exact ⟨line, by simp [here], start⟩
  · have outside : (before.above ++ [before.current]).length ≤ index.toNat := by
      rw [List.length_append]
      exact below
    rw [List.getElem?_eq_none outside] at found
    cases found

theorem GrowsTo.validate_of_validate {before after : Buffer} (grown : before.GrowsTo after)
    {mark : Mark} (valid : before.validate mark = .ok ()) : after.validate mark = .ok () := by
  obtain ⟨old, found, natural, within⟩ := validate_iff.mp valid
  obtain ⟨line, kept, start⟩ := grown.exists_line? found
  have enough := start.length_le
  exact validate_iff.mpr ⟨line, kept, natural, by omega⟩

theorem GrowsTo.validate {before after : Buffer} (grown : before.GrowsTo after) :
    after.validate before.here = .ok () :=
  grown.validate_of_validate (validate_here before)

theorem GrowsTo.above_of_size_le {before after : Buffer} (grown : before.GrowsTo after)
    (few : after.size ≤ before.size) : after.above = before.above := by
  obtain ⟨line, later, grown, _⟩ := grown
  rcases current_or_above grown with ⟨_, above, _⟩ | ⟨between, _, above⟩
  · exact above
  · have length := congrArg List.length above
    simp only [size, List.length_append, List.length_cons] at few length
    omega

@[simp] theorem cutIndex_natCast (index : Nat) (buffer : Buffer) :
    buffer.cutIndex index = index := by
  have natural : ¬((index : Int) < 0) := by omega
  simp [cutIndex, natural]

theorem line_here (buffer : Buffer) : buffer.here.line = (buffer.above.length : Nat) := rfl

theorem lines_replaceTail (index : Int) (line : Line) (buffer : Buffer) :
    (buffer.replaceTail index line).lines =
      buffer.lines.take (buffer.cutIndex index) ++ [line] := rfl

theorem GrowsTo.lines_replaceTail {before after : Buffer} (grown : before.GrowsTo after)
    (line : Line) :
    (after.replaceTail before.here.line line).lines = before.above ++ [line] := by
  obtain ⟨_, _, lines, _⟩ := grown
  rw [Buffer.lines_replaceTail, line_here, cutIndex_natCast, lines, List.take_left]

theorem openBrace_eq (buffer : Buffer) :
    buffer.openBrace = (buffer.addTokens [buffer.stamp ['{']]).breakLine := rfl

theorem size_le_of_fitsBrace {buffer : Buffer} {mark : Mark} {width : Int}
    (fits : buffer.fitsBrace mark width = true) : (buffer.size : Int) ≤ mark.line + 1 := by
  simp only [fitsBrace, Bool.and_eq_true] at fits
  exact of_decide_eq_true fits.1

theorem growsTo_collapse (buffer : Buffer) :
    (buffer.withLines buffer.above).GrowsTo buffer.collapse := by
  unfold collapse
  dsimp only
  split
  · exact growsTo_write _ _
  · exact ((growsTo_write _ _).trans (growsTo_addTokens _ _)).trans (growsTo_write _ _)

theorem GrowsTo.closeBrace_eq {before after : Buffer} (grown : before.openBrace.GrowsTo after)
    (width : Int) :
    after.closeBrace before.openBrace.here width =
      .ok (if after.fitsBrace before.openBrace.here width then after.collapse
        else after.writeBelow ['}']) := by
  unfold Buffer.closeBrace
  rw [grown.validate]
  dsimp only
  split <;> rfl

/-- A block is closed behind its brace only while its line is the one after the brace. -/
theorem GrowsTo.closeBrace_cases {before after : Buffer} (grown : before.openBrace.GrowsTo after)
    (width : Int) :
    after.closeBrace before.openBrace.here width = .ok after.collapse ∧
        after.above = before.openBrace.above ∨
      after.closeBrace before.openBrace.here width = .ok (after.writeBelow ['}']) := by
  rw [grown.closeBrace_eq]
  split
  · rename_i fits
    refine .inl ⟨rfl, grown.above_of_size_le ?_⟩
    have bound := size_le_of_fitsBrace fits
    rw [line_here] at bound
    simp only [size] at bound ⊢
    omega
  · exact .inr rfl

theorem GrowsTo.closeBrace {before after : Buffer} (grown : before.openBrace.GrowsTo after)
    (width : Int) :
    ∃ closed, after.closeBrace before.openBrace.here width = .ok closed ∧
      before.GrowsTo closed := by
  rcases grown.closeBrace_cases width with ⟨done, sameAbove⟩ | done
  · have opening : before.GrowsTo (after.withLines after.above) := by
      rw [sameAbove, openBrace_eq]
      exact ⟨_, [], lines_withLines (lines_ne_nil _) after, List.prefix_append _ _⟩
    exact ⟨_, done, opening.trans (growsTo_collapse after)⟩
  · exact ⟨_, done, ((growsTo_openBrace before).trans grown).trans (growsTo_writeBelow _ _)⟩

theorem GrowsTo.lines_joinFrom {before after : Buffer} (grown : before.GrowsTo after)
    {rows : List Line} (lines : after.lines = before.above ++ rows) (width : Int) :
    ∃ joined, after.joinFrom before.here width = .ok joined ∧
      if Line.canJoin width rows = true then
        joined.lines = before.above ++ [{ tokens := Line.joinTokens rows }]
      else joined = after := by
  have fromMark : after.lines.drop before.here.line.toNat = rows := by
    rw [lines, line_here, Int.toNat_natCast, List.drop_left]
  unfold Buffer.joinFrom
  rw [grown.validate]
  dsimp only
  rw [fromMark]
  split
  · exact ⟨_, rfl, grown.lines_replaceTail _⟩
  · exact ⟨after, rfl, rfl⟩

theorem GrowsTo.joinFrom {before after : Buffer} (grown : before.GrowsTo after) (width : Int) :
    ∃ joined, after.joinFrom before.here width = .ok joined ∧ before.GrowsTo joined := by
  obtain ⟨line, later, lines, start⟩ := id grown
  obtain ⟨joined, done, result⟩ := grown.lines_joinFrom lines width
  refine ⟨joined, done, ?_⟩
  split at result
  · exact ⟨_, [], result, start.trans (line.tokens_prefix_joinTokens later)⟩
  · rw [result]
    exact grown

theorem dropFrom_of_lines {buffer : Buffer} {above later : List Line} {line : Line}
    (grown : buffer.lines = above ++ line :: later) :
    buffer.dropFrom (above.length + 1 : Nat) = (later, { buffer with above, current := line }) := by
  have split : buffer.lines = (above ++ [line]) ++ later := by
    rw [grown]
    simp
  have place : above.length + 1 = (above ++ [line]).length := by simp
  rw [dropFrom, cutIndex_natCast, split, place, List.take_left, List.drop_left]
  simp [withLines]

theorem GrowsTo.takeBack {before after : Buffer} (grown : before.GrowsTo after) :
    ∃ text kept, after.takeBack before.here = .ok (text, kept) ∧ kept.above = before.above ∧
      kept.current.tokens = before.current.tokens := by
  have valid := grown.validate
  obtain ⟨line, later, lines, start⟩ := grown
  have dropped : after.dropFrom (before.here.line + 1) =
      (later, { after with above := before.above, current := line }) := dropFrom_of_lines lines
  unfold Buffer.takeBack
  rw [valid, dropped]
  exact ⟨_, _, rfl, rfl, (List.prefix_iff_eq_take.mp start).symm⟩

end Buffer

end CodeWriter
