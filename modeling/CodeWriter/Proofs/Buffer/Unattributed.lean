import CodeWriter.Buffer.Joining
import CodeWriter.Layout.Rendering
import Mathlib.Data.List.InsertIdx

/-! Nothing but a map asks where a token comes from. -/

namespace CodeWriter

def Token.unattributed (token : Token) : Token :=
  { text := token.text }

def Line.unattributed (line : Line) : Line :=
  { line with tokens := line.tokens.map Token.unattributed }

def Buffer.unattributed (buffer : Buffer) : Buffer :=
  { buffer with
    above := buffer.above.map Line.unattributed
    current := buffer.current.unattributed
    origin := none }

namespace Token

@[simp] theorem text_unattributed (token : Token) : token.unattributed.text = token.text := rfl

@[simp] theorem isEmpty_unattributed (token : Token) :
    token.unattributed.isEmpty = token.isEmpty := rfl

@[simp] theorem endsOpening_unattributed (token : Token) :
    token.unattributed.endsOpening = token.endsOpening := rfl

@[simp] theorem startsClosing_unattributed (token : Token) :
    token.unattributed.startsClosing = token.startsClosing := rfl

end Token

namespace Line

@[simp] theorem tokens_unattributed (line : Line) :
    line.unattributed.tokens = line.tokens.map Token.unattributed := rfl

theorem indent_unattributed (line : Line) : line.unattributed.indent = line.indent := rfl

@[simp] theorem unattributed_blank : blank.unattributed = blank := rfl

@[simp] theorem text_unattributed (line : Line) : line.unattributed.text = line.text := by
  simp [text, List.flatMap_map]

@[simp] theorem width_unattributed (line : Line) : line.unattributed.width = line.width := by
  simp [width]

@[simp] theorem isBlank_unattributed (line : Line) :
    line.unattributed.isBlank = line.isBlank := by
  simp [isBlank, Function.comp_def]

@[simp] theorem firstVisible?_unattributed (line : Line) :
    line.unattributed.firstVisible? = line.firstVisible?.map Token.unattributed := by
  simp [firstVisible?, List.find?_map, Function.comp_def]

@[simp] theorem lastVisible?_unattributed (line : Line) :
    line.unattributed.lastVisible? = line.lastVisible?.map Token.unattributed := by
  simp [lastVisible?, ← List.map_reverse, List.find?_map, Function.comp_def]

@[simp] theorem isComment_unattributed (line : Line) :
    line.unattributed.isComment = line.isComment := by
  simp [isComment, Option.any_map]

@[simp] theorem endsOpening_unattributed (line : Line) :
    line.unattributed.endsOpening = line.endsOpening := by
  simp [endsOpening, Option.any_map]

@[simp] theorem startsClosing_unattributed (line : Line) :
    line.unattributed.startsClosing = line.startsClosing := by
  simp [startsClosing, Option.any_map]

@[simp] theorem isCaseLabel_unattributed (line : Line) :
    line.unattributed.isCaseLabel = line.isCaseLabel := by
  rw [isCaseLabel, isCaseLabel, tokens_unattributed, List.head?_map, Option.any_map]
  rfl

@[simp] theorem render_unattributed (unit : Int) (line : Line) :
    line.unattributed.render unit = line.render unit := by
  simp only [render, margin, isBlank_unattributed, isCaseLabel_unattributed, indent_unattributed,
    text_unattributed]

@[simp] theorem nextIndent_unattributed (unit : Int) (line : Line) :
    line.unattributed.nextIndent unit = line.nextIndent unit := by
  rw [nextIndent, nextIndent, endsOpening_unattributed, indent_unattributed]

theorem placedAt_unattributed (unit indent : Int) (line : Line) :
    line.unattributed.placedAt unit indent = (line.placedAt unit indent).unattributed := by
  rw [placedAt, placedAt, startsClosing_unattributed]
  rfl

theorem spacerAfter_unattributed (unit : Int) (line : Line) :
    line.unattributed.spacerAfter unit = (line.spacerAfter unit).unattributed := by
  rw [spacerAfter, spacerAfter, nextIndent_unattributed]
  rfl

theorem precedesComment_unattributed (line next : Line) :
    line.unattributed.precedesComment next.unattributed = line.precedesComment next := by
  rw [precedesComment, precedesComment, isComment_unattributed, isComment_unattributed]

theorem precedesBlock_unattributed (line next afterNext : Line) :
    line.unattributed.precedesBlock next.unattributed afterNext.unattributed =
      line.precedesBlock next afterNext := by
  rw [precedesBlock, precedesBlock, isComment_unattributed]
  rfl

theorem endsBlock_unattributed (line next afterNext : Line) :
    line.unattributed.endsBlock next.unattributed afterNext.unattributed =
      line.endsBlock next afterNext := by
  rw [endsBlock, endsBlock, isBlank_unattributed]
  rfl

theorem joinRest_unattributed (lines : List Line) :
    joinRest (lines.map unattributed) = (joinRest lines).map Token.unattributed := by
  induction lines with
  | nil => rfl
  | cons line rest ih =>
      match rest with
      | [] => rfl
      | next :: later =>
          rw [List.map_cons] at ih
          rw [List.map_cons, List.map_cons, joinRest_cons_cons, joinRest_cons_cons, ih]
          simp [spaceToken, Token.unattributed]

theorem joinTokens_unattributed (lines : List Line) :
    joinTokens (lines.map unattributed) = (joinTokens lines).map Token.unattributed := by
  match lines with
  | [] => rfl
  | [line] => simp [joinTokens]
  | first :: second :: rest => simp [joinTokens, joinRest_unattributed]

theorem canJoin_unattributed (width : Int) (lines : List Line) :
    canJoin width (lines.map unattributed) = canJoin width lines := by
  simp [canJoin, joinedWidth, List.flatMap_map, Function.comp_def]

end Line

namespace Layout

theorem indentFrom_unattributed (unit indent : Int) (lines : List Line) :
    indentFrom unit indent (lines.map Line.unattributed) =
      (indentFrom unit indent lines).map Line.unattributed := by
  induction lines generalizing indent with
  | nil => rfl
  | cons line rest ih => simp [ih, Line.placedAt_unattributed]

theorem closingIndentFrom_unattributed (unit indent : Int) (lines : List Line) :
    closingIndentFrom unit indent (lines.map Line.unattributed) =
      closingIndentFrom unit indent lines := by
  induction lines generalizing indent with
  | nil => rfl
  | cons line rest ih => simp [closingIndentFrom, ih, Line.placedAt_unattributed]

theorem spaced_unattributed (unit : Int) (line : Line) (rest : List Line) :
    spaced unit line.unattributed (rest.map Line.unattributed) =
      (spaced unit line rest).map Line.unattributed := by
  match rest with
  | [] => rfl
  | [last] => rfl
  | next :: afterNext :: rest =>
      simp only [spaced, List.map_cons, Line.isBlank_unattributed,
        Line.precedesComment_unattributed, Line.precedesBlock_unattributed,
        Line.endsBlock_unattributed, Line.spacerAfter_unattributed]
      split
      · rfl
      split
      · rfl
      split
      · rfl
      split <;> rfl

theorem space_unattributed (unit : Int) (lines : List Line) :
    space unit (lines.map Line.unattributed) = (space unit lines).map Line.unattributed := by
  rw [space, space, indent, indent, indentFrom_unattributed]
  induction indentFrom unit 0 lines with
  | nil => rfl
  | cons line rest ih => rw [List.map_cons, List.foldr_cons, ih, spaced_unattributed]; rfl

theorem arrange_unattributed (options : Options) (lines : List Line) :
    arrange options (lines.map Line.unattributed) =
      (arrange options lines).map Line.unattributed := by
  rw [arrange, arrange, space_unattributed]
  split <;> rfl

theorem render_unattributed (options : Options) (lines : List Line) :
    render options (lines.map Line.unattributed) = render options lines := by
  simp [render, Function.comp_def]

end Layout

namespace Buffer

variable (buffer : Buffer)

@[simp] theorem lines_unattributed :
    buffer.unattributed.lines = buffer.lines.map Line.unattributed := by
  simp [lines, unattributed]

@[simp] theorem size_unattributed : buffer.unattributed.size = buffer.size := by
  simp [size, unattributed]

@[simp] theorem stamp_unattributed (text : Text) :
    buffer.unattributed.stamp text = (buffer.stamp text).unattributed := rfl

@[simp] theorem here_unattributed : buffer.unattributed.here = buffer.here := by
  simp [here, unattributed]

theorem withLines_unattributed (lines : List Line) :
    buffer.unattributed.withLines (lines.map Line.unattributed) =
      (buffer.withLines lines).unattributed := by
  rw [withLines, withLines, ← List.map_dropLast, List.getLast?_map, ← Line.unattributed_blank,
    Option.getD_map]
  rfl

theorem addTokens_unattributed (tokens : List Token) :
    buffer.unattributed.addTokens (tokens.map Token.unattributed) =
      (buffer.addTokens tokens).unattributed := by
  simp [addTokens, unattributed, Line.unattributed]

theorem push_unattributed (line : Line) :
    buffer.unattributed.push line.unattributed = (buffer.push line).unattributed := by
  rw [push, lines_unattributed]
  rfl

theorem breakLine_unattributed : buffer.unattributed.breakLine = buffer.breakLine.unattributed :=
  buffer.push_unattributed Line.blank

theorem pushTexts_unattributed (texts : List Text) :
    pushTexts texts buffer.unattributed = (pushTexts texts buffer).unattributed := by
  fun_induction pushTexts texts buffer with
  | case1 => rfl
  | case2 buffer => exact buffer.breakLine_unattributed
  | case3 text rest buffer notLast ih =>
      rw [← ih, ← push_unattributed, pushTexts]
      · rfl
      · exact notLast

theorem write_unattributed (text : Text) :
    buffer.unattributed.write text = (buffer.write text).unattributed := by
  rw [write, write, ← pushTexts_unattributed, ← addTokens_unattributed]
  rfl

theorem writeLine_unattributed (text : Text) :
    buffer.unattributed.writeLine text = (buffer.writeLine text).unattributed := by
  rw [writeLine, writeLine, write_unattributed, breakLine_unattributed]

theorem writeBelow_unattributed (text : Text) :
    buffer.unattributed.writeBelow text = (buffer.writeBelow text).unattributed := by
  rw [writeBelow, writeBelow, breakLine_unattributed, write_unattributed]

theorem line?_unattributed (index : Int) :
    buffer.unattributed.line? index = (buffer.line? index).map Line.unattributed := by
  rw [line?, line?, lines_unattributed, List.getElem?_map]
  split <;> rfl

theorem validate_unattributed (mark : Mark) :
    buffer.unattributed.validate mark = buffer.validate mark := by
  rw [validate, validate, line?_unattributed, size_unattributed]
  cases buffer.line? mark.line with
  | none => rfl
  | some line => simp

theorem insertLines_unattributed (index : Nat) (inserted : List Line) :
    buffer.unattributed.insertLines index (inserted.map Line.unattributed) =
      (buffer.insertLines index inserted).unattributed := by
  simp [insertLines, unattributed]

theorem insertToken_unattributed (line index : Nat) (token : Token) :
    buffer.unattributed.insertToken line index token.unattributed =
      (buffer.insertToken line index token).unattributed := by
  rw [insertToken, insertToken, lines_unattributed, ← withLines_unattributed]
  congr 1
  apply List.ext_getElem?
  intro place
  rw [List.getElem?_modify, List.getElem?_map, List.getElem?_map, List.getElem?_modify]
  cases buffer.lines[place]? with
  | none => rfl
  | some marked =>
      by_cases here : line = place
      · simp [here, Line.unattributed, List.map_insertIdx]
      · simp [here]

theorem insert_unattributed (mark : Mark) (text : Text) :
    buffer.unattributed.insert mark text = (buffer.insert mark text).map unattributed := by
  rw [insert, insert, validate_unattributed]
  cases buffer.validate mark with
  | error fault => rfl
  | ok valid =>
      dsimp only
      split
      · rw [Except.map, ← insertLines_unattributed, List.map_map]
        rfl
      · split
        · rfl
        · rw [Except.map, ← insertToken_unattributed]
          rfl

theorem cutIndex_unattributed (index : Int) :
    buffer.unattributed.cutIndex index = buffer.cutIndex index := by
  rw [cutIndex, cutIndex, size_unattributed]

theorem dropFrom_unattributed (index : Int) :
    buffer.unattributed.dropFrom index =
      ((buffer.dropFrom index).1.map Line.unattributed,
        (buffer.dropFrom index).2.unattributed) := by
  rw [dropFrom, dropFrom, cutIndex_unattributed, lines_unattributed, ← List.map_drop,
    ← List.map_take, withLines_unattributed]

theorem replaceTail_unattributed (index : Int) (line : Line) :
    buffer.unattributed.replaceTail index line.unattributed =
      (buffer.replaceTail index line).unattributed := by
  rw [replaceTail, replaceTail, cutIndex_unattributed, lines_unattributed, ← List.map_take]
  rfl

theorem collectedText_unattributed (tail : List Token) (later : List Line) :
    buffer.unattributed.collectedText (tail.map Token.unattributed)
        (later.map Line.unattributed) =
      buffer.collectedText tail later := by
  simp [collectedText, unattributed, List.flatMap_map, Function.comp_def]

theorem takeBack_unattributed (mark : Mark) :
    buffer.unattributed.takeBack mark =
      (buffer.takeBack mark).map fun (text, kept) => (text, kept.unattributed) := by
  rw [takeBack, takeBack, validate_unattributed, dropFrom_unattributed]
  cases buffer.validate mark with
  | error fault => rfl
  | ok valid =>
      generalize buffer.dropFrom (mark.line + 1) = dropped
      obtain ⟨later, kept⟩ := dropped
      have tokens : kept.unattributed.current.tokens =
          kept.current.tokens.map Token.unattributed := rfl
      simp only [Except.map, tokens, ← List.map_drop, ← List.map_take, collectedText_unattributed]
      rfl

theorem fitsBrace_unattributed (mark : Mark) (width : Int) :
    buffer.unattributed.fitsBrace mark width = buffer.fitsBrace mark width := by
  have edge : buffer.unattributed.current.width = buffer.current.width :=
    Line.width_unattributed buffer.current
  have opening : ((buffer.unattributed.line? (mark.line - 1)).getD Line.blank).width =
      ((buffer.line? (mark.line - 1)).getD Line.blank).width := by
    rw [line?_unattributed, ← Line.unattributed_blank, Option.getD_map, Line.width_unattributed]
    rfl
  simp only [fitsBrace, size_unattributed, edge, opening]

theorem collapse_unattributed : buffer.unattributed.collapse = buffer.collapse.unattributed := by
  have blank : buffer.unattributed.current.isBlank = buffer.current.isBlank :=
    Line.isBlank_unattributed buffer.current
  have opening : buffer.unattributed.withLines buffer.unattributed.above =
      (buffer.withLines buffer.above).unattributed :=
    buffer.withLines_unattributed buffer.above
  have tokens : buffer.unattributed.current.tokens =
      buffer.current.tokens.map Token.unattributed := rfl
  simp only [collapse, blank, opening, tokens, write_unattributed, addTokens_unattributed]
  split <;> rfl

theorem closeBrace_unattributed (mark : Mark) (width : Int) :
    buffer.unattributed.closeBrace mark width =
      (buffer.closeBrace mark width).map unattributed := by
  rw [closeBrace, closeBrace, validate_unattributed, fitsBrace_unattributed,
    collapse_unattributed, writeBelow_unattributed]
  cases buffer.validate mark with
  | error fault => rfl
  | ok valid =>
      dsimp only
      split <;> rfl

theorem joinFrom_unattributed (mark : Mark) (width : Int) :
    buffer.unattributed.joinFrom mark width = (buffer.joinFrom mark width).map unattributed := by
  rw [joinFrom, joinFrom, validate_unattributed, lines_unattributed, ← List.map_drop]
  cases buffer.validate mark with
  | error fault => rfl
  | ok valid =>
      dsimp only
      rw [Line.canJoin_unattributed, Line.joinTokens_unattributed]
      split
      · exact congrArg Except.ok (buffer.replaceTail_unattributed mark.line
          { tokens := Line.joinTokens (buffer.lines.drop mark.line.toNat) })
      · rfl

end Buffer

end CodeWriter
