import CodeWriter.Proofs.Buffer.Growth
import CodeWriter.Proofs.Layout.Continuing

/-! What is done at the lines beyond a depth only, is done alike without the lines above. -/

namespace CodeWriter

namespace Line

variable (options : Options)

@[simp] theorem text_unplaced (line : Line) : (line.unplaced options).text = line.text := by
  simp [text]

@[simp] theorem isBlank_unplaced (line : Line) :
    (line.unplaced options).isBlank = line.isBlank := by
  simp [isBlank]

@[simp] theorem isComment_unplaced (line : Line) :
    (line.unplaced options).isComment = line.isComment := by
  simp [isComment, firstVisible?]

@[simp] theorem unplaced_zero (tokens : List Token) :
    Line.unplaced options { tokens } = { tokens } := by
  unfold unplaced
  split <;> rfl

theorem unplaced_tokens (line : Line) (tokens : List Token) :
    Line.unplaced options { line with tokens } = { line.unplaced options with tokens } := by
  unfold unplaced
  split <;> rfl

theorem joinRest_map_unplaced (lines : List Line) :
    joinRest (lines.map (Line.unplaced options)) = joinRest lines := by
  induction lines with
  | nil => rfl
  | cons line rest ih =>
      cases rest with
      | nil => exact tokens_unplaced options line
      | cons next later =>
          calc
            joinRest ((line :: next :: later).map (Line.unplaced options)) =
                spaceToken :: (line.unplaced options).tokens ++
                  joinRest ((next :: later).map (Line.unplaced options)) := rfl
            _ = spaceToken :: line.tokens ++ joinRest (next :: later) := by
              rw [ih, tokens_unplaced]
            _ = joinRest (line :: next :: later) := rfl

theorem joinTokens_map_unplaced (lines : List Line) :
    joinTokens (lines.map (Line.unplaced options)) = joinTokens lines := by
  match lines with
  | [] => rfl
  | [line] => simp [joinTokens]
  | first :: second :: rest => simp [joinTokens, joinRest_map_unplaced]

theorem canJoin_map_unplaced (width : Int) (lines : List Line) :
    canJoin width (lines.map (Line.unplaced options)) = canJoin width lines := by
  have texts : (lines.map (Line.unplaced options)).flatMap Line.text = lines.flatMap Line.text := by
    simp [List.flatMap_map]
  simp [canJoin, joinedWidth, texts, Function.comp_def]

end Line

/-- The same place where `depth` lines above it are not there. -/
def Mark.beyond (depth : Nat) (mark : Mark) : Mark :=
  { mark with line := mark.line - depth }

namespace Buffer

theorem GrowsTo.above {before after : Buffer} (grown : before.GrowsTo after) :
    ∃ between, after.above = before.above ++ between ∧
      ∀ (line : Line) (later : List Line), after.current.tokens <+: line.tokens →
        ∃ first rest, between ++ line :: later = first :: rest ∧
          before.current.tokens <+: first.tokens := by
  obtain ⟨placed, later, lines, start⟩ := grown
  rcases current_or_above lines with ⟨_, above, current⟩ | ⟨between, _, above⟩
  · refine ⟨[], by simp [above], ?_⟩
    intro line later extended
    rw [current] at extended
    exact ⟨line, later, rfl, start.trans extended⟩
  · refine ⟨placed :: between, above, ?_⟩
    intro line later _
    exact ⟨placed, between ++ line :: later, rfl, start⟩

theorem GrowsTo.within {before after : Buffer} {depth : Nat} (grown : before.GrowsTo after)
    (within : depth ≤ before.above.length) : depth ≤ after.above.length := by
  obtain ⟨line, later, lines, _⟩ := grown
  have length := congrArg List.length lines
  simp only [length_lines, size, List.length_append, List.length_cons] at length
  omega

def beyond (options : Options) (depth : Nat) (buffer : Buffer) : Buffer :=
  { buffer with
    above := (buffer.above.drop depth).map (Line.unplaced options)
    current := buffer.current.unplaced options }

theorem beyond_beyond (options : Options) (first second : Nat) (buffer : Buffer) :
    (buffer.beyond options first).beyond options second =
      buffer.beyond options (first + second) := by
  have again : ∀ line : Line, (line.unplaced options).unplaced options = line.unplaced options := by
    intro line
    unfold Line.unplaced
    split <;> rfl
  simp [beyond, List.map_drop, List.drop_drop, Function.comp_def, again]

section Beyond

variable {options : Options} {depth : Nat} {buffer : Buffer}

theorem lines_beyond (within : depth ≤ buffer.above.length) :
    (buffer.beyond options depth).lines =
      (buffer.lines.drop depth).map (Line.unplaced options) := by
  unfold lines beyond
  rw [List.drop_append_of_le_length within, List.map_append]
  rfl

@[simp] theorem tokens_current_beyond :
    (buffer.beyond options depth).current.tokens = buffer.current.tokens :=
  Line.tokens_unplaced _ _

theorem beyond_addTokens (tokens : List Token) :
    (buffer.addTokens tokens).beyond options depth =
      (buffer.beyond options depth).addTokens tokens := by
  simp [beyond, addTokens, Line.unplaced_tokens]

theorem beyond_push (within : depth ≤ buffer.above.length) (line : Line) :
    (buffer.push line).beyond options depth =
      (buffer.beyond options depth).push (line.unplaced options) := by
  unfold push
  rw [lines_beyond within]
  rfl

theorem beyond_breakLine (within : depth ≤ buffer.above.length) :
    buffer.breakLine.beyond options depth = (buffer.beyond options depth).breakLine := by
  rw [breakLine, beyond_push within, Line.blank, Line.unplaced_zero]
  rfl

theorem beyond_pushTexts (within : depth ≤ buffer.above.length) (texts : List Text) :
    (pushTexts texts buffer).beyond options depth =
      pushTexts texts (buffer.beyond options depth) := by
  fun_induction pushTexts texts buffer with
  | case1 => rfl
  | case2 buffer => exact beyond_breakLine within
  | case3 text rest buffer notLast ih =>
      have pushed : depth ≤ (buffer.push { tokens := [buffer.stamp text] }).above.length := by
        simp only [push, length_lines, size]
        omega
      rw [ih pushed, beyond_push within, Line.unplaced_zero, pushTexts]
      · rfl
      · exact notLast

theorem beyond_write (within : depth ≤ buffer.above.length) (text : Text) :
    (buffer.write text).beyond options depth = (buffer.beyond options depth).write text := by
  have begun : depth ≤ (buffer.addTokens [buffer.stamp (text.cut '\n').1]).above.length := within
  rw [write, beyond_pushTexts begun, beyond_addTokens]
  rfl

theorem beyond_writeLine (within : depth ≤ buffer.above.length) (text : Text) :
    (buffer.writeLine text).beyond options depth =
      (buffer.beyond options depth).writeLine text := by
  rw [writeLine, beyond_breakLine ((growsTo_write text buffer).within within), beyond_write within]
  rfl

theorem beyond_writeBelow (within : depth ≤ buffer.above.length) (text : Text) :
    (buffer.writeBelow text).beyond options depth =
      (buffer.beyond options depth).writeBelow text := by
  rw [writeBelow, beyond_write ((growsTo_breakLine buffer).within within),
    beyond_breakLine within]
  rfl

theorem beyond_here (within : depth ≤ buffer.above.length) :
    (buffer.beyond options depth).here = buffer.here.beyond depth := by
  simp [here, beyond, Mark.beyond, Int.natCast_sub within]

theorem line?_beyond (within : depth ≤ buffer.above.length) {index : Int}
    (deep : (depth : Int) ≤ index) :
    (buffer.beyond options depth).line? (index - depth) =
      (buffer.line? index).map (Line.unplaced options) := by
  obtain ⟨further, rfl⟩ : ∃ further : Nat, index = depth + further :=
    ⟨(index - depth).toNat, by omega⟩
  have place : (depth : Int) + further - depth = (further : Nat) := by omega
  have whole : (depth : Int) + further = ((depth + further : Nat) : Int) := by omega
  rw [place, whole, line?_natCast, line?_natCast, lines_beyond within, List.getElem?_map,
    List.getElem?_drop]

theorem validate_beyond (within : depth ≤ buffer.above.length) {mark : Mark}
    (deep : (depth : Int) ≤ mark.line) (valid : buffer.validate mark = .ok ()) :
    (buffer.beyond options depth).validate (mark.beyond depth) = .ok () := by
  obtain ⟨line, found, onLine⟩ := validate_iff.mp valid
  refine validate_iff.mpr ⟨line.unplaced options, ?_, by simpa [Mark.beyond] using onLine⟩
  simp [Mark.beyond, line?_beyond within deep, found]

theorem size_beyond (within : depth ≤ buffer.above.length) :
    ((buffer.beyond options depth).size : Int) = buffer.size - depth := by
  simp [size, beyond, Int.natCast_sub within]
  omega

theorem beyond_withLines {lines : List Line} (more : depth < lines.length) :
    (buffer.withLines lines).beyond options depth =
      (buffer.beyond options depth).withLines
        ((lines.drop depth).map (Line.unplaced options)) := by
  rcases List.eq_nil_or_concat lines with rfl | ⟨above, last, ends⟩
  · simp at more
  rw [List.concat_eq_append] at ends
  subst ends
  have within : depth ≤ above.length := by
    rw [List.length_append, List.length_singleton] at more
    omega
  rw [List.drop_append_of_le_length within, List.map_append]
  simp [withLines, beyond]

theorem cutIndex_beyond {index : Int} (deep : (depth : Int) ≤ index) :
    buffer.cutIndex index = depth + (buffer.beyond options depth).cutIndex (index - depth) := by
  have natural : ¬(index < 0) := by omega
  have naturalBeyond : ¬(index - depth < 0) := by omega
  simp only [cutIndex, natural, naturalBeyond, if_false]
  omega

theorem beyond_replaceTail (within : depth ≤ buffer.above.length) {index : Int}
    (deep : (depth : Int) ≤ index) (tokens : List Token) :
    (buffer.replaceTail index { tokens }).beyond options depth =
      (buffer.beyond options depth).replaceTail (index - depth) { tokens } := by
  have cut : buffer.cutIndex index =
      depth + (buffer.beyond options depth).cutIndex (index - depth) := cutIndex_beyond deep
  rw [replaceTail, replaceTail, cut, lines_beyond within]
  simp [beyond, List.map_take, List.drop_take]

theorem fitsBrace_beyond (within : depth ≤ buffer.above.length) {mark : Mark}
    (deep : (depth : Int) < mark.line) (width : Int) :
    (buffer.beyond options depth).fitsBrace (mark.beyond depth) width =
      buffer.fitsBrace mark width := by
  have before : (depth : Int) ≤ mark.line - 1 := by omega
  have place : (mark.beyond depth).line - 1 = mark.line - 1 - depth := by
    simp only [Mark.beyond]
    omega
  have few : ((buffer.beyond options depth).size ≤ (mark.beyond depth).line + 1) ↔
      (buffer.size : Int) ≤ mark.line + 1 := by
    rw [size_beyond within, Mark.beyond]
    dsimp only
    omega
  have widths : (((buffer.line? (mark.line - 1)).map (Line.unplaced options)).getD
      Line.blank).width = ((buffer.line? (mark.line - 1)).getD Line.blank).width := by
    cases buffer.line? (mark.line - 1) <;> simp [Line.width]
  have edge : (buffer.beyond options depth).current.width = buffer.current.width := by
    simp [beyond, Line.width]
  simp only [fitsBrace, place, line?_beyond within before, widths, edge, few]

theorem beyond_collapse (more : depth < buffer.above.length) :
    buffer.collapse.beyond options depth = (buffer.beyond options depth).collapse := by
  have opening : (buffer.withLines buffer.above).beyond options depth =
      (buffer.beyond options depth).withLines (buffer.beyond options depth).above :=
    beyond_withLines more
  have within : depth ≤ (buffer.withLines buffer.above).above.length := by
    simp only [withLines, List.length_dropLast]
    omega
  have blank : (buffer.beyond options depth).current.isBlank = buffer.current.isBlank :=
    Line.isBlank_unplaced _ _
  unfold collapse
  dsimp only
  rw [blank, tokens_current_beyond, ← opening]
  split
  · exact beyond_write within _
  · have written := (growsTo_write [' '] (buffer.withLines buffer.above)).within within
    rw [beyond_write, beyond_addTokens, beyond_write within]
    exact written

theorem lt_size_of_validate {mark : Mark} (valid : buffer.validate mark = .ok ()) :
    mark.line < buffer.size := by
  obtain ⟨line, found, _⟩ := validate_iff.mp valid
  obtain ⟨natural, found⟩ := line?_eq_some_iff.mp found
  have bound := (List.getElem?_eq_some_iff.mp found).1
  rw [length_lines] at bound
  omega

theorem closeBrace_beyond (within : depth ≤ buffer.above.length) {mark : Mark}
    (deep : (depth : Int) < mark.line) (valid : buffer.validate mark = .ok ()) (width : Int) :
    (buffer.beyond options depth).closeBrace (mark.beyond depth) width =
      (buffer.closeBrace mark width).map (beyond options depth) := by
  unfold closeBrace
  rw [valid, validate_beyond within (Int.le_of_lt deep) valid]
  dsimp only
  rw [fitsBrace_beyond within deep]
  split
  · have more : depth < buffer.above.length := by
      have bound := lt_size_of_validate valid
      simp only [size] at bound
      omega
    rw [Except.map, beyond_collapse more]
  · rw [Except.map, beyond_writeBelow within]

theorem joinFrom_beyond (within : depth ≤ buffer.above.length) {mark : Mark}
    (deep : (depth : Int) ≤ mark.line) (valid : buffer.validate mark = .ok ()) (width : Int) :
    (buffer.beyond options depth).joinFrom (mark.beyond depth) width =
      (buffer.joinFrom mark width).map (beyond options depth) := by
  have joined : (buffer.beyond options depth).lines.drop (mark.beyond depth).line.toNat =
      (buffer.lines.drop mark.line.toNat).map (Line.unplaced options) := by
    have place : depth + (mark.line - depth).toNat = mark.line.toNat := by omega
    rw [lines_beyond within, ← List.map_drop, List.drop_drop, Mark.beyond, place]
  unfold joinFrom
  rw [valid, validate_beyond within deep valid]
  dsimp only
  rw [joined, Line.canJoin_map_unplaced, Line.joinTokens_map_unplaced]
  split
  · rw [Except.map, beyond_replaceTail within deep]
    rfl
  · rfl

theorem dropFrom_beyond (within : depth ≤ buffer.above.length) {index : Int}
    (deep : (depth : Int) < index) :
    (buffer.beyond options depth).dropFrom (index - depth) =
      ((buffer.dropFrom index).1.map (Line.unplaced options),
        (buffer.dropFrom index).2.beyond options depth) := by
  have cut : buffer.cutIndex index =
      depth + (buffer.beyond options depth).cutIndex (index - depth) :=
      cutIndex_beyond (Int.le_of_lt deep)
  have more : depth < (buffer.lines.take (buffer.cutIndex index)).length := by
    have natural : ¬(index < 0) := by omega
    rw [List.length_take, length_lines, size, cutIndex, if_neg natural]
    omega
  unfold dropFrom
  rw [beyond_withLines more, cut, lines_beyond within, ← List.map_drop, ← List.map_take,
    List.drop_drop, List.drop_take, Nat.add_sub_cancel_left]

theorem collectedText_beyond (tail : List Token) (later : List Line) :
    (buffer.beyond options depth).collectedText tail (later.map (Line.unplaced options)) =
      buffer.collectedText tail later := by
  simp [collectedText, beyond, Function.comp_def]

theorem takeBack_beyond (within : depth ≤ buffer.above.length) {mark : Mark}
    (deep : (depth : Int) ≤ mark.line) (valid : buffer.validate mark = .ok ()) :
    (buffer.beyond options depth).takeBack (mark.beyond depth) =
      (buffer.takeBack mark).map fun taken => (taken.1, taken.2.beyond options depth) := by
  have place : (mark.beyond depth).line + 1 = mark.line + 1 - depth := by
    simp only [Mark.beyond]
    omega
  have after : (depth : Int) < mark.line + 1 := by omega
  unfold takeBack
  rw [valid, validate_beyond within deep valid, place, dropFrom_beyond within after]
  dsimp only [Except.map]
  rw [collectedText_beyond, tokens_current_beyond]
  simp [Mark.beyond, beyond, Line.unplaced_tokens]

end Beyond

end Buffer

end CodeWriter
