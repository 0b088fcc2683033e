import CodeWriter.Proofs.Buffer.Collecting

namespace CodeWriter

/-- A token without line feed that carries a source. -/
def Token.StampedBy (origin : Option Origin) (token : Token) : Prop :=
  '\n' ∉ token.text ∧ token.origin = origin

namespace Buffer

/-- Tokens behind those of the current line and lines below it are what was added to the old buffer;
all their tokens carry the source that was in force, and it still is. -/
structure Added (before : Buffer) (tokens : List Token) (later : List Line) (after : Buffer) :
    Prop where
  lines : after.lines = before.above ++ (before.addTokens tokens).current :: later
  onLine : ∀ token ∈ tokens, token.StampedBy before.origin
  below : ∀ line ∈ later, ∀ token ∈ line.tokens, token.StampedBy before.origin
  origin : after.origin = before.origin

def addedText (tokens : List Token) (later : List Line) : Text :=
  tokens.flatMap Token.text ++ later.flatMap fun line => '\n' :: line.text

/-- A text was added at the end of a buffer. -/
def Adds (before : Buffer) (text : Text) (after : Buffer) : Prop :=
  ∃ tokens later, before.Added tokens later after ∧ addedText tokens later = text

namespace Adds

variable {before after : Buffer} {text : Text}

theorem refl (buffer : Buffer) : buffer.Adds [] buffer := by
  refine ⟨[], [], ⟨?_, ?_, ?_, rfl⟩, rfl⟩
  · simp [lines, addTokens]
  · exact List.forall_mem_nil _
  · exact List.forall_mem_nil _

theorem addToken (adds : before.Adds text after) {piece : Text} (newlineFree : '\n' ∉ piece) :
    before.Adds (text ++ piece) (after.addTokens [after.stamp piece]) := by
  obtain ⟨tokens, later, added, rfl⟩ := adds
  have stamped : (after.stamp piece).StampedBy before.origin := ⟨newlineFree, added.origin⟩
  rcases current_or_above added.lines with ⟨rfl, above, current⟩ | ⟨between, rfl, above⟩
  · refine ⟨tokens ++ [after.stamp piece], [], ⟨?_, ?_, added.below, added.origin⟩, ?_⟩
    · simp [lines, addTokens, above, current]
    · exact List.forall_mem_append.mpr ⟨added.onLine, List.forall_mem_singleton.mpr stamped⟩
    · simp [addedText, stamp]
  · obtain ⟨old, last⟩ := List.forall_mem_append.mp added.below
    refine ⟨tokens, between ++ [(after.addTokens [after.stamp piece]).current],
      ⟨?_, added.onLine, ?_, added.origin⟩, ?_⟩
    · simp [lines, addTokens, above]
    · refine List.forall_mem_append.mpr ⟨old, List.forall_mem_singleton.mpr ?_⟩
      exact List.forall_mem_append.mpr
        ⟨List.forall_mem_singleton.mp last, List.forall_mem_singleton.mpr stamped⟩
    · simp [addedText, addTokens, stamp, Line.text]

theorem push (adds : before.Adds text after) (line : Line)
    (stamped : ∀ token ∈ line.tokens, token.StampedBy before.origin) :
    before.Adds (text ++ '\n' :: line.text) (after.push line) := by
  obtain ⟨tokens, later, added, rfl⟩ := adds
  refine ⟨tokens, later ++ [line], ⟨?_, added.onLine, ?_, added.origin⟩, ?_⟩
  · rw [lines_push, added.lines, List.append_assoc, List.cons_append]
  · exact List.forall_mem_append.mpr ⟨added.below, List.forall_mem_singleton.mpr stamped⟩
  · simp [addedText]

theorem breakLine (adds : before.Adds text after) :
    before.Adds (text ++ ['\n']) after.breakLine :=
  adds.push Line.blank (List.forall_mem_nil _)

theorem origin (adds : before.Adds text after) : after.origin = before.origin := by
  obtain ⟨_, _, added, _⟩ := adds
  exact added.origin

theorem pushTexts {pieces : List Text} (newlineFree : ∀ piece ∈ pieces, '\n' ∉ piece)
    (adds : before.Adds text after) :
    before.Adds (text ++ pieces.flatMap ('\n' :: ·)) (Buffer.pushTexts pieces after) := by
  fun_induction Buffer.pushTexts pieces after generalizing text with
  | case1 =>
      rw [List.flatMap_nil, List.append_nil]
      exact adds
  | case2 => exact adds.breakLine
  | case3 piece rest after _ ih =>
      obtain ⟨first, others⟩ := List.forall_mem_cons.mp newlineFree
      have stamped : (after.stamp piece).StampedBy before.origin := ⟨first, adds.origin⟩
      have pushed := adds.push { tokens := [after.stamp piece] }
        (List.forall_mem_singleton.mpr stamped)
      have whole := ih others pushed
      simpa [Line.text, stamp] using whole

theorem write (adds : before.Adds text after) (more : Text) :
    before.Adds (text ++ more) (after.write more) := by
  have newlineFree : ∀ piece ∈ more.split '\n', '\n' ∉ piece :=
    fun _ => Text.separator_not_mem_split
  obtain ⟨first, others⟩ := List.forall_mem_cons.mp newlineFree
  have whole := (adds.addToken first).pushTexts others
  rwa [List.append_assoc, Text.cut_flatMap] at whole

theorem writeLine (adds : before.Adds text after) (more : Text) :
    before.Adds (text ++ (more ++ ['\n'])) (after.writeLine more) := by
  rw [← List.append_assoc]
  exact (adds.write more).breakLine

theorem writeBelow (adds : before.Adds text after) (more : Text) :
    before.Adds (text ++ '\n' :: more) (after.writeBelow more) := by
  have whole := adds.breakLine.write more
  rwa [List.append_assoc] at whole

theorem map_text_lines (adds : before.Adds text after) :
    after.lines.map Line.text =
      before.above.map Line.text ++
        (before.current.text ++ (text.cut '\n').1) :: (text.cut '\n').2 := by
  obtain ⟨tokens, later, added, rfl⟩ := adds
  have onLine : '\n' ∉ tokens.flatMap Token.text :=
    @Line.Unbroken.text ⟨tokens, 0⟩ fun token member => (added.onLine token member).1
  have below : ∀ piece ∈ later.map Line.text, '\n' ∉ piece := by
    intro piece member
    obtain ⟨line, among, rfl⟩ := List.mem_map.mp member
    exact Line.Unbroken.text fun token onIt => (added.below line among token onIt).1
  have split := Text.split_intercalate (List.cons_ne_nil _ _)
    (List.forall_mem_cons.mpr ⟨onLine, below⟩)
  have whole : ['\n'].intercalate (tokens.flatMap Token.text :: later.map Line.text) =
      addedText tokens later := by
    rw [Text.intercalate_cons, List.flatMap_map]
    rfl
  rw [whole] at split
  obtain ⟨first, others⟩ := List.cons.inj split
  rw [first, others, added.lines]
  simp [addTokens, Line.text]

theorem text_eq (adds : before.Adds text after) : after.text = before.text ++ text := by
  obtain ⟨tokens, later, added, rfl⟩ := adds
  rw [text_of_lines added.lines rfl, List.append_assoc]
  rfl

theorem size_eq (adds : before.Adds text after) : after.size = before.size + text.count '\n' := by
  have lengths := congrArg List.length adds.map_text_lines
  have pieces := Text.length_split '\n' text
  simp only [List.length_map, length_lines, List.length_append, List.length_cons, Text.split]
    at lengths pieces
  have oldSize : before.size = before.above.length + 1 := rfl
  omega

end Adds

end Buffer

end CodeWriter
