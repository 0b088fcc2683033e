import CodeWriter.Proofs.Layout.Continuing
import CodeWriter.Proofs.Layout.Nesting
import Mathlib.Tactic.Ring

namespace CodeWriter

namespace Layout

def openings (texts : List Text) : Nat :=
  texts.countP Text.opensAtEnd

def closings (texts : List Text) : Nat :=
  texts.countP Text.closesAtStart

/-- The blocks opened above a line less those closed above it or at its own start. -/
def depthAt (texts : List Text) (index : Nat) : Int :=
  openings (texts.take index) - closings (texts.take (index + 1))

/-- No line closes more than is opened above it, and in all as much is closed as opened. -/
structure Balanced (texts : List Text) : Prop where
  enough : ∀ index < texts.length,
    closings (texts.take (index + 1)) ≤ openings (texts.take index)
  level : closings texts = openings texts

@[simp] theorem openings_nil : openings [] = 0 := rfl

@[simp] theorem closings_nil : closings [] = 0 := rfl

@[simp] theorem openings_append (first second : List Text) :
    openings (first ++ second) = openings first + openings second :=
  List.countP_append

@[simp] theorem closings_append (first second : List Text) :
    closings (first ++ second) = closings first + closings second :=
  List.countP_append

theorem openings_cons (text : Text) (rest : List Text) :
    openings (text :: rest) = text.opensAtEnd.toNat + openings rest := by
  cases opens : text.opensAtEnd <;> simp [openings, opens, Nat.add_comm]

theorem closings_cons (text : Text) (rest : List Text) :
    closings (text :: rest) = text.closesAtStart.toNat + closings rest := by
  cases closes : text.closesAtStart <;> simp [closings, closes, Nat.add_comm]

theorem depthAt_cons_zero (text : Text) (rest : List Text) :
    depthAt (text :: rest) 0 = -text.closesAtStart.toNat := by
  simp [depthAt, closings_cons]

theorem depthAt_cons_succ (text : Text) (rest : List Text) (index : Nat) :
    depthAt (text :: rest) (index + 1) =
      text.opensAtEnd.toNat - text.closesAtStart.toNat + depthAt rest index := by
  simp only [depthAt, List.take_succ_cons, openings_cons, closings_cons]
  omega

theorem Balanced.depthAt_nonneg {texts : List Text} (balanced : Balanced texts) {index : Nat}
    (inside : index < texts.length) : 0 ≤ depthAt texts index := by
  have enough := balanced.enough index inside
  unfold depthAt
  omega

section Running

variable (unit depth : Int) (lines : List Line)

theorem indentFrom_eq_mapIdx :
    indentFrom unit (unit * depth) lines = lines.mapIdx fun index line =>
      { line with indent := unit * (depth + depthAt (lines.map Line.text) index) } := by
  induction lines generalizing depth with
  | nil => rfl
  | cons line rest ih =>
      have first : depth + depthAt (line.text :: rest.map Line.text) 0 =
          depth - line.closings := by
        rw [depthAt_cons_zero, Line.closings_eq]
        omega
      have later (index : Nat) : depth + depthAt (line.text :: rest.map Line.text) (index + 1) =
          depth - line.closings + line.openings + depthAt (rest.map Line.text) index := by
        rw [depthAt_cons_succ, Line.closings_eq, Line.openings_eq]
        omega
      rw [indentFrom_cons, nextIndent_placedAt, placedAt_eq, ih, List.mapIdx_cons]
      simp only [List.map_cons, first, later]

theorem closingIndentFrom_eq :
    closingIndentFrom unit (unit * depth) lines =
      unit * (depth + (openings (lines.map Line.text) - closings (lines.map Line.text))) := by
  induction lines generalizing depth with
  | nil => simp [closingIndentFrom]
  | cons line rest ih =>
      rw [closingIndentFrom, nextIndent_placedAt, ih, List.map_cons, openings_cons, closings_cons,
        ← Line.openings_eq, ← Line.closings_eq]
      push_cast
      ring

theorem indent_eq_mapIdx :
    indent unit lines = lines.mapIdx fun index line =>
      { line with indent := unit * depthAt (lines.map Line.text) index } := by
  have whole := indentFrom_eq_mapIdx unit 0 lines
  simpa [indent] using whole

theorem closingIndent_eq :
    closingIndent unit lines =
      unit * (openings (lines.map Line.text) - closings (lines.map Line.text)) := by
  have whole := closingIndentFrom_eq unit 0 lines
  simpa [closingIndent] using whole

end Running

theorem map_indent_indent_congr (unit : Int) {lines others : List Line}
    (same : others.map Line.text = lines.map Line.text) :
    (indent unit others).map Line.indent = (indent unit lines).map Line.indent := by
  have sameLength : others.length = lines.length := by
    simpa using congrArg List.length same
  rw [indent_eq_mapIdx, indent_eq_mapIdx, same]
  apply List.ext_getElem
  · simpa using sameLength
  · intro index _ _
    simp

theorem Balanced.le_indent_of_mem {unit depth : Int} (natural : 0 ≤ unit) {body : List Line}
    (balanced : Balanced (body.map Line.text)) {line : Line}
    (member : line ∈ indentFrom unit (unit * depth) body) : unit * depth ≤ line.indent := by
  rw [indentFrom_eq_mapIdx] at member
  obtain ⟨index, inside, rfl⟩ := List.mem_mapIdx.mp member
  have deep : 0 ≤ depthAt (body.map Line.text) index :=
    balanced.depthAt_nonneg (by simpa using inside)
  exact Int.mul_le_mul_of_nonneg_left (by omega) natural

theorem Balanced.indentFrom_block {unit : Int} (natural : 0 ≤ unit) (depth : Int)
    {opener closer : Line} (opens : opener.text.opensAtEnd = true)
    (closes : closer.text.closesAtStart = true) {body : List Line}
    (balanced : Balanced (body.map Line.text)) (after : List Line) :
    ∃ level inner rest, indentFrom unit (unit * depth) (opener :: (body ++ closer :: after)) =
        { opener with indent := level } :: (inner ++ { closer with indent := level } :: rest) ∧
      inner.length = body.length ∧ ∀ line ∈ inner, level + unit ≤ line.indent := by
  let level := depth - opener.closings
  have opening : opener.openings = 1 := by
    rw [Line.openings_eq, opens]
    rfl
  have closing : closer.closings = 1 := by
    rw [Line.closings_eq, closes]
    rfl
  have back : closingIndentFrom unit (unit * (level + 1)) body = unit * (level + 1) := by
    rw [closingIndentFrom_eq, balanced.level, Int.sub_self, Int.add_zero]
  have opened := placedAt_eq unit depth opener
  have closed : closer.placedAt unit (unit * (level + 1)) =
      { closer with indent := unit * level } := by
    rw [placedAt_eq, closing, Int.natCast_one, Int.add_sub_cancel]
  have inherited := nextIndent_placedAt unit depth opener
  rw [opening, Int.natCast_one] at inherited
  refine ⟨unit * level, indentFrom unit (unit * (level + 1)) body,
    indentFrom unit ((closer.placedAt unit (unit * (level + 1))).nextIndent unit) after,
    ?_, length_indentFrom _ _ body, ?_⟩
  · rw [indentFrom_cons, inherited, opened, indentFrom_append, back, indentFrom_cons, closed]
  · intro line member
    have inside := balanced.le_indent_of_mem natural member
    rwa [Int.mul_add, Int.mul_one] at inside

/-- The indent of every line and the one behind the last, as counts of the lines that open a block
at their end and of those that close one at their start. -/
theorem indents_are_counts (unit : Int) (lines : List Line) :
    let texts := lines.map Line.text
    (indent unit lines = lines.mapIdx fun index line =>
        { line with
          indent := unit * (openings (texts.take index) - closings (texts.take (index + 1))) }) ∧
      closingIndent unit lines = unit * (openings texts - closings texts) ∧
      (∀ others : List Line, others.map Line.text = texts →
        (indent unit others).map Line.indent = (indent unit lines).map Line.indent ∧
          closingIndent unit others = closingIndent unit lines) ∧
      ∀ before opener body closer after,
        lines = before ++ [opener] ++ body ++ [closer] ++ after →
        opener.text.opensAtEnd = true → closer.text.closesAtStart = true →
        Balanced (body.map Line.text) → 0 ≤ unit →
        ∃ outer level inner rest,
          indent unit lines = outer ++ [{ opener with indent := level }] ++ inner ++
              [{ closer with indent := level }] ++ rest ∧
            outer.length = before.length ∧ inner.length = body.length ∧
            ∀ line ∈ inner, level + unit ≤ line.indent := by
  intro texts
  refine ⟨indent_eq_mapIdx unit lines, closingIndent_eq unit lines, ?_, ?_⟩
  · intro others same
    refine ⟨map_indent_indent_congr unit same, ?_⟩
    rw [closingIndent_eq, closingIndent_eq, same]
  · rintro before opener body closer after split opens closes balanced natural
    obtain ⟨level, inner, rest, block, sameLength, further⟩ :=
      balanced.indentFrom_block natural
        (openings (before.map Line.text) - closings (before.map Line.text)) opens closes after
    refine ⟨indent unit before, level, inner, rest, ?_, length_indentFrom _ _ before, sameLength,
      further⟩
    rw [← closingIndent_eq] at block
    have whole : lines = before ++ opener :: (body ++ closer :: after) := by
      simp [split]
    rw [whole, indent_append, block]
    simp

/-- A block inside a call, with a line in it that closes one block and opens another, and a closing
line that opens the next block. The same lines take the same indents cut into single characters. -/
theorem indents_are_counts_around_else :
    let line (text : String) := Line.ofTexts [text.toList]
    let before := [line "x(\x7b"]
    let opener := line "if (a) \x7b"
    let body := [line "b(\x7b", line "", line "\x7d, [", line "c", line "])"]
    let closer := line "\x7d else \x7b"
    let after := [line "d;", line "\x7d", line "\x7d)"]
    let lines := before ++ [opener] ++ body ++ [closer] ++ after
    let cut := lines.map fun line => Line.ofTexts (line.text.map fun c => [c])
    opener.text.opensAtEnd = true ∧ closer.text.closesAtStart = true ∧
      Balanced (body.map Line.text) ∧
      (indent 2 cut).map Line.indent = [0, 2, 4, 6, 4, 6, 4, 2, 4, 2, 0] ∧
      closingIndent 2 cut = 0 ∧
      ∃ outer level inner rest,
        indent 2 lines = outer ++ [{ opener with indent := level }] ++ inner ++
            [{ closer with indent := level }] ++ rest ∧
          outer.length = 1 ∧ inner.length = 5 ∧ ∀ line ∈ inner, level + 2 ≤ line.indent := by
  intro line before opener body closer after lines cut
  obtain ⟨counted, closing, sameTexts, blocks⟩ := indents_are_counts 2 lines
  have opens : opener.text.opensAtEnd = true := by decide
  have closes : closer.text.closesAtStart = true := by decide
  have balanced : Balanced (body.map Line.text) := ⟨by decide, by decide⟩
  obtain ⟨sameIndents, sameClosing⟩ := sameTexts cut (by decide)
  refine ⟨opens, closes, balanced, ?_, ?_,
    blocks before opener body closer after rfl opens closes balanced (by decide)⟩
  · rw [sameIndents, counted]
    decide
  · rw [sameClosing, closing]
    decide

end Layout

end CodeWriter
