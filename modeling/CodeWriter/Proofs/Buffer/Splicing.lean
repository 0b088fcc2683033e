import CodeWriter.Proofs.Buffer.Growth
import CodeWriter.Proofs.Buffer.Nesting

/-! On one line, a token that starts a comment buries what the rows below its own have to show. -/

namespace CodeWriter

def Token.startsComment (token : Token) : Bool :=
  token.text.startsWith Line.commentStart

namespace Line

def hasComment (line : Line) : Bool :=
  line.tokens.any Token.startsComment

/-- The tokens of the rows, in order. Blank tokens may come in, and a row without text may be left
out. -/
inductive Spliced : List Line → List Token → Prop
  | nil {gap : List Token} (blank : ∀ token ∈ gap, token.isBlank = true) : Spliced [] gap
  | row {row : Line} {rest : List Line} {gap tokens : List Token}
      (blank : ∀ token ∈ gap, token.isBlank = true) (spliced : Spliced rest tokens) :
      Spliced (row :: rest) (gap ++ row.tokens ++ tokens)
  | skip {row : Line} {rest : List Line} {tokens : List Token} (blank : row.isBlank = true)
      (spliced : Spliced rest tokens) : Spliced (row :: rest) tokens

/-- On the line that the rows are spliced to, a token that starts a comment is followed by a visible
token of a row below its own. -/
def Buries (rows : List Line) (tokens : List Token) : Prop :=
  ∃ above row below front back before comment after,
    rows = above ++ row :: below ∧ row.tokens = before ++ comment :: after ∧
      tokens = front ++ (before ++ comment :: after) ++ back ∧
      Spliced above front ∧ Spliced below back ∧
      comment.startsComment = true ∧ ∃ token ∈ back, token.isBlank = false

/-- A row with a comment has a row below it that shows something. -/
def ShowsBelowComment (rows : List Line) : Prop :=
  ∃ above row below, rows = above ++ row :: below ∧ row.hasComment = true ∧
    ∃ later ∈ below, ∃ token ∈ later.tokens, token.isBlank = false

theorem not_showsBelowComment_nil : ¬ShowsBelowComment [] := by
  rintro ⟨above, row, below, parts, _⟩
  exact List.append_ne_nil_of_right_ne_nil above (List.cons_ne_nil row below) parts.symm

theorem showsBelowComment_cons {row : Line} {below : List Line} :
    ShowsBelowComment (row :: below) ↔
      (row.hasComment = true ∧ ∃ later ∈ below, ∃ token ∈ later.tokens, token.isBlank = false) ∨
        ShowsBelowComment below := by
  constructor
  · rintro ⟨_ | ⟨first, above⟩, comment, rest, parts, shown⟩
    · cases parts
      exact .inl shown
    · cases parts
      exact .inr ⟨above, comment, rest, rfl, shown⟩
  · rintro (shown | ⟨above, comment, rest, rfl, shown⟩)
    · exact ⟨[], row, below, rfl, shown⟩
    · exact ⟨row :: above, comment, rest, rfl, shown⟩

instance decidableShowsBelowComment : (rows : List Line) → Decidable (ShowsBelowComment rows)
  | [] => .isFalse not_showsBelowComment_nil
  | _ :: below =>
      have := decidableShowsBelowComment below
      decidable_of_iff _ showsBelowComment_cons.symm

theorem isBlank_token_of_isBlank {line : Line} (blank : line.isBlank = true) {token : Token}
    (member : token ∈ line.tokens) : token.isBlank = true := by
  obtain noText : token.text = [] := List.isEmpty_iff.mp (List.all_eq_true.mp blank token member)
  simp [Token.isBlank, noText]

theorem isBlank_of_hasComment {line : Line} (comment : line.hasComment = true) :
    line.isBlank = false := by
  obtain ⟨token, member, starts⟩ := List.any_eq_true.mp comment
  rw [← Bool.not_eq_true]
  intro blank
  have noText : token.text = [] := List.isEmpty_iff.mp (List.all_eq_true.mp blank token member)
  rw [Token.startsComment, noText] at starts
  cases starts

namespace Spliced

variable {rows : List Line} {tokens : List Token}

theorem empty : Spliced [] [] :=
  .nil (List.forall_mem_nil _)

theorem behind_row {row : Line} (spliced : Spliced rows tokens) :
    Spliced (row :: rows) (row.tokens ++ tokens) := by
  have noGap : ∀ token ∈ ([] : List Token), token.isBlank = true := List.forall_mem_nil _
  exact .row noGap spliced

theorem behind_gap {row : Line} {gap : Token} (blank : gap.isBlank = true)
    (spliced : Spliced rows tokens) : Spliced (row :: rows) (gap :: row.tokens ++ tokens) := by
  have onlyGap : ∀ token ∈ [gap], token.isBlank = true := by simpa using blank
  exact .row onlyGap spliced

theorem exists_visible_iff (spliced : Spliced rows tokens) :
    (∃ token ∈ tokens, token.isBlank = false) ↔
      ∃ row ∈ rows, ∃ token ∈ row.tokens, token.isBlank = false := by
  induction spliced with
  | nil blank => simpa using blank
  | @row row rest gap tokens blank spliced ih =>
      have noGap : ¬∃ token ∈ gap, token.isBlank = false := by simpa using blank
      simp only [List.mem_append, List.mem_cons, or_and_right, exists_or, exists_eq_left, noGap,
        false_or, ih]
  | @skip row rest tokens blank spliced ih =>
      have noRow : ¬∃ token ∈ row.tokens, token.isBlank = false := by
        rintro ⟨token, member, visible⟩
        rw [isBlank_token_of_isBlank blank member] at visible
        cases visible
      simp only [List.mem_cons, or_and_right, exists_or, exists_eq_left, noRow, false_or, ih]

theorem split {above below : List Line} {row : Line} (visible : row.isBlank = false)
    (spliced : Spliced (above ++ row :: below) tokens) :
    ∃ front back, tokens = front ++ row.tokens ++ back ∧ Spliced above front ∧
      Spliced below back := by
  induction above generalizing tokens with
  | nil =>
      cases spliced with
      | row blank later => exact ⟨_, _, rfl, .nil blank, later⟩
      | skip blank later =>
          rw [visible] at blank
          cases blank
  | cons first rest ih =>
      cases spliced with
      | row blank later =>
          obtain ⟨front, back, rfl, before, after⟩ := ih later
          exact ⟨_, back, by simp only [List.append_assoc], .row blank before, after⟩
      | skip blank later =>
          obtain ⟨front, back, rfl, before, after⟩ := ih later
          exact ⟨front, back, rfl, .skip blank before, after⟩

theorem buries_iff (spliced : Spliced rows tokens) :
    Buries rows tokens ↔ ShowsBelowComment rows := by
  constructor
  · rintro ⟨above, row, below, front, back, before, comment, after, parts, onRow, _, _, later,
      starts, visible⟩
    refine ⟨above, row, below, parts, List.any_eq_true.mpr ⟨comment, ?_, starts⟩,
      later.exists_visible_iff.mp visible⟩
    simp [onRow]
  · rintro ⟨above, row, below, rfl, hasComment, visible⟩
    obtain ⟨comment, member, starts⟩ := List.any_eq_true.mp hasComment
    obtain ⟨before, after, onRow⟩ := List.append_of_mem member
    obtain ⟨front, back, rfl, earlier, later⟩ := split (isBlank_of_hasComment hasComment) spliced
    exact ⟨above, row, below, front, back, before, comment, after, rfl, onRow, by rw [onRow],
      earlier, later, starts, later.exists_visible_iff.mpr visible⟩

end Spliced

theorem spliced_joinRest : (lines : List Line) → Spliced lines (joinRest lines)
  | [] => .empty
  | [last] => by
      have lastRow : Spliced [last] (last.tokens ++ []) := .behind_row .empty
      rwa [List.append_nil] at lastRow
  | line :: next :: rest => (spliced_joinRest (next :: rest)).behind_gap (by decide)

theorem spliced_joinTokens (lines : List Line) : Spliced lines (joinTokens lines) := by
  match lines with
  | [] => exact .empty
  | [line] => exact Spliced.empty.behind_row
  | first :: second :: rest =>
      rw [joinTokens, List.append_assoc]
      exact (spliced_joinRest rest).behind_row.behind_row

end Line

namespace Buffer

variable {buffer : Buffer}

theorem spliced_collapse {above : List Line} {line : Line}
    (opening : buffer.above = above ++ [line]) :
    ∃ closed, buffer.collapse.lines = above ++ [closed] ∧
      Line.Spliced [line, buffer.current, { tokens := [buffer.stamp [' ', '}']] }]
        closed.tokens := by
  have closing : Line.Spliced [{ tokens := [buffer.stamp [' ', '}']] }]
      [buffer.stamp [' ', '}']] := .behind_row .empty
  refine ⟨_, lines_collapse opening, .behind_row ?_⟩
  unfold bodyTokens
  split
  · rename_i blank
    exact .skip blank closing
  · exact closing.behind_gap (by rfl)

theorem showsBelowComment_of_block {opening body : Line} :
    Line.ShowsBelowComment [opening, body, { tokens := [buffer.stamp [' ', '}']] }] ↔
      opening.hasComment = true ∨ body.hasComment = true := by
  have shown : (buffer.stamp [' ', '}']).isBlank = false := by rfl
  simp [Line.showsBelowComment_cons, Line.not_showsBelowComment_nil, shown]

def braceLine (buffer : Buffer) : Line :=
  { buffer.current with tokens := buffer.current.tokens ++ [buffer.stamp ['{']] }

theorem GrowsTo.closeBrace_spliced {before after : Buffer}
    (grown : before.openBrace.GrowsTo after) (width : Int) :
    ∃ closed, after.closeBrace before.openBrace.here width = .ok closed ∧
      (closed.lines = after.lines ++ [{ tokens := [after.stamp ['}']] }] ∨
        after.lines = before.above ++ [before.braceLine, after.current] ∧
          ∃ line, closed.lines = before.above ++ [line] ∧
            Line.Spliced
              [before.braceLine, after.current, { tokens := [after.stamp [' ', '}']] }]
              line.tokens) := by
  rcases grown.closeBrace_cases width with ⟨done, sameAbove⟩ | done
  · have opening : after.above = before.above ++ [before.braceLine] := sameAbove
    exact ⟨_, done, .inr ⟨by simp [lines, opening], spliced_collapse opening⟩⟩
  · exact ⟨_, done, .inl (lines_writeBelow_closing after)⟩

theorem GrowsTo.joinFrom_spliced {before after : Buffer} (grown : before.GrowsTo after)
    (width : Int) :
    ∃ joined, after.joinFrom before.here width = .ok joined ∧
      (joined = after ∨
        ∃ rows line, after.lines = before.above ++ rows ∧ joined.lines = before.above ++ [line] ∧
          (∀ row ∈ rows, row.isComment = false) ∧ Line.Spliced rows line.tokens) := by
  obtain ⟨line, later, lines, _⟩ := id grown
  obtain ⟨joined, done, result⟩ := grown.lines_joinFrom lines width
  refine ⟨joined, done, ?_⟩
  split at result
  · rename_i short
    refine .inr ⟨_, _, lines, result, ?_, Line.spliced_joinTokens _⟩
    simp only [Line.canJoin, Bool.and_eq_true, Bool.not_eq_true', List.any_eq_false,
      Bool.not_eq_true] at short
    exact short.1.2
  · exact .inl result

end Buffer

end CodeWriter
