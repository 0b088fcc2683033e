import CodeWriter.Proofs.Layout.Indentation

namespace CodeWriter

namespace Line

/-- No rule asks for a spacer at these lines. -/
structure Quiet (line next afterNext : Line) : Prop where
  noComment : line.precedesComment next = false
  noBlock : line.precedesBlock next afterNext = false
  noEnd : line.endsBlock next afterNext = false

theorem quiet_before_spacer {unit : Int} {line next : Line} (natural : 0 ≤ unit)
    (follows : next.indent ≤ line.nextIndent unit) : line.Quiet (line.spacerAfter unit) next where
  noComment := by simp [precedesComment]
  noBlock := by
    have noStep : ¬(line.nextIndent unit < next.indent) := by omega
    simp [precedesBlock, noStep]
  noEnd := by
    have passedOn := line.indent_le_nextIndent natural
    have noStep : ¬(line.nextIndent unit < line.indent) := by omega
    simp [endsBlock, noStep]

theorem quiet_before_closing (unit : Int) {line next : Line}
    (noComment : line.precedesComment next = false) (stepsBack : next.indent < line.indent) :
    line.Quiet next (next.spacerAfter unit) where
  noComment := noComment
  noBlock := by
    have different : line.indent ≠ next.indent := by omega
    simp [precedesBlock, different]
  noEnd := by simp [endsBlock]

end Line

namespace Layout

section Rules

variable {unit : Int} {line next afterNext : Line} {rest : List Line}

theorem spaced_of_isBlank (blank : line.isBlank = true) :
    spaced unit line (next :: afterNext :: rest) = next :: afterNext :: rest := by
  simp [spaced, blank]

theorem spaced_of_precedes (visible : line.isBlank = false)
    (rule : line.precedesComment next = true ∨ line.precedesBlock next afterNext = true) :
    spaced unit line (next :: afterNext :: rest) =
      line :: line.spacerAfter unit :: next :: afterNext :: rest := by
  by_cases comment : line.precedesComment next = true
  · simp [spaced, visible, comment]
  · have block := rule.resolve_left comment
    simp [spaced, visible, comment, block]

theorem spaced_of_endsBlock (visible : line.isBlank = false)
    (noComment : line.precedesComment next = false)
    (noBlock : line.precedesBlock next afterNext = false)
    (ends : line.endsBlock next afterNext = true) :
    spaced unit line (next :: afterNext :: rest) =
      line :: next :: next.spacerAfter unit :: afterNext :: rest := by
  simp [spaced, visible, noComment, noBlock, ends]

theorem spaced_of_no_rule (visible : line.isBlank = false)
    (noComment : line.precedesComment next = false)
    (noBlock : line.precedesBlock next afterNext = false)
    (noEnd : line.endsBlock next afterNext = false) :
    spaced unit line (next :: afterNext :: rest) = line :: next :: afterNext :: rest := by
  simp [spaced, visible, noComment, noBlock, noEnd]

end Rules

/-- Lines with their vertical spacing. Of the last two lines nothing is asked. -/
inductive Spaced (unit : Int) : List Line → Prop
  | short {lines : List Line} (few : lines.length ≤ 2) : Spaced unit lines
  | close {line next afterNext : Line} {rest : List Line}
      (visible : line.isBlank = false)
      (noComment : line.precedesComment next = false)
      (noBlock : line.precedesBlock next afterNext = false)
      (noEnd : line.endsBlock next afterNext = false)
      (later : Spaced unit (next :: afterNext :: rest)) :
      Spaced unit (line :: next :: afterNext :: rest)
  | before {line next afterNext : Line} {rest : List Line}
      (visible : line.isBlank = false)
      (rule : line.precedesComment next = true ∨ line.precedesBlock next afterNext = true)
      (later : Spaced unit (next :: afterNext :: rest)) :
      Spaced unit (line :: line.spacerAfter unit :: next :: afterNext :: rest)
  | after {line next afterNext : Line} {rest : List Line}
      (visible : line.isBlank = false)
      (nextVisible : next.isBlank = false)
      (noComment : line.precedesComment next = false)
      (noBlock : line.precedesBlock next afterNext = false)
      (ends : line.endsBlock next afterNext = true)
      (later : Spaced unit (next :: afterNext :: rest)) :
      Spaced unit (line :: next :: next.spacerAfter unit :: afterNext :: rest)

theorem endsBlock_iff {line next afterNext : Line} :
    line.endsBlock next afterNext = true ↔
      next.indent < line.indent ∧ next.indent = afterNext.indent ∧ afterNext.isBlank = false := by
  simp [Line.endsBlock, and_assoc]

theorem Indented.isBlank_of_endsBlock {unit indent : Int} {line next afterNext : Line}
    {rest : List Line} (natural : 0 ≤ unit)
    (indented : Indented unit indent (line :: next :: rest))
    (ends : line.endsBlock next afterNext = true) : next.isBlank = false := by
  obtain ⟨stepsBack, _, _⟩ := endsBlock_iff.mp ends
  obtain ⟨_, later⟩ := indented_cons.mp indented
  cases blank : next.isBlank with
  | false => rfl
  | true =>
      have inherited := later.indent_of_isBlank blank
      have passedOn := Line.indent_le_nextIndent natural line
      omega

theorem Spaced.cons {unit indent : Int} {line : Line} {rest : List Line} (natural : 0 ≤ unit)
    (indented : Indented unit indent (line :: rest)) (later : Spaced unit rest) :
    Spaced unit (spaced unit line rest) := by
  match rest with
  | [] => exact .short (by simp)
  | [last] => exact .short (by simp)
  | next :: afterNext :: more =>
      by_cases blank : line.isBlank = true
      · rw [spaced_of_isBlank blank]
        exact later
      have visible : line.isBlank = false := by simpa using blank
      by_cases precedes :
          line.precedesComment next = true ∨ line.precedesBlock next afterNext = true
      · rw [spaced_of_precedes visible precedes]
        exact .before visible precedes later
      have noComment : line.precedesComment next = false := by simp_all
      have noBlock : line.precedesBlock next afterNext = false := by simp_all
      cases ends : line.endsBlock next afterNext with
      | true =>
          rw [spaced_of_endsBlock visible noComment noBlock ends]
          have nextVisible := indented.isBlank_of_endsBlock natural ends
          exact .after visible nextVisible noComment noBlock ends later
      | false =>
          rw [spaced_of_no_rule visible noComment noBlock ends]
          exact .close visible noComment noBlock ends later

theorem spaced_foldr {unit indent : Int} {lines : List Line} (natural : 0 ≤ unit)
    (indented : Indented unit indent lines) : Spaced unit (lines.foldr (spaced unit) []) := by
  induction lines generalizing indent with
  | nil => exact .short (by simp)
  | cons line rest ih =>
      obtain ⟨placed, later⟩ := indented_cons.mp indented
      exact Spaced.cons natural (indented_cons.mpr ⟨placed, later.foldr_spaced⟩) (ih later)

/-- Between two lines of one level, the second one visible, stands no spacer: the lines after the
first are spaced on their own. -/
theorem Spaced.tail_of_level {unit : Int} {next afterNext : Line} {rest : List Line}
    (lines : Spaced unit (next :: afterNext :: rest)) (level : next.indent = afterNext.indent)
    (visible : afterNext.isBlank = false) : Spaced unit (afterNext :: rest) := by
  cases lines with
  | short few => exact .short (Nat.le_of_succ_le few)
  | close _ _ _ _ later => exact later
  | before => simp at visible
  | after _ _ _ _ ends _ =>
      have stepsBack := (endsBlock_iff.mp ends).1
      omega

theorem spaced_before_spacer {unit : Int} {next afterNext : Line} {rest : List Line}
    (natural : 0 ≤ unit) (nextVisible : next.isBlank = false)
    (level : next.indent = afterNext.indent) :
    spaced unit next (next.spacerAfter unit :: afterNext :: rest) =
      next :: next.spacerAfter unit :: afterNext :: rest := by
  have passedOn := Line.indent_le_nextIndent natural next
  have quiet : next.Quiet (next.spacerAfter unit) afterNext :=
    Line.quiet_before_spacer natural (by omega)
  exact spaced_of_no_rule nextVisible quiet.noComment quiet.noBlock quiet.noEnd

theorem spaced_before_closing {unit : Int} {line next afterNext : Line} {rest : List Line}
    (visible : line.isBlank = false) (noComment : line.precedesComment next = false)
    (stepsBack : next.indent < line.indent) :
    spaced unit line (next :: next.spacerAfter unit :: afterNext :: rest) =
      line :: next :: next.spacerAfter unit :: afterNext :: rest := by
  have quiet := Line.quiet_before_closing unit noComment stepsBack
  exact spaced_of_no_rule visible quiet.noComment quiet.noBlock quiet.noEnd

theorem foldr_spaced_of_spaced {unit : Int} (natural : 0 ≤ unit) :
    ∀ {lines : List Line}, Spaced unit lines → lines.foldr (spaced unit) [] = lines
  | [], _ => rfl
  | [_], _ => rfl
  | [_, _], _ => rfl
  | _ :: _ :: _ :: _, .short few => by simp at few
  | _ :: _ :: _ :: _, .close visible noComment noBlock noEnd later => by
      rw [List.foldr_cons, foldr_spaced_of_spaced natural later]
      exact spaced_of_no_rule visible noComment noBlock noEnd
  | line :: _ :: next :: _, .before visible rule later => by
      rw [List.foldr_cons, List.foldr_cons, foldr_spaced_of_spaced natural later,
        spaced_of_isBlank (line.isBlank_spacerAfter unit)]
      exact spaced_of_precedes visible rule
  | _ :: next :: _ :: _ :: rest,
      .after visible nextVisible noComment noBlock ends later => by
      obtain ⟨stepsBack, level, visibleAfter⟩ := endsBlock_iff.mp ends
      have fromAfter := foldr_spaced_of_spaced natural (later.tail_of_level level visibleAfter)
      have whole := foldr_spaced_of_spaced natural later
      rw [List.foldr_cons, fromAfter] at whole
      rw [List.foldr_cons, List.foldr_cons, List.foldr_cons, fromAfter]
      cases rest with
      | nil =>
          rw [spaced_singleton, spaced_before_spacer natural nextVisible level]
          exact spaced_before_closing visible noComment stepsBack
      | cons more rest =>
          rw [spaced_of_isBlank (next.isBlank_spacerAfter unit), whole]
          exact spaced_of_endsBlock visible noComment noBlock ends
termination_by lines => lines.length

/-- Spacing lines a second time changes nothing. -/
theorem space_space {unit : Int} (natural : 0 ≤ unit) (lines : List Line) :
    space unit (space unit lines) = space unit lines := by
  have whole : Spaced unit (space unit lines) :=
    spaced_foldr natural (indented_indentFrom unit 0 lines)
  rw [space, indent_space]
  exact foldr_spaced_of_spaced natural whole

/-- The first run gives the line after the block a spacer, in the part of the list that no run looks
at; the second run leaves it there. -/
theorem space_space_after_block :
    let lines := [Line.ofTexts ["if \x7b".toList], .ofTexts ["x".toList], .ofTexts ["\x7d".toList],
      .ofTexts ["y".toList]]
    (0 : Int) ≤ 2 ∧
      (space 2 lines).map Line.text =
        ["if \x7b".toList, "x".toList, "\x7d".toList, [], "y".toList] ∧
      space 2 (space 2 lines) = space 2 lines := by
  intro lines
  exact ⟨by decide, by decide, space_space (by decide) lines⟩

end Layout

end CodeWriter
