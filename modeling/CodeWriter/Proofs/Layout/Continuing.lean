import CodeWriter.Proofs.Layout.Content
import CodeWriter.Proofs.Layout.Visible

/-! No rule visits the last two lines, so laying out a beginning first changes nothing later. -/

namespace CodeWriter

namespace Line

theorem firstVisible?_of_prefix {line longer : Line} (extended : line.tokens <+: longer.tokens)
    (visible : line.isBlank = false) : longer.firstVisible? = line.firstVisible? := by
  obtain ⟨added, tokens⟩ := extended
  cases first : line.firstVisible? with
  | none => simp [firstVisible?_eq_none_iff.mp first] at visible
  | some token =>
      unfold firstVisible? at first ⊢
      rw [← tokens, List.find?_append, first]
      rfl

theorem isBlank_of_prefix {line longer : Line} (extended : line.tokens <+: longer.tokens)
    (visible : line.isBlank = false) : longer.isBlank = false := by
  obtain ⟨added, tokens⟩ := extended
  unfold isBlank at visible ⊢
  rw [← tokens, List.all_append, visible]
  rfl

end Line

namespace Layout

section Ending

variable {unit indent : Int} {before : List Line} {line last next : Line}

theorem laid_cases (natural : 0 ≤ unit)
    (indented : Indented unit indent (before ++ [line, last])) {laid : List Line}
    (laidOut : before.foldr (spaced unit) [line, last] = laid ++ [last]) :
    (∃ lead, laid = lead ++ [line]) ∨
      ∃ start edge lead, visible before = start ++ [edge] ∧ edge.isBlank = false ∧
        line.isBlank = false ∧ edge.precedesComment line = false ∧
        edge.endsBlock line last = true ∧ laid = lead ++ [line, line.spacerAfter unit] := by
  have twoLines : 2 ≤ [line, last].length := Nat.le_refl 2
  have withoutBlank := indented.visible
  rw [foldr_spaced_visible unit before twoLines] at laidOut
  have shape : ∀ lead tail : List Line, lead ++ tail ++ [last] = laid ++ [last] →
      laid = lead ++ tail := fun _ _ same => (List.append_cancel_right same).symm
  rcases List.eq_nil_or_concat (visible before) with noLines | ⟨start, edge, ends⟩
  · rw [noLines] at laidOut
    exact .inl ⟨[], shape [] [line] laidOut⟩
  have twoNonempty : [line, last] ≠ [] := List.cons_ne_nil _ _
  have threeNonempty : [line, line.spacerAfter unit, last] ≠ [] := List.cons_ne_nil _ _
  have edgeVisible : edge.isBlank = false := by
    have member : edge ∈ visible before := by simp [ends]
    simpa using (List.mem_filter.mp member).2
  rw [List.concat_eq_append] at ends
  rw [ends, List.append_assoc] at withoutBlank
  rw [ends, List.foldr_append, List.foldr_cons, List.foldr_nil] at laidOut
  rcases spaced_cases unit edge line last [] with ⟨blank, _⟩ | ⟨_, _, same⟩ |
    ⟨_, noComment, _, closes, same⟩ | ⟨_, _, _, _, same⟩
  · simp [edgeVisible] at blank
  · rw [same] at laidOut
    obtain ⟨first, longer, ended⟩ := exists_foldr_spaced_append unit start edge
      [edge.spacerAfter unit] twoNonempty
    exact .inl ⟨first :: longer, shape _ _ (by simpa using ended.symm.trans laidOut)⟩
  · rw [same] at laidOut
    obtain ⟨first, longer, ended⟩ := exists_foldr_spaced_append unit start edge [] threeNonempty
    obtain ⟨inherited, fromEdge⟩ := withoutBlank.of_append
    have lineVisible := fromEdge.isBlank_of_endsBlock natural closes
    refine .inr ⟨start, edge, first :: longer, ends, edgeVisible, lineVisible, noComment, closes,
      ?_⟩
    exact shape _ _ (by simpa using ended.symm.trans laidOut)
  · rw [same] at laidOut
    obtain ⟨first, longer, ended⟩ := exists_foldr_spaced_append unit start edge [] twoNonempty
    exact .inl ⟨first :: longer, shape _ _ (by simpa using ended.symm.trans laidOut)⟩

theorem foldr_spaced_of_spacer {edge : Line} {start lead : List Line} (natural : 0 ≤ unit)
    (leads : visible lead = start ++ [edge]) (edgeVisible : edge.isBlank = false)
    (lineVisible : line.isBlank = false) (noComment : edge.precedesComment line = false)
    (closes : edge.endsBlock line next = true) :
    (lead ++ [line, line.spacerAfter unit]).foldr (spaced unit) [next] =
      (start ++ [edge]).foldr (spaced unit) [line, next] := by
  obtain ⟨stepsBack, level, _⟩ := endsBlock_iff.mp closes
  have noBlock : edge.precedesBlock line next = false := by
    have different : edge.indent ≠ line.indent := by omega
    simp [Line.precedesBlock, different]
  have three : 2 ≤ [line, line.spacerAfter unit, next].length := by simp
  calc
    (lead ++ [line, line.spacerAfter unit]).foldr (spaced unit) [next] =
        lead.foldr (spaced unit) [line, line.spacerAfter unit, next] := by
      rw [List.foldr_append, List.foldr_cons, List.foldr_cons, List.foldr_nil, spaced_singleton,
        spaced_before_spacer natural lineVisible level]
    _ = start.foldr (spaced unit) [edge, line, line.spacerAfter unit, next] := by
      rw [foldr_spaced_visible unit lead three, leads, List.foldr_append, List.foldr_cons,
        List.foldr_nil, spaced_before_closing edgeVisible noComment stepsBack]
    _ = (start ++ [edge]).foldr (spaced unit) [line, next] := by
      rw [List.foldr_append, List.foldr_cons, List.foldr_nil,
        spaced_of_endsBlock edgeVisible noComment noBlock closes]

/-- Going on from the lines that the layout of a beginning leaves above its last line: when lines
follow, or when the one that follows has the level of the last line, the spacing is that of the
beginning as it was. -/
theorem foldr_spaced_of_laid {above : List Line} (natural : 0 ≤ unit)
    (indented : Indented unit indent (above ++ [last])) {laid rest : List Line}
    (laidOut : (above ++ [last]).foldr (spaced unit) [] = laid ++ [last])
    (following : 2 ≤ rest.length ∨ ∃ next, rest = [next] ∧
      (last.isBlank = false → next.isBlank = false ∧ next.indent = last.indent)) :
    laid.foldr (spaced unit) rest = above.foldr (spaced unit) rest := by
  have sameVisible : visible laid = visible above := by
    have whole := visible_foldr_spaced unit (above ++ [last]) []
    rw [laidOut, List.append_nil, visible_append, visible_append] at whole
    exact List.append_cancel_right whole
  rcases following with two | ⟨next, rfl, level⟩
  · rw [foldr_spaced_visible unit laid two, sameVisible, ← foldr_spaced_visible unit above two]
  rcases List.eq_nil_or_concat above with rfl | ⟨before, line, ends⟩
  · have noLines : laid = [] := by simpa using laidOut
    rw [noLines]
  rw [List.concat_eq_append] at ends
  subst ends
  have twoLines : 2 ≤ [line, next].length := Nat.le_refl 2
  rw [List.append_assoc] at indented
  have laidBefore : before.foldr (spaced unit) [line, last] = laid ++ [last] := by
    simpa using laidOut
  rw [List.foldr_append, List.foldr_cons, List.foldr_nil, spaced_singleton,
    foldr_spaced_visible unit before twoLines]
  rcases laid_cases natural indented laidBefore with ⟨lead, rfl⟩ |
    ⟨start, edge, lead, ends, edgeVisible, lineVisible, noComment, closes, rfl⟩
  · rw [visible_append, visible_append] at sameVisible
    rw [List.foldr_append, List.foldr_cons, List.foldr_nil, spaced_singleton,
      foldr_spaced_visible unit lead twoLines, List.append_cancel_right sameVisible]
  · -- The spacer was brought in by a line at the level of `last`, and `next` has that level too.
    obtain ⟨stepsBack, sameLevel, lastVisible⟩ := endsBlock_iff.mp closes
    obtain ⟨nextVisible, nextLevel⟩ := level lastVisible
    have closesNext : edge.endsBlock line next = true :=
      endsBlock_iff.mpr ⟨stepsBack, sameLevel.trans nextLevel.symm, nextVisible⟩
    have leads : visible lead = start ++ [edge] := by
      have spacerGone : visible [line, line.spacerAfter unit] = visible [line] := by
        simp [visible, List.filter_cons]
      rw [visible_append, visible_append, spacerGone] at sameVisible
      rw [List.append_cancel_right sameVisible, ends]
    rw [foldr_spaced_of_spacer natural leads edgeVisible lineVisible noComment closesNext, ends]

end Ending

theorem indentFrom_append (unit indent : Int) (first second : List Line) :
    indentFrom unit indent (first ++ second) =
      indentFrom unit indent first ++
        indentFrom unit (closingIndentFrom unit indent first) second := by
  induction first generalizing indent with
  | nil => rfl
  | cons line rest ih => rw [List.cons_append, indentFrom_cons, ih]; rfl

theorem indent_append (unit : Int) (first second : List Line) :
    indent unit (first ++ second) =
      indent unit first ++ indentFrom unit (closingIndent unit first) second :=
  indentFrom_append unit 0 first second

theorem space_append (unit : Int) (first second : List Line) :
    space unit (first ++ second) =
      (indent unit first).foldr (spaced unit)
        ((indentFrom unit (closingIndent unit first) second).foldr (spaced unit) []) := by
  rw [space, indent_append, List.foldr_append]

theorem two_le_foldr_spaced (unit : Int) {lines : List Line} (two : 2 ≤ lines.length) :
    2 ≤ (lines.foldr (spaced unit) []).length := by
  match lines with
  | [] => simp at two
  | [last] => simp at two
  | [line, last] => exact Nat.le_refl 2
  | line :: next :: afterNext :: rest =>
      have enough : 2 ≤ (next :: afterNext :: rest).length := by simp
      exact Nat.le_trans (two_le_foldr_spaced unit enough) (length_le_spaced unit line _)

/-- The layout of lines that go on from a last line which may have grown is the same when the lines
above it are those that a layout has left there. -/
theorem space_continued {unit : Int} (natural : 0 ≤ unit) {above laid : List Line}
    {last placed line : Line} (laidOut : space unit (above ++ [last]) = laid ++ [placed])
    (extended : last.tokens <+: line.tokens) (later : List Line) :
    space unit (laid ++ line :: later) = space unit (above ++ line :: later) := by
  have lastPlaced : last.placedAt unit (closingIndent unit above) = placed := by
    have ends := getLast?_space unit (above ++ [last])
    rw [laidOut, indent_append] at ends
    simpa using ends.symm
  have laidIndented := indent_space unit (above ++ [last])
  rw [laidOut, indent_append] at laidIndented
  obtain ⟨same, edge⟩ := List.append_inj' laidIndented rfl
  have closing : closingIndent unit laid = closingIndent unit above := by
    have placedAgain : last.placedAt unit (closingIndent unit laid) = placed := by
      rw [← lastPlaced] at edge ⊢
      simpa using edge
    have indents := congrArg Line.indent (placedAgain.trans lastPlaced.symm)
    unfold Line.placedAt at indents
    dsimp only at indents
    split at indents <;> omega
  have spacedAbove : (indent unit above ++ [placed]).foldr (spaced unit) [] = laid ++ [placed] := by
    rw [← laidOut, space_append, List.foldr_append, indentFrom_cons, lastPlaced]
    rfl
  have aboveIndented : Indented unit 0 (indent unit above ++ [placed]) := by
    have whole := indented_indentFrom unit 0 (above ++ [last])
    rw [indentFrom_append, indentFrom_cons] at whole
    rwa [← lastPlaced]
  rw [space_append, space_append, closing, same]
  apply foldr_spaced_of_laid natural aboveIndented spacedAbove
  cases later with
  | cons next more =>
      left
      apply two_le_foldr_spaced
      simp
  | nil =>
      refine .inr ⟨line.placedAt unit (closingIndent unit above), rfl, ?_⟩
      intro visible
      rw [← lastPlaced] at visible ⊢
      have lastVisible : last.isBlank = false := visible
      refine ⟨Line.isBlank_of_prefix extended lastVisible, ?_⟩
      have sameEdge : line.startsClosing = last.startsClosing := by
        unfold Line.startsClosing
        rw [Line.firstVisible?_of_prefix extended lastVisible]
      simp only [Line.placedAt, sameEdge]

end Layout

/-- A line without what a layout is about to give it. -/
def Line.unplaced (options : Options) (line : Line) : Line :=
  if options.indents then { line with indent := 0 } else line

@[simp] theorem Line.tokens_unplaced (options : Options) (line : Line) :
    (line.unplaced options).tokens = line.tokens := by
  unfold unplaced
  split <;> rfl

namespace Layout

theorem indentFrom_map_unplaced (options : Options) (indents : options.indents = true)
    (unit indent : Int) (lines : List Line) :
    indentFrom unit indent (lines.map (Line.unplaced options)) =
      indentFrom unit indent lines := by
  have placed : ∀ (line : Line) indent,
      (line.unplaced options).placedAt unit indent = line.placedAt unit indent := by
    intro line indent
    rw [Line.unplaced, if_pos indents]
    rfl
  induction lines generalizing indent with
  | nil => rfl
  | cons line rest ih => rw [List.map_cons, indentFrom_cons, indentFrom_cons, placed, ih]

@[simp] theorem arrange_map_unplaced (options : Options) (lines : List Line) :
    arrange options (lines.map (Line.unplaced options)) = arrange options lines := by
  cases indents : options.indents with
  | true =>
      unfold arrange space indent
      simp [indents, indentFrom_map_unplaced options indents]
  | false =>
      have same : Line.unplaced options = id := by
        funext line
        simp [Line.unplaced, indents]
      rw [same, List.map_id]

theorem arrange_congr {options : Options} {first second : List Line}
    (alike : first.map (Line.unplaced options) = second.map (Line.unplaced options)) :
    arrange options first = arrange options second := by
  rw [← arrange_map_unplaced, alike, arrange_map_unplaced]

theorem unplaced_of_arrange {options : Options} {above laid : List Line} {last placed : Line}
    (laidOut : arrange options (above ++ [last]) = laid ++ [placed]) :
    placed.unplaced options = last.unplaced options := by
  unfold arrange at laidOut
  split at laidOut
  · rename_i indents
    have ends := getLast?_space options.indent (above ++ [last])
    rw [laidOut, indent_append] at ends
    simp only [List.getLast?_append, indentFrom_cons, indentFrom_nil, List.getLast?_singleton,
      Option.some_or, Option.some.injEq] at ends
    simp [ends, Line.unplaced, indents, Line.placedAt]
  · have ends := List.append_inj_right' laidOut rfl
    rw [List.singleton_inj.mp ends]

theorem arrange_continued {options : Options} {above laid : List Line} {last placed line : Line}
    (laidOut : arrange options (above ++ [last]) = laid ++ [placed])
    (extended : last.tokens <+: line.tokens) (later : List Line) :
    arrange options (laid ++ line :: later) = arrange options (above ++ line :: later) := by
  unfold arrange at laidOut ⊢
  split at laidOut
  · rename_i indents
    rw [if_pos indents, if_pos indents]
    exact space_continued (Int.natCast_nonneg _) laidOut extended later
  · rw [List.append_inj_left' laidOut rfl]

theorem arrange_arrange (options : Options) (lines : List Line) :
    arrange options (arrange options lines) = arrange options lines := by
  rcases List.eq_nil_or_concat lines with rfl | ⟨above, last, ends⟩
  · unfold arrange
    split <;> rfl
  rw [List.concat_eq_append] at ends
  rcases List.eq_nil_or_concat (arrange options lines) with noLines | ⟨laid, placed, laidEnds⟩
  · exact absurd noLines (arrange_ne_nil options (by simp [ends]))
  rw [List.concat_eq_append] at laidEnds
  subst ends
  calc
    arrange options (arrange options (above ++ [last])) = arrange options (laid ++ [last]) := by
      rw [laidEnds]
      apply arrange_congr
      simp [unplaced_of_arrange laidEnds]
    _ = arrange options (above ++ [last]) :=
      arrange_continued laidEnds (List.prefix_refl _) []

end Layout

end CodeWriter
