import CodeWriter.Proofs.Layout.Visible
import Mathlib.Data.List.Induction

/-! Places are those of the lines before the pass, while lines go and come in below. -/

namespace CodeWriter

namespace Layout

/-- What a step does at a place of the lines as they are then. There is no step where the line or
one of the two after it is missing. -/
def spaceAt (unit : Int) (lines : List Line) (place : Nat) : Option (List Line) :=
  match lines[place]?, lines[place + 1]?, lines[place + 2]? with
  | some line, some next, some afterNext =>
      if line.isBlank then some (lines.eraseIdx place)
      else if line.precedesComment next then
        some (lines.insertIdx (place + 1) (line.spacerAfter unit))
      else if line.precedesBlock next afterNext then
        some (lines.insertIdx (place + 1) (line.spacerAfter unit))
      else if line.endsBlock next afterNext then
        some (lines.insertIdx (place + 2) (next.spacerAfter unit))
      else some lines
  | _, _, _ => none

/-- The steps at all places but the last two, from the end to the start. -/
def sweep (unit : Int) (lines : List Line) : Option (List Line) :=
  (List.range (lines.length - 2)).reverse.foldlM (spaceAt unit) (indent unit lines)

theorem spaceAt_append (unit : Int) (above : List Line) (line : Line) {rest : List Line}
    (two : 2 ≤ rest.length) :
    spaceAt unit (above ++ line :: rest) above.length = some (above ++ spaced unit line rest) := by
  match rest with
  | [] => simp at two
  | [_] => simp at two
  | next :: afterNext :: rest =>
      have erased : (above ++ line :: next :: afterNext :: rest).eraseIdx above.length =
          above ++ next :: afterNext :: rest := by
        rw [List.eraseIdx_append_of_length_le (Nat.le_refl _), Nat.sub_self]
        rfl
      have inserted (further : Nat) (spacer : Line) :
          (above ++ line :: next :: afterNext :: rest).insertIdx (above.length + further) spacer =
            above ++ (line :: next :: afterNext :: rest).insertIdx further spacer :=
        List.modifyTailIdx_add _ further above _
      unfold spaceAt spaced
      simp only [List.getElem?_append_right (Nat.le_refl _),
        List.getElem?_append_right (Nat.le_add_right above.length _), Nat.sub_self,
        Nat.add_sub_cancel_left, List.getElem?_cons_zero, List.getElem?_cons_succ, erased, inserted]
      split
      · rfl
      · split
        · rfl
        · split
          · rfl
          · split <;> rfl

theorem sweep_append (unit : Int) (lines : List Line) {rest : List Line} (two : 2 ≤ rest.length) :
    (List.range lines.length).reverse.foldlM (spaceAt unit) (lines ++ rest) =
      some (lines.foldr (spaced unit) rest) := by
  induction lines using List.reverseRecOn generalizing rest with
  | nil => rfl
  | append_singleton lines line ih =>
      have enough := Nat.le_trans two (length_le_spaced unit line rest)
      rw [List.length_append, List.length_singleton, List.range_succ, List.reverse_concat,
        List.foldlM_cons, List.append_assoc, List.singleton_append,
        spaceAt_append unit lines line two, List.foldr_append]
      exact ih enough

/-- The pass comes through, and spaces the lines. -/
theorem sweep_eq_space (unit : Int) (lines : List Line) :
    sweep unit lines = some (space unit lines) := by
  have length : (indent unit lines).length = lines.length := length_indentFrom unit 0 lines
  unfold sweep space
  rw [← length]
  generalize indent unit lines = lines
  rcases lines.eq_nil_or_concat with rfl | ⟨above, last, rfl⟩
  · rfl
  rcases above.eq_nil_or_concat with rfl | ⟨above, next, rfl⟩
  · rfl
  · have two : 2 ≤ [next, last].length := Nat.le_refl 2
    simpa using sweep_append unit above two

/-- A property of every line that has two after it, and of these two. -/
def AllWindows (holds : Line → Line → Line → Prop) : List Line → Prop
  | line :: next :: afterNext :: rest =>
      holds line next afterNext ∧ AllWindows holds (next :: afterNext :: rest)
  | _ => True

namespace AllWindows

variable {holds : Line → Line → Line → Prop} {line next afterNext : Line} {above rest : List Line}

theorem tail (all : AllWindows holds (line :: rest)) : AllWindows holds rest := by
  match rest with
  | [] => trivial
  | [_] => trivial
  | _ :: _ :: _ => exact all.2

theorem cons (first : ∀ next afterNext more, rest = next :: afterNext :: more →
    holds line next afterNext) (all : AllWindows holds rest) : AllWindows holds (line :: rest) := by
  match rest with
  | [] => trivial
  | [_] => trivial
  | next :: afterNext :: more => exact ⟨first next afterNext more rfl, all⟩

theorem window (all : AllWindows holds (above ++ line :: next :: afterNext :: rest)) :
    holds line next afterNext := by
  induction above with
  | nil => exact all.1
  | cons first above ih => exact ih all.tail

end AllWindows

end Layout

namespace Line

/-- No step does anything at these lines, and if the first is a spacer, no other one follows. -/
def Rests (line next afterNext : Line) : Prop :=
  if line.isBlank then next.isBlank = false else line.Quiet next afterNext

theorem rests_of_isBlank {line next afterNext : Line} (blank : line.isBlank = true)
    (visible : next.isBlank = false) : line.Rests next afterNext := by
  rwa [Rests, if_pos blank]

theorem rests_of_quiet {line next afterNext : Line} (visible : line.isBlank = false)
    (quiet : line.Quiet next afterNext) : line.Rests next afterNext := by
  rwa [Rests, if_neg (by simp [visible])]

theorem isBlank_of_isComment {line : Line} (comment : line.isComment = true) :
    line.isBlank = false := by
  rw [← Bool.not_eq_true]
  intro blank
  simp [isComment, firstVisible?_eq_none_iff.mpr blank] at comment

end Line

namespace Layout

theorem Indented.indent_le {unit indent : Int} {line : Line} {rest : List Line}
    (natural : 0 ≤ unit) (indented : Indented unit indent (line :: rest)) :
    line.indent ≤ indent := by
  rw [← (indented_cons.mp indented).1, Line.placedAt]
  dsimp only
  split <;> omega

theorem Indented.isBlank_of_precedes {unit indent : Int} {line next afterNext : Line}
    {rest : List Line} (natural : 0 ≤ unit)
    (indented : Indented unit indent (next :: afterNext :: rest))
    (rule : line.precedesComment next = true ∨ line.precedesBlock next afterNext = true) :
    next.isBlank = false := by
  rcases rule with comment | block
  · simp only [Line.precedesComment, Bool.and_eq_true] at comment
    exact Line.isBlank_of_isComment comment.1
  · rw [← Bool.not_eq_true]
    intro blank
    have flat := (indented_cons.mp indented).2.indent_le natural
    rw [Line.nextIndent_of_isBlank unit blank] at flat
    have stepsIn : next.indent < afterNext.indent := by
      simp only [Line.precedesBlock, Bool.and_eq_true, decide_eq_true_eq] at block
      exact block.1.2
    omega

theorem Spaced.allWindows {unit indent : Int} {lines : List Line} (natural : 0 ≤ unit)
    (spaced : Spaced unit lines) (indented : Indented unit indent lines) :
    AllWindows Line.Rests lines := by
  induction spaced generalizing indent with
  | @short lines few =>
      match lines with
      | [] => trivial
      | [_] => trivial
      | [_, _] => trivial
      | _ :: _ :: _ :: _ => simp at few
  | close visible noComment noBlock noEnd _ ih =>
      exact ⟨Line.rests_of_quiet visible ⟨noComment, noBlock, noEnd⟩,
        ih (indented_cons.mp indented).2⟩
  | @before line next afterNext rest visible rule _ ih =>
      have below : Indented unit (line.nextIndent unit) (next :: afterNext :: rest) := by
        simpa using (indented_cons.mp (indented_cons.mp indented).2).2
      have nextVisible := below.isBlank_of_precedes natural rule
      exact ⟨Line.rests_of_quiet visible
          (Line.quiet_before_spacer natural (below.indent_le natural)),
        Line.rests_of_isBlank (line.isBlank_spacerAfter unit) nextVisible, ih below⟩
  | @after line next afterNext rest visible nextVisible noComment noBlock ends _ ih =>
      obtain ⟨stepsBack, level, visibleAfter⟩ := endsBlock_iff.mp ends
      have below : Indented unit (line.nextIndent unit)
          (next :: next.spacerAfter unit :: afterNext :: rest) := (indented_cons.mp indented).2
      obtain ⟨placed, further⟩ := indented_cons.mp below
      have behind : Indented unit (next.nextIndent unit) (afterNext :: rest) := by
        simpa using (indented_cons.mp further).2
      have windows := ih (indented_cons.mpr ⟨placed, behind⟩)
      have fromSpacer : AllWindows Line.Rests (next.spacerAfter unit :: afterNext :: rest) := by
        refine windows.tail.cons fun _ _ _ parts => ?_
        cases parts
        exact Line.rests_of_isBlank (next.isBlank_spacerAfter unit) visibleAfter
      exact ⟨Line.rests_of_quiet visible (Line.quiet_before_closing unit noComment stepsBack),
        Line.rests_of_quiet nextVisible
          (Line.quiet_before_spacer natural (behind.indent_le natural)), fromSpacer⟩

theorem Spaced.length_le_of_isBlank {unit : Int} {line : Line} {rest : List Line}
    (spaced : Spaced unit (line :: rest)) (blank : line.isBlank = true) : rest.length ≤ 1 := by
  cases spaced with
  | short few => exact Nat.le_of_succ_le_succ few
  | close visible _ _ _ _ => exact absurd (blank.symm.trans visible) (by decide)
  | before visible _ _ => exact absurd (blank.symm.trans visible) (by decide)
  | after visible _ _ _ _ _ => exact absurd (blank.symm.trans visible) (by decide)

theorem map_tokens_visible (lines : List Line) :
    (visible lines).map Line.tokens =
      (lines.map Line.tokens).filter fun tokens => !tokens.all Token.isEmpty := by
  rw [List.filter_map]
  rfl

/-- The pass never misses a line that it looks at, and it leaves a normal form. The visible lines
are those of the indented list, with their tokens and indents, and the last line is the last. Two
blank lines stand together at the end only, and a blank line comes first only where no more than two
lines are left. Every line has the indent that the brackets ask for, and at no visible line with two
after it does a rule ask for a spacer. -/
theorem sweep_leaves_normal_form {unit : Int} (natural : 0 ≤ unit) (lines : List Line) :
    let spaced := space unit lines
    sweep unit lines = some spaced ∧
      visible spaced = visible (indent unit lines) ∧
      (visible spaced).map Line.tokens = (visible lines).map Line.tokens ∧
      spaced.getLast? = (indent unit lines).getLast? ∧
      (∀ above line next rest, spaced = above ++ line :: next :: rest →
        line.isBlank = true → next.isBlank = true → rest = []) ∧
      (∀ line rest, spaced = line :: rest → line.isBlank = true → rest.length ≤ 1) ∧
      indent unit spaced = spaced ∧
      ∀ above line next afterNext rest, spaced = above ++ line :: next :: afterNext :: rest →
        line.isBlank = false → line.Quiet next afterNext := by
  intro spaced
  have indented : Indented unit 0 spaced := indent_space unit lines
  have normal : Spaced unit spaced := spaced_foldr natural (indented_indentFrom unit 0 lines)
  have windows : AllWindows Line.Rests spaced := normal.allWindows natural indented
  have sameVisible : visible spaced = visible (indent unit lines) := by
    simpa [spaced, space] using visible_foldr_spaced unit (indent unit lines) []
  refine ⟨sweep_eq_space unit lines, sameVisible, ?_, getLast?_space unit lines, ?_, ?_, indented,
    ?_⟩
  · rw [sameVisible, map_tokens_visible, map_tokens_visible, indent, map_tokens_indentFrom]
  · intro above line next rest parts blank nextBlank
    cases rest with
    | nil => rfl
    | cons afterNext rest =>
        rw [parts] at windows
        have apart := windows.window
        rw [Line.Rests, if_pos blank, nextBlank] at apart
        cases apart
  · intro line rest parts blank
    rw [parts] at normal
    exact normal.length_le_of_isBlank blank
  · intro above line next afterNext rest parts visible
    rw [parts] at windows
    have rests := windows.window
    rwa [Line.Rests, if_neg (by simp [visible])] at rests

/-- Blank lines go at the start, between statements and in the block, and stay at the end. One comes
in before the block, before the comment in it, and behind its end. -/
theorem sweep_leaves_normal_form_around_block :
    let lines := ["", "x;", "", "if (y) \x7b", "", "z;", "// why", "\x7d", "w;", "", ""].map
      fun text => Line.ofTexts [text.toList]
    let spaced := space 2 lines
    (0 : Int) ≤ 2 ∧ sweep 2 lines = some spaced ∧
      spaced.map (fun line => (line.text, line.indent)) =
        [("x;", 0), ("", 0), ("if (y) \x7b", 0), ("z;", 2), ("", 2), ("// why", 2), ("\x7d", 0),
          ("", 0), ("w;", 0), ("", 0), ("", 0)].map (fun row => (row.1.toList, row.2)) ∧
      visible spaced = visible (indent 2 lines) ∧ indent 2 spaced = spaced := by
  intro lines spaced
  obtain ⟨swept, sameVisible, _, _, _, _, indented, _⟩ :=
    sweep_leaves_normal_form (by decide : (0 : Int) ≤ 2) lines
  exact ⟨by decide, swept, by decide +kernel, sameVisible, indented⟩

end Layout

end CodeWriter
