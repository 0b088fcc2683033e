import CodeWriter.Source.Position
import CodeWriter.Text.Basic
import Mathlib.Algebra.GroupWithZero.Nat
import Mathlib.Data.List.TakeWhile
import Mathlib.Logic.ExistsUnique

namespace CodeWriter

theorem Text.physicalLines_lineFeed (rest : Text) :
    Text.physicalLines ('\n' :: rest) = [] :: rest.physicalLines := by
  rw [physicalLines, split, cut_separator]
  rfl

theorem Text.physicalLines_other {c : Char} (different : c ≠ '\n') (rest : Text) :
    ∃ first later, rest.physicalLines = first :: later ∧
      Text.physicalLines (c :: rest) = (c :: first) :: later := by
  refine ⟨(rest.cut '\n').1, (rest.cut '\n').2, rfl, ?_⟩
  rw [physicalLines, split, cut_other different]

/-- Where a line begins: behind the lines above it, each with its line feed. -/
def Text.startOf (lines : List Text) (index : Nat) : Nat :=
  ((lines.take index).map fun line => line.length + 1).sum

@[simp] theorem Text.startOf_zero (lines : List Text) : startOf lines 0 = 0 := rfl

@[simp] theorem Text.startOf_cons_succ (line : Text) (rest : List Text) (index : Nat) :
    startOf (line :: rest) (index + 1) = line.length + 1 + startOf rest index := rfl

theorem Text.startOf_lt {lines : List Text} {line : Text} {upper lower : Nat}
    (found : lines[upper]? = some line) (below : upper < lower) :
    startOf lines upper + line.length < startOf lines lower := by
  induction lines generalizing upper lower with
  | nil => cases found
  | cons first rest ih =>
      obtain ⟨lower, rfl⟩ := Nat.exists_eq_add_one_of_ne_zero (Nat.ne_zero_of_lt below)
      rw [startOf_cons_succ]
      cases upper with
      | zero =>
          cases found
          rw [startOf_zero]
          omega
      | succ upper =>
          have later := ih found (Nat.lt_of_succ_lt_succ below)
          rw [startOf_cons_succ]
          omega

theorem Text.startOf_length {lines : List Text} (nonempty : lines ≠ []) :
    startOf lines lines.length = (['\n'].intercalate lines).length + 1 := by
  have closed : ['\n'].intercalate lines ++ ['\n'] = lines.flatMap (· ++ ['\n']) := by
    have whole := intercalate_concat ['\n'] [] nonempty
    rw [intercalate_append_of_ne_nil ['\n'] lines (by simp)] at whole
    simpa using whole.symm
  have lengths := congrArg List.length closed
  simpa [startOf, List.length_flatMap] using lengths.symm

theorem Text.startOf_le_length {text line : Text} {index : Nat}
    (found : text.physicalLines[index]? = some line) :
    startOf text.physicalLines index + line.length ≤ text.length := by
  have inside := (List.getElem?_eq_some_iff.mp found).1
  have before := startOf_lt found inside
  have nonempty : text.physicalLines ≠ [] := List.cons_ne_nil _ _
  have whole : ['\n'].intercalate text.physicalLines = text := intercalate_split '\n' text
  rw [startOf_length nonempty, whole] at before
  omega

namespace Position

/-- The line is one of the text, and the column is at most its end. -/
def Within (text : Text) (position : Position) : Prop :=
  ∃ line, text.physicalLines[position.line]? = some line ∧ position.column ≤ line.length

/-- How far into a text a position is. -/
def reach (text : Text) (position : Position) : Nat :=
  Text.startOf text.physicalLines position.line + position.column

def Precedes (first second : Position) : Prop :=
  first.line < second.line ∨ first.line = second.line ∧ first.column < second.column

section Reaching

variable {text : Text} {position first second : Position}

theorem within_start (text : Text) : Within text ⟨0, 0⟩ :=
  ⟨_, rfl, Nat.zero_le _⟩

theorem reach_mk (text : Text) (line column : Nat) :
    reach text ⟨line, column⟩ = Text.startOf text.physicalLines line + column := rfl

theorem Within.reach_le (within : position.Within text) : position.reach text ≤ text.length := by
  obtain ⟨line, found, inside⟩ := within
  have ends := Text.startOf_le_length found
  unfold reach
  omega

theorem Within.reach_lt (within : first.Within text) (precedes : first.Precedes second) :
    first.reach text < second.reach text := by
  obtain ⟨line, found, inside⟩ := within
  unfold reach
  rcases precedes with above | ⟨sameLine, left⟩
  · have begins := Text.startOf_lt found above
    omega
  · rw [sameLine]
    omega

theorem precedes_trichotomy (first second : Position) :
    first.Precedes second ∨ first = second ∨ second.Precedes first := by
  obtain ⟨line, column⟩ := first
  obtain ⟨otherLine, otherColumn⟩ := second
  simp only [Precedes, Position.mk.injEq]
  omega

theorem Within.reach_lt_iff (within : first.Within text) (otherWithin : second.Within text) :
    first.reach text < second.reach text ↔ first.Precedes second := by
  refine ⟨fun before => ?_, within.reach_lt⟩
  rcases precedes_trichotomy first second with precedes | rfl | follows
  · exact precedes
  · exact absurd before (Nat.lt_irrefl _)
  · exact absurd (otherWithin.reach_lt follows) (Nat.lt_asymm before)

theorem Within.eq_of_reach (within : first.Within text) (otherWithin : second.Within text)
    (same : first.reach text = second.reach text) : first = second := by
  rcases precedes_trichotomy first second with precedes | equal | follows
  · exact absurd same (Nat.ne_of_lt (within.reach_lt precedes))
  · exact equal
  · exact absurd same.symm (Nat.ne_of_lt (otherWithin.reach_lt follows))

/-- Where a text ends: its line feeds are counted, and the last of them is searched from the end. -/
def ending (text : Text) : Position where
  line := text.count '\n'
  column := (text.reverse.takeWhile (· ≠ '\n')).length

theorem behind_ending (c : Char) (text : Text) : (ending text).behind c = ending (c :: text) := by
  have whole : (text.reverse.takeWhile (· ≠ '\n')).length = text.reverse.length ↔
      text.count '\n' = 0 := by
    rw [List.count_eq_zero, ← List.mem_reverse]
    constructor
    · intro length member
      have same := (List.takeWhile_prefix _).eq_of_length length
      simpa using List.takeWhile_eq_self_iff.mp same '\n' member
    · intro apart
      refine congrArg List.length (List.takeWhile_eq_self_iff.mpr fun c member => ?_)
      exact decide_eq_true (ne_of_mem_of_not_mem member apart)
  unfold ending behind
  rw [List.reverse_cons, List.takeWhile_append]
  by_cases flat : text.count '\n' = 0
  · rw [if_pos (whole.mpr flat), whole.mpr flat, List.length_append]
    by_cases lineFeed : c = '\n' <;> simp [lineFeed, flat]
  · rw [if_neg (mt whole.mp flat)]
    by_cases lineFeed : c = '\n' <;> simp [lineFeed, flat]

/-- The position is found by a count of the line feeds and a search for the last one. -/
theorem locate_eq_ending (text : Text) (offset : Nat) :
    locate text offset =
      if offset ≤ text.length then some (ending (text.take offset)) else none := by
  induction text generalizing offset with
  | nil => cases offset <;> rfl
  | cons c rest ih =>
      cases offset with
      | zero => rfl
      | succ offset =>
          rw [locate_cons_succ, ih, List.length_cons, List.take_succ_cons, ← behind_ending]
          simp only [Nat.add_le_add_iff_right]
          split <;> rfl

theorem Within.behind (within : position.Within text) (c : Char) :
    (position.behind c).Within (c :: text) ∧
      (position.behind c).reach (c :: text) = position.reach text + 1 := by
  obtain ⟨line, column⟩ := position
  obtain ⟨part, found, inside⟩ := within
  by_cases lineFeed : c = '\n'
  · subst lineFeed
    have below : Position.behind '\n' ⟨line, column⟩ = ⟨line + 1, column⟩ := rfl
    rw [below]
    constructor
    · exact ⟨part, by rwa [Text.physicalLines_lineFeed], inside⟩
    · rw [reach_mk, reach_mk, Text.physicalLines_lineFeed, Text.startOf_cons_succ, List.length_nil]
      omega
  · obtain ⟨first, later, split, whole⟩ := Text.physicalLines_other lineFeed text
    rw [split] at found
    cases line with
    | zero =>
        cases found
        have right : Position.behind c ⟨0, column⟩ = ⟨0, column + 1⟩ := by
          simp [Position.behind, lineFeed]
        rw [right]
        constructor
        · exact ⟨c :: part, by rw [whole]; rfl, Nat.succ_le_succ inside⟩
        · rw [reach_mk, reach_mk, Text.startOf_zero, Text.startOf_zero, Nat.add_assoc]
    | succ line =>
        have same : Position.behind c ⟨line + 1, column⟩ = ⟨line + 1, column⟩ := by
          simp [Position.behind, lineFeed]
        rw [same]
        constructor
        · exact ⟨part, by rw [whole]; exact found, inside⟩
        · rw [reach_mk, reach_mk, whole, split, Text.startOf_cons_succ, Text.startOf_cons_succ,
            List.length_cons]
          omega

theorem locate_sound {offset : Nat} (located : locate text offset = some position) :
    position.Within text ∧ position.reach text = offset := by
  induction text generalizing offset position with
  | nil =>
      cases offset with
      | zero =>
          cases located
          exact ⟨within_start [], rfl⟩
      | succ offset => cases located
  | cons c rest ih =>
      cases offset with
      | zero =>
          cases located
          exact ⟨within_start _, rfl⟩
      | succ offset =>
          rw [locate_cons_succ, Option.map_eq_some_iff] at located
          obtain ⟨further, located, rfl⟩ := located
          obtain ⟨within, reached⟩ := ih located
          rw [← reached]
          exact within.behind c

theorem Within.locate_reach (within : position.Within text) :
    locate text (position.reach text) = some position := by
  cases located : locate text (position.reach text) with
  | none =>
      have beyond := locate_eq_none_iff.mp located
      exact absurd within.reach_le (Nat.not_le.mpr beyond)
  | some other =>
      obtain ⟨otherWithin, same⟩ := locate_sound located
      rw [otherWithin.eq_of_reach within same]

theorem locate_eq_some_iff {offset : Nat} :
    locate text offset = some position ↔ position.Within text ∧ position.reach text = offset := by
  refine ⟨locate_sound, ?_⟩
  rintro ⟨within, rfl⟩
  exact within.locate_reach

end Reaching

section Offsets

variable {text : Text} {offset : Int}

theorem ofOffset_eq_ok_iff {position : Position} :
    ofOffset text offset = .ok position ↔
      position.Within text ∧ (position.reach text : Int) = offset := by
  unfold ofOffset
  split
  · rename_i negative
    simp only [reduceCtorEq, false_iff, not_and]
    intro _ reached
    omega
  · rename_i natural
    have whole : (position.reach text : Int) = offset ↔ position.reach text = offset.toNat := by
      omega
    rw [whole, ← locate_eq_some_iff]
    cases locate text offset.toNat <;> simp

theorem ofOffset_eq_error_iff {fault : Fault} :
    ofOffset text offset = .error fault ↔
      (offset < 0 ∨ text.length < offset) ∧ fault = .offsetOutside offset text.length := by
  unfold ofOffset
  split
  · rename_i negative
    simp [negative, eq_comm]
  · rename_i natural
    have beyond : offset < 0 ∨ text.length < offset ↔ locate text offset.toNat = none := by
      rw [locate_eq_none_iff]
      omega
    rw [beyond]
    cases locate text offset.toNat <;> simp [eq_comm]

end Offsets

/-- Offsets of a text and the columns of its lines, ends included, are in bijection, and the order of
offsets is that of lines and then of columns. Any other offset is a fault. -/
theorem offsets_are_positions (text : Text) :
    let lines := text.physicalLines
    (∀ offset fault, ofOffset text offset = .error fault ↔
        (offset < 0 ∨ text.length < offset) ∧ fault = .offsetOutside offset text.length) ∧
      (∀ offset : Int, 0 ≤ offset → offset ≤ text.length →
        ∃ position line, ofOffset text offset = .ok position ∧
          lines[position.line]? = some line ∧ position.column ≤ line.length ∧
          offset = (((lines.take position.line).map fun line => line.length + 1).sum +
            position.column : Nat)) ∧
      (∀ first second position other, ofOffset text first = .ok position →
        ofOffset text second = .ok other →
        (first < second ↔ position.line < other.line ∨
          position.line = other.line ∧ position.column < other.column)) ∧
      ∀ index column line, lines[index]? = some line → column ≤ line.length →
        ∃! offset : Int, ofOffset text offset = .ok ⟨index, column⟩ := by
  intro lines
  refine ⟨fun offset fault => ofOffset_eq_error_iff, ?_, ?_, ?_⟩
  · intro offset natural inside
    cases found : ofOffset text offset with
    | error fault =>
        have outside := (ofOffset_eq_error_iff.mp found).1
        omega
    | ok position =>
        obtain ⟨⟨line, onText, onLine⟩, reached⟩ := ofOffset_eq_ok_iff.mp found
        exact ⟨position, line, rfl, onText, onLine, reached.symm⟩
  · intro first second position other found otherFound
    obtain ⟨within, rfl⟩ := ofOffset_eq_ok_iff.mp found
    obtain ⟨otherWithin, rfl⟩ := ofOffset_eq_ok_iff.mp otherFound
    rw [Int.ofNat_lt]
    exact within.reach_lt_iff otherWithin
  · intro index column line onText onLine
    have within : Within text ⟨index, column⟩ := ⟨line, onText, onLine⟩
    refine ⟨reach text ⟨index, column⟩, ofOffset_eq_ok_iff.mpr ⟨within, rfl⟩, ?_⟩
    intro other found
    exact (ofOffset_eq_ok_iff.mp found).2.symm

/-- An empty line, an end behind the last line feed, and the offsets around them. -/
theorem offsets_are_positions_around_line_feeds :
    let text : Text := "ab\n\nc\n".toList
    text.physicalLines = ["ab".toList, [], ['c'], []] ∧
      (∃ position line, ofOffset text 3 = .ok position ∧
        text.physicalLines[position.line]? = some line ∧ position.column ≤ line.length ∧
        (3 : Int) = (((text.physicalLines.take position.line).map fun line =>
          line.length + 1).sum + position.column : Nat)) ∧
      ofOffset text 2 = .ok ⟨0, 2⟩ ∧ ofOffset text 3 = .ok ⟨1, 0⟩ ∧
      ((2 : Int) < 3 ↔ 0 < 1 ∨ 0 = 1 ∧ 2 < 0) ∧
      (∃! offset : Int, ofOffset text offset = .ok ⟨3, 0⟩) ∧
      ofOffset text 7 = .error (.offsetOutside 7 6) := by
  intro text
  obtain ⟨faults, reached, ordered, unique⟩ := offsets_are_positions text
  have before : ofOffset text 2 = .ok ⟨0, 2⟩ := rfl
  have after : ofOffset text 3 = .ok ⟨1, 0⟩ := rfl
  refine ⟨by decide, reached 3 (by decide) (by decide), before, after, ordered 2 3 _ _ before after,
    unique 3 0 [] (by decide) (by decide), (faults 7 _).mpr ⟨by decide, rfl⟩⟩

end Position

end CodeWriter
