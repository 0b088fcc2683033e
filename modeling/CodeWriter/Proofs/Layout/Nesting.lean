import CodeWriter.Buffer.Joining
import CodeWriter.Layout.Indent
import Mathlib.Data.List.Induction

/-! A line may close one block at its start and open one at its end. -/

namespace CodeWriter

namespace Text

def closesAtStart (text : Text) : Bool :=
  text.head?.any isClosingBracket

def opensAtEnd (text : Text) : Bool :=
  text.getLast?.any isOpeningBracket

/-- The text leaves the depth of a line as it is when it is put at its end. -/
def Level (text : Text) : Prop :=
  text.closesAtStart = false ∧ text.opensAtEnd = false

def BracketFree (text : Text) : Prop :=
  ∀ c ∈ text, isOpeningBracket c = false ∧ isClosingBracket c = false

@[simp] theorem closesAtStart_cons (c : Char) (rest : Text) :
    closesAtStart (c :: rest) = isClosingBracket c := rfl

@[simp] theorem opensAtEnd_concat (text : Text) (c : Char) :
    opensAtEnd (text ++ [c]) = isOpeningBracket c := by
  simp [opensAtEnd]

theorem closesAtStart_append {first second : Text}
    (level : first = [] → second.closesAtStart = false) :
    closesAtStart (first ++ second) = first.closesAtStart := by
  cases first with
  | nil => exact level rfl
  | cons c rest => rfl

theorem opensAtEnd_append {first second : Text}
    (before : second = [] → first.opensAtEnd = false) (level : second.opensAtEnd = false) :
    opensAtEnd (first ++ second) = false := by
  rcases List.eq_nil_or_concat second with rfl | ⟨rest, c, rfl⟩
  · simpa using before rfl
  · rw [List.concat_eq_append] at level ⊢
    rw [← List.append_assoc, opensAtEnd_concat]
    rwa [opensAtEnd_concat] at level

theorem BracketFree.level {text : Text} (bracketFree : text.BracketFree) : text.Level := by
  constructor
  · cases text with
    | nil => rfl
    | cons c rest => exact (bracketFree c (by simp)).2
  · rcases List.eq_nil_or_concat text with rfl | ⟨rest, c, rfl⟩
    · rfl
    · rw [List.concat_eq_append, opensAtEnd_concat]
      exact (bracketFree c (by simp)).1

theorem BracketFree.piece {text piece : Text} (bracketFree : text.BracketFree) {separator : Char}
    (member : piece ∈ text.split separator) : piece.BracketFree := by
  intro c inPiece
  apply bracketFree
  rw [← Text.intercalate_split separator text, Text.split, Text.intercalate_cons]
  rcases List.mem_cons.mp member with rfl | later
  · exact List.mem_append_left _ inPiece
  · exact List.mem_append_right _
      (List.mem_flatMap.mpr ⟨piece, later, List.mem_append_right _ inPiece⟩)

end Text

namespace Line

theorem startsClosing_eq (line : Line) : line.startsClosing = line.text.closesAtStart := by
  obtain ⟨tokens, indent⟩ := line
  induction tokens with
  | nil => rfl
  | cons token rest ih =>
      cases noText : token.text with
      | nil => simpa [startsClosing, firstVisible?, text, Token.isEmpty, noText] using ih
      | cons c more =>
          simp [startsClosing, firstVisible?, text, Token.isEmpty, noText, Token.startsClosing]

theorem endsOpening_eq (line : Line) : line.endsOpening = line.text.opensAtEnd := by
  obtain ⟨tokens, indent⟩ := line
  induction tokens using List.reverseRecOn with
  | nil => rfl
  | append_singleton rest token ih =>
      rcases List.eq_nil_or_concat token.text with noText | ⟨more, c, visible⟩
      · simpa [endsOpening, lastVisible?, text, Token.isEmpty, noText] using ih
      · rw [List.concat_eq_append] at visible
        simp [endsOpening, lastVisible?, text, Token.isEmpty, visible, Token.endsOpening,
          Text.opensAtEnd, List.getLast?_append]

def closings (line : Line) : Nat :=
  line.startsClosing.toNat

def openings (line : Line) : Nat :=
  line.endsOpening.toNat

theorem closings_eq (line : Line) : line.closings = line.text.closesAtStart.toNat := by
  rw [closings, startsClosing_eq]

theorem openings_eq (line : Line) : line.openings = line.text.opensAtEnd.toNat := by
  rw [openings, endsOpening_eq]

theorem closings_eq_zero_iff {line : Line} :
    line.closings = 0 ↔ line.text.closesAtStart = false := by
  rw [closings_eq]
  cases line.text.closesAtStart <;> simp

theorem openings_eq_zero_iff {line : Line} :
    line.openings = 0 ↔ line.text.opensAtEnd = false := by
  rw [openings_eq]
  cases line.text.opensAtEnd <;> simp

end Line

namespace Layout

/-- The lines lead from one depth of open blocks to another, and close only what is open. -/
def Nests : Nat → List Line → Nat → Prop
  | depth, [], last => depth = last
  | depth, line :: rest, last =>
      line.closings ≤ depth ∧ Nests (depth - line.closings + line.openings) rest last

@[simp] theorem nests_nil {depth last : Nat} : Nests depth [] last ↔ depth = last := .rfl

@[simp] theorem nests_cons {depth last : Nat} {line : Line} {rest : List Line} :
    Nests depth (line :: rest) last ↔
      line.closings ≤ depth ∧ Nests (depth - line.closings + line.openings) rest last := .rfl

theorem nests_append {depth last : Nat} {first second : List Line} :
    Nests depth (first ++ second) last ↔
      ∃ middle, Nests depth first middle ∧ Nests middle second last := by
  induction first generalizing depth with
  | nil => simp
  | cons line rest ih => simp [ih, and_assoc]

theorem Nests.add {depth last : Nat} {lines : List Line} (nested : Nests depth lines last)
    (more : Nat) : Nests (depth + more) lines (last + more) := by
  induction lines generalizing depth with
  | nil =>
      rw [nests_nil] at nested ⊢
      omega
  | cons line rest ih =>
      obtain ⟨open', later⟩ := nested
      refine ⟨by omega, ?_⟩
      have moved : depth + more - line.closings + line.openings =
          depth - line.closings + line.openings + more := by omega
      rw [moved]
      exact ih later

section Indents

variable (unit : Int) {depth last : Nat} {line : Line} {lines : List Line}

theorem placedAt_eq (depth : Int) (line : Line) :
    line.placedAt unit (unit * depth) =
      { line with indent := unit * (depth - line.closings) } := by
  rw [Line.closings]
  cases closing : line.startsClosing <;> simp [Line.placedAt, closing, Int.mul_sub]

theorem indent_placedAt (depth : Int) (line : Line) :
    (line.placedAt unit (unit * depth)).indent = unit * (depth - line.closings) := by
  rw [placedAt_eq]

theorem nextIndent_placedAt (depth : Int) (line : Line) :
    (line.placedAt unit (unit * depth)).nextIndent unit =
      unit * (depth - line.closings + line.openings) := by
  have sameEnd : (line.placedAt unit (unit * depth)).endsOpening = line.endsOpening := rfl
  rw [Line.nextIndent, sameEnd, indent_placedAt, Line.openings]
  cases line.endsOpening <;> simp [Int.mul_add]

theorem indent_placedAt_of_closings (enough : line.closings ≤ depth) :
    (line.placedAt unit (unit * depth)).indent = unit * (depth - line.closings : Nat) := by
  rw [indent_placedAt, Int.natCast_sub enough]

theorem nextIndent_placedAt_of_closings (enough : line.closings ≤ depth) :
    (line.placedAt unit (unit * depth)).nextIndent unit =
      unit * (depth - line.closings + line.openings : Nat) := by
  rw [nextIndent_placedAt, Int.natCast_add, Int.natCast_sub enough]

theorem Nests.closingIndentFrom (nested : Nests depth lines last) :
    Layout.closingIndentFrom unit (unit * depth) lines = unit * last := by
  induction lines generalizing depth with
  | nil => rw [nests_nil.mp nested, Layout.closingIndentFrom]
  | cons line rest ih =>
      obtain ⟨enough, later⟩ := nested
      rw [Layout.closingIndentFrom, nextIndent_placedAt_of_closings unit enough]
      exact ih later

theorem Nests.indent_nonneg {unit : Int} (natural : 0 ≤ unit) (nested : Nests depth lines last) :
    ∀ line ∈ indentFrom unit (unit * depth) lines, 0 ≤ line.indent := by
  induction lines generalizing depth with
  | nil => simp
  | cons line rest ih =>
      obtain ⟨enough, later⟩ := nested
      rw [indentFrom_cons, List.forall_mem_cons, indent_placedAt_of_closings unit enough,
        nextIndent_placedAt_of_closings unit enough]
      exact ⟨Int.mul_nonneg natural (Int.natCast_nonneg _), ih later⟩

end Indents

section Joining

variable {depth last : Nat} {lines : List Line}

theorem Nests.eq_of_blank_joinRest (nested : Nests depth lines last)
    (blank : (Line.joinRest lines).flatMap Token.text = []) : depth = last := by
  match lines with
  | [] => exact nests_nil.mp nested
  | [line] =>
      have noText : line.text = [] := blank
      obtain ⟨_, level⟩ := nested
      rw [nests_nil, Line.closings_eq_zero_iff.mpr (by rw [noText]; rfl),
        Line.openings_eq_zero_iff.mpr (by rw [noText]; rfl)] at level
      exact level
  | line :: next :: more => simp [Line.joinRest, Line.spaceToken] at blank

theorem Nests.closesAtStart_joinRest (nested : Nests 0 lines last) :
    Text.closesAtStart ((Line.joinRest lines).flatMap Token.text) = false := by
  match lines with
  | [] => rfl
  | [line] => exact Line.closings_eq_zero_iff.mp (Nat.le_zero.mp nested.1)
  | line :: next :: more => rfl

theorem Nests.opensAtEnd_joinRest (nested : Nests depth lines 0) :
    Text.opensAtEnd ((Line.joinRest lines).flatMap Token.text) = false := by
  induction lines generalizing depth with
  | nil => rfl
  | cons line rest ih =>
      obtain ⟨_, later⟩ := nested
      cases rest with
      | nil =>
          rw [nests_nil] at later
          exact Line.openings_eq_zero_iff.mp (by omega)
      | cons next more =>
          have text : (Line.joinRest (line :: next :: more)).flatMap Token.text =
              ([' '] ++ line.text) ++ (Line.joinRest (next :: more)).flatMap Token.text := by
            simp [Line.joinRest, Line.spaceToken, Line.text]
          rw [text]
          refine Text.opensAtEnd_append (fun blank => ?_) (ih later)
          have level := later.eq_of_blank_joinRest blank
          exact Text.opensAtEnd_append (fun _ => rfl) (Line.openings_eq_zero_iff.mp (by omega))

/-- Lines that close all blocks they open, the first one's own start apart, are joined to a line
that begins as the first one does and opens nothing. -/
theorem Nests.joinTokens {line : Line} (nested : Nests line.openings lines 0) (indent : Int) :
    Line.closings ⟨Line.joinTokens (line :: lines), indent⟩ = line.closings ∧
      Line.openings ⟨Line.joinTokens (line :: lines), indent⟩ = 0 := by
  rw [Line.closings, Line.closings, Line.startsClosing_eq, Line.startsClosing_eq,
    Line.openings_eq_zero_iff]
  match lines with
  | [] =>
      have text : Line.text ⟨Line.joinTokens [line], indent⟩ = line.text := by
        simp [Line.joinTokens, Line.text]
      rw [text]
      exact ⟨rfl, Line.openings_eq_zero_iff.mp nested⟩
  | second :: rest =>
      have text : Line.text ⟨Line.joinTokens (line :: second :: rest), indent⟩ =
          line.text ++ (second.text ++ (Line.joinRest rest).flatMap Token.text) := by
        simp [Line.joinTokens, Line.text]
      obtain ⟨enough, later⟩ := nested
      rw [text]
      constructor
      · congr 1
        refine Text.closesAtStart_append fun blank => ?_
        have closed : line.openings = 0 := Line.openings_eq_zero_iff.mpr (by rw [blank]; rfl)
        rw [closed] at enough later
        rw [Text.closesAtStart_append fun blankSecond => ?_]
        · exact Line.closings_eq_zero_iff.mp (Nat.le_zero.mp enough)
        · rw [Line.openings_eq_zero_iff.mpr (by rw [blankSecond]; rfl), Nat.zero_sub] at later
          exact later.closesAtStart_joinRest
      · refine Text.opensAtEnd_append (fun blank => ?_)
          (Text.opensAtEnd_append (fun blankRest => ?_) later.opensAtEnd_joinRest)
        · obtain ⟨blankSecond, blankRest⟩ := List.append_eq_nil_iff.mp blank
          have level := later.eq_of_blank_joinRest blankRest
          rw [Line.closings_eq_zero_iff.mpr (by rw [blankSecond]; rfl)] at level
          exact Line.openings_eq_zero_iff.mp (by omega)
        · have level := later.eq_of_blank_joinRest blankRest
          exact Line.openings_eq_zero_iff.mp (by omega)

end Joining

end Layout

end CodeWriter
