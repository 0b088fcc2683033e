import CodeWriter.Layout.Spacing

namespace CodeWriter

namespace Line

theorem endsOpening_of_isBlank {line : Line} (blank : line.isBlank = true) :
    line.endsOpening = false := by
  simp [endsOpening, lastVisible?_eq_none_iff.mpr blank]

theorem startsClosing_of_isBlank {line : Line} (blank : line.isBlank = true) :
    line.startsClosing = false := by
  simp [startsClosing, firstVisible?_eq_none_iff.mpr blank]

theorem nextIndent_of_isBlank (unit : Int) {line : Line} (blank : line.isBlank = true) :
    line.nextIndent unit = line.indent := by
  simp [nextIndent, endsOpening_of_isBlank blank]

theorem placedAt_of_isBlank (unit indent : Int) {line : Line} (blank : line.isBlank = true) :
    line.placedAt unit indent = { line with indent } := by
  simp [placedAt, startsClosing_of_isBlank blank]

theorem indent_le_nextIndent {unit : Int} (natural : 0 ≤ unit) (line : Line) :
    line.indent ≤ line.nextIndent unit := by
  unfold nextIndent
  split <;> omega

@[simp] theorem placedAt_placedAt (unit first second : Int) (line : Line) :
    (line.placedAt unit first).placedAt unit second = line.placedAt unit second := rfl

@[simp] theorem isBlank_spacerAfter (unit : Int) (line : Line) :
    (line.spacerAfter unit).isBlank = true := rfl

@[simp] theorem isComment_spacerAfter (unit : Int) (line : Line) :
    (line.spacerAfter unit).isComment = false := rfl

@[simp] theorem indent_spacerAfter (unit : Int) (line : Line) :
    (line.spacerAfter unit).indent = line.nextIndent unit := rfl

@[simp] theorem nextIndent_spacerAfter (unit : Int) (line : Line) :
    (line.spacerAfter unit).nextIndent unit = line.nextIndent unit := rfl

@[simp] theorem placedAt_spacerAfter (unit : Int) (line : Line) :
    (line.spacerAfter unit).placedAt unit (line.nextIndent unit) = line.spacerAfter unit := rfl

end Line

namespace Layout

/-- Lines with the indents that they take when `indent` is inherited. -/
def Indented (unit indent : Int) (lines : List Line) : Prop :=
  indentFrom unit indent lines = lines

@[simp] theorem indented_cons {unit indent : Int} {line : Line} {rest : List Line} :
    Indented unit indent (line :: rest) ↔
      line.placedAt unit indent = line ∧ Indented unit (line.nextIndent unit) rest := by
  unfold Indented
  rw [indentFrom_cons, List.cons.injEq]
  constructor
  · rintro ⟨placed, later⟩
    rw [placed] at later
    exact ⟨placed, later⟩
  · rintro ⟨placed, later⟩
    rw [placed]
    exact ⟨rfl, later⟩

theorem indented_indentFrom (unit indent : Int) (lines : List Line) :
    Indented unit indent (indentFrom unit indent lines) := by
  induction lines generalizing indent with
  | nil => rfl
  | cons line rest ih =>
      rw [indentFrom_cons, indented_cons]
      exact ⟨Line.placedAt_placedAt unit indent indent line, ih _⟩

theorem Indented.tail_of_isBlank {unit indent : Int} {line : Line} {rest : List Line}
    (indented : Indented unit indent (line :: rest)) (blank : line.isBlank = true) :
    Indented unit indent rest := by
  obtain ⟨placed, later⟩ := indented_cons.mp indented
  rw [Line.placedAt_of_isBlank unit indent blank] at placed
  rw [Line.nextIndent_of_isBlank unit blank, ← placed] at later
  exact later

theorem Indented.indent_of_isBlank {unit indent : Int} {line : Line} {rest : List Line}
    (indented : Indented unit indent (line :: rest)) (blank : line.isBlank = true) :
    line.indent = indent := by
  have placed := (indented_cons.mp indented).1
  rw [Line.placedAt_of_isBlank unit indent blank] at placed
  rw [← placed]

theorem Indented.spaced {unit indent : Int} {line : Line} {rest : List Line}
    (indented : Indented unit indent (line :: rest)) :
    Indented unit indent (Layout.spaced unit line rest) := by
  unfold Layout.spaced
  split
  · split
    · rename_i blank
      exact indented.tail_of_isBlank blank
    · simp only [indented_cons] at indented ⊢
      split
      · simpa using indented
      · split
        · simpa using indented
        · split <;> simpa using indented
  · exact indented

theorem Indented.foldr_spaced {unit indent : Int} {lines : List Line}
    (indented : Indented unit indent lines) :
    Indented unit indent (lines.foldr (Layout.spaced unit) []) := by
  induction lines generalizing indent with
  | nil => rfl
  | cons line rest ih =>
      obtain ⟨placed, later⟩ := indented_cons.mp indented
      exact (indented_cons.mpr ⟨placed, ih later⟩).spaced

theorem indent_space (unit : Int) (lines : List Line) :
    indent unit (space unit lines) = space unit lines :=
  (indented_indentFrom unit 0 lines).foldr_spaced

end Layout

end CodeWriter
