import CodeWriter.Layout.Indent

/-! Vertical white space, from the last line but two up to the first. -/

namespace CodeWriter

namespace Line

def spacerAfter (unit : Int) (line : Line) : Line :=
  { indent := line.nextIndent unit }

def precedesComment (line next : Line) : Bool :=
  next.isComment && !line.isComment

def precedesBlock (line next afterNext : Line) : Bool :=
  line.indent == next.indent && next.indent < afterNext.indent && !line.isComment

/-- The last line of an indented block whose closing line has a successor at its own level. -/
def endsBlock (line next afterNext : Line) : Bool :=
  next.indent < line.indent && next.indent == afterNext.indent && !afterNext.isBlank

end Line

namespace Layout

/-- Put a line before lines that are spaced already. -/
def spaced (unit : Int) (line : Line) : List Line → List Line
  | next :: afterNext :: rest =>
      if line.isBlank then next :: afterNext :: rest
      else if line.precedesComment next then
        line :: line.spacerAfter unit :: next :: afterNext :: rest
      else if line.precedesBlock next afterNext then
        line :: line.spacerAfter unit :: next :: afterNext :: rest
      else if line.endsBlock next afterNext then
        line :: next :: next.spacerAfter unit :: afterNext :: rest
      else line :: next :: afterNext :: rest
  | rest => line :: rest

def space (unit : Int) (lines : List Line) : List Line :=
  (indent unit lines).foldr (spaced unit) []

@[simp] theorem spaced_nil (unit : Int) (line : Line) :
    spaced unit line [] = [line] := rfl

@[simp] theorem spaced_singleton (unit : Int) (line last : Line) :
    spaced unit line [last] = [line, last] := rfl

theorem spaced_ne_nil (unit : Int) (line : Line) (rest : List Line) :
    spaced unit line rest ≠ [] := by
  fun_cases spaced unit line rest <;> simp_all

theorem getLast?_spaced (unit : Int) (line : Line) {rest : List Line} (nonempty : rest ≠ []) :
    (spaced unit line rest).getLast? = rest.getLast? := by
  unfold spaced
  split
  · split
    · rfl
    · split
      · simp [List.getLast?_cons_cons]
      · split
        · simp [List.getLast?_cons_cons]
        · split <;> simp [List.getLast?_cons_cons]
  · cases rest with
    | nil => exact absurd rfl nonempty
    | cons last more => simp [List.getLast?_cons_cons]

theorem getLast?_foldr_spaced (unit : Int) (lines : List Line) :
    (lines.foldr (spaced unit) []).getLast? = lines.getLast? := by
  induction lines with
  | nil => rfl
  | cons line rest ih =>
      cases rest with
      | nil => rfl
      | cons next more =>
          have spacedRest : (next :: more).foldr (spaced unit) [] ≠ [] :=
            spaced_ne_nil unit next _
          rw [List.foldr_cons, getLast?_spaced unit line spacedRest, ih, List.getLast?_cons_cons]

theorem getLast?_space (unit : Int) (lines : List Line) :
    (space unit lines).getLast? = (indent unit lines).getLast? :=
  getLast?_foldr_spaced unit _

end Layout

end CodeWriter
