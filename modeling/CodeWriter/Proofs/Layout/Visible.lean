import CodeWriter.Proofs.Layout.Spacing

namespace CodeWriter

namespace Layout

theorem spaced_cases (unit : Int) (line next afterNext : Line) (rest : List Line) :
    (line.isBlank = true ∧
        spaced unit line (next :: afterNext :: rest) = next :: afterNext :: rest) ∨
      (line.isBlank = false ∧
        (line.precedesComment next = true ∨ line.precedesBlock next afterNext = true) ∧
        spaced unit line (next :: afterNext :: rest) =
          line :: line.spacerAfter unit :: next :: afterNext :: rest) ∨
      (line.isBlank = false ∧ line.precedesComment next = false ∧
        line.precedesBlock next afterNext = false ∧ line.endsBlock next afterNext = true ∧
        spaced unit line (next :: afterNext :: rest) =
          line :: next :: next.spacerAfter unit :: afterNext :: rest) ∨
      (line.isBlank = false ∧ line.precedesComment next = false ∧
        line.precedesBlock next afterNext = false ∧ line.endsBlock next afterNext = false ∧
        spaced unit line (next :: afterNext :: rest) = line :: next :: afterNext :: rest) := by
  cases blank : line.isBlank with
  | true => exact .inl ⟨rfl, spaced_of_isBlank blank⟩
  | false =>
      by_cases precedes :
          line.precedesComment next = true ∨ line.precedesBlock next afterNext = true
      · exact .inr (.inl ⟨rfl, precedes, spaced_of_precedes blank precedes⟩)
      have noComment : line.precedesComment next = false := by simp_all
      have noBlock : line.precedesBlock next afterNext = false := by simp_all
      cases closes : line.endsBlock next afterNext with
      | true =>
          refine .inr (.inr (.inl ⟨rfl, noComment, noBlock, rfl, ?_⟩))
          exact spaced_of_endsBlock blank noComment noBlock closes
      | false =>
          refine .inr (.inr (.inr ⟨rfl, noComment, noBlock, rfl, ?_⟩))
          exact spaced_of_no_rule blank noComment noBlock closes

def visible (lines : List Line) : List Line :=
  lines.filter fun line => !line.isBlank

@[simp] theorem visible_append (first second : List Line) :
    visible (first ++ second) = visible first ++ visible second :=
  List.filter_append ..

theorem visible_cons_of_isBlank {line : Line} (rest : List Line) (blank : line.isBlank = true) :
    visible (line :: rest) = visible rest := by
  simp [visible, blank]

theorem visible_cons_of_visible {line : Line} (rest : List Line) (shown : line.isBlank = false) :
    visible (line :: rest) = line :: visible rest := by
  simp [visible, shown]

theorem visible_spaced (unit : Int) (line : Line) (rest : List Line) :
    visible (spaced unit line rest) = visible (line :: rest) := by
  match rest with
  | [] => rfl
  | [last] => rfl
  | next :: afterNext :: rest =>
      rcases spaced_cases unit line next afterNext rest with ⟨blank, same⟩ | ⟨_, _, same⟩ |
        ⟨_, _, _, _, same⟩ | ⟨_, _, _, _, same⟩ <;> rw [same]
      · rw [visible_cons_of_isBlank _ blank]
      · simp [visible, List.filter_cons]
      · simp [visible, List.filter_cons]

theorem visible_foldr_spaced (unit : Int) (lines rest : List Line) :
    visible (lines.foldr (spaced unit) rest) = visible (lines ++ rest) := by
  induction lines with
  | nil => rfl
  | cons line lines ih =>
      rw [List.foldr_cons, visible_spaced, ← List.singleton_append, visible_append, ih,
        ← visible_append, List.singleton_append, List.cons_append]

theorem length_le_spaced (unit : Int) (line : Line) (rest : List Line) :
    rest.length ≤ (spaced unit line rest).length := by
  fun_cases spaced unit line rest <;> simp only [List.length_cons] <;> omega

theorem length_le_foldr_spaced (unit : Int) (lines rest : List Line) :
    rest.length ≤ (lines.foldr (spaced unit) rest).length := by
  induction lines with
  | nil => exact Nat.le_refl _
  | cons line lines ih => exact Nat.le_trans ih (length_le_spaced unit line _)

theorem foldr_spaced_visible (unit : Int) (lines : List Line) {rest : List Line}
    (two : 2 ≤ rest.length) :
    lines.foldr (spaced unit) rest = (visible lines).foldr (spaced unit) rest := by
  induction lines with
  | nil => rfl
  | cons line lines ih =>
      cases blank : line.isBlank with
      | false => rw [visible_cons_of_visible _ blank, List.foldr_cons, List.foldr_cons, ih]
      | true =>
          have enough := Nat.le_trans two (length_le_foldr_spaced unit lines rest)
          rw [visible_cons_of_isBlank _ blank, List.foldr_cons, ← ih]
          match spacedLines : lines.foldr (spaced unit) rest with
          | next :: afterNext :: more => exact spaced_of_isBlank blank
          | [] => simp [spacedLines] at enough
          | [last] => simp [spacedLines] at enough

theorem exists_spaced_append (unit : Int) (line next : Line) (more : List Line) {tail : List Line}
    (nonempty : tail ≠ []) :
    ∃ first longer, spaced unit line (next :: more ++ tail) = first :: longer ++ tail := by
  obtain ⟨afterNext, rest, tailOf⟩ := List.exists_cons_of_ne_nil
    (List.append_ne_nil_of_right_ne_nil more nonempty)
  rw [List.cons_append, tailOf]
  rcases spaced_cases unit line next afterNext rest with ⟨_, same⟩ | ⟨_, _, same⟩ |
    ⟨_, _, _, _, same⟩ | ⟨_, _, _, _, same⟩ <;> rw [same, ← tailOf]
  · exact ⟨next, more, rfl⟩
  · exact ⟨line, line.spacerAfter unit :: next :: more, rfl⟩
  · exact ⟨line, next :: next.spacerAfter unit :: more, rfl⟩
  · exact ⟨line, next :: more, rfl⟩

theorem exists_foldr_spaced_append (unit : Int) (lines : List Line) (next : Line)
    (more : List Line) {tail : List Line} (nonempty : tail ≠ []) :
    ∃ first longer,
      lines.foldr (spaced unit) (next :: more ++ tail) = first :: longer ++ tail := by
  induction lines with
  | nil => exact ⟨next, more, rfl⟩
  | cons line lines ih =>
      obtain ⟨first, longer, same⟩ := ih
      rw [List.foldr_cons, same]
      exact exists_spaced_append unit line first longer nonempty

theorem Indented.visible {unit indent : Int} {lines rest : List Line}
    (indented : Indented unit indent (lines ++ rest)) :
    Indented unit indent (visible lines ++ rest) := by
  induction lines generalizing indent with
  | nil => exact indented
  | cons line lines ih =>
      cases blank : line.isBlank with
      | true =>
          rw [visible_cons_of_isBlank _ blank]
          exact ih (indented.tail_of_isBlank blank)
      | false =>
          obtain ⟨placed, later⟩ := indented_cons.mp indented
          rw [visible_cons_of_visible _ blank]
          exact indented_cons.mpr ⟨placed, ih later⟩

theorem Indented.of_append {unit indent : Int} {lines rest : List Line}
    (indented : Indented unit indent (lines ++ rest)) :
    ∃ inherited, Indented unit inherited rest := by
  induction lines generalizing indent with
  | nil => exact ⟨indent, indented⟩
  | cons line lines ih => exact ih (indented_cons.mp indented).2

end Layout

end CodeWriter
