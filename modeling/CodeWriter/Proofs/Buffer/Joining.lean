import CodeWriter.Buffer.Joining
import Mathlib.Algebra.GroupWithZero.Nat

namespace CodeWriter

namespace Line

/-- What comes in front of a row when rows up to the place `last` are joined. -/
def joinGap (last place : Nat) : List Token :=
  if 1 < place ∧ place < last then [spaceToken] else []

theorem joinRest_eq (rows : List Line) (place last : Nat) (behind : 1 < place)
    (count : place + rows.length = last + 1) :
    joinRest rows = (rows.zipIdx place).flatMap fun row => joinGap last row.2 ++ row.1.tokens := by
  induction rows generalizing place with
  | nil => rfl
  | cons row rest ih =>
      cases rest with
      | nil =>
          have atEnd : ¬(1 < place ∧ place < last) := by
            rw [List.length_singleton] at count
            omega
          simp [joinRest, joinGap, atEnd]
      | cons next more =>
          rw [List.length_cons, List.length_cons] at count
          have inside : 1 < place ∧ place < last := by omega
          have later := ih (place + 1) (by omega) (by rw [List.length_cons]; omega)
          rw [joinRest_cons_cons, later, List.zipIdx_cons, List.flatMap_cons]
          simp [joinGap, inside]

theorem joinTokens_eq (first : Line) (later : List Line) :
    joinTokens (first :: later) =
      (first :: later).zipIdx.flatMap fun row => joinGap later.length row.2 ++ row.1.tokens := by
  cases later with
  | nil => simp [joinTokens, joinGap]
  | cons second rest =>
      have places := joinRest_eq rest 2 (rest.length + 1) (by omega) (by omega)
      simp [joinTokens, joinGap, places]

theorem width_eq (line : Line) : line.width = (line.tokens.flatMap Token.text).length := rfl

theorem length_joinRest (rows : List Line) :
    ((joinRest rows).flatMap Token.text).length =
      (rows.map width).sum + (rows.length - 1) := by
  induction rows with
  | nil => rfl
  | cons row rest ih =>
      cases rest with
      | nil => simp [joinRest, width_eq]
      | cons next more =>
          rw [joinRest_cons_cons, List.cons_append, List.flatMap_cons, List.flatMap_append,
            List.length_append, List.length_append, ih]
          simp only [spaceToken, List.map_cons, List.sum_cons, List.length_cons, List.length_nil,
            width_eq]
          omega

theorem width_joinTokens (rows : List Line) (indent : Int) :
    width ⟨joinTokens rows, indent⟩ = (rows.map width).sum + (rows.length - 3) := by
  match rows with
  | [] => rfl
  | [row] => simp [joinTokens, width_eq]
  | first :: second :: rest =>
      rw [width_eq, joinTokens, List.flatMap_append, List.flatMap_append, List.length_append,
        List.length_append, length_joinRest]
      simp only [List.map_cons, List.sum_cons, List.length_cons, width_eq]
      omega

theorem joinedWidth_eq (rows : List Line) :
    joinedWidth rows = (rows.map width).sum + (rows.length - 3) := by
  rw [joinedWidth, List.length_flatMap]
  rfl

theorem canJoin_iff {width : Int} {rows : List Line} :
    canJoin width rows = true ↔
      1 < rows.length ∧ (∀ row ∈ rows, row.isComment = false) ∧
        (((rows.map Line.width).sum + (rows.length - 3) : Nat) : Int) < width - 10 := by
  rw [canJoin, joinedWidth_eq, Bool.and_eq_true, Bool.and_eq_true, and_assoc, decide_eq_true_iff,
    decide_eq_true_iff, joinReserve]
  simp

theorem canJoin_cons_iff {width : Int} {first : Line} {later : List Line} :
    canJoin width (first :: later) = true ↔
      1 ≤ later.length ∧ (∀ row ∈ first :: later, row.isComment = false) ∧
        ((((first :: later).map Line.width).sum + (later.length - 2) : Nat) : Int) <
          width - 10 := by
  rw [canJoin_iff]
  exact and_congr_left fun _ => Nat.succ_lt_succ_iff

end Line

end CodeWriter
