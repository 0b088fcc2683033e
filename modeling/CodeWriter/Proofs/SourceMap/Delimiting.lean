import CodeWriter.Proofs.SourceMap.Fields

/-! Reading at a place looks at nothing before it and no further than the code that is there. -/

namespace CodeWriter

namespace Vlq

theorem suffix_of_readNat {place : Int} {text rest : Text} {data : Nat}
    (result : readNat place text = .ok (data, rest)) : rest <:+ text := by
  induction text generalizing place data with
  | nil => cases result
  | cons c more ih =>
      unfold readNat at result
      split at result
      · cases result
      · split at result
        · cases result
          exact List.suffix_cons _ _
        · split at result
          · rename_i recursive
            cases result
            exact (ih recursive).trans (List.suffix_cons _ _)
          · cases result

theorem suffix_of_read {place value : Int} {text rest : Text}
    (result : read place text = .ok (value, rest)) : rest <:+ text := by
  unfold read at result
  cases found : readNat place text with
  | error fault =>
      rw [found] at result
      cases result
  | ok pair =>
      rw [found] at result
      cases result
      exact suffix_of_readNat found

theorem decodeAt_append (before text : Text) :
    decodeAt (before ++ text) before.length =
      (read before.length text).map fun (value, rest) =>
        (value, before.length + (text.length - rest.length : Nat)) := by
  have within : ¬((before.length : Int) < -((before ++ text).length : Int)) := by omega
  have natural : ¬((before.length : Int) < 0) := by omega
  rw [decodeAt, if_neg within]
  simp [natural]

/-- Reading one number after the other, from a place to the end of the text. -/
inductive ReadsFrom (text : Text) : Int → List Int → Prop
  | stop : ReadsFrom text text.length []
  | next {place next value : Int} {values : List Int} (inside : place < text.length)
      (decoded : decodeAt text place = .ok (value, next)) (later : ReadsFrom text next values) :
      ReadsFrom text place (value :: values)

theorem readsFrom_end_iff {text : Text} {values : List Int} :
    ReadsFrom text text.length values ↔ values = [] := by
  constructor
  · rintro (_ | ⟨inside, _, _⟩)
    · rfl
    · omega
  · rintro rfl
    exact .stop

theorem readsFrom_inside_iff {text : Text} {place : Int} (inside : place < text.length)
    {values : List Int} :
    ReadsFrom text place values ↔
      ∃ value next later, decodeAt text place = .ok (value, next) ∧ ReadsFrom text next later ∧
        values = value :: later := by
  constructor
  · rintro (_ | ⟨_, decoded, later⟩)
    · omega
    · exact ⟨_, _, _, decoded, later, rfl⟩
  · rintro ⟨value, next, later, decoded, readLater, rfl⟩
    exact .next inside decoded readLater

theorem map_fst_readAllFrom_iff {place value : Int} {text rest : Text} {values : List Int}
    (result : read place text = .ok (value, rest)) :
    (readAllFrom place text).map (List.map Prod.fst) = .ok values ↔
      ∃ more, (readAllFrom (place + (text.length - rest.length : Nat)) rest).map
          (List.map Prod.fst) = .ok more ∧
        values = value :: more := by
  constructor
  · intro numbers
    rw [readAllFrom_of_read result] at numbers
    cases later : readAllFrom (place + (text.length - rest.length : Nat)) rest with
    | error fault =>
        rw [later] at numbers
        cases numbers
    | ok found =>
        rw [later] at numbers
        cases numbers
        exact ⟨found.map Prod.fst, rfl, rfl⟩
  · rintro ⟨more, later, rfl⟩
    exact map_fst_readAllFrom_of_read result later

theorem readsFrom_append_iff (before text : Text) (values : List Int) :
    ReadsFrom (before ++ text) before.length values ↔
      (readAllFrom before.length text).map (List.map Prod.fst) = .ok values := by
  -- Each step moves the code that was just read from `text` to the end of `before`.
  induction length : text.length using Nat.strongRecOn generalizing before text values with
  | ind count ih =>
      by_cases ended : text = []
      · subst ended
        rw [List.append_nil, readsFrom_end_iff]
        simp [readAllFrom, Except.map, eq_comm]
      have inside : (before.length : Int) < (before ++ text).length := by
        have := List.length_pos_iff.mpr ended
        simp only [List.length_append]
        omega
      rw [readsFrom_inside_iff inside, decodeAt_append]
      cases first : read before.length text with
      | error fault =>
          rw [readAllFrom_of_fault ended first]
          simp [Except.map]
      | ok pair =>
          obtain ⟨value, rest⟩ := pair
          obtain ⟨code, rfl⟩ := suffix_of_read first
          have shorter : rest.length < count := length ▸ length_read_lt first
          have place : (before.length : Int) + ((code ++ rest).length - rest.length : Nat) =
              (before ++ code).length := by
            simp
          have later := ih _ shorter (before ++ code) rest
          rw [List.append_assoc] at later
          rw [map_fst_readAllFrom_iff first, place]
          simp only [Except.map, Except.ok.injEq, Prod.mk.injEq, place]
          constructor
          · rintro ⟨_, _, more, ⟨rfl, rfl⟩, readMore, rfl⟩
            exact ⟨more, (later more rfl).mp readMore, rfl⟩
          · rintro ⟨more, numbers, rfl⟩
            exact ⟨_, _, more, ⟨rfl, rfl⟩, (later more rfl).mpr numbers, rfl⟩

theorem decodeAll_eq_ok_iff {text : Text} {values : List Int} :
    decodeAll text = .ok values ↔ ReadsFrom text 0 values :=
  (readsFrom_append_iff [] text values).symm

/-- A code is read back wherever it stands, and reading ends at the place after it. So reading on
from place to place through a row of codes gives its numbers and no others. -/
theorem codes_are_read_where_they_stand (value : Int) (before after : Text) (values : List Int) :
    decodeAt (before ++ encode value ++ after) before.length =
        .ok (value, before.length + (encode value).length) ∧
      ∀ numbers, ReadsFrom (values.flatMap encode) 0 numbers ↔ numbers = values := by
  constructor
  · rw [List.append_assoc, decodeAt_append, read_encode]
    simp [Except.map]
  · intro numbers
    rw [← decodeAll_eq_ok_iff, decodeAll_flatMap_encode, Except.ok.injEq, eq_comm]

end Vlq

end CodeWriter
