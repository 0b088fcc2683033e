import CodeWriter.Proofs.SourceMap.Grouping

namespace CodeWriter

theorem MappingCursor.line_of_advance {row : Nat} {cursor : MappingCursor} {fields : List Int}
    {mapping : Mapping} (said : mapping ∈ (cursor.advance row fields).2) :
    mapping.line = row := by
  match fields with
  | [] => cases said
  | [_] => cases said
  | [_, _] => cases said
  | [_, _, _] => cases said
  | _ :: _ :: _ :: _ :: _ =>
      cases said
      rfl

namespace Mapping

theorem line_of_decodeSegments {row : Nat} {cursor final : MappingCursor} {texts : List Text}
    {mappings : List Mapping}
    (decoded : decodeSegments row cursor texts = .ok (final, mappings)) :
    ∀ mapping ∈ mappings, mapping.line = row := by
  induction texts generalizing cursor final mappings with
  | nil =>
      cases decoded
      simp
  | cons text rest ih =>
      unfold decodeSegments at decoded
      split at decoded
      · cases decoded
      · rename_i fields _
        dsimp only at decoded
        split at decoded
        · cases decoded
        · rename_i readRest
          cases decoded
          intro mapping member
          rcases List.mem_append.mp member with first | later
          · exact MappingCursor.line_of_advance (Option.mem_toList.mp first)
          · exact ih readRest mapping later

theorem ordered_of_decodeGroups {row : Nat} {cursor : MappingCursor} {groups : List Text}
    {mappings : List Mapping} (decoded : decodeGroups row cursor groups = .ok mappings) :
    (∀ mapping ∈ mappings, row ≤ mapping.line) ∧
      mappings.Pairwise fun first second => first.line ≤ second.line := by
  induction groups generalizing row cursor mappings with
  | nil =>
      cases decoded
      simp
  | cons group rest ih =>
      unfold decodeGroups at decoded
      dsimp only at decoded
      split at decoded
      · cases decoded
      · rename_i moved here readHere
        split at decoded
        · cases decoded
        · rename_i more readMore
          cases decoded
          have onRow := line_of_decodeSegments readHere
          obtain ⟨below, ordered⟩ := ih readMore
          constructor
          · intro mapping member
            rcases List.mem_append.mp member with first | later
            · exact Int.le_of_eq (onRow mapping first).symm
            · have onLater := below mapping later
              omega
          · refine List.pairwise_append.mpr ⟨?_, ordered, ?_⟩
            · exact List.pairwise_of_forall_mem_list fun first inHere second alsoHere =>
                Int.le_of_eq ((onRow first inHere).trans (onRow second alsoHere).symm)
            · intro first inHere second inMore
              have onLater := below second inMore
              rw [onRow first inHere]
              omega

end Mapping

namespace Encoder

theorem accepted_of_ordered {mappings : List Mapping} {encoder : Encoder}
    (below : ∀ mapping ∈ mappings, encoder.last.line ≤ mapping.line)
    (ordered : mappings.Pairwise fun first second => first.line ≤ second.line) :
    encoder.accepted mappings = mappings := by
  induction mappings generalizing encoder with
  | nil => rfl
  | cons mapping rest ih =>
      rw [List.forall_mem_cons] at below
      rw [List.pairwise_cons] at ordered
      rw [accepted_cons_of_le rest below.1, ih ?_ ordered.2]
      rw [putOrKeep_of_le below.1]
      exact ordered.1

theorem accepted_of_decode {text : Text} {mappings : List Mapping}
    (decoded : Mapping.decode text = .ok mappings) : Encoder.empty.accepted mappings = mappings := by
  obtain ⟨natural, ordered⟩ := Mapping.ordered_of_decodeGroups decoded
  exact accepted_of_ordered natural ordered

theorem putAll_of_decode {calls mappings : List Mapping}
    (decoded : Mapping.decode (Encoder.empty.putAll calls).text = .ok mappings) :
    Encoder.empty.putAll mappings = Encoder.empty.putAll calls := by
  have again := hasWritten_putAll mappings
  have once := hasWritten_putAll calls
  rw [decode_text_putAll] at decoded
  obtain rfl : _ = mappings := Except.ok.inj decoded
  rw [accepted_of_decode (decode_text_putAll calls), List.destutter_idem] at again
  exact again.unique once

/-- What a text says is accepted by a new encoder, mapping by mapping. The text that it writes says
the same, equal mappings in a row once; writing what that text says gives the same text again; and
so does writing what the first text says if an encoder wrote it. -/
theorem rewritten_text_is_normal {text : Text} {mappings : List Mapping}
    (decoded : Mapping.decode text = .ok mappings) :
    let encoder := Encoder.empty.putAll mappings
    Encoder.empty.accepted mappings = mappings ∧
      Mapping.decode encoder.text = .ok (mappings.destutter (· ≠ ·)) ∧
      (Encoder.empty.putAll (mappings.destutter (· ≠ ·))).text = encoder.text ∧
      ∀ calls, text = (Encoder.empty.putAll calls).text → encoder.text = text := by
  intro encoder
  have all : Encoder.empty.accepted mappings = mappings := accepted_of_decode decoded
  have readAgain : Mapping.decode encoder.text = .ok (mappings.destutter (· ≠ ·)) := by
    rw [decode_text_putAll, all]
  refine ⟨all, readAgain, congrArg Encoder.text (putAll_of_decode readAgain), ?_⟩
  rintro calls rfl
  exact congrArg Encoder.text (putAll_of_decode decoded)

/-- Numbers that are longer than they need to be, segments of one number, of six and of none, and
two segments that say the same. -/
theorem rewritten_text_is_normal_with_long_numbers :
    let text := "A,gAAAA,AAAA,,EACCCC;;IJAD".toList
    let mappings : List Mapping :=
      [⟨0, 0, 0, 0, 0⟩, ⟨0, 0, 0, 0, 0⟩, ⟨0, 2, 0, 1, 1⟩, ⟨2, 4, -4, 1, 0⟩]
    let encoder := Encoder.empty.putAll mappings
    Mapping.decode text = .ok mappings ∧
      Encoder.empty.accepted mappings = mappings ∧
      encoder.text = "AAAA,EACC;;IJAD".toList ∧
      Mapping.decode encoder.text = .ok (mappings.eraseIdx 1) ∧
      (Encoder.empty.putAll (mappings.eraseIdx 1)).text = encoder.text := by
  intro text mappings encoder
  have decoded : Mapping.decode text = .ok mappings := by decide +kernel
  have once : mappings.destutter (· ≠ ·) = mappings.eraseIdx 1 := by decide +kernel
  obtain ⟨all, readAgain, written, _⟩ := rewritten_text_is_normal decoded
  rw [once] at readAgain written
  exact ⟨decoded, all, by decide +kernel, readAgain, written⟩

end Encoder

end CodeWriter
