import CodeWriter.Proofs.SourceMap.Codes
import CodeWriter.SourceMap.Mapping

namespace CodeWriter

/-- The text ends, or a separator of segments or of lines follows. -/
def Text.Delimited (text : Text) : Prop :=
  ∀ c ∈ text.head?, c = ',' ∨ c = ';'

theorem Text.delimited_nil : Text.Delimited [] := by
  simp [Text.Delimited]

namespace Mapping

def segments (group : Text) : List Text :=
  (group.split ',').filter fun segment => !segment.isEmpty

@[simp] theorem segments_nil : segments [] = [] := rfl

@[simp] theorem segments_comma (rest : Text) : segments (',' :: rest) = segments rest := by
  have first := Text.split_append_separator (List.not_mem_nil (a := ',')) rest
  rw [List.nil_append] at first
  simp [segments, first]

theorem segments_append {segment rest : Text} (nonempty : segment ≠ []) (commaFree : ',' ∉ segment)
    (delimited : ∀ c ∈ rest.head?, c = ',') :
    segments (segment ++ rest) = segment :: segments rest := by
  cases rest with
  | nil =>
      rw [List.append_nil, segments_nil]
      simp [segments, Text.split_of_not_mem commaFree, nonempty]
  | cons c more =>
      obtain rfl : c = ',' := delimited c rfl
      rw [segments_comma]
      simp [segments, Text.split_append_separator commaFree, nonempty]

/-- Read on from within a line. -/
def decodeOn (row : Nat) (cursor : MappingCursor) (text : Text) : Except Fault (List Mapping) :=
  match decodeSegments row cursor (segments (text.cut ';').1) with
  | .error fault => .error fault
  | .ok (moved, mappings) =>
      match decodeGroups (row + 1) moved (text.cut ';').2 with
      | .error fault => .error fault
      | .ok more => .ok (mappings ++ more)

theorem decodeGroups_split (row : Nat) (cursor : MappingCursor) (text : Text) :
    decodeGroups row cursor (text.split ';') = decodeOn row { cursor with column := 0 } text := rfl

theorem decode_eq_decodeOn (text : Text) : decode text = decodeOn 0 {} text := rfl

theorem decodeOn_lineBreak (row : Nat) (cursor : MappingCursor) (rest : Text) :
    decodeOn row cursor (';' :: rest) = decodeOn (row + 1) { cursor with column := 0 } rest := by
  have nothing : decodeSegments row cursor [] = .ok (cursor, []) := rfl
  rw [decodeOn, Text.cut_separator, segments_nil, nothing]
  simp only [decodeGroups_split]
  cases decodeOn (row + 1) { cursor with column := 0 } rest <;> rfl

theorem decodeOn_lineBreaks (row : Nat) (cursor : MappingCursor) (count : Nat) (rest : Text) :
    decodeOn row cursor (List.replicate (count + 1) ';' ++ rest) =
      decodeOn (row + (count + 1)) { cursor with column := 0 } rest := by
  induction count generalizing row cursor with
  | zero => exact decodeOn_lineBreak row cursor rest
  | succ count ih =>
      rw [List.replicate_succ, List.cons_append, decodeOn_lineBreak, ih]
      congr 1
      omega

theorem decodeOn_comma (row : Nat) (cursor : MappingCursor) (rest : Text) :
    decodeOn row cursor (',' :: rest) = decodeOn row cursor rest := by
  rw [decodeOn, Text.cut_other (by decide), segments_comma]
  rfl

theorem decodeOn_segment {segment rest : Text} {fields : List Int} (row : Nat)
    (cursor : MappingCursor) (nonempty : segment ≠ [])
    (inLine : ',' ∉ segment) (inGroup : ';' ∉ segment)
    (decoded : Vlq.decodeAll segment = .ok fields) (delimited : rest.Delimited) :
    decodeOn row cursor (segment ++ rest) =
      (decodeOn row (cursor.advance row fields).1 rest).map
        ((cursor.advance row fields).2.toList ++ ·) := by
  have onLine : ∀ c ∈ (rest.cut ';').1.head?, c = ',' := by
    cases rest with
    | nil => simp
    | cons c more =>
        intro found member
        rcases delimited c rfl with rfl | rfl
        · rw [Text.cut_other (by decide)] at member
          simpa using member.symm
        · rw [Text.cut_separator] at member
          simp at member
  rw [decodeOn, Text.cut_append_of_not_mem inGroup, segments_append nonempty inLine onLine]
  simp only [decodeSegments, decoded, decodeOn]
  cases decodeSegments row (cursor.advance row fields).1 _ with
  | error fault => rfl
  | ok inLine =>
      dsimp only
      cases decodeGroups (row + 1) inLine.1 _ with
      | error fault => rfl
      | ok more => simp [Except.map, List.append_assoc]

end Mapping

end CodeWriter
