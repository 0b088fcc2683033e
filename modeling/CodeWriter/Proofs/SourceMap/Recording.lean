import CodeWriter.Proofs.SourceMap.Reading
import Mathlib.Data.List.Destutter

namespace CodeWriter

namespace Encoder

def addition (mapping : Mapping) (encoder : Encoder) : Text :=
  if encoder.started ∧ mapping = encoder.last then []
  else encoder.separator mapping ++ segment (encoder.baseColumn mapping) encoder.last mapping

def Rejects (mapping : Mapping) (encoder : Encoder) : Prop :=
  ∃ fault, encoder.put mapping = .error fault

/-- The encoder after a run of calls, the refused ones passed over. -/
def putAll (mappings : List Mapping) (encoder : Encoder) : Encoder :=
  mappings.foldl (fun encoder mapping => encoder.putOrKeep mapping) encoder

def accepted : List Mapping → Encoder → List Mapping
  | [], _ => []
  | mapping :: rest, encoder =>
      match encoder.put mapping with
      | .ok after => mapping :: accepted rest after
      | .error _ => accepted rest encoder

theorem put_of_lt {mapping : Mapping} {encoder : Encoder}
    (below : mapping.line < encoder.last.line) :
    encoder.put mapping = .error (.mappingOutOfOrder mapping.line encoder.last.line) := by
  simp [put, below]

theorem put_of_le {mapping : Mapping} {encoder : Encoder}
    (ordered : encoder.last.line ≤ mapping.line) :
    encoder.put mapping = .ok {
      last := mapping
      started := true
      text := encoder.text ++ encoder.addition mapping } := by
  have notBelow : ¬(mapping.line < encoder.last.line) := by omega
  unfold put addition
  rw [if_neg notBelow]
  split
  · rename_i same
    obtain ⟨last, text, started⟩ := encoder
    obtain ⟨rfl, rfl⟩ := same
    simp
  · rw [List.append_assoc]

theorem rejects_iff {mapping : Mapping} {encoder : Encoder} :
    encoder.Rejects mapping ↔ mapping.line < encoder.last.line := by
  constructor
  · rintro ⟨fault, refused⟩
    by_contra notBelow
    rw [put_of_le (by omega)] at refused
    cases refused
  · intro below
    exact ⟨_, put_of_lt below⟩

theorem putOrKeep_of_rejects {mapping : Mapping} {encoder : Encoder}
    (refused : encoder.Rejects mapping) : encoder.putOrKeep mapping = encoder := by
  obtain ⟨fault, failed⟩ := refused
  simp [putOrKeep, failed]

theorem putOrKeep_of_le {mapping : Mapping} {encoder : Encoder}
    (ordered : encoder.last.line ≤ mapping.line) :
    encoder.putOrKeep mapping = {
      last := mapping
      started := true
      text := encoder.text ++ encoder.addition mapping } := by
  simp [putOrKeep, put_of_le ordered]

@[simp] theorem putAll_nil (encoder : Encoder) : encoder.putAll [] = encoder := rfl

@[simp] theorem putAll_cons (mapping : Mapping) (rest : List Mapping) (encoder : Encoder) :
    encoder.putAll (mapping :: rest) = (encoder.putOrKeep mapping).putAll rest := rfl

theorem accepted_cons_of_lt {mapping : Mapping} {encoder : Encoder} (rest : List Mapping)
    (below : mapping.line < encoder.last.line) :
    encoder.accepted (mapping :: rest) = encoder.accepted rest := by
  simp [accepted, put_of_lt below]

theorem accepted_cons_of_le {mapping : Mapping} {encoder : Encoder} (rest : List Mapping)
    (ordered : encoder.last.line ≤ mapping.line) :
    encoder.accepted (mapping :: rest) =
      mapping :: (encoder.putOrKeep mapping).accepted rest := by
  simp [accepted, putOrKeep, put_of_le ordered]

theorem last_putAll (mappings : List Mapping) (encoder : Encoder) :
    (encoder.putAll mappings).last = (encoder.accepted mappings).getLastD encoder.last := by
  induction mappings generalizing encoder with
  | nil => rfl
  | cons mapping rest ih =>
      rw [putAll_cons]
      by_cases below : mapping.line < encoder.last.line
      · rw [accepted_cons_of_lt rest below,
          putOrKeep_of_rejects (rejects_iff.mpr below), ih]
      · have ordered : encoder.last.line ≤ mapping.line := by omega
        rw [accepted_cons_of_le rest ordered, ih, putOrKeep_of_le ordered, List.getLastD_cons]

def added : List Mapping → Encoder → Text
  | [], _ => []
  | mapping :: rest, encoder =>
      match encoder.put mapping with
      | .ok after => encoder.addition mapping ++ added rest after
      | .error _ => added rest encoder

theorem added_cons_of_lt {mapping : Mapping} {encoder : Encoder} (rest : List Mapping)
    (below : mapping.line < encoder.last.line) :
    encoder.added (mapping :: rest) = encoder.added rest := by
  simp [added, put_of_lt below]

theorem added_cons_of_le {mapping : Mapping} {encoder : Encoder} (rest : List Mapping)
    (ordered : encoder.last.line ≤ mapping.line) :
    encoder.added (mapping :: rest) =
      encoder.addition mapping ++ (encoder.putOrKeep mapping).added rest := by
  simp [added, putOrKeep, put_of_le ordered]

theorem text_putAll (mappings : List Mapping) (encoder : Encoder) :
    (encoder.putAll mappings).text = encoder.text ++ encoder.added mappings := by
  induction mappings generalizing encoder with
  | nil => simp [added]
  | cons mapping rest ih =>
      rw [putAll_cons, ih]
      by_cases below : mapping.line < encoder.last.line
      · rw [added_cons_of_lt rest below, putOrKeep_of_rejects (rejects_iff.mpr below)]
      · have ordered : encoder.last.line ≤ mapping.line := by omega
        rw [added_cons_of_le rest ordered, putOrKeep_of_le ordered, List.append_assoc]

theorem segment_ne_nil (column : Int) (last mapping : Mapping) :
    segment column last mapping ≠ [] := by
  simp [segment, Vlq.encode_ne_nil]

theorem not_mem_segment {c : Char} (foreign : Vlq.digit? c = none) (column : Int)
    (last mapping : Mapping) : c ∉ segment column last mapping := by
  intro member
  obtain ⟨value, _, inCode⟩ := List.mem_flatMap.mp member
  have digit := Vlq.isSome_digit?_of_mem_encode inCode
  rw [foreign] at digit
  cases digit

theorem delimited_added {encoder : Encoder} (started : encoder.started = true)
    (mappings : List Mapping) : (encoder.added mappings).Delimited := by
  induction mappings generalizing encoder with
  | nil => exact Text.delimited_nil
  | cons mapping rest ih =>
      by_cases below : mapping.line < encoder.last.line
      · rw [added_cons_of_lt rest below]
        exact ih started
      · have ordered : encoder.last.line ≤ mapping.line := by omega
        rw [added_cons_of_le rest ordered, putOrKeep_of_le ordered]
        unfold addition
        split
        · exact ih rfl
        · unfold separator
          split
          · simp [Text.Delimited]
          · rename_i different
            obtain ⟨count, steps⟩ : ∃ count, (mapping.line - encoder.last.line).toNat = count + 1 :=
              ⟨(mapping.line - encoder.last.line).toNat - 1, by omega⟩
            simp [steps, List.replicate_succ, Text.Delimited]

def cursorAt (mapping : Mapping) : MappingCursor where
  column := mapping.column
  source := mapping.source
  sourceLine := mapping.sourceLine
  sourceColumn := mapping.sourceColumn

theorem decodeOn_segment (row : Nat) (cursor : MappingCursor) (last : Mapping)
    {mapping : Mapping} {rest : Text}
    (onSource : cursor = { cursorAt last with column := cursor.column })
    (onRow : mapping.line = row) (delimited : rest.Delimited) :
    Mapping.decodeOn row cursor (segment cursor.column last mapping ++ rest) =
      (Mapping.decodeOn row (cursorAt mapping) rest).map (mapping :: ·) := by
  have comma : Vlq.digit? ',' = none := by decide
  have semicolon : Vlq.digit? ';' = none := by decide
  rw [Mapping.decodeOn_segment row cursor (segment_ne_nil _ _ _) (not_mem_segment comma _ _ _)
    (not_mem_segment semicolon _ _ _) (Vlq.decodeAll_flatMap_encode _) delimited]
  have moved : ∀ before after : Int, before + (after - before) = after := by
    intro before after
    omega
  rw [onSource]
  simp [MappingCursor.advance, cursorAt, ← onRow, moved]

theorem decodeOn_addition {encoder : Encoder} {mapping : Mapping} {rest : Text}
    (natural : 0 ≤ encoder.last.line) (ordered : encoder.last.line ≤ mapping.line)
    (fresh : ¬(encoder.started ∧ mapping = encoder.last)) (delimited : rest.Delimited) :
    Mapping.decodeOn encoder.last.line.toNat (cursorAt encoder.last)
        (encoder.addition mapping ++ rest) =
      (Mapping.decodeOn mapping.line.toNat (cursorAt mapping) rest).map (mapping :: ·) := by
  rw [addition, if_neg fresh, List.append_assoc]
  unfold separator baseColumn
  split
  · rename_i sameLine
    have onRow : mapping.line = (encoder.last.line.toNat : Int) := by omega
    have decoded := decodeOn_segment encoder.last.line.toNat (cursorAt encoder.last) encoder.last
      rfl onRow delimited
    rw [sameLine]
    split
    · exact (Mapping.decodeOn_comma _ _ _).trans decoded
    · exact decoded
  · rename_i different
    obtain ⟨count, steps⟩ : ∃ count, (mapping.line - encoder.last.line).toNat = count + 1 :=
      ⟨(mapping.line - encoder.last.line).toNat - 1, by omega⟩
    have row : encoder.last.line.toNat + (count + 1) = mapping.line.toNat := by omega
    rw [steps, Mapping.decodeOn_lineBreaks, row]
    exact decodeOn_segment mapping.line.toNat { cursorAt encoder.last with column := 0 } _ rfl
      (by omega) delimited

theorem decodeOn_added_of_started (mappings : List Mapping) (encoder : Encoder)
    (started : encoder.started = true) (natural : 0 ≤ encoder.last.line) :
    (Mapping.decodeOn encoder.last.line.toNat (cursorAt encoder.last)
        (encoder.added mappings)).map (encoder.last :: ·) =
      .ok ((encoder.accepted mappings).destutter' (· ≠ ·) encoder.last) := by
  induction mappings generalizing encoder with
  | nil => rfl
  | cons mapping rest ih =>
      by_cases below : mapping.line < encoder.last.line
      · rw [added_cons_of_lt rest below, accepted_cons_of_lt rest below]
        exact ih encoder started natural
      · have ordered : encoder.last.line ≤ mapping.line := by omega
        have tail := ih (encoder.putOrKeep mapping)
          (by rw [putOrKeep_of_le ordered])
          (by rw [putOrKeep_of_le ordered]; exact Int.le_trans natural ordered)
        rw [added_cons_of_le rest ordered, accepted_cons_of_le rest ordered]
        rw [show (encoder.putOrKeep mapping).last = mapping by rw [putOrKeep_of_le ordered]] at tail
        by_cases repeated : mapping = encoder.last
        · rw [List.destutter'_cons_neg _ (by simp [repeated]), ← repeated, ← tail]
          simp [addition, started, repeated]
        · have delimited : ((encoder.putOrKeep mapping).added rest).Delimited :=
            delimited_added (by rw [putOrKeep_of_le ordered]) rest
          rw [decodeOn_addition natural ordered (fun same => repeated same.2) delimited, tail,
            List.destutter'_cons_pos _ (Ne.symm repeated)]
          rfl

theorem decodeOn_added_of_not_started (mappings : List Mapping) (encoder : Encoder)
    (started : encoder.started = false) (natural : 0 ≤ encoder.last.line) :
    Mapping.decodeOn encoder.last.line.toNat (cursorAt encoder.last) (encoder.added mappings) =
      .ok ((encoder.accepted mappings).destutter (· ≠ ·)) := by
  induction mappings with
  | nil => rfl
  | cons mapping rest ih =>
      by_cases below : mapping.line < encoder.last.line
      · rw [added_cons_of_lt rest below, accepted_cons_of_lt rest below]
        exact ih
      · have ordered : encoder.last.line ≤ mapping.line := by omega
        have tail := decodeOn_added_of_started rest (encoder.putOrKeep mapping)
          (by rw [putOrKeep_of_le ordered])
          (by rw [putOrKeep_of_le ordered]; exact Int.le_trans natural ordered)
        have delimited : ((encoder.putOrKeep mapping).added rest).Delimited :=
          delimited_added (by rw [putOrKeep_of_le ordered]) rest
        rw [show (encoder.putOrKeep mapping).last = mapping by rw [putOrKeep_of_le ordered]] at tail
        rw [added_cons_of_le rest ordered, accepted_cons_of_le rest ordered,
          decodeOn_addition natural ordered (by simp [started]) delimited, tail,
          List.destutter_cons']

theorem decode_text_putAll (mappings : List Mapping) :
    Mapping.decode (Encoder.empty.putAll mappings).text =
      .ok ((Encoder.empty.accepted mappings).destutter (· ≠ ·)) := by
  rw [text_putAll, Mapping.decode_eq_decodeOn]
  exact decodeOn_added_of_not_started mappings Encoder.empty rfl (Int.le_refl 0)

/-- After any run of calls: the next call is refused exactly when its line is below that of the last
accepted mapping, and then changes nothing; the state is the last accepted mapping; and the text is
read back as the accepted mappings, equal ones in a row once. -/
theorem recorded_calls_decode (mappings : List Mapping) (next : Mapping) :
    let encoder := Encoder.empty.putAll mappings
    let accepted := Encoder.empty.accepted mappings
    (encoder.Rejects next ↔ next.line < (accepted.getLastD {}).line) ∧
      (encoder.Rejects next →
        encoder.put next = .error (.mappingOutOfOrder next.line (accepted.getLastD {}).line) ∧
          encoder.putOrKeep next = encoder) ∧
      encoder.last = accepted.getLastD {} ∧
      Mapping.decode encoder.text = .ok (accepted.destutter (· ≠ ·)) := by
  intro encoder accepted
  have last : encoder.last = accepted.getLastD {} := last_putAll mappings Encoder.empty
  have below : encoder.Rejects next ↔ next.line < (accepted.getLastD {}).line := by
    rw [← last]
    exact rejects_iff
  refine ⟨below, ?_, last, decode_text_putAll mappings⟩
  intro refused
  refine ⟨?_, putOrKeep_of_rejects refused⟩
  rw [← last]
  exact put_of_lt (rejects_iff.mp refused)

end Encoder

end CodeWriter
