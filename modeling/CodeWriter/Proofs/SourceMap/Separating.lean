import CodeWriter.Proofs.SourceMap.Grouping

namespace CodeWriter

namespace Text

theorem not_mem_intercalate {c : Char} {separator : Text} {texts : List Text}
    (apart : c ∉ separator) (separatorFree : ∀ text ∈ texts, c ∉ text) :
    c ∉ separator.intercalate texts := by
  cases texts with
  | nil => simp
  | cons first rest =>
      rw [List.forall_mem_cons] at separatorFree
      rw [intercalate_cons]
      simpa [apart] using separatorFree

theorem ends_intercalate {separator : Char} {pieces : List Text}
    (separatorFree : ∀ piece ∈ pieces, piece ≠ [] ∧ separator ∉ piece) :
    ([separator].intercalate pieces).head? ≠ some separator ∧
      ([separator].intercalate pieces).getLast? ≠ some separator := by
  constructor
  · cases pieces with
    | nil => simp
    | cons first rest =>
        have found := separatorFree first (by simp)
        rw [intercalate_cons, List.head?_append_of_ne_nil _ found.1]
        exact fun start => found.2 (List.mem_of_head? start)
  · rcases List.eq_nil_or_concat pieces with rfl | ⟨before, last, rfl⟩
    · simp
    · have found := separatorFree last (by simp)
      have final : ∀ start : Text, (start ++ last).getLast? ≠ some separator := by
        intro start ending
        rw [List.getLast?_append_of_ne_nil _ found.1] at ending
        exact found.2 (List.mem_of_getLast? ending)
      rw [List.concat_eq_append]
      by_cases only : before = []
      · rw [only]
        simpa using final []
      · rw [intercalate_concat _ _ only]
        exact final _

end Text

namespace Encoder

theorem not_mem_lineSegments {c : Char} (foreign : Vlq.digit? c = none) {line : Nat}
    {mappings : List Mapping} {text : Text} (member : text ∈ lineSegments line mappings) :
    c ∉ text := by
  obtain ⟨last, mapping, rfl⟩ := mem_lineSegments member
  exact not_mem_segment foreign _ _ _

theorem fields_of_mem_lineSegments {line : Nat} {mappings : List Mapping} {text : Text}
    (member : text ∈ lineSegments line mappings) :
    text ≠ [] ∧ ∃ numbers : List Int, numbers.length = 4 ∧ text = numbers.flatMap Vlq.encode := by
  obtain ⟨last, mapping, rfl⟩ := mem_lineSegments member
  exact ⟨segment_ne_nil _ _ _, _, rfl, rfl⟩

theorem split_group (line : Nat) (mappings : List Mapping) :
    lineSegments line mappings = [] ∨
      (group line mappings).split ',' = lineSegments line mappings := by
  by_cases noSegments : lineSegments line mappings = []
  · exact .inl noSegments
  · exact .inr (Text.split_intercalate noSegments fun _ => not_mem_lineSegments (by decide))

theorem ends_group (line : Nat) (mappings : List Mapping) :
    (group line mappings).head? ≠ some ',' ∧ (group line mappings).getLast? ≠ some ',' :=
  Text.ends_intercalate fun _ member =>
    ⟨(fields_of_mem_lineSegments member).1, not_mem_lineSegments (by decide) member⟩

theorem split_groupsText (count : Nat) (mappings : List Mapping) :
    (groupsText (count + 1) mappings).split ';' =
      (List.range (count + 1)).map fun line => group line mappings := by
  refine Text.split_intercalate (by simp) ?_
  intro text member
  obtain ⟨line, _, rfl⟩ := List.mem_map.mp member
  exact Text.not_mem_intercalate (by decide) fun _ => not_mem_lineSegments (by decide)

theorem addition_eq_nil_iff {encoder : Encoder} {mapping : Mapping} :
    encoder.addition mapping = [] ↔ encoder.started ∧ mapping = encoder.last := by
  unfold addition
  split
  · rename_i repeated
    simp [repeated]
  · rename_i fresh
    simp [segment_ne_nil, fresh]

theorem text_prefix_putOrKeep (mapping : Mapping) (encoder : Encoder) :
    encoder.text <+: (encoder.putOrKeep mapping).text := by
  by_cases below : mapping.line < encoder.last.line
  · simp [putOrKeep_of_rejects (rejects_iff.mpr below)]
  · rw [putOrKeep_of_le (by omega)]
    exact List.prefix_append _ _

theorem skips_iff {encoder : Encoder} {mapping : Mapping} :
    ¬encoder.Rejects mapping ∧ (encoder.putOrKeep mapping).text = encoder.text ↔
      encoder.started ∧ mapping = encoder.last := by
  rw [rejects_iff]
  constructor
  · rintro ⟨notBelow, same⟩
    rw [putOrKeep_of_le (by omega)] at same
    exact addition_eq_nil_iff.mp (List.append_right_eq_self.mp same)
  · rintro ⟨started, rfl⟩
    exact ⟨Int.lt_irrefl _, by rw [putOrKeep_last started]⟩

theorem repeats_iff (calls : List Mapping) (next : Mapping) :
    let encoder := Encoder.empty.putAll calls
    encoder.started ∧ next = encoder.last ↔
      (Encoder.empty.accepted calls).getLast? = some next := by
  intro encoder
  have started : encoder.started ↔ Encoder.empty.accepted calls ≠ [] := by
    rw [(hasWritten_putAll calls).started, ne_eq, List.destutter_eq_nil]
  have last : encoder.last = (Encoder.empty.accepted calls).getLastD {} :=
    last_putAll calls Encoder.empty
  rw [started, last, List.getLastD_eq_getLast?]
  cases found : (Encoder.empty.accepted calls).getLast? with
  | none => simp [List.getLast?_eq_none_iff.mp found]
  | some mapping =>
      have nonempty : Encoder.empty.accepted calls ≠ [] := by
        rintro noCalls
        simp [noCalls] at found
      simp [nonempty, eq_comm]

/-- After any run of calls: the next call only adds to the text, and one that is accepted adds
nothing just if it repeats the last accepted mapping. The text has a `;` for each line before the
last, and the group of a line is the segments of its accepted mappings, equal ones in a row once, in
order and with a `,` between any two; a segment is four numbers. -/
theorem written_text_is_well_formed (calls : List Mapping) (next : Mapping) :
    let encoder := Encoder.empty.putAll calls
    let accepted := Encoder.empty.accepted calls
    let written := accepted.destutter (· ≠ ·)
    encoder.text <+: (encoder.putOrKeep next).text ∧
      (¬encoder.Rejects next ∧ (encoder.putOrKeep next).text = encoder.text ↔
        accepted.getLast? = some next) ∧
      encoder.text.count ';' = encoder.last.line ∧
      encoder.text.split ';' =
        (List.range (encoder.last.line.toNat + 1)).map (fun line => group line written) ∧
      ∀ line,
        let segments := lineSegments line written
        segments.length = (written.countP fun (mapping : Mapping) => mapping.line = line) ∧
          (segments = [] ∨ (group line written).split ',' = segments) ∧
          (group line written).head? ≠ some ',' ∧ (group line written).getLast? ≠ some ',' ∧
          ∀ segment ∈ segments, segment ≠ [] ∧
            ∃ numbers : List Int, numbers.length = 4 ∧ segment = numbers.flatMap Vlq.encode := by
  intro encoder accepted written
  have wrote : encoder.HasWritten written := hasWritten_putAll calls
  have groups : encoder.text.split ';' =
      (List.range (encoder.last.line.toNat + 1)).map fun line => group line written := by
    rw [wrote.text, split_groupsText]
  have count : encoder.text.count ';' = encoder.last.line.toNat := by
    have length := congrArg List.length groups
    rw [Text.length_split, List.length_map, List.length_range] at length
    omega
  refine ⟨text_prefix_putOrKeep next encoder, skips_iff.trans (repeats_iff calls next), ?_, groups,
    ?_⟩
  · rw [count]
    exact Int.toNat_of_nonneg wrote.natural
  · intro line segments
    exact ⟨length_lineSegments line written, split_group line written, (ends_group line written).1,
      (ends_group line written).2, fun _ => fields_of_mem_lineSegments⟩

end Encoder

end CodeWriter
