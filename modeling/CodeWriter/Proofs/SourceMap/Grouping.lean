import CodeWriter.Proofs.SourceMap.Recording

namespace CodeWriter

namespace Encoder

/-- The column counts from the mapping before if that is on the same line, and from the start of the
line otherwise. -/
def segmentAfter (last mapping : Mapping) : Text :=
  segment (if mapping.line = last.line then last.column else 0) last mapping

/-- Mappings, each with the one before it; the first comes after the start of the text. -/
def steps (mappings : List Mapping) : List (Mapping × Mapping) :=
  (({} : Mapping) :: mappings).zip mappings

def lineSegments (line : Nat) (mappings : List Mapping) : List Text :=
  ((steps mappings).filter fun (step : Mapping × Mapping) => step.2.line = line).map
    fun step => segmentAfter step.1 step.2

def group (line : Nat) (mappings : List Mapping) : Text :=
  [','].intercalate (lineSegments line mappings)

def groupsText (count : Nat) (mappings : List Mapping) : Text :=
  [';'].intercalate ((List.range count).map fun line => group line mappings)

theorem zip_concat (first mapping : Mapping) (mappings : List Mapping) :
    (first :: (mappings ++ [mapping])).zip (mappings ++ [mapping]) =
      (first :: mappings).zip mappings ++ [(mappings.getLastD first, mapping)] := by
  induction mappings generalizing first with
  | nil => rfl
  | cons second rest ih =>
      rw [List.cons_append, List.zip_cons_cons, ih, List.zip_cons_cons, List.getLastD_cons,
        List.cons_append]

theorem lineSegments_concat (line : Nat) (mappings : List Mapping) (mapping : Mapping) :
    lineSegments line (mappings ++ [mapping]) =
      lineSegments line mappings ++
        if mapping.line = line then [segmentAfter (mappings.getLastD {}) mapping] else [] := by
  rw [lineSegments, steps, zip_concat, List.filter_append, List.map_append, lineSegments, steps]
  split <;> simp [*]

theorem length_lineSegments (line : Nat) (mappings : List Mapping) :
    (lineSegments line mappings).length =
      mappings.countP fun (mapping : Mapping) => mapping.line = line := by
  have all : (steps mappings).map Prod.snd = mappings := List.map_snd_zip (by simp)
  rw [lineSegments, List.length_map, ← List.countP_eq_length_filter]
  conv_rhs => rw [← all, List.countP_map]
  rfl

theorem lineSegments_eq_nil_iff {line : Nat} {mappings : List Mapping} :
    lineSegments line mappings = [] ↔ ∀ mapping ∈ mappings, mapping.line ≠ line := by
  rw [← List.length_eq_zero_iff, length_lineSegments, List.countP_eq_zero]
  simp

theorem mem_lineSegments {line : Nat} {mappings : List Mapping} {text : Text}
    (member : text ∈ lineSegments line mappings) :
    ∃ last mapping, text = segmentAfter last mapping := by
  obtain ⟨step, _, rfl⟩ := List.mem_map.mp member
  exact ⟨_, _, rfl⟩

theorem groupsText_succ {count : Nat} (nonzero : count ≠ 0) (mappings : List Mapping) :
    groupsText (count + 1) mappings =
      groupsText count mappings ++ [';'] ++ group count mappings := by
  rw [groupsText, List.range_succ, List.map_append, List.map_singleton,
    Text.intercalate_concat _ _ (by simpa using nonzero)]
  rfl

theorem groupsText_add {count : Nat} (nonzero : count ≠ 0) {mappings : List Mapping}
    (within : ∀ mapping ∈ mappings, mapping.line < count) (more : Nat) :
    groupsText (count + more) mappings =
      groupsText count mappings ++ List.replicate more ';' := by
  induction more with
  | zero => simp
  | succ more ih =>
      have noSegments : lineSegments (count + more) mappings = [] := by
        rw [lineSegments_eq_nil_iff]
        intro mapping member
        have below := within mapping member
        omega
      have blank : group (count + more) mappings = [] := by
        rw [group, noSegments]
        rfl
      rw [← Nat.add_assoc, groupsText_succ (by omega), ih, blank, List.replicate_succ']
      simp

theorem group_concat_of_ne {line : Nat} {mapping : Mapping} (elsewhere : mapping.line ≠ line)
    (mappings : List Mapping) : group line (mappings ++ [mapping]) = group line mappings := by
  rw [group, lineSegments_concat, if_neg elsewhere, List.append_nil, group]

theorem group_concat {line : Nat} {mapping : Mapping} (onLine : mapping.line = line)
    (mappings : List Mapping) :
    group line (mappings ++ [mapping]) =
      group line mappings ++ (if lineSegments line mappings = [] then [] else [',']) ++
        segmentAfter (mappings.getLastD {}) mapping := by
  rw [group, lineSegments_concat, if_pos onLine, group]
  split
  · rename_i noSegments
    simp [noSegments]
  · rename_i nonempty
    exact Text.intercalate_concat _ _ nonempty

theorem groupsText_concat {line : Nat} {mapping : Mapping} (onLine : mapping.line = line)
    (mappings : List Mapping) :
    groupsText (line + 1) (mappings ++ [mapping]) =
      groupsText (line + 1) mappings ++
        (if lineSegments line mappings = [] then [] else [',']) ++
          segmentAfter (mappings.getLastD {}) mapping := by
  cases line with
  | zero => simpa [groupsText] using group_concat onLine mappings
  | succ line =>
      have before : groupsText (line + 1) (mappings ++ [mapping]) =
          groupsText (line + 1) mappings := by
        unfold groupsText
        congr 1
        refine List.map_congr_left fun other inRange => group_concat_of_ne ?_ mappings
        have below := List.mem_range.mp inRange
        omega
      have nonzero : line + 1 ≠ 0 := Nat.succ_ne_zero line
      rw [groupsText_succ nonzero, groupsText_succ nonzero mappings, before, group_concat onLine]
      simp only [List.append_assoc]

/-- The encoder wrote just these mappings. -/
structure HasWritten (mappings : List Mapping) (encoder : Encoder) : Prop where
  last : encoder.last = mappings.getLastD {}
  started : encoder.started = true ↔ mappings ≠ []
  natural : 0 ≤ encoder.last.line
  within : ∀ mapping ∈ mappings, mapping.line ≤ encoder.last.line
  text : encoder.text = groupsText (encoder.last.line.toNat + 1) mappings

theorem hasWritten_empty : HasWritten [] Encoder.empty where
  last := rfl
  started := by simp [Encoder.empty]
  natural := Int.le_refl 0
  within := by simp
  text := rfl

/-- The mappings that were written tell everything of an encoder. -/
theorem HasWritten.unique {mappings : List Mapping} {first second : Encoder}
    (one : first.HasWritten mappings) (other : second.HasWritten mappings) : first = second := by
  have last : first.last = second.last := one.last.trans other.last.symm
  have started : first.started = second.started :=
    Bool.eq_iff_iff.mpr (one.started.trans other.started.symm)
  have text : first.text = second.text := by rw [one.text, other.text, last]
  cases first
  cases second
  simp_all

theorem HasWritten.lineSegments_last {mappings : List Mapping} {encoder : Encoder}
    (wrote : encoder.HasWritten mappings) :
    lineSegments encoder.last.line.toNat mappings = [] ↔ ¬encoder.started = true := by
  have natural := wrote.natural
  rw [lineSegments_eq_nil_iff, wrote.started, not_ne_iff]
  constructor
  · intro elsewhere
    by_contra some
    have last : encoder.last ∈ mappings := by
      rw [wrote.last, List.getLastD_eq_getLast?, List.getLast?_eq_some_getLast some]
      exact List.getLast_mem some
    exact elsewhere _ last (by omega)
  · rintro rfl
    simp

theorem HasWritten.text_separator {mappings : List Mapping} {encoder : Encoder}
    (wrote : encoder.HasWritten mappings) {mapping : Mapping}
    (ordered : encoder.last.line ≤ mapping.line) :
    encoder.text ++ encoder.separator mapping =
      groupsText (mapping.line.toNat + 1) mappings ++
        if lineSegments mapping.line.toNat mappings = [] then [] else [','] := by
  have natural := wrote.natural
  unfold separator
  split
  · rename_i sameLine
    simp only [sameLine, ← wrote.text, wrote.lineSegments_last]
    cases encoder.started <;> rfl
  · rename_i different
    have noSegments : lineSegments mapping.line.toNat mappings = [] := by
      rw [lineSegments_eq_nil_iff]
      intro other member
      have below := wrote.within other member
      omega
    have within : ∀ other ∈ mappings, other.line < (encoder.last.line.toNat + 1 : Nat) := by
      intro other member
      have below := wrote.within other member
      omega
    have count : mapping.line.toNat + 1 =
        encoder.last.line.toNat + 1 + (mapping.line - encoder.last.line).toNat := by
      omega
    rw [if_pos noSegments, List.append_nil, count, groupsText_add (Nat.succ_ne_zero _) within,
      ← wrote.text]

theorem HasWritten.putOrKeep {mappings : List Mapping} {encoder : Encoder}
    (wrote : encoder.HasWritten mappings) {mapping : Mapping}
    (ordered : encoder.last.line ≤ mapping.line)
    (fresh : ¬(encoder.started ∧ mapping = encoder.last)) :
    (encoder.putOrKeep mapping).HasWritten (mappings ++ [mapping]) := by
  have natural := Int.le_trans wrote.natural ordered
  rw [putOrKeep_of_le ordered]
  refine ⟨by simp, by simp, natural, ?_, ?_⟩
  · intro other member
    rcases List.mem_append.mp member with old | new
    · exact Int.le_trans (wrote.within other old) ordered
    · exact Int.le_of_eq (congrArg Mapping.line (List.mem_singleton.mp new))
  · have onLine : mapping.line = mapping.line.toNat := by omega
    dsimp only
    rw [addition, if_neg fresh, ← List.append_assoc, wrote.text_separator ordered,
      groupsText_concat onLine, ← wrote.last]
    rfl

theorem putOrKeep_last {encoder : Encoder} (started : encoder.started = true) :
    encoder.putOrKeep encoder.last = encoder := by
  obtain ⟨last, text, wrote⟩ := encoder
  obtain rfl : wrote = true := started
  simp [putOrKeep, put]

theorem HasWritten.putAll {earlier : List Mapping} {final : Mapping} {encoder : Encoder}
    (wrote : encoder.HasWritten (earlier ++ [final])) (calls : List Mapping) :
    (encoder.putAll calls).HasWritten
      (earlier ++ (encoder.accepted calls).destutter' (· ≠ ·) final) := by
  -- The last mapping stands apart from the earlier ones: the next call is compared with it.
  induction calls generalizing earlier final encoder with
  | nil => exact wrote
  | cons mapping rest ih =>
      have started : encoder.started = true := wrote.started.mpr (by simp)
      have last : encoder.last = final := by simpa using wrote.last
      rw [putAll_cons]
      by_cases below : mapping.line < encoder.last.line
      · rw [accepted_cons_of_lt rest below, putOrKeep_of_rejects (rejects_iff.mpr below)]
        exact ih wrote
      have ordered : encoder.last.line ≤ mapping.line := by omega
      rw [accepted_cons_of_le rest ordered]
      by_cases repeated : mapping = final
      · rw [repeated, List.destutter'_cons_neg _ (by simp), ← last, putOrKeep_last started, last]
        exact ih wrote
      · rw [List.destutter'_cons_pos _ (Ne.symm repeated), List.append_cons]
        exact ih (wrote.putOrKeep ordered fun same => repeated (same.2.trans last))

theorem hasWritten_putAll (calls : List Mapping) :
    (Encoder.empty.putAll calls).HasWritten
      ((Encoder.empty.accepted calls).destutter (· ≠ ·)) := by
  induction calls with
  | nil => exact hasWritten_empty
  | cons mapping rest ih =>
      rw [putAll_cons]
      by_cases below : mapping.line < Encoder.empty.last.line
      · rw [accepted_cons_of_lt rest below, putOrKeep_of_rejects (rejects_iff.mpr below)]
        exact ih
      · have ordered : Encoder.empty.last.line ≤ mapping.line := by omega
        rw [accepted_cons_of_le rest ordered]
        exact HasWritten.putAll (hasWritten_empty.putOrKeep ordered (by simp [Encoder.empty])) rest

end Encoder

end CodeWriter
