import CodeWriter.Proofs.SourceMap.Fields
import CodeWriter.Proofs.SourceMap.Reading

namespace CodeWriter

theorem Text.forall_mem_split {separator : Char} {holds : Char → Prop} {text : Text} :
    (∀ piece ∈ text.split separator, ∀ c ∈ piece, holds c) ↔
      ∀ c ∈ text, c = separator ∨ holds c := by
  induction text with
  | nil => simp [Text.split]
  | cons c rest ih =>
      rw [List.forall_mem_cons, ← ih]
      by_cases same : c = separator
      · subst same
        rw [Text.split, Text.cut_separator]
        simp
      · rw [Text.split, Text.cut_other same, Text.split]
        simp [same, and_assoc]

/-- A segment that is not empty: its numbers, and how many `;` come before it. -/
structure Segment where
  row : Nat
  fields : List Int
deriving DecidableEq, Repr

namespace Segment

/-- Only a segment of four numbers or more tells of a source. -/
def isFull (segment : Segment) : Bool :=
  4 ≤ segment.fields.length

def ofGroup (row : Nat) (group : Text) : List Segment :=
  (Mapping.segments group).map fun segment => ⟨row, Vlq.fields segment⟩

def ofText (text : Text) : List Segment :=
  (text.split ';').zipIdx.flatMap fun (group, row) => ofGroup row group

/-- The sum of the numbers that segments have at a place. -/
def total (place : Nat) (segments : List Segment) : Int :=
  (segments.map fun segment => segment.fields.getD place 0).sum

/-- What a segment says after the segments before it. -/
def mapping? (before : List Segment) (segment : Segment) : Option Mapping :=
  let read := before ++ [segment]
  if segment.isFull then
    some {
      line := segment.row
      column := total 0 (read.filter fun other => other.row = segment.row)
      source := total 1 (read.filter isFull)
      sourceLine := total 2 (read.filter isFull)
      sourceColumn := total 3 (read.filter isFull) }
  else none

/-- What segments say, each after all the segments before it. -/
def meaning (segments : List Segment) : List Mapping :=
  segments.zipIdx.filterMap fun (segment, index) => segment.mapping? (segments.take index)

@[simp] theorem total_nil (place : Nat) : total place [] = 0 := rfl

@[simp] theorem total_append (place : Nat) (first second : List Segment) :
    total place (first ++ second) = total place first + total place second := by
  simp [total]

@[simp] theorem total_singleton (place : Nat) (segment : Segment) :
    total place [segment] = segment.fields.getD place 0 := by
  simp [total]

def meaningAfter (before segments : List Segment) : List Mapping :=
  (segments.zipIdx before.length).filterMap fun (segment, index) =>
    segment.mapping? ((before ++ segments).take index)

@[simp] theorem meaningAfter_nil (before : List Segment) : meaningAfter before [] = [] := rfl

theorem meaningAfter_cons (before : List Segment) (segment : Segment) (rest : List Segment) :
    meaningAfter before (segment :: rest) =
      (segment.mapping? before).toList ++ meaningAfter (before ++ [segment]) rest := by
  have whole : before ++ segment :: rest = (before ++ [segment]) ++ rest := by simp
  simp only [meaningAfter, List.zipIdx_cons, List.filterMap_cons, List.take_left]
  rw [whole, List.length_append, List.length_singleton]
  cases segment.mapping? before <;> rfl

theorem meaningAfter_append (before first second : List Segment) :
    meaningAfter before (first ++ second) =
      meaningAfter before first ++ meaningAfter (before ++ first) second := by
  induction first generalizing before with
  | nil => simp
  | cons segment rest ih =>
      rw [List.cons_append, meaningAfter_cons, meaningAfter_cons, ih]
      simp

def cursor (row : Nat) (before : List Segment) : MappingCursor where
  column := total 0 (before.filter fun segment => segment.row = row)
  source := total 1 (before.filter isFull)
  sourceLine := total 2 (before.filter isFull)
  sourceColumn := total 3 (before.filter isFull)

theorem advance_cursor (row : Nat) (before : List Segment) (fields : List Int) :
    (cursor row before).advance row fields =
      (cursor row (before ++ [⟨row, fields⟩]), mapping? before ⟨row, fields⟩) := by
  match fields with
  | [] => simp [MappingCursor.advance, cursor, mapping?, isFull]
  | [column] => simp [MappingCursor.advance, cursor, mapping?, isFull]
  | [column, source] => simp [MappingCursor.advance, cursor, mapping?, isFull]
  | [column, source, sourceLine] => simp [MappingCursor.advance, cursor, mapping?, isFull]
  | column :: source :: sourceLine :: sourceColumn :: rest =>
      simp [MappingCursor.advance, cursor, mapping?, isFull]

theorem cursor_next_row {row : Nat} {before : List Segment}
    (above : ∀ segment ∈ before, segment.row < row + 1) :
    { cursor row before with column := 0 } = cursor (row + 1) before := by
  have nothing : (before.filter fun segment => segment.row = row + 1) = [] := by
    rw [List.filter_eq_nil_iff]
    intro segment member same
    have bound := above segment member
    rw [decide_eq_true_iff] at same
    omega
  simp [cursor, nothing]

theorem row_of_mem_ofGroup {row : Nat} {group : Text} {segment : Segment}
    (member : segment ∈ ofGroup row group) : segment.row = row := by
  obtain ⟨text, _, rfl⟩ := List.mem_map.mp member
  rfl

end Segment

namespace Mapping

theorem decodeSegments_of_wellFormed {texts : List Text}
    (wellFormed : ∀ text ∈ texts, Vlq.WellFormed text) (row : Nat) (before : List Segment) :
    let segments : List Segment := texts.map fun text => ⟨row, Vlq.fields text⟩
    decodeSegments row (Segment.cursor row before) texts =
      .ok (Segment.cursor row (before ++ segments), Segment.meaningAfter before segments) := by
  intro segments
  induction texts generalizing before with
  | nil => simp [segments, decodeSegments]
  | cons text rest ih =>
      rw [List.forall_mem_cons] at wellFormed
      have later := ih wellFormed.2 (before ++ [⟨row, Vlq.fields text⟩])
      rw [decodeSegments, Vlq.decodeAll_of_wellFormed wellFormed.1]
      simp only [Segment.advance_cursor, later, segments, List.map_cons,
        Segment.meaningAfter_cons, List.append_assoc, List.singleton_append]

theorem decodeSegments_of_malformed {texts : List Text}
    (malformed : ∃ text ∈ texts, ¬Vlq.WellFormed text) (row : Nat) (cursor : MappingCursor) :
    ∃ fault, decodeSegments row cursor texts = .error fault ∧ fault.IsMalformedNumber := by
  induction texts generalizing cursor with
  | nil => simp at malformed
  | cons text rest ih =>
      rw [decodeSegments]
      by_cases first : Vlq.WellFormed text
      · have later : ∃ text ∈ rest, ¬Vlq.WellFormed text := by
          simpa [first] using malformed
        rw [Vlq.decodeAll_of_wellFormed first]
        obtain ⟨fault, failed, kind⟩ := ih later (cursor.advance row (Vlq.fields text)).1
        exact ⟨fault, by simp [failed], kind⟩
      · obtain ⟨fault, failed, kind⟩ := Vlq.decodeAll_of_not_wellFormed first
        exact ⟨fault, by simp [failed], kind⟩

theorem decodeGroups_cons (row : Nat) (cursor : MappingCursor) (group : Text)
    (rest : List Text) :
    decodeGroups row cursor (group :: rest) =
      match decodeSegments row { cursor with column := 0 } (segments group) with
      | .error fault => .error fault
      | .ok (moved, mappings) =>
          match decodeGroups (row + 1) moved rest with
          | .error fault => .error fault
          | .ok more => .ok (mappings ++ more) := rfl

theorem decodeGroups_cases (groups : List Text) {row : Nat} {before : List Segment}
    (above : ∀ segment ∈ before, segment.row < row) {cursor : MappingCursor}
    (here : { cursor with column := 0 } = Segment.cursor row before) :
    ((∀ group ∈ groups, ∀ segment ∈ segments group, Vlq.WellFormed segment) ∧
        decodeGroups row cursor groups =
          .ok (Segment.meaningAfter before
            ((groups.zipIdx row).flatMap fun (group, row) => Segment.ofGroup row group))) ∨
      (¬(∀ group ∈ groups, ∀ segment ∈ segments group, Vlq.WellFormed segment) ∧
        ∃ fault, decodeGroups row cursor groups = .error fault ∧ fault.IsMalformedNumber) := by
  induction groups generalizing row before cursor with
  | nil => exact .inl ⟨by simp, rfl⟩
  | cons group rest ih =>
      rw [List.forall_mem_cons, decodeGroups_cons, here]
      by_cases first : ∀ segment ∈ segments group, Vlq.WellFormed segment
      · have decoded : decodeSegments row (Segment.cursor row before) (segments group) =
            .ok (Segment.cursor row (before ++ Segment.ofGroup row group),
              Segment.meaningAfter before (Segment.ofGroup row group)) :=
          decodeSegments_of_wellFormed first row before
        have below : ∀ segment ∈ before ++ Segment.ofGroup row group, segment.row < row + 1 := by
          intro segment member
          rcases List.mem_append.mp member with old | new
          · exact Nat.lt_succ_of_lt (above segment old)
          · rw [Segment.row_of_mem_ofGroup new]
            exact Nat.lt_succ_self row
        rw [decoded]
        dsimp only
        rcases ih below (Segment.cursor_next_row below) with
          ⟨later, readLater⟩ | ⟨malformed, fault, failed, kind⟩
        · refine .inl ⟨⟨first, later⟩, ?_⟩
          rw [readLater, List.zipIdx_cons, List.flatMap_cons, Segment.meaningAfter_append]
        · exact .inr ⟨fun all => malformed all.2, fault, by rw [failed], kind⟩
      · obtain ⟨fault, failed, kind⟩ :=
          decodeSegments_of_malformed (by simpa using first) row (Segment.cursor row before)
        exact .inr ⟨fun all => first all.1, fault, by rw [failed], kind⟩

/-- Only digits and separators, and no segment ends in a digit after which its number goes on. -/
def WellFormed (text : Text) : Prop :=
  (∀ c ∈ text, c ∈ Vlq.alphabet ∨ c = ',' ∨ c = ';') ∧
    ∀ group ∈ text.split ';', ∀ segment ∈ segments group,
      ∀ c ∈ segment.getLast?, Vlq.continues c = false

theorem forall_mem_segments {holds : Char → Prop} {group : Text} :
    (∀ segment ∈ segments group, ∀ c ∈ segment, holds c) ↔ ∀ c ∈ group, c = ',' ∨ holds c := by
  rw [← Text.forall_mem_split]
  constructor
  · intro all piece member c inPiece
    refine all piece (List.mem_filter.mpr ⟨member, ?_⟩) c inPiece
    cases piece with
    | nil => cases inPiece
    | cons => rfl
  · intro all segment member
    exact all segment (List.mem_filter.mp member).1

theorem wellFormed_iff {text : Text} :
    WellFormed text ↔
      ∀ group ∈ text.split ';', ∀ segment ∈ segments group, Vlq.WellFormed segment := by
  have characters : (∀ c ∈ text, c ∈ Vlq.alphabet ∨ c = ',' ∨ c = ';') ↔
      ∀ group ∈ text.split ';', ∀ segment ∈ segments group, ∀ c ∈ segment,
        (Vlq.digit? c).isSome = true := by
    simp only [forall_mem_segments, Text.forall_mem_split, Vlq.isSome_digit?]
    exact forall₂_congr fun c _ => by tauto
  rw [WellFormed, characters]
  exact ⟨fun ⟨digits, ends⟩ group inText segment inGroup =>
      ⟨digits group inText segment inGroup, ends group inText segment inGroup⟩,
    fun all => ⟨fun group inText segment inGroup => (all group inText segment inGroup).1,
      fun group inText segment inGroup => (all group inText segment inGroup).2⟩⟩

/-- A text is read just if it is well formed, and then to what its segments say, each after all the
segments before it; of any other text a number is faulty. -/
theorem decode_reads_meaning (text : Text) :
    ((∃ mappings, decode text = .ok mappings) ↔ WellFormed text) ∧
      (WellFormed text → decode text = .ok (Segment.meaning (Segment.ofText text))) ∧
      (¬WellFormed text → ∃ fault, decode text = .error fault ∧ fault.IsMalformedNumber) := by
  have start : { ({} : MappingCursor) with column := 0 } = Segment.cursor 0 [] := rfl
  rw [wellFormed_iff]
  rcases decodeGroups_cases (text.split ';') (List.forall_mem_nil _) start with
    ⟨wellFormed, decoded⟩ | ⟨malformed, fault, failed, kind⟩
  · exact ⟨⟨fun _ => wellFormed, fun _ => ⟨_, decoded⟩⟩, fun _ => decoded,
      fun malformed => absurd wellFormed malformed⟩
  · refine ⟨⟨?_, fun wellFormed => absurd wellFormed malformed⟩,
      fun wellFormed => absurd wellFormed malformed, fun _ => ⟨fault, failed, kind⟩⟩
    rintro ⟨mappings, decoded⟩
    rw [decode, failed] at decoded
    cases decoded

/-- Groups and segments may be empty, and numbers written longer than they need to be. -/
example : decode ";C,gAAAA,,EACCCC;;IJAD".toList =
    .ok [⟨1, 1, 0, 0, 0⟩, ⟨1, 3, 0, 1, 1⟩, ⟨3, 4, -4, 1, 0⟩] := by
  decide +kernel

end Mapping

end CodeWriter
