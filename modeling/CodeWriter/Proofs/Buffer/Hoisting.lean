import CodeWriter.Proofs.Buffer.Growth
import CodeWriter.Proofs.Buffer.Settings
import Mathlib.Data.List.Forall2
import Mathlib.Data.List.InsertIdx

/-! Insertion into lines above moves no line. That at the start of a line does, and is left out. -/

namespace CodeWriter

/-- Of two places, the first is not after the second. -/
instance : LE Mark where
  le first second :=
    first.line < second.line ∨ first.line = second.line ∧ first.token ≤ second.token

theorem Mark.le_iff {first second : Mark} :
    first ≤ second ↔
      first.line < second.line ∨ first.line = second.line ∧ first.token ≤ second.token :=
  Iff.rfl

instance (first second : Mark) : Decidable (first ≤ second) :=
  decidable_of_iff _ Mark.le_iff.symm

/-- What is inserted at the mark moves nothing that stands before `start`. -/
def Mark.Spares (start mark : Mark) : Prop :=
  start ≤ mark ∨ mark.line < start.line ∧ mark.token ≠ 0

instance (start mark : Mark) : Decidable (start.Spares mark) :=
  inferInstanceAs (Decidable (_ ∨ _))

/-- A line with tokens of one source put into it. -/
inductive Line.Widens (origin : Option Origin) (line : Line) : Line → Prop
  | refl : Widens origin line line
  | insert {wide : Line} (widens : Widens origin line wide) (index : Nat) (text : Text) :
      Widens origin line { wide with tokens := wide.tokens.insertIdx index { text, origin } }

namespace Line

variable {origin : Option Origin}

theorem Widens.sublist {line wide : Line} (widens : Widens origin line wide) :
    line.tokens.Sublist wide.tokens := by
  induction widens with
  | refl => exact List.Sublist.refl _
  | insert _ index text ih => exact ih.trans (List.sublist_insertIdx _ _ _)

theorem forall₂_widens_refl (lines : List Line) : List.Forall₂ (Widens origin) lines lines :=
  List.forall₂_same.mpr fun _ _ => .refl

theorem sublist_of_forall₂_widens {lines wide : List Line}
    (widens : List.Forall₂ (Widens origin) lines wide) :
    (lines.flatMap tokens).Sublist (wide.flatMap tokens) := by
  induction widens with
  | nil => exact .slnil
  | cons first _ ih => exact first.sublist.append ih

theorem forall₂_widens_insert {lines above later : List Line} {line : Line}
    (widens : List.Forall₂ (Widens origin) lines (above ++ line :: later)) (index : Nat)
    (text : Text) :
    List.Forall₂ (Widens origin) lines
      (above ++ { line with tokens := line.tokens.insertIdx index { text, origin } } :: later) := by
  induction above generalizing lines with
  | nil =>
      obtain ⟨old, rest, first, later, rfl⟩ := List.forall₂_cons_right_iff.mp widens
      exact .cons (first.insert index text) later
  | cons _ above ih =>
      obtain ⟨old, rest, first, later, rfl⟩ := List.forall₂_cons_right_iff.mp widens
      exact .cons first (ih later)

end Line

namespace Buffer

variable {buffer : Buffer}

theorem lines_of_validate {mark : Mark} (valid : buffer.validate mark = .ok ()) :
    ∃ (above : List Line) (line : Line) (later : List Line) (token : Nat),
      buffer.lines = above ++ line :: later ∧ mark = ⟨above.length, token⟩ := by
  obtain ⟨line, found, natural, _⟩ := validate_iff.mp valid
  obtain ⟨onLine, found⟩ := line?_eq_some_iff.mp found
  obtain ⟨within, here⟩ := List.getElem?_eq_some_iff.mp found
  refine ⟨buffer.lines.take mark.line.toNat, line, buffer.lines.drop (mark.line.toNat + 1),
    mark.token.toNat, ?_, ?_⟩
  · rw [← here, List.getElem_cons_drop, List.take_append_drop]
  · rw [List.length_take, Nat.min_eq_left (Nat.le_of_lt within), Int.toNat_of_nonneg natural,
      Int.toNat_of_nonneg onLine]

section Parted

variable {above later : List Line} {line : Line} (lines : buffer.lines = above ++ line :: later)
include lines

theorem length_le_of_lines : above.length ≤ buffer.above.length := by
  have length := congrArg List.length lines
  simp only [length_lines, size, List.length_append, List.length_cons] at length
  omega

theorem lines_insertLines (inserted : List Line) :
    (buffer.insertLines above.length inserted).lines = above ++ inserted ++ line :: later := by
  have within := length_le_of_lines lines
  calc
    (buffer.insertLines above.length inserted).lines =
        buffer.above.take above.length ++ inserted ++
          (buffer.above.drop above.length ++ [buffer.current]) := by
      simp [insertLines, Buffer.lines]
    _ = buffer.lines.take above.length ++ inserted ++ buffer.lines.drop above.length := by
      rw [Buffer.lines, List.take_append_of_le_length within, List.drop_append_of_le_length within]
    _ = above ++ inserted ++ line :: later := by
      rw [lines, List.take_left, List.drop_left]

theorem lines_insertToken (index : Nat) (token : Token) :
    (buffer.insertToken above.length index token).lines =
      above ++ { line with tokens := line.tokens.insertIdx index token } :: later := by
  have marked : buffer.lines.modify above.length (fun marked =>
      { marked with tokens := marked.tokens.insertIdx index token }) =
      above ++ { line with tokens := line.tokens.insertIdx index token } :: later := by
    rw [lines, List.modify_eq_take_drop, List.take_left, List.drop_left, List.modifyHead_cons]
  rw [insertToken, marked, lines_withLines]
  simp

end Parted

/-- The buffer has grown, and tokens may have been put into the lines above. -/
def HoistsTo (before after : Buffer) : Prop :=
  after.origin = before.origin ∧
    ∃ wide, List.Forall₂ (Line.Widens before.origin) before.above wide ∧
      ({ before with above := wide } : Buffer).GrowsTo after

theorem HoistsTo.refl (buffer : Buffer) : buffer.HoistsTo buffer :=
  ⟨rfl, buffer.above, Line.forall₂_widens_refl _, .refl buffer⟩

section Hoisting

variable {before after changed : Buffer}

theorem HoistsTo.grow (hoisted : before.HoistsTo after) (grown : after.GrowsTo changed)
    (origin : changed.origin = after.origin) : before.HoistsTo changed := by
  obtain ⟨sameOrigin, wide, widens, start⟩ := hoisted
  exact ⟨origin.trans sameOrigin, wide, widens, start.trans grown⟩

theorem HoistsTo.sublist (hoisted : before.HoistsTo after) :
    (before.lines.flatMap Line.tokens).Sublist (after.lines.flatMap Line.tokens) := by
  obtain ⟨_, wide, widens, line, later, lines, start⟩ := hoisted
  dsimp only at lines start
  rw [lines, Buffer.lines, List.flatMap_append, List.flatMap_append, List.flatMap_singleton,
    List.flatMap_cons]
  exact (Line.sublist_of_forall₂_widens widens).append
    (start.sublist.trans (List.sublist_append_left _ _))

theorem HoistsTo.here_le (hoisted : before.HoistsTo after) : before.here ≤ after.here := by
  obtain ⟨_, wide, widens, line, later, lines, start⟩ := hoisted
  have length : before.above.length = wide.length := widens.length_eq
  rw [Mark.le_iff]
  rcases current_or_above lines with ⟨_, above, rfl⟩ | ⟨between, _, above⟩
  · refine .inr ⟨?_, ?_⟩
    · simp [here, above, length]
    · simpa [here] using start.length_le
  · refine .inl ?_
    simp only [here, above, length, List.length_append, List.length_cons]
    omega

theorem HoistsTo.change (hoisted : before.HoistsTo after) {above later newLater : List Line}
    {line newLine : Line} {token : Nat} (lines : after.lines = above ++ line :: later)
    (place : before.here ≤ ⟨above.length, token⟩)
    (newLines : changed.lines = above ++ newLine :: newLater)
    (kept : line.tokens.take token <+: newLine.tokens) (origin : changed.origin = after.origin) :
    before.HoistsTo changed := by
  obtain ⟨sameOrigin, wide, widens, first, rest, oldLines, start⟩ := hoisted
  have length : before.above.length = wide.length := widens.length_eq
  refine ⟨origin.trans sameOrigin, wide, widens, ?_⟩
  rw [lines] at oldLines
  dsimp only at start oldLines
  simp only [Mark.le_iff, here, length] at place
  rcases place with further | ⟨sameLine, enough⟩
  · obtain ⟨between, split⟩ : ∃ between, above = wide ++ first :: between := by
      rcases List.append_eq_append_iff.mp oldLines with ⟨gap, rfl, _⟩ | ⟨gap, split, rest⟩
      · simp only [List.length_append] at further
        omega
      · cases gap with
        | nil => simp [split] at further
        | cons next between =>
            obtain ⟨rfl, _⟩ := List.cons.inj rest
            exact ⟨between, split⟩
    refine ⟨first, between ++ newLine :: newLater, ?_, start⟩
    rw [newLines, split]
    simp
  · have sameLength : above.length = wide.length := by omega
    obtain ⟨rfl, sameTail⟩ := List.append_inj oldLines sameLength
    obtain ⟨rfl, _⟩ := List.cons.inj sameTail
    refine ⟨newLine, newLater, newLines, (List.prefix_take_iff.mpr ⟨start, ?_⟩).trans kept⟩
    exact Int.ofNat_le.mp enough

theorem HoistsTo.widen (hoisted : before.HoistsTo after) {above later : List Line} {line : Line}
    (lines : after.lines = above ++ line :: later) (place : above.length < before.above.length)
    {index : Nat} {text : Text} (newLines : changed.lines = above ++
      { line with
        tokens := line.tokens.insertIdx index { text, origin := before.origin } } :: later)
    (origin : changed.origin = after.origin) : before.HoistsTo changed := by
  obtain ⟨sameOrigin, wide, widens, first, rest, oldLines, start⟩ := hoisted
  have length : before.above.length = wide.length := widens.length_eq
  dsimp only at start oldLines
  obtain ⟨between, rfl, tail⟩ :
      ∃ between, wide = above ++ line :: between ∧ later = between ++ first :: rest := by
    rcases List.append_eq_append_iff.mp (lines.symm.trans oldLines) with
      ⟨gap, split, rest⟩ | ⟨gap, rfl, _⟩
    · cases gap with
      | nil =>
          rw [List.append_nil] at split
          rw [split] at length
          omega
      | cons next between =>
          obtain ⟨rfl, tail⟩ := List.cons.inj rest
          exact ⟨between, split, tail⟩
    · simp only [List.length_append] at place
      omega
  have widened := Line.forall₂_widens_insert widens index text
  refine ⟨origin.trans sameOrigin, _, widened, first, rest, ?_, start⟩
  rw [newLines, tail]
  simp

theorem HoistsTo.insert (hoisted : before.HoistsTo after) {mark : Mark} {text : Text}
    (spared : before.here.Spares mark) (inserted : after.insert mark text = .ok changed) :
    before.HoistsTo changed := by
  have origin : changed.origin = after.origin := congrArg Prod.fst (settings_insert inserted)
  obtain ⟨valid, changes⟩ := insert_ok_iff.mp inserted
  obtain ⟨above, line, later, token, lines, rfl⟩ := lines_of_validate valid
  dsimp only at changes
  rw [Int.toNat_natCast, Int.toNat_natCast] at changes
  rcases changes with ⟨atStart, rfl⟩ | ⟨_, _, rfl⟩
  · have place : before.here ≤ ⟨above.length, (0 : Nat)⟩ := by
      rcases spared with place | ⟨_, inside⟩
      · rw [atStart] at place
        exact place
      · exact absurd atStart inside
    generalize (text.withoutFinalBreak.physicalLines.map fun part =>
      ({ tokens := [after.stamp part] } : Line)) = new at origin
    have newLines := lines_insertLines lines new
    obtain ⟨newLine, newLater, begins⟩ :
        ∃ newLine newLater, new ++ line :: later = newLine :: newLater :=
      List.exists_cons_of_ne_nil (by simp)
    rw [List.append_assoc, begins] at newLines
    exact hoisted.change lines place newLines (List.nil_prefix) origin
  · have newLines := lines_insertToken lines token (after.stamp text)
    rcases spared with place | ⟨earlier, _⟩
    · refine hoisted.change lines place newLines ?_ origin
      rw [← List.take_insertIdx_eq_take_of_le line.tokens (after.stamp text) token token
        (Nat.le_refl _)]
      exact List.take_prefix _ _
    · have sameStamp : after.stamp text = { text, origin := before.origin } := by
        rw [stamp, hoisted.1]
      rw [sameStamp] at newLines origin ⊢
      exact hoisted.widen lines (Int.ofNat_lt.mp earlier) newLines origin

theorem HoistsTo.takeBack (hoisted : before.HoistsTo after) {mark : Mark} {text : Text}
    (place : before.here ≤ mark) (taken : after.takeBack mark = .ok (text, changed)) :
    before.HoistsTo changed := by
  have origin : changed.origin = after.origin := congrArg Prod.fst (settings_takeBack taken)
  unfold Buffer.takeBack at taken
  split at taken
  · cases taken
  rename_i valid
  obtain ⟨above, line, later, token, lines, rfl⟩ := lines_of_validate valid
  have dropped : after.dropFrom ((above.length : Int) + 1) =
      (later, { after with above, current := line }) := dropFrom_of_lines lines
  rw [dropped] at taken
  cases taken
  have newLines : ∀ tokens : List Token,
      ({ after with above, current := { line with tokens } } : Buffer).lines =
        above ++ { line with tokens } :: [] := fun _ => rfl
  exact hoisted.change lines place (newLines _) (List.prefix_refl _) origin

theorem HoistsTo.takeBack_here (hoisted : before.HoistsTo after) :
    ∃ text kept, after.takeBack before.here = .ok (text, kept) ∧
      List.Forall₂ (Line.Widens before.origin) before.above kept.above ∧
      kept.current.tokens = before.current.tokens := by
  obtain ⟨_, wide, widens, grown⟩ := hoisted
  obtain ⟨text, kept, taken, above, tokens⟩ := grown.takeBack
  have sameHere : ({ before with above := wide } : Buffer).here = before.here := by
    rw [here, ← widens.length_eq]
    rfl
  rw [sameHere] at taken
  exact ⟨text, kept, taken, above ▸ widens, tokens⟩

theorem HoistsTo.joinFrom (hoisted : before.HoistsTo after) {mark : Mark} {width : Int}
    (place : before.here ≤ mark) (joined : after.joinFrom mark width = .ok changed) :
    before.HoistsTo changed := by
  have origin : changed.origin = after.origin := congrArg Prod.fst (settings_joinFrom joined)
  unfold Buffer.joinFrom at joined
  split at joined
  · cases joined
  rename_i valid
  obtain ⟨above, line, later, token, lines, rfl⟩ := lines_of_validate valid
  dsimp only at joined
  rw [Int.toNat_natCast, lines, List.drop_left] at joined
  split at joined
  · cases joined
    have newLines := lines_replaceTail above.length
      { tokens := Line.joinTokens (line :: later) } after
    rw [cutIndex_natCast, lines, List.take_left] at newLines
    exact hoisted.change lines place newLines
      ((List.take_prefix _ _).trans (line.tokens_prefix_joinTokens later)) origin
  · cases joined
    exact hoisted

theorem HoistsTo.withLines_above (hoisted : before.HoistsTo after)
    (below : before.above.length < after.above.length) :
    before.HoistsTo (after.withLines after.above) := by
  obtain ⟨origin, wide, widens, line, later, lines, start⟩ := hoisted
  have length : before.above.length = wide.length := widens.length_eq
  refine ⟨origin, wide, widens, ?_⟩
  rcases current_or_above lines with ⟨_, above, _⟩ | ⟨between, _, above⟩
  · dsimp only at above
    rw [above] at below
    omega
  · refine ⟨line, between, ?_, start⟩
    rw [lines_withLines, above]
    simp [above]

theorem HoistsTo.closeBrace (hoisted : before.HoistsTo after) {mark : Mark} {width : Int}
    (place : before.here.line < mark.line) (closed : after.closeBrace mark width = .ok changed) :
    before.HoistsTo changed := by
  have origin : changed.origin = after.origin := congrArg Prod.fst (settings_closeBrace closed)
  unfold Buffer.closeBrace at closed
  split at closed
  · cases closed
  rename_i valid
  split at closed
  · cases closed
    obtain ⟨above, line, later, token, lines, rfl⟩ := lines_of_validate valid
    have within := length_le_of_lines lines
    have below : before.above.length < after.above.length := by
      simp only [here] at place
      omega
    exact (hoisted.withLines_above below).grow (growsTo_collapse after) origin
  · cases closed
    exact hoisted.grow (growsTo_writeBelow _ _) origin

end Hoisting

end Buffer

end CodeWriter
