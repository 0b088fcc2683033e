import CodeWriter.Proofs.Program.Emitting
import CodeWriter.Proofs.SourceMap.Agreement
import CodeWriter.Proofs.SourceMap.Exactness

namespace CodeWriter

def Token.mentioned (token : Token) : List Origin :=
  token.mappedOrigin?.toList

theorem Token.isReading_mentioned : Token.IsReading Token.mentioned where
  empty _ := rfl
  space _ := rfl
  closing _ := rfl

/-- The number of the source, and the line and the column in it. -/
def Mapping.target (mapping : Mapping) : Int × Int × Int :=
  (mapping.source, mapping.sourceLine, mapping.sourceColumn)

/-- Maps of the same sources that tell of the same targets, in order; the places may differ. -/
def Document.SameTargets (first second : Document) : Prop :=
  first.file = second.file ∧ first.sources = second.sources ∧
    ∃ mappings others,
      Mapping.decode first.mappings = .ok mappings ∧
        Mapping.decode second.mappings = .ok others ∧
        mappings.map Mapping.target = others.map Mapping.target

/-- Two requests for a map are refused for the same fault, or both are met with the same targets. -/
inductive Document.SameAnswer : Except Fault Document → Except Fault Document → Prop
  | refused (fault : Fault) : SameAnswer (.error fault) (.error fault)
  | made {first second : Document} (same : first.SameTargets second) :
      SameAnswer (.ok first) (.ok second)

namespace Site

theorem map_origin_ofTokens (row column : Nat) (tokens : List Token) :
    (ofTokens row column tokens).map Site.origin = tokens.flatMap Token.mentioned := by
  induction tokens generalizing column with
  | nil => rfl
  | cons token rest ih =>
      rw [ofTokens, List.map_append, ih, List.flatMap_cons, Token.mentioned]
      cases token.mappedOrigin? <;> rfl

theorem map_origin_ofLine (unit : Int) (row : Nat) (line : Line) :
    (ofLine unit row line).map Site.origin = line.reading Token.mentioned := by
  unfold ofLine
  split
  · rename_i blank
    exact (Line.reading_of_isBlank Token.isReading_mentioned blank).symm
  · exact map_origin_ofTokens row (line.margin unit) line.tokens

theorem map_origin_ofLinesFrom (unit : Int) (row : Nat) (lines : List Line) :
    (ofLinesFrom unit row lines).map Site.origin =
      lines.flatMap (Line.reading Token.mentioned) := by
  induction lines generalizing row with
  | nil => rfl
  | cons line rest ih =>
      rw [ofLinesFrom, List.map_append, map_origin_ofLine, ih, List.flatMap_cons]

theorem map_origin_ofLines (unit : Int) (lines : List Line) :
    (ofLines unit lines).map Site.origin = lines.flatMap (Line.reading Token.mentioned) :=
  map_origin_ofLinesFrom unit 0 lines

theorem findSome?_fault? (disk : Disk) (watched : Bool) (sites : List Site) :
    sites.findSome? (Site.fault? disk watched) =
      (sites.map Site.origin).findSome? fun origin =>
        Site.fault? disk watched { row := 0, column := 0, origin } := by
  rw [List.findSome?_map]
  rfl

theorem IsMappedTo.target_eq {sources : List Source} (distinct : sources.Nodup)
    {site other : Site} {mapping otherMapping : Mapping} (same : site.origin = other.origin)
    (mapped : site.IsMappedTo sources mapping)
    (otherMapped : other.IsMappedTo sources otherMapping) :
    mapping.target = otherMapping.target := by
  obtain ⟨number, position, found, located, rfl⟩ := mapped
  obtain ⟨otherNumber, otherPosition, otherFound, otherLocated, rfl⟩ := otherMapped
  rw [← same] at otherFound otherLocated
  have known : number < sources.length := (List.getElem?_eq_some_iff.mp found).1
  obtain rfl : number = otherNumber :=
    (List.getElem?_inj known distinct).mp (found.trans otherFound.symm)
  rw [located] at otherLocated
  cases otherLocated
  rfl

theorem map_target_eq {sources : List Source} (distinct : sources.Nodup)
    {sites others : List Site} {mappings otherMappings : List Mapping}
    (same : sites.map Site.origin = others.map Site.origin)
    (mapped : List.Forall₂ (IsMappedTo sources) sites mappings)
    (otherMapped : List.Forall₂ (IsMappedTo sources) others otherMappings) :
    mappings.map Mapping.target = otherMappings.map Mapping.target := by
  induction mapped generalizing others otherMappings with
  | nil =>
      cases otherMapped with
      | nil => rfl
      | cons _ _ => cases same
  | cons first _ ih =>
      cases otherMapped with
      | nil => cases same
      | cons second later =>
          rw [List.map_cons, List.map_cons, List.cons_eq_cons] at same
          rw [List.map_cons, List.map_cons, first.target_eq distinct same.1 second,
            ih same.2 later]

end Site

namespace Document

theorem sameTargets_of_ofLines {disk : Disk} {unit otherUnit : Int} {file : Option Text}
    {registry otherRegistry : Option Registry} {lines others : List Line}
    {document other : Document}
    (same : lines.flatMap (Line.reading Token.mentioned) =
      others.flatMap (Line.reading Token.mentioned))
    (made : (ofLines disk unit file registry lines).1 = .ok document)
    (otherMade : (ofLines disk otherUnit file otherRegistry others).1 = .ok other) :
    document.SameTargets other := by
  rw [← Site.map_origin_ofLines unit, ← Site.map_origin_ofLines otherUnit] at same
  obtain ⟨sources, mappings, listed, fileName, names, decoded, mapped⟩ := ofLines_ok made
  obtain ⟨otherSources, otherMappings, otherListed, otherFile, otherNames, otherDecoded,
    otherMapped⟩ := ofLines_ok otherMade
  obtain rfl : sources = otherSources := by
    have known := congrArg (List.map Origin.source) same
    rw [List.map_map, List.map_map] at known
    rw [listed, otherListed]
    exact congrArg List.eraseDups known
  have distinct : sources.Nodup := listed ▸ nodup_eraseDups _
  have sameNames : document.sources = other.sources := names.trans otherNames.symm
  refine ⟨?_, sameNames, mappings, otherMappings, decoded, otherDecoded, ?_⟩
  · rw [fileName, otherFile, sameNames]
  · exact Site.map_target_eq distinct same mapped otherMapped

theorem sameAnswer_ofLines (disk : Disk) (unit otherUnit : Int) (file : Option Text)
    {registry otherRegistry : Option Registry}
    (watched : registry.isSome = otherRegistry.isSome) {lines others : List Line}
    (same : lines.flatMap (Line.reading Token.mentioned) =
      others.flatMap (Line.reading Token.mentioned)) :
    SameAnswer (ofLines disk unit file registry lines).1
      (ofLines disk otherUnit file otherRegistry others).1 := by
  have sameFault : ∀ fault, (ofLines disk unit file registry lines).1 = .error fault ↔
      (ofLines disk otherUnit file otherRegistry others).1 = .error fault := by
    intro fault
    rw [ofLines_error_iff, ofLines_error_iff, Site.findSome?_fault?, Site.findSome?_fault?,
      Site.map_origin_ofLines, Site.map_origin_ofLines, same, watched]
  cases made : (ofLines disk unit file registry lines).1 with
  | error fault =>
      rw [(sameFault fault).mp made]
      exact .refused fault
  | ok document =>
      cases otherMade : (ofLines disk otherUnit file otherRegistry others).1 with
      | error fault =>
          rw [(sameFault fault).mpr otherMade] at made
          cases made
      | ok other => exact .made (sameTargets_of_ofLines same made otherMade)

end Document

theorem Program.mentioned_of_run {program : Program} (emits : program.Emits) {options : Options}
    {disk : Disk} {final : Session}
    (completed : program.run (.start options disk) = (.ok (), final)) :
    final.writer.settle.buffer.reading Token.mentioned =
      (program.emitted options.statementEnd none).flatMap fun piece =>
        piece.pieces.flatMap Token.mentioned := by
  have reads := Program.reads_of_run Token.isReading_mentioned emits completed
  calc
    final.writer.settle.buffer.reading Token.mentioned =
        final.writer.buffer.reading Token.mentioned :=
      Writer.flatMap_lines_settle (fun _ _ => rfl)
        (fun _ => Line.reading_of_isBlank Token.isReading_mentioned) final.writer
    _ = _ := reads.reading

/-- A program that only emits runs to its end under any options, and the options have no say in what
its map tells of: under any two that end statements alike, a map is refused for the same fault, or
both maps have the same sources and their mappings the same targets, one by one. -/
theorem Program.map_targets_agree {first second : Options}
    (sameEnd : first.statementEnd = second.statementEnd) (disk : Disk) {program : Program}
    (emits : program.Emits) :
    ∃ one other, program.run (.start first disk) = (.ok (), one) ∧
      program.run (.start second disk) = (.ok (), other) ∧
      ∀ disk file, Document.SameAnswer (one.writer.deliverMap disk file).1
        (other.writer.deliverMap disk file).1 := by
  obtain ⟨one, completed, _⟩ := Program.run_of_appends emits.appends (.start first disk)
  obtain ⟨other, otherCompleted, _⟩ := Program.run_of_appends emits.appends (.start second disk)
  have same : one.writer.settle.buffer.reading Token.mentioned =
      other.writer.settle.buffer.reading Token.mentioned := by
    rw [Program.mentioned_of_run emits completed, Program.mentioned_of_run emits otherCompleted,
      sameEnd]
  refine ⟨one, other, completed, otherCompleted, ?_⟩
  intro disk file
  rw [Writer.deliverMap_fst, Writer.deliverMap_fst]
  refine Document.sameAnswer_ofLines disk _ _ file ?_ same
  rfl

/-- A block that fits on one line at one width and takes three at the other: the two maps differ in
their places and in no target. -/
theorem Program.map_targets_agree_at_two_widths :
    let source : Source := ⟨0, "a".toList, "let x\n y".toList⟩
    let origin (start : Nat) : Option Origin := some ⟨source, ⟨start, start, Nat.le_refl start⟩⟩
    let write (text : String) := Operation.write .writer .inline (.literal text.toList)
    let body : Program :=
      .step (write "f") (.step (.setOrigin (origin 7)) (.step (write "(x)") .done))
    let program : Program :=
      .block (.attribute (origin 4)) (.block (.brace none) body .done)
        (.step (.setOrigin (origin 0)) (.step (write "g") (.step .endStatement .done)))
    let narrow : Options :=
      { profile := .compact, width := 5, indent := 4, lineBreak := " \n".toList, gap := [' '] }
    Options.standard.statementEnd = narrow.statementEnd ∧ program.Emits ∧
      ∃ one other, program.run (.start .standard {}) = (.ok (), one) ∧
        program.run (.start narrow {}) = (.ok (), other) ∧
        (one.writer.deliverMap {} none).1 =
          .ok ⟨"a".toList, ["a".toList], "AAAI,EAAA,CACH,GAAA,EADD,CAAA".toList⟩ ∧
        (other.writer.deliverMap {} none).1 =
          .ok ⟨"a".toList, ["a".toList], "AAAI;IAAA,CACH;AAAA,CADD,CAAA".toList⟩ ∧
        Document.SameAnswer (one.writer.deliverMap {} none).1
          (other.writer.deliverMap {} none).1 := by
  intro source origin write body program narrow
  have emits : program.Emits := by
    simp [program, body, write, Program.Emits, Program.All, Operation.Emits, Block.Emits]
  have wideMap : ((program.run (.start .standard {})).2.writer.deliverMap {} none).1 =
      .ok ⟨"a".toList, ["a".toList], "AAAI,EAAA,CACH,GAAA,EADD,CAAA".toList⟩ := by
    decide +kernel
  have narrowMap : ((program.run (.start narrow {})).2.writer.deliverMap {} none).1 =
      .ok ⟨"a".toList, ["a".toList], "AAAI;IAAA,CACH;AAAA,CADD,CAAA".toList⟩ := by
    decide +kernel
  have sameEnd : Options.standard.statementEnd = narrow.statementEnd := rfl
  obtain ⟨one, other, completed, otherCompleted, same⟩ :=
    Program.map_targets_agree sameEnd {} emits
  rw [completed] at wideMap
  rw [otherCompleted] at narrowMap
  exact ⟨sameEnd, emits, one, other, completed, otherCompleted, wideMap, narrowMap, same {} none⟩

end CodeWriter
