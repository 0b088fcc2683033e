import CodeWriter.Proofs.SourceMap.Agreement

/-! The rows of a map go on counting buffer lines where the text is one physical line. -/

namespace CodeWriter

theorem Text.HoldsAt.prepend {text piece : Text} {column : Nat} (holds : text.HoldsAt column piece)
    (leading : Text) : Text.HoldsAt (leading ++ text) (leading.length + column) piece := by
  obtain ⟨before, after, rfl, rfl⟩ := holds
  exact ⟨leading ++ before, after, by simp, by simp⟩

namespace Layout

def widthAbove (unit : Int) (lines : List Line) (row : Nat) : Nat :=
  ((lines.take row).flatMap (Line.render unit)).length

variable {options : Options} {lines : List Line}

theorem render_of_no_break (noBreak : options.lineBreak = []) (lines : List Line) :
    render options lines = lines.flatMap (Line.render options.indent) := by
  cases lines with
  | nil => rfl
  | cons line rest =>
      rw [render, List.map_cons, Text.intercalate_cons, List.flatMap_map]
      simp [noBreak]

theorem physicalLines_render_of_no_break (noBreak : options.lineBreak = [])
    (unbroken : ∀ line ∈ lines, line.Unbroken) :
    (render options lines).physicalLines = [render options lines] := by
  apply Text.split_of_not_mem
  rw [render_of_no_break noBreak, List.mem_flatMap]
  rintro ⟨line, member, broken⟩
  exact (unbroken line member).render options.indent broken

theorem holdsAt_render_of_no_break (noBreak : options.lineBreak = []) {row : Nat} {line : Line}
    (found : lines[row]? = some line) {column : Nat} {piece : Text}
    (holds : (line.render options.indent).HoldsAt column piece) :
    (render options lines).HoldsAt (widthAbove options.indent lines row + column) piece := by
  obtain ⟨small, rfl⟩ := List.getElem?_eq_some_iff.mp found
  have parts : render options lines =
      (lines.take row).flatMap (Line.render options.indent) ++
        (lines[row].render options.indent ++
          (lines.drop (row + 1)).flatMap (Line.render options.indent)) := by
    rw [render_of_no_break noBreak, ← List.flatMap_cons, ← List.drop_eq_getElem_cons small,
      ← List.flatMap_append, List.take_append_drop]
  rw [parts]
  exact (holds.append _).prepend _

end Layout

namespace Mapping

/-- The mapping on the one physical line of lines that nothing parts. -/
def folded (unit : Int) (lines : List Line) (mapping : Mapping) : Mapping :=
  { mapping with
    line := 0
    column := Layout.widthAbove unit lines mapping.line.toNat + mapping.column }

theorem folded_of_first_row {mapping : Mapping} (first : mapping.line = 0) (unit : Int)
    (lines : List Line) : mapping.folded unit lines = mapping := by
  obtain ⟨row, column, source, sourceLine, sourceColumn⟩ := mapping
  cases first
  simp [folded, Layout.widthAbove]

theorem TellsOf.first_row {text : Text} (single : text.physicalLines = [text])
    {sources : List Source} {mapping : Mapping} {token : Token}
    (tells : mapping.TellsOf text sources token) : mapping.line = 0 := by
  obtain ⟨row, column, number, origin, position, physical, rfl, found, _⟩ := tells
  rw [single] at found
  have small : row < 1 := (List.getElem?_eq_some_iff.mp found).1
  obtain rfl : row = 0 := Nat.lt_one_iff.mp small
  rfl

end Mapping

theorem Site.StandsFor.tellsOf_folded {options : Options} (noBreak : options.lineBreak = [])
    {lines : List Line} (unbroken : ∀ line ∈ lines, line.Unbroken) {sources : List Source}
    {site : Site} {token : Token} {mapping : Mapping}
    (stands : site.StandsFor options.indent 0 lines token)
    (mapped : site.IsMappedTo sources mapping) :
    (mapping.folded options.indent lines).TellsOf (Layout.render options lines) sources token := by
  obtain ⟨source, row, line, inRow, found, holds⟩ := stands
  obtain ⟨number, position, known, located, rfl⟩ := mapped
  rw [Nat.zero_add] at inRow
  have placed := Layout.holdsAt_render_of_no_break noBreak found holds
  have single := Layout.physicalLines_render_of_no_break noBreak unbroken
  refine ⟨0, _, number, site.origin, position, _, ?_, by rw [single]; rfl, placed, source, known,
    located⟩
  simp [Mapping.folded, Site.mapping, inRow]

/-- The lines stand on one physical line. The document lists the sources of the tokens, each once
and in the order of first sight; its mappings tell of the tokens, one for one and in order, when
they are folded, and as they stand just if they are in the first row. -/
def Document.AgreesFolded (unit : Int) (lines : List Line) (text : Text) (tokens : List Token)
    (document : Document) : Prop :=
  text.physicalLines = [text] ∧
    ∃ sources mappings,
      sources = (tokens.filterMap fun token => token.origin.map Origin.source).eraseDups ∧
      document.sources = sources.map Source.name ∧
      Mapping.decode document.mappings = .ok mappings ∧
      List.Forall₂
        (fun mapping token => (mapping.folded unit lines).TellsOf text sources token ∧
          (mapping.TellsOf text sources token ↔ mapping.line = 0))
        mappings tokens

theorem Document.agreesFolded_render {disk : Disk} {file : Option Text} {options : Options}
    {registry : Option Registry} {lines : List Line} {document : Document}
    (noBreak : options.lineBreak = []) (unbroken : ∀ line ∈ lines, line.Unbroken)
    (made : (Document.ofLines disk options.indent file registry lines).1 = .ok document) :
    document.AgreesFolded options.indent lines (Layout.render options lines)
      (lines.flatMap Line.mappedTokens) := by
  have single := Layout.physicalLines_render_of_no_break noBreak unbroken
  obtain ⟨sources, mappings, listed, names, decoded, mapped⟩ := Document.forall₂_mappedTokens made
  refine ⟨single, sources, mappings, listed, names, decoded, mapped.imp ?_⟩
  rintro mapping token ⟨site, stands, toMapping⟩
  have folded := stands.tellsOf_folded noBreak unbroken toMapping
  refine ⟨folded, fun tells => tells.first_row single, fun first => ?_⟩
  rw [Mapping.folded_of_first_row first] at folded
  exact folded

theorem Writer.buffer_settle_of_no_indent {writer : Writer} (flat : writer.options.indent = 0) :
    writer.settle.buffer = writer.buffer := by
  unfold settle
  split
  · rfl
  · simp [Layout.arrange, Options.indents, flat]

theorem Options.ofProfile_compact_ok {width : Int} {options : Options}
    (compact : Options.ofProfile .compact width = .ok options) :
    options.indent = 0 ∧ options.lineBreak = [] := by
  unfold ofProfile make at compact
  dsimp only at compact
  split at compact
  · cases compact
  · cases compact
    exact ⟨rfl, rfl⟩

/-- In every state of a writer in the compact profile, whatever its actions and faults: a map that
it makes agrees with its text once its mappings are folded into the one line of that text. A mapping
tells of its token as it stands just if it is in the first row. -/
theorem Session.compact_map_agrees_folded {width : Int} {options : Options}
    (compact : Options.ofProfile .compact width = .ok options) {disk : Disk} {session : Session}
    (reached : Session.Reachable Operation.Unbroken (fun _ => True) (.start options disk) session) :
    ∀ disk file document, (session.writer.deliverMap disk file).1 = .ok document →
      document.AgreesFolded options.indent session.buffer.lines session.writer.deliverText.1
        session.buffer.mappedTokens := by
  intro disk file document made
  obtain ⟨flat, noBreak⟩ := Options.ofProfile_compact_ok compact
  have unbroken : session.Unbroken :=
    (Session.kept_unbroken _).reachable (Session.unbroken_start options _) reached
  have sameOptions : session.writer.options = options :=
    (Session.kept_options _ _ options).reachable rfl reached
  have laidOut : session.writer.settle.buffer = session.buffer :=
    Writer.buffer_settle_of_no_indent (sameOptions ▸ flat)
  rw [Writer.deliverMap_fst, Writer.options_settle, sameOptions, laidOut] at made
  have text : session.writer.deliverText.1 = Layout.render options session.buffer.lines := by
    rw [Writer.deliverText, Writer.renderedText, Writer.options_settle, sameOptions, laidOut]
  rw [text]
  exact Document.agreesFolded_render noBreak unbroken made

/-- After a block of two lines: four rows of the map are one line of the text. -/
theorem Session.compact_map_agrees_folded_after_block :
    let source : Source := ⟨0, "a".toList, "f g".toList⟩
    let statements := Operation.write .writer .inline (.literal "f();\ng();".toList)
    let body : Program := .block (.brace none) (.step statements .done) .done
    let session :=
      ((Block.attribute (some ⟨source, ⟨2, 3, Nat.le_succ 2⟩⟩)).around body.run
        (.start .compact {})).2
    let document : Document := ⟨"a".toList, ["a".toList], "AAAE;AAAA;AAAA;AAAA".toList⟩
    Options.ofProfile .compact 80 = .ok .compact ∧
      Session.Reachable Operation.Unbroken (fun _ => True) (.start .compact {}) session ∧
      (session.writer.deliverMap {} none).1 = .ok document ∧
      session.writer.deliverText.1 = "\x7bf();g();\x7d".toList ∧
      document.AgreesFolded 0 session.buffer.lines session.writer.deliverText.1
        session.buffer.mappedTokens := by
  intro source statements body session document
  have reached :
      Session.Reachable Operation.Unbroken (fun _ => True) (.start .compact {}) session :=
    .leave .start trivial ⟨trivial, ⟨trivial, trivial⟩, trivial⟩
  have made : (session.writer.deliverMap {} none).1 = .ok document := by decide +kernel
  exact ⟨Options.ofProfile_compact, reached, made, by decide +kernel,
    Session.compact_map_agrees_folded Options.ofProfile_compact reached {} none document made⟩

/-- Two statements, the first of them with a line break after it: the map puts the second one in a
row that the text does not have. -/
theorem Session.compact_map_points_past_text_after_break :
    let source : Source := ⟨0, "a.rb".toList, "f g".toList⟩
    let statement (how : Emission) (text : String) : Program :=
      .step (.write .writer how (.literal text.toList)) .done
    let first :=
      ((Block.attribute (some ⟨source, ⟨0, 1, Nat.zero_le 1⟩⟩)).around
        (statement .lineAfter "f();").run (.start .compact {})).2
    let session :=
      ((Block.attribute (some ⟨source, ⟨2, 3, Nat.le_succ 2⟩⟩)).around
        (statement .inline "g();").run first).2
    let document : Document := ⟨"a.rb".toList, ["a.rb".toList], "AAAA;AAAE".toList⟩
    Session.Reachable Operation.Unbroken (fun _ => True) (.start .compact {}) session ∧
      (session.writer.deliverMap {} none).1 = .ok document ∧
      Mapping.decode document.mappings = .ok [⟨0, 0, 0, 0, 0⟩, ⟨1, 0, 0, 0, 2⟩] ∧
      session.writer.deliverText.1.physicalLines = ["f();g();".toList] := by
  intro source statement first session document
  have unbroken (how : Emission) (text : String) :
      (statement how text).All Operation.Unbroken fun _ => True := ⟨trivial, trivial⟩
  have reached :
      Session.Reachable Operation.Unbroken (fun _ => True) (.start .compact {}) session :=
    .leave (.leave .start trivial (unbroken _ _)) trivial (unbroken _ _)
  exact ⟨reached, by decide +kernel, by decide +kernel, by decide +kernel⟩

end CodeWriter
