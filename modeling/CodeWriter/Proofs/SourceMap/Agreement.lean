import CodeWriter.Proofs.Layout.Content
import CodeWriter.Proofs.Program.Reachable
import CodeWriter.Proofs.SourceMap.Drafting

namespace CodeWriter

namespace Text

theorem HoldsAt.append {text piece : Text} {column : Nat} (holds : text.HoldsAt column piece)
    (trailing : Text) : Text.HoldsAt (text ++ trailing) column piece := by
  obtain ⟨before, after, rfl, place⟩ := holds
  exact ⟨before, after ++ trailing, by simp, place⟩

/-- A separator of lines that ends in its only line feed. -/
def BreaksOnce (text : Text) : Prop :=
  text.count '\n' = 1 ∧ text.getLast? = some '\n'

theorem BreaksOnce.eq_append {text : Text} (once : text.BreaksOnce) :
    ∃ start, text = start ++ ['\n'] ∧ '\n' ∉ start := by
  obtain ⟨count, last⟩ := once
  obtain ⟨start, rfl⟩ := List.getLast?_eq_some_iff.mp last
  refine ⟨start, rfl, ?_⟩
  rw [← List.count_eq_zero]
  simpa using count

theorem physicalLines_intercalate {lineBreak : Text} (once : lineBreak.BreaksOnce)
    {texts : List Text} (unbroken : ∀ text ∈ texts, '\n' ∉ text) {index : Nat} {text : Text}
    (found : texts[index]? = some text) :
    ∃ trailing,
      (physicalLines (lineBreak.intercalate texts))[index]? = some (text ++ trailing) := by
  obtain ⟨start, rfl, newlineFree⟩ := once.eq_append
  induction texts generalizing index with
  | nil => simp at found
  | cons first rest ih =>
      rw [List.forall_mem_cons] at unbroken
      cases rest with
      | nil =>
          obtain ⟨rfl, rfl⟩ : index = 0 ∧ first = text := by
            cases index <;> simp_all
          exact ⟨[], by simp [physicalLines, split_of_not_mem unbroken.1]⟩
      | cons second more =>
          have lead : '\n' ∉ first ++ start := by simp [unbroken.1, newlineFree]
          have cut := split_append_separator lead ((start ++ ['\n']).intercalate (second :: more))
          rw [List.intercalate_cons_cons]
          simp only [List.append_assoc, List.singleton_append] at cut ⊢
          rw [physicalLines, cut]
          cases index with
          | zero =>
              obtain rfl : first = text := by simpa using found
              exact ⟨start, rfl⟩
          | succ index =>
              obtain ⟨trailing, later⟩ := ih unbroken.2 (by simpa using found)
              exact ⟨trailing, by simpa [physicalLines] using later⟩

end Text

/-- A mapping that tells of a token: its row and column are the place of the token in the text, its
source is that of the token, and its source position is that of the start of the token's span. -/
def Mapping.TellsOf (text : Text) (sources : List Source) (mapping : Mapping) (token : Token) :
    Prop :=
  ∃ (row column number : Nat) (origin : Origin) (position : Position) (physical : Text),
    mapping = {
      line := row
      column := column
      source := number
      sourceLine := position.line
      sourceColumn := position.column } ∧
    text.physicalLines[row]? = some physical ∧ physical.HoldsAt column token.text ∧
    token.origin = some origin ∧ sources[number]? = some origin.source ∧
    origin.position = .ok position

/-- The document lists the sources of the tokens, each once and in the order of first sight, and its
mappings tell of the tokens, one for one and in order. -/
def Document.AgreesWith (text : Text) (tokens : List Token) (document : Document) : Prop :=
  ∃ sources mappings,
    sources = (tokens.filterMap fun token => token.origin.map Origin.source).eraseDups ∧
    document.sources = sources.map Source.name ∧
    Mapping.decode document.mappings = .ok mappings ∧
    List.Forall₂ (Mapping.TellsOf text sources) mappings tokens

def Buffer.mappedTokens (buffer : Buffer) : List Token :=
  buffer.lines.flatMap Line.mappedTokens

theorem Writer.mappedTokens_settle (writer : Writer) :
    writer.settle.buffer.mappedTokens = writer.buffer.mappedTokens :=
  flatMap_lines_settle (fun _ _ => rfl) (fun _ => Line.mappedTokens_of_isBlank) writer

theorem Layout.physicalLines_render {options : Options} (once : options.lineBreak.BreaksOnce)
    {lines : List Line} (unbroken : ∀ line ∈ lines, line.Unbroken) {index : Nat} {line : Line}
    (found : lines[index]? = some line) :
    ∃ trailing, (Layout.render options lines).physicalLines[index]? =
      some (line.render options.indent ++ trailing) := by
  apply Text.physicalLines_intercalate once
  · intro text member
    obtain ⟨other, among, rfl⟩ := List.mem_map.mp member
    exact (unbroken other among).render options.indent
  · simp [found]

theorem Site.StandsFor.tellsOf {options : Options} (once : options.lineBreak.BreaksOnce)
    {lines : List Line} (unbroken : ∀ line ∈ lines, line.Unbroken) {sources : List Source}
    {site : Site} {token : Token} {mapping : Mapping}
    (stands : site.StandsFor options.indent 0 lines token)
    (mapped : site.IsMappedTo sources mapping) :
    mapping.TellsOf (Layout.render options lines) sources token := by
  obtain ⟨source, index, line, row, found, holds⟩ := stands
  obtain ⟨number, position, known, located, rfl⟩ := mapped
  obtain ⟨trailing, physical⟩ := Layout.physicalLines_render once unbroken found
  refine ⟨site.row, site.column, number, site.origin, position, _, rfl, ?_,
    holds.append trailing, source, known, located⟩
  rw [row, Nat.zero_add]
  exact physical

theorem Site.sources_of_forall₂ {unit : Int} {row : Nat} {lines : List Line} {sites : List Site}
    {tokens : List Token} (stand : List.Forall₂ (Site.StandsFor unit row lines) sites tokens) :
    (sites.map fun site => site.origin.source) =
      tokens.filterMap fun token => token.origin.map Origin.source := by
  induction stand with
  | nil => rfl
  | cons first _ ih => simp [first.1, ih]

theorem Document.forall₂_mappedTokens {disk : Disk} {unit : Int} {file : Option Text}
    {registry : Option Registry} {lines : List Line} {document : Document}
    (made : (Document.ofLines disk unit file registry lines).1 = .ok document) :
    ∃ sources mappings,
      sources = ((lines.flatMap Line.mappedTokens).filterMap fun token =>
        token.origin.map Origin.source).eraseDups ∧
      document.sources = sources.map Source.name ∧
      Mapping.decode document.mappings = .ok mappings ∧
      List.Forall₂
        (fun mapping token => ∃ site : Site, site.StandsFor unit 0 lines token ∧
          site.IsMappedTo sources mapping)
        mappings (lines.flatMap Line.mappedTokens) := by
  have stand := Site.forall₂_ofLines unit lines
  obtain ⟨sources, mappings, listed, _, names, decoded, mapped⟩ := Document.ofLines_ok made
  refine ⟨sources, mappings, ?_, names, decoded, ?_⟩
  · rw [listed, Site.sources_of_forall₂ stand]
  · generalize Site.ofLines unit lines = sites at stand mapped
    generalize lines.flatMap Line.mappedTokens = tokens at stand
    clear decoded listed
    induction stand generalizing mappings with
    | nil =>
        cases mapped
        exact .nil
    | cons first _ ih =>
        cases mapped with
        | cons firstMapped restMapped => exact .cons ⟨_, first, firstMapped⟩ (ih _ restMapped)

theorem Document.agreesWith_render {disk : Disk} {file : Option Text} {options : Options}
    {registry : Option Registry} {lines : List Line} {document : Document}
    (once : options.lineBreak.BreaksOnce) (unbroken : ∀ line ∈ lines, line.Unbroken)
    (made : (Document.ofLines disk options.indent file registry lines).1 = .ok document) :
    document.AgreesWith (Layout.render options lines) (lines.flatMap Line.mappedTokens) := by
  obtain ⟨sources, mappings, listed, names, decoded, mapped⟩ := Document.forall₂_mappedTokens made
  refine ⟨sources, mappings, listed, names, decoded, mapped.imp ?_⟩
  rintro mapping token ⟨site, stands, toMapping⟩
  exact stands.tellsOf once unbroken toMapping

namespace Writer

theorem deliverMap_fst (disk : Disk) (file : Option Text) (writer : Writer) :
    (writer.deliverMap disk file).1 =
      (Document.ofLines disk writer.settle.options.indent file (some writer.settle.registry)
        writer.settle.buffer.lines).1 := rfl

@[simp] theorem deliverMap_settle (disk : Disk) (file : Option Text) (writer : Writer) :
    writer.settle.deliverMap disk file = writer.deliverMap disk file := by
  unfold deliverMap
  rw [settle_settle]

theorem agreesWith_deliverText {writer : Writer} {disk : Disk} {file : Option Text}
    {document : Document} (once : writer.options.lineBreak.BreaksOnce)
    (unbroken : writer.buffer.Unbroken)
    (made : (writer.deliverMap disk file).1 = .ok document) :
    document.AgreesWith writer.deliverText.1 writer.buffer.mappedTokens := by
  have settled : writer.settle.buffer.Unbroken := Session.Unbroken.settle unbroken
  have settledOnce : writer.settle.options.lineBreak.BreaksOnce := by
    rw [options_settle]
    exact once
  rw [deliverMap_fst] at made
  rw [← mappedTokens_settle]
  exact Document.agreesWith_render settledOnce settled made

theorem deliver_ok {writer : Writer} {disk : Disk} {file : Option Text} {product : Product}
    (delivered : (writer.deliver disk file true).1 = .ok product) :
    product.text = writer.deliverText.1 ∧
      ∃ document, product.map = some document ∧
        (writer.deliverMap disk file).1 = .ok document := by
  unfold deliver at delivered
  cases made : (writer.deliverMap disk file).1 with
  | error fault => simp [deliverText, made, Except.map, bind, Except.bind] at delivered
  | ok document =>
      simp only [deliverText, deliverMap_settle, made, Bool.not_true, Bool.and_false,
        Bool.false_eq_true, if_false, if_true, Except.map, bind, Except.bind] at delivered
      cases fresh : (writer.deliverMap disk file).2.isFresh disk with
      | error fault =>
          rw [fresh] at delivered
          cases delivered
      | ok value =>
          rw [fresh] at delivered
          cases delivered
          exact ⟨rfl, document, rfl, rfl⟩

end Writer

/-- In every state that a writer passes through, whatever its actions and faults: a map that it
makes agrees with its text, and so do the text and the map of one delivery. -/
theorem Session.map_agrees_with_text {options : Options} {disk : Disk} {session : Session}
    (once : options.lineBreak.BreaksOnce)
    (reached : Session.Reachable Operation.Unbroken (fun _ => True) (.start options disk) session) :
    (∀ disk file document, (session.writer.deliverMap disk file).1 = .ok document →
      document.AgreesWith session.writer.deliverText.1 session.buffer.mappedTokens) ∧
    (∀ disk file product, (session.writer.deliver disk file true).1 = .ok product →
      ∃ document, product.map = some document ∧
        document.AgreesWith product.text session.buffer.mappedTokens) := by
  have unbroken : session.Unbroken :=
    (Session.kept_unbroken _).reachable (Session.unbroken_start options disk) reached
  have sameOptions : session.writer.options = options :=
    (Session.kept_options _ _ options).reachable rfl reached
  have breaks : session.writer.options.lineBreak.BreaksOnce := by
    rw [sameOptions]
    exact once
  constructor
  · intro disk file document made
    exact Writer.agreesWith_deliverText breaks unbroken made
  · intro disk file product delivered
    obtain ⟨text, document, map, made⟩ := Writer.deliver_ok delivered
    refine ⟨document, map, ?_⟩
    rw [text]
    exact Writer.agreesWith_deliverText breaks unbroken made

/-- Inside an action, after four lines of which the last one is a comment that a spacer sets off. -/
theorem Session.map_agrees_with_text_inside_action :
    let source : Source := ⟨0, "a".toList, "let x\n y".toList⟩
    let session := ((Operation.write .writer .inline
      (.literal "if (x) \x7b\ny;\n\x7d\n// z".toList)).run
        (Block.enter (.attribute (some ⟨source, ⟨7, 8, Nat.le_succ 7⟩⟩)) (.start .standard {}))).2
    let document : Document := ⟨"a".toList, ["a".toList], "AACC;EAAA;AAAA;;AAAA".toList⟩
    Text.BreaksOnce Options.standard.lineBreak ∧
      Session.Reachable Operation.Unbroken (fun _ => True) (.start .standard {}) session ∧
      (session.writer.deliverMap {} none).1 = .ok document ∧
      document.AgreesWith session.writer.deliverText.1 session.buffer.mappedTokens := by
  intro source session document
  have once : Text.BreaksOnce Options.standard.lineBreak := ⟨by decide, by decide⟩
  have reached :
      Session.Reachable Operation.Unbroken (fun _ => True) (.start .standard {}) session :=
    .step (.enter .start trivial) trivial
  have made : (session.writer.deliverMap {} none).1 = .ok document := by decide +kernel
  exact ⟨once, reached, made, (Session.map_agrees_with_text once reached).1 {} none document made⟩

end CodeWriter
