import CodeWriter.Proofs.SourceMap.Drafting
import CodeWriter.Proofs.SourceMap.Watching

/-! A map is refused for the first mention that has a fault of its own. -/

namespace CodeWriter

/-- Where a token of the line stands in the rendered text. -/
def Line.columnAt (unit : Int) (line : Line) (index : Nat) : Nat :=
  line.margin unit + ((line.tokens.take index).flatMap Token.text).length

def Line.mentions (unit : Int) (row : Nat) (line : Line) : List Site :=
  line.tokens.zipIdx.filterMap fun (token, index) =>
    token.mappedOrigin?.map fun origin => { row, column := line.columnAt unit index, origin }

def Layout.mentions (unit : Int) (lines : List Line) : List Site :=
  lines.zipIdx.flatMap fun (line, row) => line.mentions unit row

namespace Site

theorem ofTokens_eq_filterMap (row column : Nat) (tokens : List Token) :
    ofTokens row column tokens =
      tokens.zipIdx.filterMap fun (token, index) =>
        token.mappedOrigin?.map fun origin =>
          { row
            column := column + ((tokens.take index).flatMap Token.text).length
            origin } := by
  induction tokens generalizing column with
  | nil => rfl
  | cons token rest ih =>
      have shifted : ∀ index : Nat,
          column + (((token :: rest).take (index + 1)).flatMap Token.text).length =
            column + token.text.length + ((rest.take index).flatMap Token.text).length := by
        intro index
        simp [Nat.add_assoc]
      rw [ofTokens, ih, List.zipIdx_cons', List.filterMap_cons, List.filterMap_map]
      simp only [Function.comp_def, Prod.map, id, shifted]
      cases token.mappedOrigin? <;> simp

theorem ofLine_eq_mentions (unit : Int) (row : Nat) (line : Line) :
    ofLine unit row line = line.mentions unit row := by
  unfold ofLine
  split
  · rename_i blank
    rw [Line.mentions, eq_comm, List.filterMap_eq_nil_iff]
    rintro ⟨token, index⟩ member
    have onLine : token ∈ line.tokens := List.fst_mem_of_mem_zipIdx member
    have noText := List.isEmpty_iff.mp (List.all_eq_true.mp blank token onLine)
    simp [Token.mappedOrigin?, Token.isBlank, noText]
  · exact ofTokens_eq_filterMap row (line.margin unit) line.tokens

theorem ofLinesFrom_eq_flatMap (unit : Int) (row : Nat) (lines : List Line) :
    ofLinesFrom unit row lines =
      (lines.zipIdx row).flatMap fun (line, row) => line.mentions unit row := by
  induction lines generalizing row with
  | nil => rfl
  | cons line rest ih =>
      rw [ofLinesFrom, ofLine_eq_mentions, ih, List.zipIdx_cons, List.flatMap_cons]

theorem ofLines_eq_mentions (unit : Int) (lines : List Line) :
    ofLines unit lines = Layout.mentions unit lines :=
  ofLinesFrom_eq_flatMap unit 0 lines

end Site

/-- The name is a path that no file can have. An empty name is no path, and nobody asks for it. -/
def Source.isUnwatchable (disk : Disk) (source : Source) : Bool :=
  !source.name.isEmpty && disk.state source.name.normalizePath == .malformedPath

/-- What a map is refused for at a site. Without a registry no file is asked for its time. -/
def Site.fault? (disk : Disk) (watched : Bool) (site : Site) : Option Fault :=
  if watched && site.origin.source.isUnwatchable disk then some .nullInPath
  else if site.origin.source.text.length < site.origin.span.start then
    some (.offsetOutside site.origin.span.start site.origin.source.text.length)
  else none

namespace Origin

theorem position_of_lt {origin : Origin} (beyond : origin.source.text.length < origin.span.start) :
    origin.position = .error (.offsetOutside origin.span.start origin.source.text.length) := by
  have natural : ¬((origin.span.start : Int) < 0) := by omega
  simp [position, Source.position, Position.ofOffset, natural,
    Position.locate_eq_none_iff.mpr beyond]

theorem position_of_le {origin : Origin} (inside : origin.span.start ≤ origin.source.text.length) :
    ∃ position, origin.position = .ok position := by
  have natural : ¬((origin.span.start : Int) < 0) := by omega
  cases found : Position.locate origin.source.text origin.span.start with
  | some position =>
      refine ⟨position, ?_⟩
      simp [Origin.position, Source.position, Position.ofOffset, natural, found]
  | none =>
      have beyond := Position.locate_eq_none_iff.mp found
      omega

end Origin

theorem Registry.observe_of_isUnwatchable {disk : Disk} {source : Source} (registry : Registry)
    (refused : source.isUnwatchable disk = true) :
    registry.observe disk source.name = .error .nullInPath := by
  simp only [Source.isUnwatchable, Bool.and_eq_true, Bool.not_eq_true', beq_iff_eq] at refused
  simp [observe, refused.1, Disk.time?, refused.2]

theorem Registry.observe_of_watchable {disk : Disk} {source : Source} (registry : Registry)
    (watchable : source.isUnwatchable disk = false) :
    ∃ seen, registry.observe disk source.name = .ok seen := by
  unfold observe
  split
  · exact ⟨_, rfl⟩
  · rename_i named
    unfold Disk.time?
    cases state : disk.state source.name.normalizePath with
    | modified time => exact ⟨_, rfl⟩
    | unreadable => exact ⟨_, rfl⟩
    | malformedPath => simp [Source.isUnwatchable, state, named] at watchable

namespace Draft

theorem watch_of_watchable {disk : Disk} {source : Source} {registry : Option Registry}
    (watchable : (registry.isSome && source.isUnwatchable disk) = false) (added : Bool) :
    ∃ seen, (if added then watch disk source registry else .ok registry) = .ok seen ∧
      seen.isSome = registry.isSome := by
  cases added with
  | false => exact ⟨registry, rfl, rfl⟩
  | true =>
      cases registry with
      | none => exact ⟨none, rfl, rfl⟩
      | some registry =>
          obtain ⟨seen, observed⟩ := registry.observe_of_watchable watchable
          exact ⟨some seen.1, by simp [watch, observed, Except.map], rfl⟩

/-- The sources seen so far could be asked about, and no row of the sites to come is behind. -/
structure Awaits (disk : Disk) (sites : List Site) (draft : Draft) : Prop where
  watchable : ∀ source ∈ draft.index.sources,
    (draft.registry.isSome && source.isUnwatchable disk) = false
  ahead : ∀ site ∈ sites, draft.encoder.last.line ≤ site.row

theorem awaits_start (disk : Disk) (registry : Option Registry) (sites : List Site) :
    Awaits disk sites { registry } where
  watchable source member := by cases member
  ahead site _ := Int.natCast_nonneg site.row

theorem place_of_fault {disk : Disk} {site : Site} {sites : List Site} {draft : Draft}
    {fault : Fault} (awaits : draft.Awaits disk sites)
    (faulty : site.fault? disk draft.registry.isSome = some fault) :
    (draft.place disk site).1 = .error fault := by
  unfold Site.fault? at faulty
  split at faulty
  · rename_i refused
    cases faulty
    have unknown : site.origin.source ∉ draft.index.sources := by
      intro known
      rw [awaits.watchable _ known] at refused
      cases refused
    rw [Bool.and_eq_true, Option.isSome_iff_exists] at refused
    obtain ⟨⟨registry, present⟩, unwatchable⟩ := refused
    simp [place, SourceIndex.insert_of_not_mem unknown, watch, present,
      registry.observe_of_isUnwatchable unwatchable, Except.map]
  · rename_i allowed
    split at faulty
    · rename_i beyond
      cases faulty
      obtain ⟨seen, watched, _⟩ := watch_of_watchable (Bool.eq_false_iff.mpr allowed)
        (draft.index.insert site.origin.source).1.2
      simp only [place, watched, Origin.position_of_lt beyond]
    · cases faulty

theorem mem_sources_insert {source other : Source} {index : SourceIndex}
    (member : other ∈ (index.insert source).2.sources) :
    other ∈ index.sources ∨ other = source := by
  cases found : index.find? source with
  | some number =>
      rw [SourceIndex.insert_of_mem found] at member
      exact .inl member
  | none =>
      rw [SourceIndex.insert_of_not_mem (SourceIndex.find?_eq_none_iff.mp found)] at member
      simpa [SourceIndex.add] using member

theorem place_of_no_fault {disk : Disk} {site : Site} {rest : List Site} {draft : Draft}
    (awaits : draft.Awaits disk (site :: rest)) (ordered : ∀ later ∈ rest, site.Before later)
    (faultless : site.fault? disk draft.registry.isSome = none) :
    ∃ after, draft.place disk site = (.ok (), after) ∧
      after.registry.isSome = draft.registry.isSome ∧ after.Awaits disk rest := by
  unfold Site.fault? at faultless
  split at faultless
  · cases faultless
  rename_i allowed
  split at faultless
  · cases faultless
  rename_i inside
  have watchable := Bool.eq_false_iff.mpr allowed
  obtain ⟨seen, watched, present⟩ := watch_of_watchable watchable
    (draft.index.insert site.origin.source).1.2
  obtain ⟨position, located⟩ := Origin.position_of_le (Nat.le_of_not_lt inside)
  have ahead : draft.encoder.last.line ≤
      (site.mapping (draft.index.insert site.origin.source).1.1 position).line :=
    awaits.ahead site (by simp)
  have written := Encoder.put_of_le ahead
  refine ⟨_, by simp only [place, watched, located, written]; rfl, present, ?_, ?_⟩
  · intro source member
    rw [present]
    rcases mem_sources_insert member with known | rfl
    · exact awaits.watchable source known
    · exact watchable
  · intro later member
    have before := ordered later member
    show (site.row : Int) ≤ later.row
    rcases before with above | ⟨sameRow, _⟩ <;> omega

theorem placeAll_fst {disk : Disk} {sites : List Site} {draft : Draft}
    (awaits : draft.Awaits disk sites) (ordered : sites.Pairwise Site.Before) :
    (placeAll disk sites draft).1 =
      match sites.findSome? (Site.fault? disk draft.registry.isSome) with
      | some fault => .error fault
      | none => .ok () := by
  induction sites generalizing draft with
  | nil => rfl
  | cons site rest ih =>
      obtain ⟨first, later⟩ := List.pairwise_cons.mp ordered
      rw [List.findSome?_cons]
      cases faulty : site.fault? disk draft.registry.isSome with
      | some fault =>
          have failed := place_of_fault awaits faulty
          unfold placeAll
          split
          · rename_i reported after placed
            rw [placed] at failed
            exact failed
          · rename_i after placed
            rw [placed] at failed
            cases failed
      | none =>
          obtain ⟨after, placed, present, awaitsRest⟩ := place_of_no_fault awaits first faulty
          rw [placeAll, placed, ← present]
          exact ih awaitsRest later

end Draft

/-- Watches with a registry, if there is one, and lists the sources that it is asked about. -/
def Draft.watchListed (disk : Disk) (source : Source) :
    Option (List Source × Registry) → Except Fault (Option (List Source × Registry))
  | none => .ok none
  | some (asked, registry) =>
      (registry.observe disk source.name).map fun seen => some (asked ++ [source], seen.1)

theorem Draft.watch_map_snd (disk : Disk) (source : Source)
    (record : Option (List Source × Registry)) :
    watch disk source (record.map Prod.snd) =
      (watchListed disk source record).map (Option.map Prod.snd) := by
  cases record with
  | none => rfl
  | some entry =>
      simp only [Option.map_some, watch, watchListed]
      cases entry.2.observe disk source.name <;> rfl

theorem Draft.watchAll_watchListed {disk : Disk} {sources asked : List Source} {registry : Registry}
    {record : Option (List Source × Registry)}
    (called : Sketch.watchAll (watchListed disk) sources (some (asked, registry)) = .ok record) :
    record.map Prod.fst = some (asked ++ sources) := by
  induction sources generalizing asked registry with
  | nil =>
      cases called
      simp
  | cons source rest ih =>
      rw [Sketch.watchAll, watchListed] at called
      cases seen : registry.observe disk source.name with
      | error fault => simp [seen, Except.map] at called
      | ok seen =>
          simp only [*, Except.map] at called
          simpa using ih called

theorem Draft.watchAll_watchListed_none {disk : Disk} {sources : List Source}
    {record : Option (List Source × Registry)}
    (called : Sketch.watchAll (watchListed disk) sources none = .ok record) : record = none := by
  induction sources with
  | nil =>
      cases called
      rfl
  | cons source rest ih => exact ih called

/-- The map of lines, and the registry after it with the sources that it was asked about. -/
def Document.ofLinesTraced (disk : Disk) (unit : Int) (file : Option Text)
    (registry : Option Registry) (lines : List Line) :
    Except Fault Document × Option (List Source × Registry) :=
  match Sketch.placeAll (Draft.watchListed disk) (Site.ofLines unit lines)
      { record := registry.map fun registry => ([], registry) } with
  | (.ok (), sketch) => (.ok (sketch.document file), sketch.record)
  | (.error fault, sketch) => (.error fault, sketch.record)

theorem Draft.placeAll_eq_listed (disk : Disk) (sites : List Site) (registry : Option Registry) :
    let listed := Sketch.placeAll (watchListed disk) sites
      { record := registry.map fun registry => ([], registry) }
    placeAll disk sites { registry } =
      (listed.1, ⟨listed.2.index, listed.2.encoder, listed.2.record.map Prod.snd⟩) := by
  intro listed
  have forgotten : Sketch.placeAll (watch disk) sites _ = (listed.1, _) :=
    Sketch.placeAll_map (watch_map_snd disk) sites _
  have start : Sketch.map (Option.map Prod.snd)
      { record := registry.map fun registry => (([] : List Source), registry) } =
        Draft.sketch { registry } := by
    simp [Sketch.map, Draft.sketch, Function.comp_def]
  rw [start, sketch_placeAll] at forgotten
  obtain ⟨sameResult, sameSketch⟩ := Prod.mk.inj forgotten
  generalize placeAll disk sites { registry } = plain at *
  obtain ⟨result, index, encoder, kept⟩ := plain
  cases sameResult
  cases sameSketch
  rfl

theorem Document.ofLines_eq_ofLinesTraced (disk : Disk) (unit : Int) (file : Option Text)
    (registry : Option Registry) (lines : List Line) :
    ofLines disk unit file registry lines =
      ((ofLinesTraced disk unit file registry lines).1,
        (ofLinesTraced disk unit file registry lines).2.map Prod.snd) := by
  unfold ofLines ofLinesTraced
  rw [Draft.placeAll_eq_listed]
  obtain ⟨result, sketch⟩ := Sketch.placeAll (Draft.watchListed disk) (Site.ofLines unit lines)
    { record := registry.map fun registry => ([], registry) }
  cases result <;> rfl

theorem Document.ofLinesTraced_error_iff {disk : Disk} {unit : Int} {file : Option Text}
    {registry : Option Registry} {lines : List Line} {fault : Fault} :
    (ofLinesTraced disk unit file registry lines).1 = .error fault ↔
      (Site.ofLines unit lines).findSome? (Site.fault? disk registry.isSome) = some fault := by
  have stopped := Draft.placeAll_fst (Draft.awaits_start disk registry (Site.ofLines unit lines))
    (Site.pairwise_ofLines unit lines)
  rw [Draft.placeAll_eq_listed] at stopped
  unfold ofLinesTraced
  generalize Sketch.placeAll (Draft.watchListed disk) (Site.ofLines unit lines)
    { record := registry.map fun registry => ([], registry) } = listed at stopped ⊢
  obtain ⟨result, sketch⟩ := listed
  cases faulty : (Site.ofLines unit lines).findSome? (Site.fault? disk registry.isSome) with
  | some found =>
      rw [faulty] at stopped
      cases stopped
      simp
  | none =>
      rw [faulty] at stopped
      cases stopped
      simp

theorem Document.ofLines_error_iff {disk : Disk} {unit : Int} {file : Option Text}
    {registry : Option Registry} {lines : List Line} {fault : Fault} :
    (ofLines disk unit file registry lines).1 = .error fault ↔
      (Site.ofLines unit lines).findSome? (Site.fault? disk registry.isSome) = some fault := by
  rw [ofLines_eq_ofLinesTraced]
  exact ofLinesTraced_error_iff

theorem Document.ofLinesTraced_ok {disk : Disk} {unit : Int} {file : Option Text}
    {registry : Option Registry} {lines : List Line} {document : Document}
    (made : (ofLinesTraced disk unit file registry lines).1 = .ok document) :
    ∃ sketch, Sketch.placeAll (Draft.watchListed disk) (Site.ofLines unit lines)
        { record := registry.map fun registry => ([], registry) } = (.ok (), sketch) ∧
      document = sketch.document file ∧
      (ofLinesTraced disk unit file registry lines).2 = sketch.record := by
  unfold ofLinesTraced at made ⊢
  split at made
  · rename_i sketch placed
    cases made
    exact ⟨sketch, placed, rfl, rfl⟩
  · cases made

theorem Draft.fst_record {disk : Disk} {sources : List Source} {registry : Option Registry}
    {record : Option (List Source × Registry)}
    (called : Sketch.watchAll (watchListed disk) sources
      (registry.map fun registry => ([], registry)) = .ok record) :
    record.map Prod.fst = registry.map fun _ => sources := by
  cases registry with
  | none => rw [watchAll_watchListed_none called]; rfl
  | some registry => exact watchAll_watchListed called

theorem nodup_eraseDups {α : Type} [DecidableEq α] : (items : List α) → items.eraseDups.Nodup
  | [] => by simp
  | item :: rest => by
      rw [List.eraseDups_cons, List.nodup_cons]
      refine ⟨?_, nodup_eraseDups _⟩
      simp
termination_by items => items.length
decreasing_by exact Nat.lt_succ_of_le (List.length_filter_le _ _)

/-- The map of lines is made unless a mention has a fault, and is refused for the first one that
has. It holds one mapping for each mention, in order and at growing places, lists the sources of the
mentions in the order of first sight, and asks about each of them once in that order. -/
theorem Document.ofLines_exact (disk : Disk) (unit : Int) (file : Option Text)
    (registry : Option Registry) (lines : List Line) :
    let sites := Layout.mentions unit lines
    let sources := (sites.map fun site => site.origin.source).eraseDups
    let traced := ofLinesTraced disk unit file registry lines
    ofLines disk unit file registry lines = (traced.1, traced.2.map Prod.snd) ∧
      (∀ fault, traced.1 = .error fault ↔
        sites.findSome? (Site.fault? disk registry.isSome) = some fault) ∧
      ∀ document, traced.1 = .ok document →
        document.sources = sources.map Source.name ∧ sources.Nodup ∧
        (∃ mappings, Mapping.decode document.mappings = .ok mappings ∧
          List.Forall₂ (Site.IsMappedTo sources) sites mappings ∧
          mappings.Pairwise Mapping.Before) ∧
        traced.2.map Prod.fst = registry.map fun _ => sources := by
  intro sites sources traced
  have closed : Site.ofLines unit lines = sites := Site.ofLines_eq_mentions unit lines
  have ordered : sites.Pairwise Site.Before := closed ▸ Site.pairwise_ofLines unit lines
  refine ⟨ofLines_eq_ofLinesTraced disk unit file registry lines, ?_, ?_⟩
  · intro fault
    rw [← closed]
    exact ofLinesTraced_error_iff
  · intro document made
    obtain ⟨sketch, placed, rfl, record⟩ := ofLinesTraced_ok made
    rw [closed] at placed
    have drafted := Draft.placeAll_eq_listed disk sites registry
    rw [placed] at drafted
    obtain ⟨indexed, mappings, decoded, mapped⟩ := Draft.decode_placeAll ordered drafted
    have listed : sketch.index.sources = sources := indexed
    obtain ⟨added, all, called⟩ := Sketch.placeAll_ok placed
    rw [List.nil_append, listed] at all
    refine ⟨?_, nodup_eraseDups _, ⟨mappings, decoded, ?_, ?_⟩, ?_⟩
    · rw [← listed]
      rfl
    · rw [← listed]
      exact mapped
    · exact Draft.pairwise_mappings ordered mapped
    · rw [record, Draft.fst_record called, all]

/-- The name of a source holds a null character, and a registry refuses it: there is no map,
although the one span that is mentioned starts within its source. -/
theorem Document.ofLines_of_null_in_name :
    let source : Source := ⟨0, ['a', '\x00'], ['x']⟩
    let token : Token := ⟨['x'], some ⟨source, ⟨0, 1, Nat.zero_le 1⟩⟩⟩
    let disk : Disk := { files := [(source.name, .malformedPath)] }
    (∀ site ∈ Layout.mentions 2 [{ tokens := [token] }],
        site.origin.span.start ≤ site.origin.source.text.length) ∧
      (Document.ofLines disk 2 none (some .empty) [{ tokens := [token] }]).1 =
        .error .nullInPath := by
  decide +kernel

end CodeWriter
