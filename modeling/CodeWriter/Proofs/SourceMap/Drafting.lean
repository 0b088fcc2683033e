import CodeWriter.Proofs.SourceMap.Recording
import CodeWriter.Proofs.SourceMap.Sites

/-! No two sites stand at one place, so no call repeats the one before it. -/

namespace CodeWriter

namespace SourceIndex

theorem getElem?_of_find? {source : Source} {index : SourceIndex} {number : Nat}
    (found : index.find? source = some number) : index.sources[number]? = some source := by
  obtain ⟨small, same, _⟩ := List.idxOf?_eq_some_iff.mp found
  rw [List.getElem?_eq_getElem small, same]

theorem getElem?_insert (source : Source) (index : SourceIndex) :
    (index.insert source).2.sources[(index.insert source).1.1]? = some source := by
  cases found : index.find? source with
  | some number =>
      rw [insert_of_mem found]
      exact getElem?_of_find? found
  | none =>
      rw [insert_of_not_mem (find?_eq_none_iff.mp found)]
      simp [add]

def insertAll (sources : List Source) (index : SourceIndex) : SourceIndex :=
  sources.foldl (fun index source => (index.insert source).2) index

@[simp] theorem insertAll_cons (source : Source) (rest : List Source) (index : SourceIndex) :
    index.insertAll (source :: rest) = (index.insert source).2.insertAll rest := rfl

theorem insert_of_mem_sources {source : Source} {index : SourceIndex}
    (known : source ∈ index.sources) : (index.insert source).2 = index := by
  cases found : index.find? source with
  | some number => rw [insert_of_mem found]
  | none => exact absurd known (find?_eq_none_iff.mp found)

theorem sources_insertAll (sources : List Source) (index : SourceIndex) :
    (index.insertAll sources).sources =
      index.sources ++ (sources.filter fun source => !index.sources.contains source).eraseDups := by
  induction sources generalizing index with
  | nil => simp [insertAll]
  | cons source rest ih =>
      rw [insertAll_cons, ih]
      by_cases known : source ∈ index.sources
      · rw [insert_of_mem_sources known, List.filter_cons_of_neg (by simp [known])]
      · rw [insert_of_not_mem known, List.filter_cons_of_pos (by simp [known]),
          List.eraseDups_cons, List.filter_filter]
        simp only [add, List.append_assoc, List.singleton_append]
        congr 4
        funext other
        by_cases same : other = source <;> simp [same]

theorem sources_prefix_insertAll (sources : List Source) (index : SourceIndex) :
    index.sources <+: (index.insertAll sources).sources := by
  rw [sources_insertAll]
  exact List.prefix_append _ _

end SourceIndex

/-- Mappings in the order of the output, no two at one place. -/
def Mapping.Before (first second : Mapping) : Prop :=
  first.line < second.line ∨ first.line = second.line ∧ first.column < second.column

namespace Site

/-- The mapping of a site, its source at its place among `sources`. -/
def IsMappedTo (sources : List Source) (site : Site) (mapping : Mapping) : Prop :=
  ∃ number position, sources[number]? = some site.origin.source ∧
    site.origin.position = .ok position ∧ mapping = site.mapping number position

theorem IsMappedTo.mono {sources more : List Source} {site : Site} {mapping : Mapping}
    (mapped : site.IsMappedTo sources mapping) (extended : sources <+: more) :
    site.IsMappedTo more mapping := by
  obtain ⟨number, position, found, located, same⟩ := mapped
  refine ⟨number, position, ?_, located, same⟩
  obtain ⟨added, rfl⟩ := extended
  obtain ⟨small, _⟩ := List.getElem?_eq_some_iff.mp found
  rw [List.getElem?_append_left small, found]

end Site

namespace Draft

theorem place_ok {disk : Disk} {site : Site} {draft after : Draft}
    (placed : draft.place disk site = (.ok (), after)) :
    after.index = (draft.index.insert site.origin.source).2 ∧
      ∃ mapping, site.IsMappedTo after.index.sources mapping ∧
        draft.encoder.put mapping = .ok after.encoder := by
  unfold place at placed
  dsimp only at placed
  split at placed
  · cases placed
  split at placed
  · cases placed
  rename_i position located
  split at placed
  · cases placed
  rename_i encoder written
  cases placed
  have found := SourceIndex.getElem?_insert site.origin.source draft.index
  exact ⟨rfl, _, ⟨_, position, found, located, rfl⟩, written⟩

theorem placeAll_ok {disk : Disk} {sites : List Site} {draft final : Draft}
    (placed : placeAll disk sites draft = (.ok (), final)) :
    final.index = draft.index.insertAll (sites.map fun site => site.origin.source) ∧
      ∃ mappings, List.Forall₂ (Site.IsMappedTo final.index.sources) sites mappings ∧
        draft.encoder.accepted mappings = mappings ∧
        final.encoder = draft.encoder.putAll mappings := by
  induction sites generalizing draft with
  | nil =>
      cases placed
      exact ⟨rfl, [], .nil, rfl, rfl⟩
  | cons site rest ih =>
      unfold placeAll at placed
      split at placed
      · cases placed
      · rename_i after first
        obtain ⟨index, mapping, mapped, written⟩ := place_ok first
        obtain ⟨finalIndex, mappings, mappedRest, noneRefused, finalEncoder⟩ := ih placed
        have extended : after.index.sources <+: final.index.sources := by
          rw [finalIndex]
          exact SourceIndex.sources_prefix_insertAll _ _
        have kept : draft.encoder.putOrKeep mapping = after.encoder := by
          simp [Encoder.putOrKeep, written]
        refine ⟨?_, mapping :: mappings, .cons (mapped.mono extended) mappedRest, ?_, ?_⟩
        · rw [finalIndex, index]
          rfl
        · simp [Encoder.accepted, written, noneRefused]
        · rw [finalEncoder, Encoder.putAll_cons, kept]

theorem pairwise_mappings {sources : List Source} {sites : List Site} {mappings : List Mapping}
    (ordered : sites.Pairwise Site.Before)
    (mapped : List.Forall₂ (Site.IsMappedTo sources) sites mappings) :
    mappings.Pairwise Mapping.Before := by
  have places : mappings.map (fun mapping => (mapping.line, mapping.column)) =
      sites.map (fun site => ((site.row : Int), (site.column : Int))) := by
    clear ordered
    induction mapped with
    | nil => rfl
    | cons first _ ih =>
        obtain ⟨_, _, _, _, rfl⟩ := first
        rw [List.map_cons, List.map_cons, ih]
        rfl
  have placed : (sites.map fun site => ((site.row : Int), (site.column : Int))).Pairwise
      fun first second => first.1 < second.1 ∨ first.1 = second.1 ∧ first.2 < second.2 := by
    rw [List.pairwise_map]
    refine ordered.imp ?_
    intro first second before
    rcases before with above | ⟨sameRow, left⟩
    · exact .inl (Int.ofNat_lt.mpr above)
    · exact .inr ⟨congrArg Nat.cast sameRow, Int.ofNat_lt.mpr left⟩
  rw [← places, List.pairwise_map] at placed
  exact placed

theorem nodup_mappings {sources : List Source} {sites : List Site} {mappings : List Mapping}
    (ordered : sites.Pairwise Site.Before)
    (mapped : List.Forall₂ (Site.IsMappedTo sources) sites mappings) : mappings.Nodup := by
  refine (pairwise_mappings ordered mapped).imp ?_
  rintro first _ before rfl
  rcases before with above | ⟨_, left⟩ <;> omega

theorem decode_placeAll {disk : Disk} {sites : List Site} {registry : Option Registry}
    {final : Draft} (ordered : sites.Pairwise Site.Before)
    (placed : placeAll disk sites { registry } = (.ok (), final)) :
    final.index.sources = (sites.map fun site => site.origin.source).eraseDups ∧
      ∃ mappings, Mapping.decode final.encoder.text = .ok mappings ∧
        List.Forall₂ (Site.IsMappedTo final.index.sources) sites mappings := by
  obtain ⟨index, mappings, mapped, noneRefused, encoder⟩ := placeAll_ok placed
  refine ⟨?_, mappings, ?_, mapped⟩
  · rw [index, SourceIndex.sources_insertAll]
    simp
  · have distinct : mappings.IsChain (· ≠ ·) := (nodup_mappings ordered mapped).isChain
    have decoded := Encoder.decode_text_putAll mappings
    rw [show Encoder.empty.accepted mappings = mappings from noneRefused,
      List.destutter_of_isChain _ _ distinct] at decoded
    rw [encoder]
    exact decoded

end Draft

/-- A map that was made lists the sources of its sites and reads back as one mapping for each. -/
theorem Document.ofLines_ok {disk : Disk} {unit : Int} {file : Option Text}
    {registry : Option Registry} {lines : List Line} {document : Document}
    (made : (ofLines disk unit file registry lines).1 = .ok document) :
    ∃ sources mappings,
      sources = ((Site.ofLines unit lines).map fun site => site.origin.source).eraseDups ∧
        document.file = file.getD ((document.sources.head?).getD []) ∧
        document.sources = sources.map Source.name ∧
        Mapping.decode document.mappings = .ok mappings ∧
        List.Forall₂ (Site.IsMappedTo sources) (Site.ofLines unit lines) mappings := by
  unfold ofLines at made
  split at made
  · rename_i draft placed
    cases made
    obtain ⟨sources, mappings, decoded, mapped⟩ :=
      Draft.decode_placeAll (Site.pairwise_ofLines unit lines) placed
    exact ⟨draft.index.sources, mappings, sources, rfl, rfl, decoded, mapped⟩
  · cases made

end CodeWriter
