import CodeWriter.Proofs.Freshness.Remembering
import CodeWriter.Proofs.SourceMap.Targets

/-! A map that cannot be made stops behind the source that it is refused for. -/

namespace CodeWriter

/-- The span starts behind the end of its source, so it has no position. -/
def Origin.Dangling (origin : Origin) : Prop :=
  origin.source.text.length < origin.span.start

instance (origin : Origin) : Decidable origin.Dangling :=
  inferInstanceAs (Decidable (_ < _))

/-- The sources of the origins, up to the first one that has no position, and that one too. -/
def Origin.registered : List Origin → List Source
  | [] => []
  | origin :: rest => origin.source :: if origin.Dangling then [] else registered rest

/-- The present time of the file, if it is the file of one of the sources. -/
def Disk.timeAmong (sources : List Source) (path : Text) (disk : Disk) : Option Time :=
  if ∃ source ∈ sources, source.name ≠ [] ∧ source.name.normalizePath = path then
    disk.modified? path
  else none

theorem Disk.timeAmong_cons (source : Source) (rest : List Source) (path : Text) (disk : Disk) :
    disk.timeAmong (source :: rest) path =
      (disk.timeAmong rest path).or
        (if source.name ≠ [] ∧ source.name.normalizePath = path then disk.modified? path
          else none) := by
  simp only [timeAmong, List.exists_mem_cons_iff]
  by_cases later : ∃ other ∈ rest, other.name ≠ [] ∧ other.name.normalizePath = path
  · rw [if_pos later, if_pos (.inr later)]
    split <;> simp
  · rw [if_neg later, Option.none_or]
    simp only [later, or_false]

namespace Registry

def rememberAll (disk : Disk) (sources : List Source) (registry : Registry) : Registry :=
  sources.foldl (fun registry source => registry.remember disk source.name) registry

theorem Distinct.rememberAll {registry : Registry} (distinct : registry.Distinct) (disk : Disk)
    (sources : List Source) : (registry.rememberAll disk sources).Distinct := by
  induction sources generalizing registry with
  | nil => exact distinct
  | cons source rest ih => exact ih (distinct.remember disk source.name)

theorem time?_rememberAll (disk : Disk) (sources : List Source) (registry : Registry)
    (path : Text) :
    (registry.rememberAll disk sources).time? path =
      (disk.timeAmong sources path).or (registry.time? path) := by
  induction sources generalizing registry with
  | nil => simp [rememberAll, Disk.timeAmong]
  | cons source rest ih =>
      have first : registry.rememberAll disk (source :: rest) =
          (registry.remember disk source.name).rememberAll disk rest := rfl
      rw [first, ih, time?_remember, Disk.timeAmong_cons, Option.or_assoc]

end Registry

theorem Site.fault?_eq_none_iff {disk : Disk} (askable : disk.Askable) (watched : Bool)
    {site : Site} : site.fault? disk watched = none ↔ ¬site.origin.Dangling := by
  have watchable : site.origin.source.isUnwatchable disk = false := by
    simp [Source.isUnwatchable, askable.state]
  simp [fault?, watchable, Origin.Dangling]

namespace Draft

theorem watch_of_askable {disk : Disk} (askable : disk.Askable) (source : Source)
    (registry : Registry) :
    watch disk source (some registry) = .ok (some (registry.remember disk source.name)) := by
  have answered := registry.observe_of_askable askable source.name
  unfold watch
  cases asked : registry.observe disk source.name with
  | error fault =>
      rw [asked] at answered
      cases answered
  | ok seen =>
      rw [asked] at answered
      have same : seen.1 = registry.remember disk source.name := Except.ok.inj answered
      simp [asked, Except.map, same]

/-- The registry of the draft, which knows the files of all its sources. -/
structure Knows (disk : Disk) (registry : Registry) (draft : Draft) : Prop where
  held : draft.registry = some registry
  sources : ∀ source ∈ draft.index.sources, registry.Knows disk source.name

theorem place_of_watched {disk : Disk} {site : Site} {draft : Draft} {registry : Option Registry}
    (watched : (if (draft.index.insert site.origin.source).1.2 then
      watch disk site.origin.source draft.registry else .ok draft.registry) = .ok registry) :
    (draft.place disk site).2.index = (draft.index.insert site.origin.source).2 ∧
      (draft.place disk site).2.registry = registry := by
  simp only [Draft.place, watched]
  split
  · exact ⟨rfl, rfl⟩
  · split <;> exact ⟨rfl, rfl⟩

theorem Knows.watched {disk : Disk} (askable : disk.Askable) {registry : Registry} {draft : Draft}
    (knows : draft.Knows disk registry) (source : Source) :
    (if (draft.index.insert source).1.2 then watch disk source draft.registry
      else .ok draft.registry) = .ok (some (registry.remember disk source.name)) := by
  rw [knows.held]
  cases found : draft.index.find? source with
  | some number =>
      have member := List.mem_of_getElem? (SourceIndex.getElem?_of_find? found)
      simp [SourceIndex.insert_of_mem found, Registry.remember_of_knows (knows.sources _ member)]
  | none =>
      have unknown := SourceIndex.find?_eq_none_iff.mp found
      simp [SourceIndex.insert_of_not_mem unknown, watch_of_askable askable]

theorem Knows.place {disk : Disk} (askable : disk.Askable) {registry : Registry} {draft : Draft}
    (knows : draft.Knows disk registry) (site : Site) :
    (draft.place disk site).2.Knows disk
      (registry.remember disk site.origin.source.name) := by
  obtain ⟨index, held⟩ := place_of_watched (knows.watched askable site.origin.source)
  refine ⟨held, ?_⟩
  intro source member
  rw [index] at member
  rcases mem_sources_insert member with known | rfl
  · exact (knows.sources source known).remember _
  · exact registry.knows_remember disk _

theorem registry_placeAll {disk : Disk} (askable : disk.Askable) {sites : List Site}
    {draft : Draft} {registry : Registry} (awaits : draft.Awaits disk sites)
    (ordered : sites.Pairwise Site.Before) (knows : draft.Knows disk registry) :
    (placeAll disk sites draft).2.registry =
      some (registry.rememberAll disk (Origin.registered (sites.map Site.origin))) := by
  induction sites generalizing draft registry with
  | nil => exact knows.held
  | cons site rest ih =>
      obtain ⟨first, later⟩ := List.pairwise_cons.mp ordered
      have placed := knows.place askable site
      rw [List.map_cons, Origin.registered]
      cases faulty : site.fault? disk draft.registry.isSome with
      | some fault =>
          have dangling : site.origin.Dangling := by
            by_contra located
            rw [(Site.fault?_eq_none_iff askable _).mpr located] at faulty
            cases faulty
          have failed := place_of_fault awaits faulty
          rw [if_pos dangling, placeAll]
          split
          · rename_i reported after stopped
            rw [stopped] at placed
            exact placed.held
          · rename_i after done
            rw [done] at failed
            cases failed
      | none =>
          have located := (Site.fault?_eq_none_iff askable _).mp faulty
          obtain ⟨after, done, _, awaitsRest⟩ := place_of_no_fault awaits first faulty
          rw [done] at placed
          rw [if_neg located, placeAll, done]
          exact ih awaitsRest later placed

end Draft

/-- A request for a map remembers the files of the mentioned sources as far as it gets. -/
theorem Document.ofLines_snd {disk : Disk} (askable : disk.Askable) (unit : Int)
    (file : Option Text) (registry : Registry) (lines : List Line) :
    (ofLines disk unit file (some registry) lines).2 =
      some (registry.rememberAll disk
        (Origin.registered (lines.flatMap (Line.reading Token.mentioned)))) := by
  have placed := Draft.registry_placeAll askable
    (Draft.awaits_start disk (some registry) (Site.ofLines unit lines))
    (Site.pairwise_ofLines unit lines) ⟨rfl, fun _ member => nomatch member⟩
  rw [Site.map_origin_ofLines] at placed
  rw [← placed]
  unfold ofLines
  split <;> rename_i done <;> rw [done]

end CodeWriter
