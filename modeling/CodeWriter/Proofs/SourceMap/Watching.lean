import CodeWriter.SourceMap.Building

/-! What is remembered of the sources is left open here. A registry is one such watch. -/

namespace CodeWriter

structure Sketch (ρ : Type) where
  index : SourceIndex := {}
  encoder : Encoder := {}
  record : ρ

namespace Sketch

variable {ρ σ : Type} {watch : Source → ρ → Except Fault ρ}

def place (watch : Source → ρ → Except Fault ρ) (site : Site) (sketch : Sketch ρ) :
    Except Fault Unit × Sketch ρ :=
  let ((number, added), index) := sketch.index.insert site.origin.source
  let sketch := { sketch with index }
  match if added then watch site.origin.source sketch.record else .ok sketch.record with
  | .error fault => (.error fault, sketch)
  | .ok record =>
      let sketch := { sketch with record }
      match site.origin.position with
      | .error fault => (.error fault, sketch)
      | .ok position =>
          match sketch.encoder.put (site.mapping number position) with
          | .error fault => (.error fault, sketch)
          | .ok encoder => (.ok (), { sketch with encoder })

def placeAll (watch : Source → ρ → Except Fault ρ) :
    List Site → Sketch ρ → Except Fault Unit × Sketch ρ
  | [], sketch => (.ok (), sketch)
  | site :: rest, sketch =>
      match sketch.place watch site with
      | (.error fault, sketch) => (.error fault, sketch)
      | (.ok (), sketch) => placeAll watch rest sketch

/-- Calls of the watch in a row, up to the first one that fails. -/
def watchAll (watch : Source → ρ → Except Fault ρ) : List Source → ρ → Except Fault ρ
  | [], record => .ok record
  | source :: rest, record =>
      match watch source record with
      | .error fault => .error fault
      | .ok record => watchAll watch rest record

theorem watchAll_append {first second : List Source} {start middle : ρ}
    (called : watchAll watch first start = .ok middle) :
    watchAll watch (first ++ second) start = watchAll watch second middle := by
  induction first generalizing start with
  | nil =>
      cases called
      rfl
  | cons source rest ih =>
      unfold watchAll at called
      split at called
      · cases called
      · rename_i next watched
        rw [List.cons_append, watchAll, watched]
        exact ih called

theorem place_ok {site : Site} {sketch after : Sketch ρ}
    (placed : sketch.place watch site = (.ok (), after)) :
    ∃ added, after.index.sources = sketch.index.sources ++ added ∧
      watchAll watch added sketch.record = .ok after.record := by
  unfold place at placed
  cases found : sketch.index.find? site.origin.source with
  | some number =>
      simp only [SourceIndex.insert_of_mem found, Bool.false_eq_true, if_false] at placed
      split at placed
      · cases placed
      split at placed
      · cases placed
      cases placed
      exact ⟨[], by simp, rfl⟩
  | none =>
      have unknown := SourceIndex.find?_eq_none_iff.mp found
      simp only [SourceIndex.insert_of_not_mem unknown, if_true] at placed
      split at placed
      · cases placed
      rename_i record watched
      split at placed
      · cases placed
      split at placed
      · cases placed
      cases placed
      exact ⟨[site.origin.source], rfl, by simp [watchAll, watched]⟩

/-- The watch is called for the sources that are added to the index and for no other. -/
theorem placeAll_ok {sites : List Site} {sketch final : Sketch ρ}
    (placed : placeAll watch sites sketch = (.ok (), final)) :
    ∃ added, final.index.sources = sketch.index.sources ++ added ∧
      watchAll watch added sketch.record = .ok final.record := by
  induction sites generalizing sketch with
  | nil =>
      cases placed
      exact ⟨[], by simp, rfl⟩
  | cons site rest ih =>
      unfold placeAll at placed
      split at placed
      · cases placed
      · rename_i after first
        obtain ⟨added, sources, called⟩ := place_ok first
        obtain ⟨later, finalSources, calledLater⟩ := ih placed
        refine ⟨added ++ later, ?_, ?_⟩
        · rw [finalSources, sources, List.append_assoc]
        · rw [watchAll_append called, calledLater]

def map (forget : ρ → σ) (sketch : Sketch ρ) : Sketch σ where
  index := sketch.index
  encoder := sketch.encoder
  record := forget sketch.record

section Forgetting

variable {forget : ρ → σ} {plain : Source → σ → Except Fault σ}
  (forgets : ∀ source record, plain source (forget record) = (watch source record).map forget)
include forgets

theorem place_map (site : Site) (sketch : Sketch ρ) :
    (sketch.map forget).place plain site =
      ((sketch.place watch site).1, (sketch.place watch site).2.map forget) := by
  unfold place
  cases found : sketch.index.find? site.origin.source with
  | some number =>
      simp only [map, SourceIndex.insert_of_mem found, Bool.false_eq_true, if_false]
      split
      · rfl
      · split <;> rfl
  | none =>
      have unknown := SourceIndex.find?_eq_none_iff.mp found
      simp only [map, SourceIndex.insert_of_not_mem unknown, if_true, forgets]
      cases watch site.origin.source sketch.record with
      | error fault => rfl
      | ok record =>
          simp only [Except.map]
          split
          · rfl
          · split <;> rfl

theorem placeAll_map (sites : List Site) (sketch : Sketch ρ) :
    placeAll plain sites (sketch.map forget) =
      ((placeAll watch sites sketch).1, (placeAll watch sites sketch).2.map forget) := by
  induction sites generalizing sketch with
  | nil => rfl
  | cons site rest ih =>
      simp only [placeAll, place_map forgets]
      obtain ⟨result, after⟩ := sketch.place watch site
      cases result with
      | error fault => rfl
      | ok done => exact ih after

end Forgetting

def document (file : Option Text) (sketch : Sketch ρ) : Document where
  file := file.getD ((sketch.index.names.head?).getD [])
  sources := sketch.index.names
  mappings := sketch.encoder.text

end Sketch

def Draft.sketch (draft : Draft) : Sketch (Option Registry) where
  index := draft.index
  encoder := draft.encoder
  record := draft.registry

theorem Draft.sketch_place (disk : Disk) (site : Site) (draft : Draft) :
    draft.sketch.place (Draft.watch disk) site =
      ((draft.place disk site).1, (draft.place disk site).2.sketch) := by
  unfold Sketch.place Draft.place
  dsimp only [sketch]
  generalize (if (draft.index.insert site.origin.source).1.2 = true then
    watch disk site.origin.source draft.registry else .ok draft.registry) = watched
  cases watched with
  | error fault => rfl
  | ok registry =>
      cases site.origin.position with
      | error fault => rfl
      | ok position =>
          dsimp only
          generalize draft.encoder.put _ = written
          cases written <;> rfl

theorem Draft.sketch_placeAll (disk : Disk) (sites : List Site) (draft : Draft) :
    Sketch.placeAll (Draft.watch disk) sites draft.sketch =
      ((placeAll disk sites draft).1, (placeAll disk sites draft).2.sketch) := by
  induction sites generalizing draft with
  | nil => rfl
  | cons site rest ih =>
      simp only [placeAll, Sketch.placeAll, sketch_place]
      obtain ⟨result, after⟩ := draft.place disk site
      cases result with
      | error fault => rfl
      | ok done => exact ih after

theorem Registry.map_observe (disk : Disk) (path : Text) (registry other : Registry) :
    (registry.observe disk path).map (fun _ => ()) =
      (other.observe disk path).map fun _ => () := by
  unfold observe
  split
  · rfl
  · split <;> rfl

def Draft.watchBlindly (disk : Disk) (source : Source) :
    Option Unit → Except Fault (Option Unit)
  | none => .ok none
  | some () => ((Registry.empty.observe disk source.name).map fun _ => ()).map some

theorem Draft.watch_map_unit (disk : Disk) (source : Source) (registry : Option Registry) :
    watchBlindly disk source (registry.map fun _ => ()) =
      (watch disk source registry).map (Option.map fun _ => ()) := by
  cases registry with
  | none => rfl
  | some registry =>
      simp only [Option.map_some, watchBlindly, watch, Registry.map_observe disk _ .empty registry]
      cases registry.observe disk source.name <;> rfl

theorem Document.fst_ofLines (disk : Disk) (unit : Int) (file : Option Text)
    (registry : Option Registry) (lines : List Line) :
    (ofLines disk unit file registry lines).1 =
      let blind := Sketch.placeAll (Draft.watchBlindly disk) (Site.ofLines unit lines)
        { record := registry.map fun _ => () }
      blind.1.map fun _ => blind.2.document file := by
  have blind : Sketch.placeAll (Draft.watchBlindly disk) (Site.ofLines unit lines)
        { record := registry.map fun _ => () } = _ :=
    Sketch.placeAll_map (Draft.watch_map_unit disk) (Site.ofLines unit lines)
      (Draft.sketch { registry })
  rw [blind, Draft.sketch_placeAll]
  unfold ofLines
  cases Draft.placeAll disk (Site.ofLines unit lines) { registry } with
  | mk result draft => cases result <;> rfl

theorem Document.fst_ofLines_some (disk : Disk) (unit : Int) (file : Option Text)
    (registry other : Registry) (lines : List Line) :
    (ofLines disk unit file (some registry) lines).1 =
      (ofLines disk unit file (some other) lines).1 := by
  rw [fst_ofLines, fst_ofLines]
  rfl

end CodeWriter
