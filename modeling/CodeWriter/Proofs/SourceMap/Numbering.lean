import CodeWriter.Proofs.SourceMap.Exactness

namespace CodeWriter

/-- Sources as they exist beside each other: no two of them have one `id`. -/
def Source.Coexist (sources : List Source) : Prop :=
  ∀ first ∈ sources, ∀ second ∈ sources, first.id = second.id → first = second

namespace SourceIndex

theorem find?_of_grown {source : Source} {index more : SourceIndex} {number : Nat}
    (grown : index.sources <+: more.sources) (found : index.find? source = some number) :
    more.find? source = some number := by
  obtain ⟨added, split⟩ := grown
  unfold find? List.idxOf? at found ⊢
  rw [← split, List.findIdx?_append, found, Option.some_or]

theorem find?_insert (source : Source) (index : SourceIndex) :
    (index.insert source).2.find? source = some (index.insert source).1.1 := by
  cases found : index.find? source with
  | some number => rw [insert_of_mem found, found]
  | none =>
      rw [insert_of_not_mem (find?_eq_none_iff.mp found)]
      unfold find? List.idxOf? at found ⊢
      rw [add, List.findIdx?_append, found]
      simp

theorem eq_of_find?_eq {first second : Source} {index : SourceIndex} {number : Nat}
    (firstFound : index.find? first = some number)
    (secondFound : index.find? second = some number) : first = second := by
  have same := (getElem?_of_find? firstFound).symm.trans (getElem?_of_find? secondFound)
  exact Option.some.inj same

theorem map_find?_sources {index : SourceIndex} (distinct : index.sources.Nodup) :
    index.sources.map index.find? = (List.range index.sources.length).map some := by
  refine List.ext_getElem (by simp) ?_
  intro number small _
  rw [List.length_map] at small
  rw [List.getElem_map, List.getElem_map, List.getElem_range]
  refine List.idxOf?_eq_some_iff.mpr ⟨small, rfl, ?_⟩
  intro earlier before same
  have := (distinct.getElem_inj_iff).mp same
  omega

theorem find?_eq_findIdx?_id {source : Source} {index : SourceIndex}
    (coexist : Source.Coexist (source :: index.sources)) :
    index.find? source = index.sources.findIdx? fun known => known.id = source.id := by
  have decides : ∀ known ∈ index.sources, (known == source) = decide (known.id = source.id) := by
    intro known member
    have told := coexist known (List.mem_cons_of_mem _ member) source List.mem_cons_self
    by_cases same : known = source
    · simp [same]
    · have apart : known.id ≠ source.id := fun one => same (told one)
      simp [same, apart]
  unfold find? List.idxOf?
  generalize index.sources = sources at decides ⊢
  induction sources with
  | nil => rfl
  | cons known rest ih =>
      rw [List.findIdx?_cons, List.findIdx?_cons, decides known List.mem_cons_self,
        ih fun other member => decides other (List.mem_cons_of_mem _ member)]

/-- An insertion gives the source a number if it has none. -/
inductive Call
  | insert (source : Source)
  | find (source : Source)
deriving DecidableEq, Repr

/-- The number of the source, if it has one, and whether the call gave it that number. -/
structure Reply where
  number? : Option Nat
  added : Bool
deriving DecidableEq, Repr

namespace Call

def source : Call → Source
  | insert source => source
  | find source => source

def inserted? : Call → Option Source
  | insert source => some source
  | find _ => none

/-- What was inserted by the calls, in their order and as often as it was. -/
def inserted (calls : List Call) : List Source :=
  calls.filterMap inserted?

def reply : Call → SourceIndex → Reply × SourceIndex
  | insert source, index =>
      let ((number, added), index) := index.insert source
      (⟨some number, added⟩, index)
  | find source, index => (⟨index.find? source, false⟩, index)

theorem sources_prefix_reply (call : Call) (index : SourceIndex) :
    index.sources <+: (call.reply index).2.sources := by
  cases call with
  | insert source => exact sources_prefix_insertAll [source] index
  | find source => exact List.prefix_rfl

theorem reply_of_find? {call : Call} {index : SourceIndex} {number : Nat}
    (found : index.find? call.source = some number) :
    call.reply index = (⟨some number, false⟩, index) := by
  cases call with
  | insert source =>
      have known : index.find? source = some number := found
      simp only [reply, insert_of_mem known]
  | find source =>
      have known : index.find? source = some number := found
      simp only [reply, known]

theorem find?_of_reply {call : Call} {index : SourceIndex} {number : Nat}
    (replied : (call.reply index).1.number? = some number) :
    (call.reply index).2.find? call.source = some number := by
  cases call with
  | insert source => exact (find?_insert source index).trans replied
  | find source => exact replied

theorem reply_ne_of_find? {call : Call} {source : Source} {index : SourceIndex} {number : Nat}
    (taken : index.find? source = some number) (other : call.source ≠ source) :
    (call.reply index).1.number? ≠ some number := by
  intro same
  have kept := find?_of_grown (call.sources_prefix_reply index) taken
  exact other (eq_of_find?_eq (find?_of_reply same) kept)

end Call

def after (calls : List Call) (index : SourceIndex) : SourceIndex :=
  calls.foldl (fun index call => (call.reply index).2) index

theorem after_append (first second : List Call) (index : SourceIndex) :
    index.after (first ++ second) = (index.after first).after second :=
  List.foldl_append

theorem sources_prefix_after (calls : List Call) (index : SourceIndex) :
    index.sources <+: (index.after calls).sources := by
  induction calls generalizing index with
  | nil => exact List.prefix_rfl
  | cons call rest ih => exact (call.sources_prefix_reply index).trans (ih _)

theorem after_eq_insertAll (calls : List Call) (index : SourceIndex) :
    index.after calls = index.insertAll (Call.inserted calls) := by
  induction calls generalizing index with
  | nil => rfl
  | cons call rest ih =>
      cases call with
      | insert source => exact ih (index.insert source).2
      | find source => exact ih index

theorem sources_after_empty (calls : List Call) :
    (empty.after calls).sources = (Call.inserted calls).eraseDups := by
  rw [after_eq_insertAll, sources_insertAll]
  simp [empty]

theorem find?_after_empty_eq_none_iff (calls : List Call) (source : Source) :
    (empty.after calls).find? source = none ↔ source ∉ Call.inserted calls := by
  rw [find?_eq_none_iff, sources_after_empty, List.mem_eraseDups]

theorem insert_added_iff (source : Source) (index : SourceIndex) :
    (index.insert source).1.2 = true ↔ index.find? source = none := by
  cases found : index.find? source with
  | some number => simp [insert_of_mem found]
  | none => simp [insert_of_not_mem (find?_eq_none_iff.mp found)]

/-- The number is the number of the source in the table, for every call, and of no other source. -/
structure Assigns (table : SourceIndex) (source : Source) (number : Nat) : Prop where
  placed : table.sources[number]? = some source
  named : table.names[number]? = some source.name
  answered : ∀ call : Call, call.source = source → call.reply table = (⟨some number, false⟩, table)
  exclusive : ∀ call : Call, call.source ≠ source → (call.reply table).1.number? ≠ some number

theorem assigns_of_find? {table : SourceIndex} {source : Source} {number : Nat}
    (found : table.find? source = some number) : table.Assigns source number where
  placed := getElem?_of_find? found
  named := by rw [names, List.getElem?_map, getElem?_of_find? found, Option.map_some]
  answered := by
    rintro call rfl
    exact Call.reply_of_find? found
  exclusive := fun _ other => Call.reply_ne_of_find? found other

theorem assigns_after_insert (index : SourceIndex) (source : Source) (later : List Call) :
    ((index.insert source).2.after later).Assigns source (index.insert source).1.1 := by
  have grown := sources_prefix_after later (index.insert source).2
  exact assigns_of_find? (find?_of_grown grown (find?_insert source index))

/-- A source is added by its first insertion, and the number of an insertion is its number ever
after. The sources in the table have the numbers from zero on, in the order of first insertion. A
source has none exactly if it was never inserted, and to ask for it makes no difference to what
comes later. All this goes by the `id` of the sources alone, where sources coexist. -/
theorem number_stays_with_source (before later : List Call) (source : Source) :
    let index := empty.after before
    let number := (index.insert source).1.1
    let added := (index.insert source).1.2
    (added = true ↔ source ∉ Call.inserted before) ∧
      (empty.after (before ++ .insert source :: later)).Assigns source number ∧
      index.sources = (Call.inserted before).eraseDups ∧
      index.sources.map index.find? = (List.range index.sources.length).map some ∧
      (index.find? source = none ↔ source ∉ Call.inserted before) ∧
      empty.after (before ++ .find source :: later) = empty.after (before ++ later) ∧
      (Source.Coexist (source :: Call.inserted before) →
        index.find? source = index.sources.findIdx? fun known => known.id = source.id) := by
  intro index number added
  have listed : index.sources = (Call.inserted before).eraseDups := sources_after_empty before
  have unknown : index.find? source = none ↔ source ∉ Call.inserted before :=
    find?_after_empty_eq_none_iff before source
  refine ⟨(insert_added_iff source index).trans unknown, ?_, listed, ?_, unknown, ?_, ?_⟩
  · rw [after_append]
    exact assigns_after_insert index source later
  · exact map_find?_sources (listed ▸ nodup_eraseDups _)
  · rw [after_append, after_append]
    rfl
  · intro coexist
    apply find?_eq_findIdx?_id
    intro first firstMember second secondMember
    simp only [listed, List.mem_cons, List.mem_eraseDups] at firstMember secondMember
    exact coexist first (List.mem_cons.mpr firstMember) second (List.mem_cons.mpr secondMember)

/-- Of two sources of one name and text each has a number of its own. -/
example :
    let first : Source := ⟨0, ['a'], ['x']⟩
    let second : Source := ⟨1, ['a'], ['x']⟩
    let table := empty.after [.find second, .insert first, .insert second, .insert first]
    table.find? first = some 0 ∧ table.find? second = some 1 ∧ table.names = [['a'], ['a']] := by
  decide

end SourceIndex

end CodeWriter
