import CodeWriter.Freshness.Registry

/-! Every path has one entry, so the order of the questions does not matter. -/

namespace CodeWriter

theorem Time.max_choice (first second : Time) :
    max first second = first ∨ max first second = second := by
  show (if first ≤ second then second else first) = first ∨
    (if first ≤ second then second else first) = second
  split
  · exact .inr rfl
  · exact .inl rfl

namespace Disk

/-- Every file can be asked for its time, also where it turns out to have none. -/
def Askable (disk : Disk) : Prop :=
  ∀ entry ∈ disk.files, entry.2 ≠ .malformedPath

def modified? (disk : Disk) (path : Text) : Option Time :=
  match disk.state path with
  | .modified time => some time
  | _ => none

theorem modified?_eq_some_iff {disk : Disk} {path : Text} {time : Time} :
    disk.modified? path = some time ↔ disk.state path = .modified time := by
  unfold modified?
  cases disk.state path <;> simp

theorem Askable.state {disk : Disk} (askable : disk.Askable) (path : Text) :
    disk.state path ≠ .malformedPath := by
  unfold Disk.state
  cases found : disk.files.lookup path with
  | none => simp
  | some state =>
      obtain ⟨before, after, split, _⟩ := List.lookup_eq_some_iff.mp found
      exact askable (path, state) (by simp [split])

theorem Askable.time? {disk : Disk} (askable : disk.Askable) (path : Text) :
    disk.time? path = .ok (disk.modified? path) := by
  have answered := askable.state path
  unfold Disk.time? modified?
  cases state : disk.state path with
  | modified time => rfl
  | unreadable => rfl
  | malformedPath => exact absurd state answered

theorem Askable.put {disk : Disk} (askable : disk.Askable) {state : FileState}
    (answers : state ≠ .malformedPath) (path : Text) : (disk.put path state).Askable := by
  intro entry member
  rcases List.mem_cons.mp member with rfl | known
  · exact answers
  · exact askable entry known

theorem Askable.putAll {disk : Disk} (askable : disk.Askable) {files : List (Text × FileState)}
    (answer : ∀ entry ∈ files, entry.2 ≠ .malformedPath) :
    (files.foldl (fun disk entry => disk.put entry.1 entry.2) disk).Askable := by
  induction files generalizing disk with
  | nil => exact askable
  | cons entry rest ih =>
      obtain ⟨first, later⟩ := List.forall_mem_cons.mp answer
      exact ih (askable.put first entry.1) later

end Disk

namespace Registry

/-- No path has two entries. -/
def Distinct (registry : Registry) : Prop :=
  (registry.times.map Prod.fst).Nodup

theorem fst_of_mem_insert {path : Text} {time : Time} {times : List (Text × Time)} {known : Text}
    (member : known ∈ (insert path time times).map Prod.fst) :
    known = path ∨ known ∈ times.map Prod.fst := by
  induction times with
  | nil => simpa [insert] using member
  | cons entry rest ih =>
      obtain ⟨other, old⟩ := entry
      unfold insert at member
      split at member
      · rcases List.mem_cons.mp member with same | later
        · exact .inl same
        · exact .inr (List.mem_cons_of_mem _ later)
      · rcases List.mem_cons.mp member with same | later
        · exact .inr (by simp [same])
        · exact (ih later).imp id (List.mem_cons_of_mem _)

theorem nodup_insert (path : Text) (time : Time) {times : List (Text × Time)}
    (distinct : (times.map Prod.fst).Nodup) : ((insert path time times).map Prod.fst).Nodup := by
  induction times with
  | nil => simp [insert]
  | cons entry rest ih =>
      obtain ⟨known, old⟩ := entry
      rw [List.map_cons, List.nodup_cons] at distinct
      obtain ⟨fresh, distinctRest⟩ := distinct
      unfold insert
      split
      · rename_i same
        subst same
        exact List.nodup_cons.mpr ⟨fresh, distinctRest⟩
      · rename_i different
        refine List.nodup_cons.mpr ⟨?_, ih distinctRest⟩
        intro again
        rcases fst_of_mem_insert again with same | member
        · exact different same
        · exact fresh member

theorem insert_eq_self {path : Text} {time : Time} {times : List (Text × Time)}
    (known : times.lookup path = some time) : insert path time times = times := by
  induction times with
  | nil => cases known
  | cons entry rest ih =>
      obtain ⟨other, old⟩ := entry
      by_cases same : other = path
      · subst same
        have present : old = time := by simpa using known
        simp [insert, present]
      · rw [List.lookup_cons, beq_false_of_ne (Ne.symm same)] at known
        simp [insert, same, ih known]

theorem mem_times_iff {registry : Registry} (distinct : registry.Distinct) {path : Text}
    {time : Time} : (path, time) ∈ registry.times ↔ registry.time? path = some time := by
  obtain ⟨times⟩ := registry
  unfold Distinct at distinct
  unfold time?
  induction times with
  | nil => simp
  | cons entry rest ih =>
      obtain ⟨other, old⟩ := entry
      rw [List.map_cons, List.nodup_cons] at distinct
      by_cases same : path = other
      · subst same
        have unlisted : (path, time) ∉ rest :=
          fun member => distinct.1 (List.mem_map.mpr ⟨(path, time), member, rfl⟩)
        simp [unlisted, eq_comm]
      · simp [List.lookup_cons, beq_false_of_ne same, same, ih distinct.2]

def remember (disk : Disk) (path : Text) (registry : Registry) : Registry :=
  if path.isEmpty then registry
  else
    match disk.modified? path.normalizePath with
    | some time => ⟨insert path.normalizePath time registry.times⟩
    | none => registry

theorem observe_of_askable {disk : Disk} (askable : disk.Askable) (path : Text)
    (registry : Registry) :
    (registry.observe disk path).map Prod.fst = .ok (registry.remember disk path) := by
  unfold observe remember
  split
  · rfl
  · rw [askable.time?]
    cases disk.modified? path.normalizePath <;> rfl

theorem Distinct.remember {registry : Registry} (distinct : registry.Distinct) (disk : Disk)
    (path : Text) : (registry.remember disk path).Distinct := by
  unfold Registry.remember
  split
  · exact distinct
  · split
    · exact nodup_insert _ _ distinct
    · exact distinct

theorem time?_remember (disk : Disk) (name path : Text) (registry : Registry) :
    (registry.remember disk name).time? path =
      (if name ≠ [] ∧ name.normalizePath = path then disk.modified? path else none).or
        (registry.time? path) := by
  unfold remember
  by_cases unnamed : name = []
  · simp [unnamed]
  by_cases same : name.normalizePath = path
  · subst same
    cases disk.modified? name.normalizePath <;> simp [unnamed, time?]
  · cases disk.modified? name.normalizePath <;>
      simp [unnamed, same, time?, lookup_insert_other _ (Ne.symm same)]

/-- The present time of the file is what is remembered for it, so there is nothing to gain from
asking again. -/
def Knows (disk : Disk) (name : Text) (registry : Registry) : Prop :=
  ∀ time, name ≠ [] → disk.modified? name.normalizePath = some time →
    registry.time? name.normalizePath = some time

theorem remember_of_knows {disk : Disk} {name : Text} {registry : Registry}
    (knows : registry.Knows disk name) : registry.remember disk name = registry := by
  unfold remember
  split
  · rfl
  · rename_i named
    split
    · rename_i time seen
      rw [insert_eq_self (knows time (by simpa using named) seen)]
    · rfl

theorem knows_remember (disk : Disk) (name : Text) (registry : Registry) :
    (registry.remember disk name).Knows disk name := by
  intro time named seen
  simp [time?_remember, named, seen]

theorem Knows.remember {disk : Disk} {name : Text} {registry : Registry}
    (knows : registry.Knows disk name) (other : Text) :
    (registry.remember disk other).Knows disk name := by
  intro time named seen
  rw [time?_remember, knows time named seen]
  split <;> simp [seen]

theorem unchanged_eq_all {disk : Disk} (askable : disk.Askable) (times : List (Text × Time)) :
    unchanged disk times =
      .ok (times.all fun entry => disk.modified? entry.1 == some entry.2) := by
  induction times with
  | nil => rfl
  | cons entry rest ih =>
      obtain ⟨path, seen⟩ := entry
      rw [unchanged, askable.time?, List.all_cons]
      cases disk.modified? path with
      | none => rfl
      | some time =>
          by_cases same : time = seen
          · simp [same, ih]
          · simp [same]

theorem isFresh_of_askable {disk : Disk} (askable : disk.Askable) {registry : Registry}
    (distinct : registry.Distinct) :
    ∃ fresh, registry.isFresh disk = .ok fresh ∧
      (fresh = true ↔ (∃ path time, registry.time? path = some time) ∧
        ∀ path time, registry.time? path = some time → disk.state path = .modified time) := by
  simp only [← mem_times_iff distinct, ← Disk.modified?_eq_some_iff]
  unfold isFresh
  split
  · rename_i noTimes
    refine ⟨false, rfl, ?_⟩
    simp [List.isEmpty_iff.mp noTimes]
  · rename_i tracked
    refine ⟨_, unchanged_eq_all askable registry.times, ?_⟩
    have remembered : ∃ path time, (path, time) ∈ registry.times := by
      obtain ⟨entry, rest, split⟩ := List.exists_cons_of_ne_nil (by simpa using tracked)
      exact ⟨entry.1, entry.2, by simp [split]⟩
    simp [remembered]

theorem newest_of_empty (disk : Disk) {registry : Registry} (distinct : registry.Distinct)
    (forgotten : ∀ path, registry.time? path = none) : registry.newest disk = disk.now := by
  have nothing : registry.times = [] := by
    rw [List.eq_nil_iff_forall_not_mem]
    rintro ⟨path, time⟩ member
    rw [mem_times_iff distinct, forgotten] at member
    cases member
  simp [newest, nothing]

theorem foldl_max (times : List (Text × Time)) (start : Time) :
    let newest := times.foldl (fun newest entry => max newest entry.2) start
    (newest = start ∨ ∃ entry ∈ times, newest = entry.2) ∧
      start ≤ newest ∧ ∀ entry ∈ times, entry.2 ≤ newest := by
  induction times generalizing start with
  | nil => simp [Time.le_iff]
  | cons entry rest ih =>
      obtain ⟨among, above, bound⟩ := ih (max start entry.2)
      rw [Time.le_iff, Time.ticks_max, Int.max_le] at above
      refine ⟨?_, above.1, ?_⟩
      · rcases among with same | ⟨later, member, same⟩
        · rcases Time.max_choice start entry.2 with first | second
          · exact .inl (same.trans first)
          · exact .inr ⟨entry, by simp, same.trans second⟩
        · exact .inr ⟨later, by simp [member], same⟩
      · intro other member
        rcases List.mem_cons.mp member with rfl | later
        · exact above.2
        · exact bound other later

theorem newest_of_mem {registry : Registry} (disk : Disk) (distinct : registry.Distinct)
    (tracked : ∃ path time, registry.time? path = some time) :
    (∃ path, registry.time? path = some (registry.newest disk)) ∧
      ∀ path time, registry.time? path = some time → time ≤ registry.newest disk := by
  simp only [← mem_times_iff distinct] at tracked ⊢
  obtain ⟨path, time, member⟩ := tracked
  obtain ⟨entry, rest, split⟩ := List.exists_cons_of_ne_nil (List.ne_nil_of_mem member)
  obtain ⟨among, above, bound⟩ := foldl_max rest entry.2
  have folded : registry.newest disk =
      rest.foldl (fun newest entry => max newest entry.2) entry.2 := by
    simp [newest, split]
  rw [folded, split]
  constructor
  · rcases among with first | ⟨later, member, same⟩
    · exact ⟨entry.1, by simp [first]⟩
    · exact ⟨later.1, by simp [same, member]⟩
  · intro other seen member
    rcases List.mem_cons.mp member with same | later
    · exact congrArg Prod.snd same ▸ above
    · exact bound (other, seen) later

end Registry

end CodeWriter
