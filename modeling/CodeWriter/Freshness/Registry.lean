import CodeWriter.Fault
import CodeWriter.Freshness.Path
import CodeWriter.Freshness.Time

namespace CodeWriter

/-- What asking for the modification time of a file gives. -/
inductive FileState where
  | modified (time : Time)
  | unreadable
  | malformedPath
deriving DecidableEq, Repr, Inhabited

/-- The files by normal path, the first entry of a path counting, and the clock. -/
structure Disk where
  files : List (Text × FileState) := []
  now : Time := ⟨0⟩
deriving DecidableEq, Repr

namespace Disk

def state (disk : Disk) (path : Text) : FileState :=
  (disk.files.lookup path).getD .unreadable

def put (disk : Disk) (path : Text) (state : FileState) : Disk :=
  { disk with files := (path, state) :: disk.files }

/-- The modification time of a readable file; an unreadable one has none, and a path that no file
can have is a fault. -/
def time? (disk : Disk) (path : Text) : Except Fault (Option Time) :=
  match disk.state path with
  | .modified time => .ok (some time)
  | .unreadable => .ok none
  | .malformedPath => .error .nullInPath

@[simp] theorem state_put_self (disk : Disk) (path : Text) (state : FileState) :
    (disk.put path state).state path = state := by
  simp [put, Disk.state]

theorem state_put_other (disk : Disk) {path other : Text} (state : FileState)
    (different : other ≠ path) :
    (disk.put path state).state other = disk.state other := by
  simp [put, Disk.state, List.lookup_cons, beq_false_of_ne different]

end Disk

/-- The times seen, by normal path, in the order of first sight. -/
structure Registry where
  times : List (Text × Time) := []
deriving DecidableEq, Repr

namespace Registry

def empty : Registry := {}

def size (registry : Registry) : Nat :=
  registry.times.length

def time? (registry : Registry) (path : Text) : Option Time :=
  registry.times.lookup path

/-- The empty path is the current directory here. -/
def contains (registry : Registry) (path : Text) : Bool :=
  (registry.time? path.normalizePath).isSome

/-- A path that is there keeps its place. -/
def insert (path : Text) (time : Time) : List (Text × Time) → List (Text × Time)
  | [] => [(path, time)]
  | (known, old) :: rest =>
      if known = path then (path, time) :: rest else (known, old) :: insert path time rest

/-- Remember the present time of a file. The empty path and unreadable files are passed over. -/
def observe (disk : Disk) (path : Text) (registry : Registry) :
    Except Fault (Registry × Option Time) :=
  if path.isEmpty then .ok (registry, none)
  else
    match disk.time? path.normalizePath with
    | .error fault => .error fault
    | .ok none => .ok (registry, none)
    | .ok (some time) => .ok (⟨insert path.normalizePath time registry.times⟩, some time)

/-- Files are asked in order, and the first one that has changed or gone settles it. -/
def unchanged (disk : Disk) : List (Text × Time) → Except Fault Bool
  | [] => .ok true
  | (path, seen) :: rest =>
      match disk.time? path with
      | .error fault => .error fault
      | .ok none => .ok false
      | .ok (some time) => if time = seen then unchanged disk rest else .ok false

/-- An output of no file is never fresh. -/
def isFresh (disk : Disk) (registry : Registry) : Except Fault Bool :=
  if registry.times.isEmpty then .ok false else unchanged disk registry.times

/-- The newest time seen; the clock when nothing was seen. -/
def newest (disk : Disk) (registry : Registry) : Time :=
  match registry.times with
  | [] => disk.now
  | (_, time) :: rest => rest.foldl (fun newest entry => max newest entry.2) time

@[simp] theorem lookup_insert_self (path : Text) (time : Time) (times : List (Text × Time)) :
    (insert path time times).lookup path = some time := by
  induction times with
  | nil => simp [insert]
  | cons entry rest ih =>
      obtain ⟨known, old⟩ := entry
      by_cases same : known = path
      · simp [insert, same]
      · simp [insert, same, List.lookup_cons, beq_false_of_ne (Ne.symm same), ih]

theorem lookup_insert_other {path other : Text} (time : Time) (different : other ≠ path)
    (times : List (Text × Time)) :
    (insert path time times).lookup other = times.lookup other := by
  induction times with
  | nil => simp [insert, List.lookup_cons, beq_false_of_ne different]
  | cons entry rest ih =>
      obtain ⟨known, old⟩ := entry
      by_cases same : known = path
      · subst same
        simp [insert, List.lookup_cons, beq_false_of_ne different]
      · simp [insert, same, List.lookup_cons, ih]

end Registry

end CodeWriter
