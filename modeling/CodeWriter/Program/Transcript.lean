import CodeWriter.Program.Run

namespace CodeWriter

structure TranscriptEntry where
  /-- The indices from the outermost program to the step. -/
  path : List Nat
  result : Except Fault Reply
  session : Session
deriving Repr

namespace Program

/-- The entries of an action that stands at `path`, from its step `index` on. -/
def actionEntries (path : List Nat) : Nat → Program → Session → List TranscriptEntry
  | _, .done, _ => []
  | index, .step operation rest, session =>
      let (result, after) := operation.run session
      let entry : TranscriptEntry := { path := path ++ [index], result, session := after }
      match result with
      | .ok _ => entry :: actionEntries path (index + 1) rest after
      | .error _ => [entry]
  | index, .block kind body rest, session =>
      let (result, after) := kind.around (run body) session
      let entry : TranscriptEntry := { path := path ++ [index], result, session := after }
      actionEntries (path ++ [index]) 0 body (kind.enter session) ++
        match result with
        | .ok _ => entry :: actionEntries path (index + 1) rest after
        | .error _ => [entry]

def entriesFrom : Nat → Program → Session → List TranscriptEntry
  | _, .done, _ => []
  | index, .step operation rest, session =>
      let (result, after) := operation.run session
      { path := [index], result, session := after } :: entriesFrom (index + 1) rest after
  | index, .block kind body rest, session =>
      let (result, after) := kind.around (run body) session
      actionEntries [index] 0 body (kind.enter session) ++
        { path := [index], result, session := after } :: entriesFrom (index + 1) rest after

def transcript (program : Program) (session : Session) : List TranscriptEntry :=
  entriesFrom 0 program session

end Program

end CodeWriter
