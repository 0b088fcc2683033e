import CodeWriter.Program.Session

/-! An action stops at its first fault. A program that is played goes on after one. -/

namespace CodeWriter

namespace Block

def enter (block : Block) (session : Session) : Session :=
  match block with
  | .collect route _ => session.announce route
  | .brace none => session.unsettle.withBuffer session.buffer.openBrace
  | .brace (some _) => session.withBuffer session.buffer.openBrace
  | .join none => session.unsettle
  | .join (some _) => session
  | .attribute origin => session.withOrigin origin
  | .attempt => session

/-- What is left to do when an action has ended without fault. `mark` is where it started. -/
def conclude (mark : Mark) (session : Session) : Block → Outcome Reply
  | .collect _ name =>
      match session.buffer.takeBack mark with
      | .ok (text, buffer) => (.ok (.text text), (session.withBuffer buffer).saveText name text)
      | .error fault => (.error fault, session)
  | .brace width =>
      session.change
        (session.buffer.closeBrace mark (width.getD session.writer.options.width))
  | .join width =>
      session.change
        (session.buffer.joinFrom mark (width.getD session.writer.options.width))
  | .attribute _ => (.ok .nothing, session)
  | .attempt => (.ok (.caught none), session)

def recover (fault : Fault) (session : Session) : Block → Outcome Reply
  | .attempt => (.ok (.caught (some fault)), session)
  | _ => (.error fault, session)

/-- An attributed action gives back the source that was in force before it, however it ends. -/
def restore (before : Session) (after : Session) : Block → Session
  | .attribute _ => after.withOrigin before.buffer.origin
  | _ => after

def around (block : Block) (action : Session → Outcome Unit) (session : Session) :
    Outcome Reply :=
  let entered := block.enter session
  match action entered with
  | (.ok (), after) =>
      block.conclude entered.buffer.here (block.restore session after)
  | (.error fault, after) => block.recover fault (block.restore session after)

section Around

variable {block : Block} {action : Session → Outcome Unit} {session after : Session}

theorem around_of_ok (completed : action (block.enter session) = (.ok (), after)) :
    block.around action session =
      block.conclude (block.enter session).buffer.here (block.restore session after) := by
  unfold around
  dsimp only
  rw [completed]

theorem around_of_error {fault : Fault}
    (failed : action (block.enter session) = (.error fault, after)) :
    block.around action session = block.recover fault (block.restore session after) := by
  unfold around
  dsimp only
  rw [failed]

end Around

end Block

namespace Program

/-- As an action: up to the first fault. -/
def run : Program → Session → Outcome Unit
  | .done, session => (.ok (), session)
  | .step operation rest, session =>
      match operation.run session with
      | (.ok _, session) => run rest session
      | (.error fault, session) => (.error fault, session)
  | .block kind body rest, session =>
      match kind.around (run body) session with
      | (.ok _, session) => run rest session
      | (.error fault, session) => (.error fault, session)

/-- Step by step: a fault ends its step only. -/
def play : Program → Session → Session
  | .done, session => session
  | .step operation rest, session => play rest (operation.run session).2
  | .block kind body rest, session => play rest (kind.around (run body) session).2

@[simp] theorem run_done (session : Session) :
    run .done session = (.ok (), session) := rfl

theorem run_append (first second : Program) (session : Session) :
    run (first ++ second) session =
      match run first session with
      | (.ok (), session) => run second session
      | (.error fault, session) => (.error fault, session) := by
  induction first generalizing session with
  | done => rfl
  | step operation rest ih =>
      simp only [step_append, run]
      split
      · exact ih _
      · rfl
  | block kind body rest _ ih =>
      simp only [block_append, run]
      split
      · exact ih _
      · rfl

end Program

end CodeWriter
