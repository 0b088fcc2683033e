import CodeWriter.Proofs.Program.Appending
import CodeWriter.Proofs.Program.Settling

namespace CodeWriter

theorem Writer.settings_settle (writer : Writer) :
    writer.settle.buffer.settings = writer.buffer.settings := by
  unfold settle
  split <;> rfl

theorem Delivery.settings_run (request : Delivery) (session : Session) :
    (request.run session).2.buffer.settings = session.buffer.settings := by
  rcases request.session_run session with same | ⟨registry, same⟩
  · rw [same]
  · rw [same]
    exact Writer.settings_settle session.writer

theorem Session.settings_change {session : Session} {result : Except Fault Buffer}
    (kept : ∀ buffer, result = .ok buffer → buffer.settings = session.buffer.settings) :
    (session.change result).2.buffer.settings = session.buffer.settings := by
  cases result with
  | error fault => rfl
  | ok buffer => exact kept buffer rfl

def Operation.KeepsOrigin : Operation → Prop
  | .setOrigin _ => False
  | _ => True

theorem Operation.settings_run {operation : Operation} (keeps : operation.KeepsOrigin)
    (session : Session) :
    (operation.run session).2.buffer.settings = session.buffer.settings := by
  cases operation with
  | write route how text =>
      rw [Operation.buffer_run_write]
      exact how.settings_apply _ session.buffer
  | endStatement => exact Buffer.settings_write _ session.buffer
  | insert route place text =>
      have announced : (session.announce route).buffer = session.buffer := by simp
      rw [← announced]
      exact Session.settings_change fun _ => Buffer.settings_insert
  | mark name => exact congrArg Buffer.settings (Session.buffer_saveMark name _ session)
  | edit change => cases change <;> rfl
  | deliver request => exact request.settings_run session
  | setOrigin origin => cases keeps
  | raise fault => rfl
  | inspect question => rfl
  | layout pass => rfl
  | freshness event => rfl

theorem Operation.separators_run (operation : Operation) (session : Session) :
    (operation.run session).2.buffer.separators = session.buffer.separators := by
  cases operation with
  | setOrigin origin => rfl
  | _ => exact congrArg Prod.snd (Operation.settings_run (by trivial) session)

namespace Block

def attributes : Block → Bool
  | .attribute _ => true
  | _ => false

theorem settings_enter {block : Block} (plain : block.attributes = false) (session : Session) :
    (block.enter session).buffer.settings = session.buffer.settings := by
  match block with
  | .collect route name => rw [buffer_enter_collect]
  | .brace width =>
      rw [buffer_enter_brace]
      exact Buffer.settings_writeLine ['{'] session.buffer
  | .join width => rw [buffer_enter_join]
  | .attempt => rfl

theorem settings_conclude (mark : Mark) (block : Block) (session : Session) :
    (Block.conclude mark session block).2.buffer.settings = session.buffer.settings := by
  match block with
  | .collect route name =>
      unfold conclude
      dsimp only
      split
      · rename_i text kept taken
        rw [Session.buffer_saveText]
        exact Buffer.settings_takeBack taken
      · rfl
  | .brace width => exact Session.settings_change fun _ => Buffer.settings_closeBrace
  | .join width => exact Session.settings_change fun _ => Buffer.settings_joinFrom
  | .attribute origin => rfl
  | .attempt => rfl

theorem separators_enter (block : Block) (session : Session) :
    (block.enter session).buffer.separators = session.buffer.separators := by
  match block with
  | .attribute origin => rfl
  | .collect .. | .brace _ | .join _ | .attempt =>
      exact congrArg Prod.snd (settings_enter (by rfl) session)

theorem settings_around {block : Block} (plain : block.attributes = false)
    {action : Session → Outcome Unit}
    (inside : ∀ session, (action session).2.buffer.settings = session.buffer.settings)
    (session : Session) :
    (block.around action session).2.buffer.settings = session.buffer.settings := by
  have acted := (inside (block.enter session)).trans (settings_enter plain session)
  have restored (after : Session) : block.restore session after = after := by
    cases block <;> first | rfl | cases plain
  unfold around
  dsimp only
  split
  · rename_i after completed
    rw [completed] at acted
    rw [restored]
    exact (settings_conclude _ block after).trans acted
  · rename_i fault after failed
    rw [failed] at acted
    rw [restored]
    cases block <;> exact acted

end Block

theorem Session.kept_separators (operations : Operation → Prop) (blocks : Block → Prop)
    (separators : Text × Text) :
    Session.Kept operations blocks fun session => session.buffer.separators = separators where
  step operation session _ same := (operation.separators_run session).trans same
  enter block session _ same := (block.separators_enter session).trans same
  restore _ _ same := same
  conclude mark block session _ same :=
    (congrArg Prod.snd (block.settings_conclude mark session)).trans same

namespace Program

theorem separators_run (program : Program) (session : Session) :
    (program.run session).2.buffer.separators = session.buffer.separators :=
  (Session.kept_separators _ _ session.buffer.separators).run program.all_true rfl

/-- The source is set in attributed actions only. -/
def KeepsOrigin : Program → Prop
  | .done => True
  | .step operation rest => operation.KeepsOrigin ∧ rest.KeepsOrigin
  | .block kind body rest => (kind.attributes = false → body.KeepsOrigin) ∧ rest.KeepsOrigin

theorem settings_around_attribute (origin : Option Origin) (body : Program) (session : Session) :
    ((Block.attribute origin).around body.run session).2.buffer.settings =
      session.buffer.settings := by
  rw [Block.snd_around_attribute]
  exact Prod.ext rfl (body.separators_run (session.withOrigin origin))

/-- Ended or faulted, the program leaves the source that was in force. -/
theorem settings_run {program : Program} (keeps : program.KeepsOrigin) (session : Session) :
    (program.run session).2.buffer.settings = session.buffer.settings := by
  induction program generalizing session with
  | done => rfl
  | step operation rest ih =>
      have stepped := Operation.settings_run keeps.1 session
      unfold run
      split
      · rename_i reply after completed
        rw [completed] at stepped
        exact (ih keeps.2 after).trans stepped
      · rename_i fault after failed
        rwa [failed] at stepped
  | block kind body rest ihBody ihRest =>
      have left : (kind.around body.run session).2.buffer.settings = session.buffer.settings := by
        cases attributed : kind.attributes with
        | true =>
            match kind, attributed with
            | .attribute origin, _ => exact settings_around_attribute origin body session
        | false => exact Block.settings_around attributed (ihBody (keeps.1 attributed)) session
      unfold run
      split
      · rename_i reply after completed
        rw [completed] at left
        exact (ihRest keeps.2 after).trans left
      · rename_i fault after failed
        rwa [failed] at left

end Program

end CodeWriter
