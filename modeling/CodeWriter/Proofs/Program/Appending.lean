import CodeWriter.Program.Run
import CodeWriter.Proofs.Buffer.Growth
import CodeWriter.Proofs.Buffer.Settings

namespace CodeWriter

@[simp] theorem Emission.settings_apply (how : Emission) (text : Text) (buffer : Buffer) :
    (how.apply text buffer).settings = buffer.settings := by
  cases how <;> simp [apply]

def Operation.Appends : Operation → Prop
  | .write _ _ _ => True
  | .endStatement => True
  | .mark _ => True
  | .setOrigin _ => True
  | _ => False

def Program.Appends (program : Program) : Prop :=
  program.All Operation.Appends fun _ => True

theorem Operation.buffer_run_write (route : Route) (how : Emission) (text : TextArgument)
    (session : Session) :
    ((Operation.write route how text).run session).2.buffer =
      how.apply (session.textOf text) session.buffer := by
  rw [run, Session.buffer_withBuffer, Session.buffer_announce]
  cases route <;> rfl

theorem Operation.run_of_appends {operation : Operation} (appends : operation.Appends)
    (session : Session) :
    ∃ reply after, operation.run session = (.ok reply, after) ∧
      session.buffer.GrowsTo after.buffer := by
  cases operation with
  | write route how text =>
      refine ⟨_, _, rfl, ?_⟩
      rw [Session.buffer_withBuffer, Session.buffer_announce]
      cases how with
      | inline => exact Buffer.growsTo_write _ _
      | lineAfter => exact Buffer.growsTo_writeLine _ _
      | lineBefore => exact Buffer.growsTo_writeBelow _ _
  | endStatement => exact ⟨_, _, rfl, Buffer.growsTo_write _ session.buffer⟩
  | mark name =>
      refine ⟨_, _, rfl, ?_⟩
      rw [Session.buffer_saveMark]
      exact .refl _
  | setOrigin origin => exact ⟨_, _, rfl, (Buffer.GrowsTo.refl _).withOrigin origin⟩
  | insert route place text => cases appends
  | raise fault => cases appends
  | edit change => cases appends
  | inspect question => cases appends
  | layout pass => cases appends
  | deliver request => cases appends
  | freshness event => cases appends

namespace Block

@[simp] theorem buffer_enter_collect (route : Route) (name : Option Text) (session : Session) :
    ((Block.collect route name).enter session).buffer = session.buffer :=
  session.buffer_announce route

@[simp] theorem buffer_enter_brace (width : Option Int) (session : Session) :
    ((Block.brace width).enter session).buffer = session.buffer.openBrace := by
  cases width <;> rfl

@[simp] theorem buffer_enter_join (width : Option Int) (session : Session) :
    ((Block.join width).enter session).buffer = session.buffer := by
  cases width <;> rfl

theorem conclude_of_growsTo (block : Block) {before after : Session}
    (grown : (block.enter before).buffer.GrowsTo after.buffer) :
    ∃ reply final,
      block.conclude (block.enter before).buffer.here (block.restore before after) =
          (.ok reply, final) ∧
        before.buffer.GrowsTo final.buffer := by
  match block with
  | .collect route name =>
      rw [buffer_enter_collect] at grown ⊢
      obtain ⟨text, kept, taken, above, tokens⟩ := grown.takeBack
      refine ⟨.text text, (after.withBuffer kept).saveText name text, ?_, ?_⟩
      · simp [conclude, restore, taken]
      · rw [Session.buffer_saveText]
        exact Buffer.growsTo_of_eq above tokens
  | .brace width =>
      rw [buffer_enter_brace] at grown ⊢
      obtain ⟨closed, done, whole⟩ :=
        grown.closeBrace (width.getD after.writer.options.width)
      refine ⟨.nothing, after.withBuffer closed, ?_, whole⟩
      simp [conclude, restore, done, Session.change]
  | .join width =>
      rw [buffer_enter_join] at grown ⊢
      obtain ⟨joined, done, whole⟩ := grown.joinFrom (width.getD after.writer.options.width)
      refine ⟨.nothing, after.withBuffer joined, ?_, whole⟩
      simp [conclude, restore, done, Session.change]
  | .attribute origin => exact ⟨_, _, rfl, grown⟩
  | .attempt => exact ⟨_, _, rfl, grown⟩

theorem around_of_growsTo (block : Block) {action : Session → Outcome Unit} {session : Session}
    (inside : ∃ after, action (block.enter session) = (.ok (), after) ∧
      (block.enter session).buffer.GrowsTo after.buffer) :
    ∃ reply final, block.around action session = (.ok reply, final) ∧
      session.buffer.GrowsTo final.buffer := by
  obtain ⟨after, completed, grown⟩ := inside
  rw [around_of_ok completed]
  exact block.conclude_of_growsTo grown

end Block

/-- A program that only appends ends without fault, on a buffer that has grown. -/
theorem Program.run_of_appends {program : Program} (appends : program.Appends)
    (session : Session) :
    ∃ final, program.run session = (.ok (), final) ∧ session.buffer.GrowsTo final.buffer := by
  induction program generalizing session with
  | done => exact ⟨session, rfl, .refl _⟩
  | step operation rest ih =>
      obtain ⟨reply, after, stepped, grown⟩ := operation.run_of_appends appends.1 session
      obtain ⟨final, completed, grownRest⟩ := ih appends.2 after
      refine ⟨final, ?_, grown.trans grownRest⟩
      rw [Program.run, stepped]
      exact completed
  | block kind body rest ihBody ihRest =>
      obtain ⟨reply, after, left, grown⟩ :=
        kind.around_of_growsTo (ihBody appends.2.1 (kind.enter session))
      obtain ⟨final, completed, grownRest⟩ := ihRest appends.2.2 after
      refine ⟨final, ?_, grown.trans grownRest⟩
      rw [Program.run, left]
      exact completed

end CodeWriter
