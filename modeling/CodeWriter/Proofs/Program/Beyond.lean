import CodeWriter.Proofs.Buffer.Beyond
import CodeWriter.Proofs.Program.Appending
import CodeWriter.Proofs.Program.Settling

/-! Plain programs neither remember places nor ask for anything. -/

namespace CodeWriter

/-- Writing through the writer, and setting the source. -/
def Operation.Plain : Operation → Prop
  | .write route _ _ => route = .writer
  | .endStatement => True
  | .setOrigin _ => True
  | _ => False

def Program.Plain (program : Program) : Prop :=
  program.All Operation.Plain Block.ThroughWriter

theorem Operation.Plain.appends {operation : Operation} (plain : operation.Plain) :
    operation.Appends := by
  cases operation with
  | write route how text => trivial
  | endStatement => trivial
  | setOrigin origin => trivial
  | _ => cases plain

theorem Operation.Plain.quiet {operation : Operation} (plain : operation.Plain) :
    operation.Quiet := by
  cases operation with
  | write route how text => exact ⟨plain, rfl⟩
  | endStatement => exact ⟨trivial, rfl⟩
  | setOrigin origin => exact ⟨trivial, rfl⟩
  | _ => cases plain

namespace Program

theorem Plain.appends {program : Program} (plain : program.Plain) : program.Appends :=
  All.mono (fun _ => Operation.Plain.appends) (fun _ _ => trivial) plain

theorem Plain.quiet {program : Program} (plain : program.Plain) : program.Quiet :=
  All.mono (fun _ => Operation.Plain.quiet) (fun _ => id) plain

end Program

def Block.captured : Block → Except Fault Reply → List Text
  | .collect _ _, .ok (.text text) => [text]
  | _, _ => []

/-- All texts that are collected in a run, in the order in which their blocks end. -/
def Program.captured : Program → Session → List Text
  | .done, _ => []
  | .step operation rest, session => captured rest (operation.run session).2
  | .block kind body rest, session =>
      captured body (kind.enter session) ++ kind.captured (kind.around body.run session).1 ++
        captured rest (kind.around body.run session).2

def Session.beyond (depth : Nat) (session : Session) : Session where
  writer := {
    options := session.writer.options
    buffer := session.buffer.beyond session.writer.options depth }
  texts := session.texts

theorem Session.change_beyond (result : Except Fault Buffer) (depth : Nat) (session : Session) :
    (session.beyond depth).change (result.map (Buffer.beyond session.writer.options depth)) =
      ((session.change result).1, (session.change result).2.beyond depth) := by
  cases result <;> rfl

theorem Session.beyond_beyond (first second : Nat) (session : Session) :
    (session.beyond first).beyond second = session.beyond (first + second) := by
  unfold beyond
  dsimp only [Session.buffer]
  rw [Buffer.beyond_beyond]

theorem Session.beyond_above (session : Session) :
    session.beyond session.buffer.above.length =
      { writer := {
          options := session.writer.options
          buffer := { session.buffer with
            above := []
            current := session.buffer.current.unplaced session.writer.options } }
        texts := session.texts } := by
  simp [beyond, Buffer.beyond]

theorem Session.options_of_beyond {first second : Session} {firstDepth secondDepth : Nat}
    (same : second.beyond secondDepth = first.beyond firstDepth) :
    second.writer.options = first.writer.options :=
  congrArg (fun session => session.writer.options) same

theorem Session.map_above_of_beyond {first second : Session} {firstDepth secondDepth : Nat}
    (same : second.beyond secondDepth = first.beyond firstDepth) :
    (second.buffer.above.drop secondDepth).map (Line.unplaced first.writer.options) =
      (first.buffer.above.drop firstDepth).map (Line.unplaced first.writer.options) := by
  have above : (second.buffer.above.drop secondDepth).map (Line.unplaced second.writer.options) =
      (first.buffer.above.drop firstDepth).map (Line.unplaced first.writer.options) :=
    congrArg (fun session => session.writer.buffer.above) same
  rwa [options_of_beyond same] at above

section Beyond

variable {depth : Nat} {session : Session} (within : depth ≤ session.buffer.above.length)
include within

theorem Operation.run_beyond {operation : Operation} (plain : operation.Plain) :
    operation.run (session.beyond depth) =
      ((operation.run session).1, (operation.run session).2.beyond depth) := by
  match operation, plain with
  | .write .writer how text, _ =>
      have texts : (session.beyond depth).textOf text = session.textOf text := by
        cases text <;> rfl
      have written : how.apply (session.textOf text)
            (session.buffer.beyond session.writer.options depth) =
          (how.apply (session.textOf text) session.buffer).beyond session.writer.options depth := by
        cases how with
        | inline => exact (Buffer.beyond_write within _).symm
        | lineAfter => exact (Buffer.beyond_writeLine within _).symm
        | lineBefore => exact (Buffer.beyond_writeBelow within _).symm
      calc
        Operation.run (.write .writer how text) (session.beyond depth) =
            (.ok .nothing, (session.beyond depth).withBuffer
              (how.apply ((session.beyond depth).textOf text)
                (session.buffer.beyond session.writer.options depth))) := rfl
        _ = (.ok .nothing, (Operation.run (.write .writer how text) session).2.beyond depth) := by
          rw [texts, written]
          rfl
  | .endStatement, _ =>
      calc
        Operation.run .endStatement (session.beyond depth) =
            (.ok .nothing, (session.beyond depth).withBuffer
              ((session.buffer.beyond session.writer.options depth).write
                session.writer.options.statementEnd)) := rfl
        _ = (.ok .nothing, (Operation.run .endStatement session).2.beyond depth) := by
          rw [← Buffer.beyond_write within]
          rfl
  | .setOrigin origin, _ => rfl

namespace Block

theorem enter_beyond {kind : Block} (through : kind.ThroughWriter) :
    kind.enter (session.beyond depth) = (kind.enter session).beyond depth := by
  match kind, through with
  | .collect .writer name, _ => rfl
  | .brace none, _ =>
      have opened : session.buffer.openBrace.beyond session.writer.options depth =
          (session.buffer.beyond session.writer.options depth).openBrace :=
        Buffer.beyond_writeLine within _
      calc
        Block.enter (.brace none) (session.beyond depth) =
            (session.beyond depth).withBuffer
              (session.buffer.beyond session.writer.options depth).openBrace := rfl
        _ = (Block.enter (.brace none) session).beyond depth := by
          rw [← opened]
          rfl
  | .join none, _ => rfl
  | .attribute origin, _ => rfl
  | .attempt, _ => rfl

theorem conclude_beyond {kind : Block} (through : kind.ThroughWriter) {after : Session}
    (grown : (kind.enter session).buffer.GrowsTo after.buffer) :
    kind.conclude ((kind.enter session).buffer.here.beyond depth)
        (kind.restore (session.beyond depth) (after.beyond depth)) =
      ((kind.conclude (kind.enter session).buffer.here (kind.restore session after)).1,
        (kind.conclude (kind.enter session).buffer.here
          (kind.restore session after)).2.beyond depth) := by
  have valid := grown.validate
  match kind, through with
  | .collect .writer name, _ =>
      have inside : depth ≤ after.buffer.above.length := grown.within within
      have deep : (depth : Int) ≤ session.buffer.here.line := Int.ofNat_le.mpr within
      have taken : (after.beyond depth).buffer.takeBack (session.buffer.here.beyond depth) = _ :=
        Buffer.takeBack_beyond inside deep valid
      simp only [conclude, restore, enter, Session.buffer_announce, taken]
      cases after.buffer.takeBack session.buffer.here with
      | error fault => rfl
      | ok kept => cases name <;> rfl
  | .brace none, _ =>
      have inside : depth ≤ after.buffer.above.length :=
        ((Buffer.growsTo_openBrace session.buffer).trans grown).within within
      have deep : (depth : Int) < session.buffer.openBrace.here.line := by
        rw [Buffer.line_here, Buffer.openBrace_eq, Buffer.breakLine, Buffer.push,
          Buffer.length_lines]
        simp only [Buffer.size, Buffer.addTokens]
        omega
      refine Eq.trans ?_ (Session.change_beyond _ depth after)
      exact congrArg (Session.change · (after.beyond depth))
        (Buffer.closeBrace_beyond inside deep valid _)
  | .join none, _ =>
      have inside : depth ≤ after.buffer.above.length := grown.within within
      have deep : (depth : Int) ≤ session.buffer.here.line := Int.ofNat_le.mpr within
      refine Eq.trans ?_ (Session.change_beyond _ depth after)
      exact congrArg (Session.change · (after.beyond depth))
        (Buffer.joinFrom_beyond inside deep valid _)
  | .attribute origin, _ => rfl
  | .attempt, _ => rfl

theorem around_beyond {kind : Block} (through : kind.ThroughWriter) {body : Program}
    {after : Session} (completed : body.run (kind.enter session) = (.ok (), after))
    (grown : (kind.enter session).buffer.GrowsTo after.buffer)
    (inside : body.run ((kind.enter session).beyond depth) = (.ok (), after.beyond depth))
    (entered : depth ≤ (kind.enter session).buffer.above.length) :
    kind.around body.run (session.beyond depth) =
      ((kind.around body.run session).1, (kind.around body.run session).2.beyond depth) := by
  have here : ((kind.enter session).beyond depth).buffer.here =
      (kind.enter session).buffer.here.beyond depth := Buffer.beyond_here entered
  unfold around
  dsimp only
  rw [enter_beyond within through, inside, completed]
  dsimp only
  rw [here]
  exact conclude_beyond within through grown

end Block

end Beyond

theorem Block.within_enter {depth : Nat} (kind : Block) {session : Session}
    (within : depth ≤ session.buffer.above.length) :
    depth ≤ (kind.enter session).buffer.above.length := by
  match kind with
  | .collect route name => simpa [enter] using within
  | .brace width =>
      rw [buffer_enter_brace]
      exact (Buffer.growsTo_openBrace session.buffer).within within
  | .join width =>
      rw [buffer_enter_join]
      exact within
  | .attribute origin => exact within
  | .attempt => exact within

/-- A plain program runs on the lines beyond a depth as it runs on all lines, and collects the same
texts. -/
theorem Program.run_beyond {program : Program} (plain : program.Plain) {depth : Nat}
    {session : Session} (within : depth ≤ session.buffer.above.length) :
    program.run (session.beyond depth) =
        ((program.run session).1, (program.run session).2.beyond depth) ∧
      program.captured (session.beyond depth) = program.captured session := by
  induction program generalizing session with
  | done => exact ⟨rfl, rfl⟩
  | step operation rest ih =>
      obtain ⟨reply, after, stepped, grown⟩ := operation.run_of_appends plain.1.appends session
      have later := ih plain.2 (grown.within within)
      have beyond := operation.run_beyond within plain.1
      rw [stepped] at beyond
      simp only [run, captured, stepped, beyond]
      exact later
  | block kind body rest ihBody ihRest =>
      have entered := kind.within_enter within
      obtain ⟨inside, completed, grownInside⟩ :=
        Program.run_of_appends (Plain.appends plain.2.1) (kind.enter session)
      obtain ⟨reply, after, left, grown⟩ :=
        kind.around_of_growsTo ⟨inside, completed, grownInside⟩
      obtain ⟨sameRun, sameTexts⟩ := ihBody plain.2.1 entered
      have later := ihRest plain.2.2 (grown.within within)
      rw [completed] at sameRun
      have beyond := kind.around_beyond within plain.1 completed grownInside sameRun entered
      rw [left] at beyond
      simp only [run, captured, left, beyond, kind.enter_beyond within plain.1, sameTexts]
      exact ⟨later.1, by rw [later.2]⟩

end CodeWriter
