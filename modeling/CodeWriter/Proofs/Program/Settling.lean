import CodeWriter.Program.Transcript
import CodeWriter.Proofs.Layout.Continuing
import CodeWriter.Proofs.Program.Reachable

/-! A writer is told of a change when a block begins, and not when it ends. -/

namespace CodeWriter

theorem Writer.exists_deliverMap (disk : Disk) (file : Option Text) (writer : Writer) :
    ∃ registry, (writer.deliverMap disk file).2 = { writer.settle with registry } :=
  ⟨_, rfl⟩

/-- A delivery lays the lines out, if it does anything, and sees the times of sources. -/
theorem Delivery.session_run (request : Delivery) (session : Session) :
    (request.run session).2 = session ∨
      ∃ registry, (request.run session).2 =
        { session with writer := { session.writer.settle with registry } } := by
  cases request with
  | text => exact .inr ⟨_, rfl⟩
  | textBefore ending => exact .inr ⟨_, rfl⟩
  | map file => exact .inr ⟨_, rfl⟩
  | mapJson file style => exact .inr ⟨_, rfl⟩
  | product file withMap =>
      unfold Delivery.run Writer.deliver
      dsimp only
      split
      · exact .inl rfl
      · split
        · obtain ⟨registry, mapped⟩ := session.writer.settle.exists_deliverMap session.disk file
          rw [Writer.settle_settle] at mapped
          exact .inr ⟨registry, by rw [Writer.deliverText, mapped]⟩
        · exact .inr ⟨_, rfl⟩

namespace Writer

/-- Lines that count as laid out are as a layout leaves them. -/
def Steady (writer : Writer) : Prop :=
  writer.settled = true →
    Layout.arrange writer.options writer.buffer.lines = writer.buffer.lines

theorem steady_of_unsettled {writer : Writer} (unsettled : writer.settled = false) :
    writer.Steady := by
  intro settled
  simp [unsettled] at settled

theorem steady_start (options : Options) : (Writer.start options).Steady :=
  steady_of_unsettled rfl

theorem Steady.lines_settle {writer : Writer} (steady : writer.Steady) :
    writer.settle.buffer.lines = Layout.arrange writer.options writer.buffer.lines := by
  cases settled : writer.settled with
  | true => rw [settle_of_settled settled, steady settled]
  | false => exact Writer.lines_settle settled

theorem Steady.settle {writer : Writer} (steady : writer.Steady) : writer.settle.Steady := by
  intro _
  rw [steady.lines_settle, options_settle, Layout.arrange_arrange]

theorem Steady.deliverText {writer : Writer} (steady : writer.Steady) :
    writer.deliverText.1 =
      Layout.render writer.options (Layout.arrange writer.options writer.buffer.lines) := by
  rw [Writer.deliverText, renderedText, steady.lines_settle, options_settle]

end Writer

/-- Lines change only after the writer was told. -/
def Operation.ThroughWriter : Operation → Prop
  | .write route _ _ => route = .writer
  | .insert route _ _ => route = .writer
  | .edit _ => False
  | .layout _ => False
  | _ => True

def Operation.isDelivery : Operation → Bool
  | .deliver _ => true
  | _ => false

def Operation.Quiet (operation : Operation) : Prop :=
  operation.ThroughWriter ∧ operation.isDelivery = false

namespace Block

def ThroughWriter : Block → Prop
  | .collect route _ => route = .writer
  | .brace width => width = none
  | .join width => width = none
  | _ => True

/-- Whether lines change once more when the action has ended. -/
def rewrites : Block → Bool
  | .attribute _ => false
  | .attempt => false
  | _ => true

end Block

namespace Program

def Quiet (program : Program) : Prop :=
  program.All Operation.Quiet Block.ThroughWriter

/-- No action asks for a text or a map when its block changes lines after it. -/
def DeliversBetween : Program → Prop
  | .done => True
  | .step operation rest => operation.ThroughWriter ∧ rest.DeliversBetween
  | .block kind body rest =>
      kind.ThroughWriter ∧ (kind.rewrites = true → body.Quiet) ∧ body.DeliversBetween ∧
        rest.DeliversBetween

theorem Quiet.deliversBetween {program : Program} (quiet : program.Quiet) :
    program.DeliversBetween := by
  induction program with
  | done => trivial
  | step operation rest ih => exact ⟨quiet.1.1, ih quiet.2⟩
  | block kind body rest ihBody ihRest =>
      exact ⟨quiet.1, fun _ => quiet.2.1, ihBody quiet.2.1, ihRest quiet.2.2⟩

end Program

theorem Session.steady_withOrigin {session : Session} (steady : session.writer.Steady)
    (origin : Option Origin) : (session.withOrigin origin).writer.Steady :=
  steady

theorem Session.unsettled_change {session : Session} (result : Except Fault Buffer)
    (unsettled : session.writer.settled = false) :
    (session.change result).2.writer.settled = false := by
  cases result <;> exact unsettled

theorem Operation.steady_run {operation : Operation} (through : operation.ThroughWriter)
    {session : Session} (steady : session.writer.Steady) :
    (operation.run session).2.writer.Steady := by
  match operation, through with
  | .write .writer how text, _ => exact Writer.steady_of_unsettled rfl
  | .endStatement, _ => exact Writer.steady_of_unsettled rfl
  | .insert .writer place text, _ =>
      exact Writer.steady_of_unsettled (Session.unsettled_change _ rfl)
  | .mark name, _ => cases name <;> exact steady
  | .setOrigin origin, _ => exact Session.steady_withOrigin steady origin
  | .raise fault, _ => exact steady
  | .inspect question, _ => exact steady
  | .freshness event, _ => exact steady
  | .deliver request, _ =>
      have after : (Operation.run (.deliver request) session).2 = (request.run session).2 := rfl
      rw [after]
      rcases request.session_run session with same | ⟨registry, same⟩
      · rw [same]
        exact steady
      · rw [same]
        exact steady.settle

/-- Nothing but a delivery makes lines count as laid out. -/
theorem Session.kept_unsettled :
    Session.Kept Operation.Quiet Block.ThroughWriter fun session =>
      session.writer.settled = false where
  step operation session quiet unsettled := by
    match operation, quiet.1 with
    | .write .writer how text, _ => rfl
    | .endStatement, _ => rfl
    | .insert .writer place text, _ => exact unsettled_change _ rfl
    | .mark name, _ => cases name <;> exact unsettled
    | .setOrigin origin, _ => exact unsettled
    | .raise fault, _ => exact unsettled
    | .inspect question, _ => exact unsettled
    | .freshness event, _ => exact unsettled
    | .deliver request, _ => cases quiet.2
  enter block session through unsettled := by
    match block, through with
    | .collect .writer name, _ => rfl
    | .brace none, _ => rfl
    | .join none, _ => rfl
    | .attribute origin, _ => exact unsettled
    | .attempt, _ => exact unsettled
  restore _ _ unsettled := unsettled
  conclude mark block session _ unsettled := by
    match block with
    | .collect route name =>
        unfold Block.conclude
        dsimp only
        split
        · cases name <;> exact unsettled
        · exact unsettled
    | .brace width => exact unsettled_change _ unsettled
    | .join width => exact unsettled_change _ unsettled
    | .attribute origin => exact unsettled
    | .attempt => exact unsettled

namespace Block

theorem around_unsettle {block : Block} (through : block.ThroughWriter)
    (rewrites : block.rewrites = true) (action : Session → Outcome Unit) (session : Session) :
    block.around action session.unsettle = block.around action session := by
  match block, through, rewrites with
  | .collect .writer name, _, _ => rfl
  | .brace none, _, _ => rfl
  | .join none, _, _ => rfl

theorem snd_around_attribute (origin : Option Origin) (action : Session → Outcome Unit)
    (session : Session) :
    ((Block.attribute origin).around action session).2 =
      (action (session.withOrigin origin)).2.withOrigin session.buffer.origin := by
  unfold around
  dsimp only [enter]
  rcases action (session.withOrigin origin) with ⟨_ | _, _⟩ <;> rfl

theorem around_attempt (action : Session → Outcome Unit) (session : Session) :
    ∃ reply, Block.attempt.around action session = (.ok reply, (action session).2) := by
  unfold around
  dsimp only [enter]
  rcases action session with ⟨_ | _, _⟩
  · exact ⟨_, rfl⟩
  · exact ⟨_, rfl⟩

theorem steady_around {block : Block} (through : block.ThroughWriter) {body : Program}
    (quiet : block.rewrites = true → body.Quiet)
    (inside : ∀ session, session.writer.Steady → (body.run session).2.writer.Steady)
    {session : Session} (steady : session.writer.Steady) :
    (block.around body.run session).2.writer.Steady := by
  cases rewrites : block.rewrites with
  | true =>
      -- The block tells the writer when it is entered, and nothing in a quiet action settles it.
      rw [← around_unsettle through rewrites]
      apply Writer.steady_of_unsettled
      exact Session.kept_unsettled.around through
        (fun _ => Session.kept_unsettled.run (quiet rewrites)) rfl
  | false =>
      match block, rewrites with
      | .attribute origin, _ =>
          rw [snd_around_attribute]
          exact Session.steady_withOrigin (inside _ (Session.steady_withOrigin steady origin)) _
      | .attempt, _ =>
          obtain ⟨reply, same⟩ := around_attempt body.run session
          rw [same]
          exact inside _ steady

end Block

theorem Program.steady_run {program : Program} (between : program.DeliversBetween)
    {session : Session} (steady : session.writer.Steady) :
    (program.run session).2.writer.Steady := by
  induction program generalizing session with
  | done => exact steady
  | step operation rest ih =>
      obtain ⟨through, later⟩ := between
      have stepped := Operation.steady_run through steady
      unfold run
      split
      · rename_i reply after completed
        rw [completed] at stepped
        exact ih later stepped
      · rename_i fault after failed
        rw [failed] at stepped
        exact stepped
  | block kind body rest ihBody ihRest =>
      obtain ⟨through, quiet, inside, later⟩ := between
      have left := Block.steady_around through quiet (fun _ => ihBody inside) steady
      unfold run
      split
      · rename_i reply after completed
        rw [completed] at left
        exact ihRest later left
      · rename_i fault after failed
        rw [failed] at left
        exact left

namespace Program

variable {path : List Nat} {index : Nat} {operation : Operation} {kind : Block}
  {body rest : Program} {session : Session} {entry : TranscriptEntry}

theorem mem_actionEntries_step
    (member : entry ∈ actionEntries path index (.step operation rest) session) :
    entry.session = (operation.run session).2 ∨
      entry ∈ actionEntries path (index + 1) rest (operation.run session).2 := by
  unfold actionEntries at member
  dsimp only at member
  split at member
  · rcases List.mem_cons.mp member with rfl | later
    · exact .inl rfl
    · exact .inr later
  · rw [List.mem_singleton.mp member]
    exact .inl rfl

theorem mem_actionEntries_block
    (member : entry ∈ actionEntries path index (.block kind body rest) session) :
    entry ∈ actionEntries (path ++ [index]) 0 body (kind.enter session) ∨
      entry.session = (kind.around body.run session).2 ∨
        entry ∈ actionEntries path (index + 1) rest (kind.around body.run session).2 := by
  unfold actionEntries at member
  dsimp only at member
  rcases List.mem_append.mp member with inside | after
  · exact .inl inside
  split at after
  · rcases List.mem_cons.mp after with rfl | later
    · exact .inr (.inl rfl)
    · exact .inr (.inr later)
  · rw [List.mem_singleton.mp after]
    exact .inr (.inl rfl)

theorem mem_entriesFrom_step (member : entry ∈ entriesFrom index (.step operation rest) session) :
    entry.session = (operation.run session).2 ∨
      entry ∈ entriesFrom (index + 1) rest (operation.run session).2 := by
  rcases List.mem_cons.mp member with rfl | later
  · exact .inl rfl
  · exact .inr later

theorem mem_entriesFrom_block
    (member : entry ∈ entriesFrom index (.block kind body rest) session) :
    entry ∈ actionEntries [index] 0 body (kind.enter session) ∨
      entry.session = (kind.around body.run session).2 ∨
        entry ∈ entriesFrom (index + 1) rest (kind.around body.run session).2 := by
  unfold entriesFrom at member
  dsimp only at member
  rcases List.mem_append.mp member with inside | after
  · exact .inl inside
  · rcases List.mem_cons.mp after with rfl | later
    · exact .inr (.inl rfl)
    · exact .inr (.inr later)

theorem steady_enter {kind : Block} (through : kind.ThroughWriter) {session : Session}
    (steady : session.writer.Steady) : (kind.enter session).writer.Steady := by
  match kind, through with
  | .collect .writer name, _ => exact Writer.steady_of_unsettled rfl
  | .brace none, _ => exact Writer.steady_of_unsettled rfl
  | .join none, _ => exact Writer.steady_of_unsettled rfl
  | .attribute origin, _ => exact Session.steady_withOrigin steady origin
  | .attempt, _ => exact steady

theorem steady_actionEntries {program : Program} (between : program.DeliversBetween)
    {session : Session} (steady : session.writer.Steady) {path : List Nat} {index : Nat}
    {entry : TranscriptEntry} (member : entry ∈ program.actionEntries path index session) :
    entry.session.writer.Steady := by
  induction program generalizing path index session with
  | done => cases member
  | step operation rest ih =>
      obtain ⟨through, later⟩ := between
      have stepped := Operation.steady_run through steady
      rcases mem_actionEntries_step member with same | further
      · rwa [same]
      · exact ih later stepped further
  | block kind body rest ihBody ihRest =>
      obtain ⟨through, quiet, inside, later⟩ := between
      have left := Block.steady_around through quiet (fun _ => steady_run inside) steady
      rcases mem_actionEntries_block member with within | same | further
      · exact ihBody inside (steady_enter through steady) within
      · rwa [same]
      · exact ihRest later left further

theorem steady_entriesFrom {program : Program} (between : program.DeliversBetween)
    {session : Session} (steady : session.writer.Steady) {index : Nat} {entry : TranscriptEntry}
    (member : entry ∈ program.entriesFrom index session) : entry.session.writer.Steady := by
  induction program generalizing index session with
  | done => cases member
  | step operation rest ih =>
      obtain ⟨through, later⟩ := between
      have stepped := Operation.steady_run through steady
      rcases mem_entriesFrom_step member with same | further
      · rwa [same]
      · exact ih later stepped further
  | block kind body rest ihBody ihRest =>
      obtain ⟨through, quiet, inside, later⟩ := between
      have left := Block.steady_around through quiet (fun _ => steady_run inside) steady
      rcases mem_entriesFrom_block member with within | same | further
      · exact steady_actionEntries inside (steady_enter through steady) within
      · rwa [same]
      · exact ihRest later left further

/-- A text is that of the lines as they are, after every step of a program that changes its lines
through the writer and asks for no text or map inside an action whose block changes them again. -/
theorem transcript_text_is_current {program : Program} (between : program.DeliversBetween)
    (options : Options) (disk : Disk) {entry : TranscriptEntry}
    (member : entry ∈ program.transcript (.start options disk)) :
    let writer := entry.session.writer
    writer.deliverText.1 =
        Layout.render writer.options (Layout.arrange writer.options writer.buffer.lines) ∧
      (writer.settled = true →
        Layout.arrange writer.options writer.buffer.lines = writer.buffer.lines) := by
  intro writer
  have steady : writer.Steady := steady_entriesFrom between (Writer.steady_start options) member
  exact ⟨steady.deliverText, steady⟩

/-- A text is asked for in an attributed action, and the block after it is laid out anew. -/
theorem transcript_text_is_current_after_block :
    let write (text : String) := Operation.write .writer .inline (.literal text.toList)
    let program : Program :=
      .block (.attribute none)
        (.step (write "if (x) ")
          (.step (.deliver .text)
            (.block (.brace none) (.step (write "f();\ng();") .done) .done)))
        .done
    program.DeliversBetween ∧
      ∃ entry ∈ program.transcript (.start .standard {}),
        entry.path = [0, 2] ∧
          entry.session.writer.deliverText.1 =
            "if (x) \x7b\n  f();\n  g();\n\x7d".toList := by
  intro write program
  have between : program.DeliversBetween := by
    simp [program, write, DeliversBetween, Quiet, All, Operation.Quiet, Operation.ThroughWriter,
      Operation.isDelivery, Block.ThroughWriter, Block.rewrites]
  let entry := (program.transcript (.start .standard {})).get ⟨3, by decide⟩
  have member : entry ∈ program.transcript (.start .standard {}) := List.get_mem _ _
  have current := (transcript_text_is_current between .standard {} member).1
  exact ⟨between, entry, member, by decide, current.trans (by decide +kernel)⟩

/-- Where an action asks for a text and its block closes a brace after it, the next text has the
closing brace where it was put, and not where the layout of the lines puts it. -/
theorem transcript_text_is_stale_after_inner_delivery :
    let write (text : String) := Operation.write .writer .inline (.literal text.toList)
    let inner : Program := .step (write "f();\ng();") (.step (.deliver .text) .done)
    let program : Program := .block (.brace none) (.block (.brace none) inner .done) .done
    let writer := (program.play (.start .standard {})).writer
    writer.deliverText.1 = "\x7b\n  \x7b\n    f();\n    g();\n\x7d\n\x7d".toList ∧
      Layout.render writer.options (Layout.arrange writer.options writer.buffer.lines) =
        "\x7b\n  \x7b\n    f();\n    g();\n  \x7d\n\x7d".toList := by
  decide +kernel

end Program

end CodeWriter
