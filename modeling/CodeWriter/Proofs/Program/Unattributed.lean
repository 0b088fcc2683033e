import CodeWriter.Program.Transcript
import CodeWriter.Proofs.Buffer.Unattributed
import Mathlib.Data.List.Forall2

namespace CodeWriter

def Edit.unattributed : Edit → Edit
  | .replaceTail index line => .replaceTail index line.unattributed
  | .push line => .push line.unattributed
  | .addTokens tokens => .addTokens (tokens.map Token.unattributed)
  | change => change

def Operation.unattributed : Operation → Operation
  | .setOrigin _ => .setOrigin none
  | .edit change => .edit change.unattributed
  | operation => operation

def Block.unattributed : Block → Block
  | .attribute _ => .attribute none
  | kind => kind

def Program.unattributed : Program → Program
  | .done => .done
  | .step operation rest => .step operation.unattributed rest.unattributed
  | .block kind body rest => .block kind.unattributed body.unattributed rest.unattributed

def Reply.unattributed : Reply → Reply
  | .token piece => .token piece.unattributed
  | .lines removed => .lines (removed.map Line.unattributed)
  | .origin _ => .origin none
  | reply => reply

def Session.unattributed (session : Session) : Session :=
  session.withBuffer session.buffer.unattributed

def TranscriptEntry.unattributed (entry : TranscriptEntry) : TranscriptEntry where
  path := entry.path
  result := entry.result.map Reply.unattributed
  session := entry.session.unattributed

def Operation.Mapless : Operation → Prop
  | .deliver (.map _) => False
  | .deliver (.mapJson _ _) => False
  | .deliver (.product _ withMap) => withMap = false
  | _ => True

def Program.Mapless (program : Program) : Prop :=
  program.All Operation.Mapless fun _ => True

def Outcome.unattributed (outcome : Outcome Reply) : Outcome Reply :=
  (outcome.1.map Reply.unattributed, outcome.2.unattributed)

namespace Session

variable (session : Session)

@[simp] theorem buffer_unattributed :
    session.unattributed.buffer = session.buffer.unattributed := rfl

@[simp] theorem textOf_unattributed (text : TextArgument) :
    session.unattributed.textOf text = session.textOf text := by
  cases text <;> rfl

@[simp] theorem markOf_unattributed (mark : MarkArgument) :
    session.unattributed.markOf mark = session.markOf mark := by
  cases mark <;> rfl

theorem announce_unattributed (route : Route) :
    session.unattributed.announce route = (session.announce route).unattributed := by
  cases route <;> rfl

theorem saveText_unattributed (name : Option Text) (text : Text) :
    session.unattributed.saveText name text = (session.saveText name text).unattributed := by
  cases name <;> rfl

theorem saveMark_unattributed (name : Option Text) (mark : Mark) :
    session.unattributed.saveMark name mark = (session.saveMark name mark).unattributed := by
  cases name <;> rfl

theorem change_unattributed (result : Except Fault Buffer) :
    session.unattributed.change (result.map Buffer.unattributed) =
      (session.change result).unattributed := by
  cases result <;> rfl

end Session

theorem Emission.apply_unattributed (how : Emission) (text : Text) (buffer : Buffer) :
    how.apply text buffer.unattributed = (how.apply text buffer).unattributed := by
  cases how with
  | inline => exact buffer.write_unattributed text
  | lineAfter => exact buffer.writeLine_unattributed text
  | lineBefore => exact buffer.writeBelow_unattributed text

theorem Edit.apply_unattributed (change : Edit) (buffer : Buffer) :
    change.unattributed.apply buffer.unattributed =
      ((change.apply buffer).1.unattributed, (change.apply buffer).2.unattributed) := by
  cases change with
  | breakLine => exact congrArg (Prod.mk _) buffer.breakLine_unattributed
  | dropFrom index =>
      simp only [unattributed, apply, Buffer.dropFrom_unattributed]
      rfl
  | replaceTail index line =>
      exact congrArg (Prod.mk _) (buffer.replaceTail_unattributed index line)
  | push line => exact congrArg (Prod.mk _) (buffer.push_unattributed line)
  | addTokens tokens => exact congrArg (Prod.mk _) (buffer.addTokens_unattributed tokens)

theorem Inspection.answer_unattributed (question : Inspection) (session : Session) :
    question.answer session.unattributed =
      (question.answer session).map Reply.unattributed := by
  cases question with
  | stamp text => simp [answer, Except.map, Reply.unattributed]
  | validate mark =>
      simp only [answer, Session.buffer_unattributed, Session.markOf_unattributed,
        Buffer.validate_unattributed]
      cases session.buffer.validate (session.markOf mark) <;> rfl
  | size => simp [answer, Except.map, Reply.unattributed]
  | renderLines options =>
      simp [answer, Except.map, Reply.unattributed, Layout.render_unattributed]

theorem LayoutPass.apply_unattributed (pass : LayoutPass) (lines : List Line) :
    pass.apply (lines.map Line.unattributed) =
      ((pass.apply lines).1.unattributed, (pass.apply lines).2.map Line.unattributed) := by
  cases pass with
  | indent unit =>
      simp [apply, Layout.closingIndent, Layout.indent, Layout.closingIndentFrom_unattributed,
        Layout.indentFrom_unattributed, Reply.unattributed]
  | space unit => simp [apply, Layout.space_unattributed, Reply.unattributed]
  | arrange options => simp [apply, Layout.arrange_unattributed, Reply.unattributed]

namespace Writer

def unattributed (writer : Writer) : Writer :=
  { writer with buffer := writer.buffer.unattributed }

theorem settle_unattributed (writer : Writer) :
    writer.unattributed.settle = writer.settle.unattributed := by
  cases settled : writer.settled with
  | true =>
      have same : writer.unattributed.settled = true := settled
      rw [settle_of_settled settled, settle_of_settled same]
  | false =>
      have arranged : Layout.arrange writer.options writer.unattributed.buffer.lines =
          (Layout.arrange writer.options writer.buffer.lines).map Line.unattributed := by
        rw [← Layout.arrange_unattributed, ← Buffer.lines_unattributed]
        rfl
      have laid := writer.buffer.withLines_unattributed
        (Layout.arrange writer.options writer.buffer.lines)
      rw [← arranged] at laid
      have same : writer.unattributed.settled = false := settled
      simp only [settle, settled, same, Bool.false_eq_true, if_false]
      simp only [unattributed] at laid ⊢
      rw [laid]

theorem renderedText_unattributed (writer : Writer) :
    writer.unattributed.renderedText = writer.renderedText := by
  unfold renderedText unattributed
  rw [Buffer.lines_unattributed, Layout.render_unattributed]

theorem deliverText_unattributed (writer : Writer) :
    writer.unattributed.deliverText =
      (writer.deliverText.1, writer.deliverText.2.unattributed) := by
  rw [deliverText, settle_unattributed, renderedText_unattributed]
  rfl

theorem deliver_unattributed (disk : Disk) (file : Option Text) (writer : Writer) :
    writer.unattributed.deliver disk file false =
      ((writer.deliver disk file false).1, (writer.deliver disk file false).2.unattributed) := by
  unfold deliver
  split
  · rfl
  · rw [deliverText_unattributed]
    rfl

end Writer

theorem Delivery.run_unattributed {request : Delivery}
    (mapless : (Operation.deliver request).Mapless) (session : Session) :
    request.run session.unattributed = (request.run session).unattributed := by
  have same : session.unattributed.writer = session.writer.unattributed := rfl
  cases request with
  | text =>
      simp only [run, same, Writer.deliverText_unattributed]
      rfl
  | textBefore ending =>
      simp only [run, same, Writer.deliverText_unattributed, Session.textOf_unattributed]
      rfl
  | map file => cases mapless
  | mapJson file style => cases mapless
  | product file withMap =>
      obtain rfl : withMap = false := mapless
      have kept : session.unattributed.disk = session.disk := rfl
      simp only [run, same, kept, Writer.deliver_unattributed]
      cases (session.writer.deliver session.disk file false).1 <;> rfl

theorem FreshnessStep.unattributed_reply (event : FreshnessStep) (disk : Disk)
    (registry : Registry) :
    (event.run disk registry).1.map Reply.unattributed = (event.run disk registry).1 := by
  cases event with
  | putFiles files => rfl
  | setClock now => rfl
  | observe path => cases seen : registry.observe disk path <;> simp only [run, seen] <;> rfl
  | contains path => rfl
  | size => rfl
  | isFresh =>
      unfold run
      cases registry.isFresh disk <;> rfl
  | newest => rfl

theorem Operation.run_unattributed {operation : Operation} (mapless : operation.Mapless)
    (session : Session) :
    operation.unattributed.run session.unattributed = (operation.run session).unattributed := by
  cases operation with
  | write route how text =>
      simp only [unattributed, run, Session.announce_unattributed, Session.textOf_unattributed,
        Session.buffer_unattributed, Emission.apply_unattributed]
      rfl
  | endStatement =>
      have written := session.buffer.write_unattributed session.writer.options.statementEnd
      have steps : Operation.endStatement.unattributed.run session.unattributed =
          (.ok .nothing, session.unsettle.withBuffer
            (session.buffer.unattributed.write session.writer.options.statementEnd)) := rfl
      rw [steps, written]
      rfl
  | insert route place text =>
      simp only [unattributed, run, Session.announce_unattributed, Session.textOf_unattributed,
        Session.markOf_unattributed, Session.buffer_unattributed, Buffer.insert_unattributed]
      exact Session.change_unattributed _ _
  | mark name =>
      simp only [unattributed, run, Session.buffer_unattributed, Buffer.here_unattributed,
        Session.saveMark_unattributed]
      rfl
  | setOrigin origin => rfl
  | raise fault => rfl
  | edit change =>
      simp only [unattributed, run, Session.buffer_unattributed, Edit.apply_unattributed]
      rfl
  | inspect question => exact congrArg (Prod.mk · _) (question.answer_unattributed session)
  | layout pass =>
      simp only [unattributed, run, Session.buffer_unattributed, Buffer.lines_unattributed,
        LayoutPass.apply_unattributed, Buffer.withLines_unattributed]
      rfl
  | deliver request => exact Delivery.run_unattributed mapless session
  | freshness event =>
      have reply := event.unattributed_reply session.disk session.writer.registry
      exact congrArg (Prod.mk · _) reply.symm

namespace Block

theorem enter_unattributed (kind : Block) (session : Session) :
    kind.unattributed.enter session.unattributed = (kind.enter session).unattributed := by
  match kind with
  | .collect route name => exact session.announce_unattributed route
  | .brace none =>
      have opened := session.buffer.writeLine_unattributed ['{']
      exact congrArg session.unsettle.withBuffer opened
  | .brace (some width) =>
      have opened := session.buffer.writeLine_unattributed ['{']
      exact congrArg session.withBuffer opened
  | .join none => rfl
  | .join (some width) => rfl
  | .attribute origin => rfl
  | .attempt => rfl

theorem conclude_unattributed (mark : Mark) (kind : Block) (session : Session) :
    kind.unattributed.conclude mark session.unattributed =
      (kind.conclude mark session).unattributed := by
  match kind with
  | .collect route name =>
      simp only [unattributed, conclude, Session.buffer_unattributed,
        Buffer.takeBack_unattributed]
      cases session.buffer.takeBack mark with
      | error fault => rfl
      | ok taken =>
          exact congrArg (Prod.mk _)
            ((session.withBuffer taken.2).saveText_unattributed name taken.1)
  | .brace width =>
      have closed := session.buffer.closeBrace_unattributed mark
        (width.getD session.writer.options.width)
      exact (congrArg session.unattributed.change closed).trans (session.change_unattributed _)
  | .join width =>
      have joined := session.buffer.joinFrom_unattributed mark
        (width.getD session.writer.options.width)
      exact (congrArg session.unattributed.change joined).trans (session.change_unattributed _)
  | .attribute origin => rfl
  | .attempt => rfl

theorem restore_unattributed (before after : Session) (kind : Block) :
    kind.unattributed.restore before.unattributed after.unattributed =
      (kind.restore before after).unattributed := by
  cases kind <;> rfl

theorem recover_unattributed (fault : Fault) (session : Session) (kind : Block) :
    kind.unattributed.recover fault session.unattributed =
      (kind.recover fault session).unattributed := by
  cases kind <;> rfl

theorem around_unattributed (kind : Block) {action plain : Session → Outcome Unit}
    {session : Session}
    (inside : plain (kind.enter session).unattributed =
      ((action (kind.enter session)).1, (action (kind.enter session)).2.unattributed)) :
    kind.unattributed.around plain session.unattributed =
      (kind.around action session).unattributed := by
  cases acted : action (kind.enter session) with
  | mk result after =>
      rw [acted, ← enter_unattributed] at inside
      cases result with
      | error fault =>
          rw [around_of_error acted, around_of_error inside, restore_unattributed,
            recover_unattributed]
      | ok done =>
          rw [around_of_ok acted, around_of_ok inside, restore_unattributed,
            conclude_unattributed, enter_unattributed, Session.buffer_unattributed,
            Buffer.here_unattributed]

end Block

namespace Program

theorem run_unattributed {program : Program} (mapless : program.Mapless) (session : Session) :
    program.unattributed.run session.unattributed =
      ((program.run session).1, (program.run session).2.unattributed) := by
  induction program generalizing session with
  | done => rfl
  | step operation rest ih =>
      rw [unattributed, run, Operation.run_unattributed mapless.1, run]
      cases operation.run session with
      | mk result after =>
          cases result with
          | error fault => rfl
          | ok reply => exact ih mapless.2 after
  | block kind body rest ihBody ihRest =>
      rw [unattributed, run, kind.around_unattributed (ihBody mapless.2.1 _), run]
      cases kind.around body.run session with
      | mk result after =>
          cases result with
          | error fault => rfl
          | ok reply => exact ihRest mapless.2.2 after

theorem actionEntries_unattributed {program : Program} (mapless : program.Mapless)
    (session : Session) (path : List Nat) (index : Nat) :
    program.unattributed.actionEntries path index session.unattributed =
      (program.actionEntries path index session).map TranscriptEntry.unattributed := by
  induction program generalizing session path index with
  | done => rfl
  | step operation rest ih =>
      rw [unattributed, actionEntries, Operation.run_unattributed mapless.1, actionEntries]
      cases operation.run session with
      | mk result after =>
          cases result with
          | error fault => rfl
          | ok reply => exact congrArg (List.cons _) (ih mapless.2 after path (index + 1))
  | block kind body rest ihBody ihRest =>
      rw [unattributed, actionEntries, kind.around_unattributed (run_unattributed mapless.2.1 _),
        kind.enter_unattributed, ihBody mapless.2.1, actionEntries]
      cases kind.around body.run session with
      | mk result after =>
          dsimp only
          rw [List.map_append]
          congr 1
          cases result with
          | error fault => rfl
          | ok reply => exact congrArg (List.cons _) (ihRest mapless.2.2 after path (index + 1))

theorem entriesFrom_unattributed {program : Program} (mapless : program.Mapless)
    (session : Session) (index : Nat) :
    program.unattributed.entriesFrom index session.unattributed =
      (program.entriesFrom index session).map TranscriptEntry.unattributed := by
  induction program generalizing session index with
  | done => rfl
  | step operation rest ih =>
      rw [unattributed, entriesFrom, Operation.run_unattributed mapless.1, entriesFrom]
      exact congrArg (List.cons _) (ih mapless.2 _ (index + 1))
  | block kind body rest _ ih =>
      rw [unattributed, entriesFrom, kind.around_unattributed (run_unattributed mapless.2.1 _),
        kind.enter_unattributed, actionEntries_unattributed mapless.2.1, entriesFrom]
      dsimp only
      rw [List.map_append]
      exact congrArg (_ ++ ·) (congrArg (List.cons _) (ih mapless.2.2 _ (index + 1)))

theorem transcript_unattributed {program : Program} (mapless : program.Mapless)
    (options : Options) (disk : Disk) :
    program.unattributed.transcript (.start options disk) =
      (program.transcript (.start options disk)).map TranscriptEntry.unattributed :=
  entriesFrom_unattributed mapless (.start options disk) 0

theorem mapless_unattributed {program : Program} :
    program.unattributed.Mapless ↔ program.Mapless := by
  induction program with
  | done => exact Iff.rfl
  | step operation rest ih =>
      refine and_congr ?_ ih
      cases operation <;> exact Iff.rfl
  | block kind body rest ihBody ihRest => exact and_congr Iff.rfl (and_congr ihBody ihRest)

end Program

/-- The same step, with the same fault or the same answer, and after it the same marks and collected
texts, the same lines but for the sources of their tokens, and the same text. -/
structure TranscriptEntry.ReadsAlike (first second : TranscriptEntry) : Prop where
  path : second.path = first.path
  result : second.result.map Reply.unattributed = first.result.map Reply.unattributed
  marks : second.session.marks = first.session.marks
  texts : second.session.texts = first.session.texts
  lines : (second.session.buffer.lines.map fun line => (line.tokens.map Token.text, line.indent)) =
    first.session.buffer.lines.map fun line => (line.tokens.map Token.text, line.indent)
  rendered : second.session.writer.deliverText.1 = first.session.writer.deliverText.1

theorem TranscriptEntry.readsAlike_of_unattributed {first second : TranscriptEntry}
    (same : second.unattributed = first.unattributed) : first.ReadsAlike second := by
  have sameSession : second.session.unattributed = first.session.unattributed :=
    congrArg TranscriptEntry.session same
  have sameLines : second.session.buffer.lines.map Line.unattributed =
      first.session.buffer.lines.map Line.unattributed := by
    rw [← Buffer.lines_unattributed, ← Buffer.lines_unattributed, ← Session.buffer_unattributed,
      sameSession, Session.buffer_unattributed]
  have delivered : ∀ session : Session,
      session.unattributed.writer.deliverText.1 = session.writer.deliverText.1 := by
    intro session
    have forgotten := congrArg Prod.fst session.writer.deliverText_unattributed
    exact forgotten
  constructor
  · have path := congrArg TranscriptEntry.path same
    exact path
  · have result := congrArg TranscriptEntry.result same
    exact result
  · have marks := congrArg Session.marks sameSession
    exact marks
  · have texts := congrArg Session.texts sameSession
    exact texts
  · have readLines := congrArg
      (List.map fun line : Line => (line.tokens.map Token.text, line.indent)) sameLines
    simpa [Function.comp_def, Line.indent_unattributed] using readLines
  · rw [← delivered, sameSession, delivered]

namespace Program

/-- Programs that name different sources, or none, at the same places go through the same steps with
the same faults, marks, collected texts, lines and texts. -/
theorem transcripts_agree_whatever_sources {first second : Program}
    (same : second.unattributed = first.unattributed) (mapless : first.Mapless)
    (options : Options) (disk : Disk) :
    List.Forall₂ TranscriptEntry.ReadsAlike (first.transcript (.start options disk))
      (second.transcript (.start options disk)) := by
  have maplessSecond : second.Mapless := by
    rw [← mapless_unattributed, same, mapless_unattributed]
    exact mapless
  have alike : List.Forall₂ (· = ·)
      ((first.transcript (.start options disk)).map TranscriptEntry.unattributed)
      ((second.transcript (.start options disk)).map TranscriptEntry.unattributed) := by
    rw [List.forall₂_eq_eq_eq, ← transcript_unattributed mapless,
      ← transcript_unattributed maplessSecond, same]
  rw [List.forall₂_map_left_iff, List.forall₂_map_right_iff] at alike
  exact alike.imp fun _ _ sameEntry => TranscriptEntry.readsAlike_of_unattributed sameEntry.symm

/-- A statement is put in at a mark, and braces are closed on their line, where an action under
another source has a fault. Collected text is written again after that. -/
theorem transcripts_agree_whatever_sources_after_fault :
    let write (text : String) := Operation.write .writer .inline (.literal text.toList)
    let origin (start : Nat) : Option Origin :=
      some ⟨⟨0, "a".toList, "f g".toList⟩, ⟨start, start, Nat.le_refl _⟩⟩
    let program (outer inner : Option Origin) : Program :=
      .step (.mark (some "top".toList)) (.step (.setOrigin outer) (.step (write "if (x) ")
        (.block (.brace none) (.block (.attribute inner)
            (.step (write "f();") (.step (.raise (.raised "stop".toList)) .done)) .done)
          (.block (.collect .writer (some "end".toList)) (.step (write "g();") .done)
            (.step (.insert .writer (.saved "top".toList) (.literal "var x;".toList))
              (.step (.write .writer .lineBefore (.saved "end".toList)) .done))))))
    let first := program (origin 0) (origin 2)
    let second := program none (origin 7)
    second.unattributed = first.unattributed ∧ first.Mapless ∧
      ∃ entry ∈ second.transcript (.start .standard {}),
        entry.path = [6] ∧ entry.session.texts = [("end".toList, "g();".toList)] ∧
          entry.session.writer.deliverText.1 =
            "var x;\n\nif (x) \x7b\n  f();\n  g();".toList := by
  intro write origin program first second
  have same : second.unattributed = first.unattributed := rfl
  have mapless : first.Mapless := by
    simp [first, program, write, Mapless, All, Operation.Mapless]
  obtain ⟨_, alike⟩ := List.forall₂_iff_get.mp
    (transcripts_agree_whatever_sources same mapless .standard {})
  have last := alike 10 (by decide +kernel) (by decide +kernel)
  refine ⟨same, mapless, _, List.get_mem _ _, last.path.trans ?_, last.texts.trans ?_,
    last.rendered.trans ?_⟩
  · decide +kernel
  · decide +kernel
  · decide +kernel

end Program

end CodeWriter
