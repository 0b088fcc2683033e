import CodeWriter.Program.Transcript
import CodeWriter.Proofs.Program.Appending

namespace CodeWriter

theorem Block.growsTo_enter (block : Block) (session : Session) :
    session.buffer.GrowsTo (block.enter session).buffer := by
  match block with
  | .collect route name =>
      rw [buffer_enter_collect]
      exact .refl _
  | .brace width =>
      rw [buffer_enter_brace]
      exact Buffer.growsTo_openBrace _
  | .join width =>
      rw [buffer_enter_join]
      exact .refl _
  | .attribute origin => exact (Buffer.GrowsTo.refl _).withOrigin origin
  | .attempt => exact .refl _

namespace Program

theorem entry_of_appends {program : Program} (appends : program.Appends) {path : List Nat}
    {index : Nat} {session : Session} {entry : TranscriptEntry}
    (member : entry ∈ program.actionEntries path index session) :
    (∃ reply, entry.result = .ok reply) ∧ session.buffer.GrowsTo entry.session.buffer := by
  induction program generalizing path index session with
  | done => cases member
  | step operation rest ih =>
      obtain ⟨reply, after, stepped, grown⟩ := operation.run_of_appends appends.1 session
      simp only [actionEntries, stepped, List.mem_cons] at member
      rcases member with rfl | later
      · exact ⟨⟨reply, rfl⟩, grown⟩
      · obtain ⟨answered, grownOn⟩ := ih appends.2 later
        exact ⟨answered, grown.trans grownOn⟩
  | block kind body rest ihBody ihRest =>
      obtain ⟨reply, after, left, grown⟩ :=
        kind.around_of_growsTo (run_of_appends appends.2.1 (kind.enter session))
      simp only [actionEntries, left, List.mem_append, List.mem_cons] at member
      rcases member with inside | rfl | later
      · obtain ⟨answered, grownInside⟩ := ihBody appends.2.1 inside
        exact ⟨answered, (kind.growsTo_enter session).trans grownInside⟩
      · exact ⟨⟨reply, rfl⟩, grown⟩
      · obtain ⟨answered, grownOn⟩ := ihRest appends.2.2 later
        exact ⟨answered, grown.trans grownOn⟩

theorem entriesFrom_of_appends {program : Program} (appends : program.Appends) (index : Nat)
    (session : Session) :
    program.entriesFrom index session = program.actionEntries [] index session := by
  induction program generalizing index session with
  | done => rfl
  | step operation rest ih =>
      obtain ⟨reply, after, stepped, _⟩ := operation.run_of_appends appends.1 session
      simp only [entriesFrom, actionEntries, stepped, ih appends.2, List.nil_append]
  | block kind body rest _ ih =>
      obtain ⟨reply, after, left, _⟩ :=
        kind.around_of_growsTo (run_of_appends appends.2.1 (kind.enter session))
      simp only [entriesFrom, actionEntries, left, ih appends.2.2, List.nil_append]

/-- In whatever state a program begins that only appends, no step of it faults, nested ones
included, and a mark that was good is good after every step. At the end the lines above the old
current line are in their places as they were, and that line begins with its old tokens. -/
theorem appending_keeps_what_is_written {program : Program} (appends : program.Appends)
    (session : Session) :
    let before := session.buffer
    ∃ final, program.run session = (.ok (), final) ∧
      (∀ entry ∈ program.transcript session, (∃ reply, entry.result = .ok reply) ∧
        ∀ mark, before.validate mark = .ok () → entry.session.buffer.validate mark = .ok ()) ∧
      (∀ index < before.above.length, final.buffer.lines[index]? = before.lines[index]?) ∧
      (∃ line, final.buffer.lines[before.above.length]? = some line ∧
        before.current.tokens <+: line.tokens) ∧
      ∀ mark, before.validate mark = .ok () → final.buffer.validate mark = .ok () := by
  intro before
  obtain ⟨final, completed, grown⟩ := run_of_appends appends session
  refine ⟨final, completed, ?_, ?_, ?_, fun _ => grown.validate_of_validate⟩
  · intro entry member
    rw [transcript, entriesFrom_of_appends appends] at member
    obtain ⟨answered, grownTo⟩ := entry_of_appends appends member
    exact ⟨answered, fun _ => grownTo.validate_of_validate⟩
  · obtain ⟨line, later, lines, _⟩ := grown
    intro index above
    rw [lines, Buffer.lines, List.getElem?_append_left above, List.getElem?_append_left above]
  · obtain ⟨line, later, lines, start⟩ := grown
    exact ⟨line, by simp [lines, before], start⟩

/-- Behind other text, a block that does not fit on a line, with a joined text and a collected one
in it. -/
theorem appending_keeps_what_is_written_before_blocks :
    let write (text : String) := Operation.write .writer .inline (.literal text.toList)
    let session := ((write "x;\ny ").run (.start .standard {})).2
    let collected : Program := .step (write "g\nh") .done
    let joined : Program :=
      .step (write "f(\n") (.block (.collect .writer none) collected (.step (write "1)") .done))
    let program : Program := .block (.brace (some 0)) (.block (.join none) joined .done) .done
    let marks : List Mark := [⟨0, 0⟩, ⟨0, 1⟩, ⟨1, 1⟩]
    program.Appends ∧
      ∃ final, program.run session = (.ok (), final) ∧
        final.buffer.lines.map Line.text =
          ["x;".toList, "y \x7b".toList, "f(1)".toList, "\x7d".toList] ∧
        ∀ mark ∈ marks, session.buffer.validate mark = .ok () ∧
          final.buffer.validate mark = .ok () := by
  intro write session collected joined program marks
  have appends : program.Appends := by
    simp [program, joined, collected, write, Appends, All, Operation.Appends]
  have good : ∀ mark ∈ marks, session.buffer.validate mark = .ok () := by
    simp only [marks, List.forall_mem_cons]
    exact ⟨rfl, rfl, rfl, List.forall_mem_nil _⟩
  obtain ⟨final, completed, _, _, _, kept⟩ := appending_keeps_what_is_written appends session
  have sameFinal : final = (program.run session).2 := by rw [completed]
  refine ⟨appends, final, completed, ?_, fun mark member =>
    ⟨good mark member, kept mark (good mark member)⟩⟩
  rw [sameFinal]
  decide +kernel

end Program

end CodeWriter
