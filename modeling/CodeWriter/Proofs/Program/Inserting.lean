import CodeWriter.Proofs.Buffer.Inserting
import CodeWriter.Proofs.Program.Appending

namespace CodeWriter

theorem Operation.run_insert (route : Route) (mark : Mark) (text : Text) (session : Session) :
    (Operation.insert route (.literal mark) (.literal text)).run session =
      (session.announce route).change (session.buffer.insert mark text) := by
  cases route <;> rfl

theorem Session.fst_change_eq_error_iff {result : Except Fault Buffer} {session : Session}
    {fault : Fault} : (session.change result).1 = .error fault ↔ result = .error fault := by
  cases result with
  | ok buffer => simp [change]
  | error other => simp [change]

/-- A mark remembers a place in the text. When a program that only appends has run, in whatever
state it began, what is put in where it began comes between the text that there was and the text
that the program added: inside a line as a token, and at the start of a line as lines of its own.
The current line is the last one after it as before. In any buffer, at any mark and with any text,
an insertion faults just if there is no such line, or no such place on it, or if the text is to go
inside a line and has a line feed; and a fault leaves the buffer as it was. -/
theorem Session.mark_is_place_in_text :
    (∀ {program : Program}, program.Appends → ∀ session : Session,
      let before := session.buffer
      let mark := before.here
      ∃ after written, program.run session = (.ok (), after) ∧
        after.buffer.text = before.text ++ written ∧
        ∀ route text,
          let inserted := (Operation.insert route (.literal mark) (.literal text)).run after
          (0 < mark.token → '\n' ∉ text → ∃ final, inserted = (.ok .nothing, final) ∧
            final.buffer.text = before.text ++ text ++ written ∧
            final.buffer.size = after.buffer.size ∧
            final.buffer.lines.getLast? = some final.buffer.current) ∧
          (mark.token = 0 → ∃ final, inserted = (.ok .nothing, final) ∧
            final.buffer.text = before.text ++ text.withoutFinalBreak ++ '\n' :: written ∧
            final.buffer.current = after.buffer.current ∧
            final.buffer.lines.getLast? = some final.buffer.current)) ∧
    ∀ (session : Session) (route : Route) (mark : Mark) (text : Text),
      let buffer := session.buffer
      let inserted := (Operation.insert route (.literal mark) (.literal text)).run session
      ((∃ fault, inserted.1 = .error fault) ↔
        ¬(0 ≤ mark.line ∧ mark.line < buffer.size) ∨
          (∃ line, buffer.line? mark.line = some line ∧
            ¬(0 ≤ mark.token ∧ mark.token ≤ line.tokens.length)) ∨
          0 < mark.token ∧ '\n' ∈ text) ∧
      ∀ fault, inserted.1 = .error fault → inserted.2.buffer = buffer ∧
        (fault = .markOutsideBuffer mark buffer.size ∨ fault = .markOutsideLine mark ∨
          fault = .lineBreakInsideLine) := by
  constructor
  · intro program appends session before mark
    obtain ⟨after, completed, grown⟩ := program.run_of_appends appends session
    obtain ⟨written, whole⟩ := grown.prefix_text
    refine ⟨after, written, completed, whole.symm, fun route text => ?_⟩
    have last (buffer : Buffer) : buffer.lines.getLast? = some buffer.current := by
      simp [Buffer.lines]
    intro inserted
    have run : inserted =
        (after.announce route).change (after.buffer.insert mark text) :=
      Operation.run_insert route mark text after
    constructor
    · intro inside flat
      obtain ⟨changed, done, sameText, size⟩ :=
        grown.insert_inside whole.symm (Int.ne_of_gt inside) flat
      rw [done] at run
      exact ⟨_, run, sameText, size, last _⟩
    · intro start
      obtain ⟨changed, done, sameText, current⟩ := grown.insert_at_start whole.symm start text
      rw [done] at run
      exact ⟨_, run, sameText, current, last _⟩
  · intro session route mark text buffer inserted
    have run : inserted = (session.announce route).change (buffer.insert mark text) :=
      Operation.run_insert route mark text session
    have failed (fault : Fault) :
        inserted.1 = .error fault ↔ buffer.insert mark text = .error fault := by
      rw [run, fst_change_eq_error_iff]
    refine ⟨(exists_congr failed).trans Buffer.exists_insert_error_iff, fun fault failure => ?_⟩
    rw [failed] at failure
    constructor
    · rw [run, failure]
      exact session.buffer_announce route
    · rcases Buffer.insert_error_iff.mp failure with bad | ⟨_, _, _, lineBreak⟩
      · rcases Buffer.validate_error_iff.mp bad with ⟨_, outside⟩ | ⟨_, _, _, outside⟩
        · exact .inl outside
        · exact .inr (.inl outside)
      · exact .inr (.inr lineBreak)

/-- Marks inside a line and at the start of one. The line that they are on goes on with braces, and
these are joined with it. -/
theorem Session.mark_is_place_in_text_before_braces :
    let write (text : String) := Operation.write .writer .inline (.literal text.toList)
    let insert (mark : Mark) (text : String) :=
      Operation.insert .writer (.literal mark) (.literal text.toList)
    let session (text : String) := ((write text).run (.start .standard {})).2
    let collected : Program := .step (write "g\nh") .done
    let inBraces : Program :=
      .step (write "f(") (.block (.collect .writer none) collected (.step (write ")") .done))
    let program : Program := .block (.join none) (.block (.brace none) inBraces .done) .done
    let inside := session "x;\ny "
    let atStart := session "x;\n"
    program.Appends ∧ inside.buffer.here = ⟨1, 1⟩ ∧ atStart.buffer.here = ⟨1, 0⟩ ∧
      (∃ after final, program.run inside = (.ok (), after) ∧
        (insert ⟨1, 1⟩ "= ").run after = (.ok .nothing, final) ∧
        after.buffer.text = "x;\ny \x7b f() \x7d".toList ∧
        final.buffer.text = "x;\ny = \x7b f() \x7d".toList) ∧
      (∃ after final, program.run atStart = (.ok (), after) ∧
        (insert ⟨1, 0⟩ "a;\nb;\n").run after = (.ok .nothing, final) ∧
        after.buffer.text = "x;\n\x7b f() \x7d".toList ∧
        final.buffer.text = "x;\na;\nb;\n\x7b f() \x7d".toList) ∧
      ((insert ⟨1, 1⟩ "a\nb").run inside).1 = .error .lineBreakInsideLine ∧
      ((insert ⟨1, 1⟩ "a\nb").run inside).2.buffer = inside.buffer := by
  intro write insert session collected inBraces program inside atStart
  have appends : program.Appends := by
    simp [program, inBraces, collected, write, Program.Appends, Program.All, Operation.Appends]
  obtain ⟨places, faults⟩ := mark_is_place_in_text
  have broken : ((insert ⟨1, 1⟩ "a\nb").run inside).1 = .error .lineBreakInsideLine := rfl
  refine ⟨appends, rfl, rfl, ?_, ?_, broken, ((faults inside .writer ⟨1, 1⟩ _).2 _ broken).1⟩
  · obtain ⟨after, written, completed, whole, inserts⟩ := places appends inside
    obtain ⟨final, inserted, text, _⟩ := (inserts .writer "= ".toList).1 (by decide) (by decide)
    have sameAfter : after = (program.run inside).2 := by rw [completed]
    have rest : inside.buffer.text ++ written =
        inside.buffer.text ++ "\x7b f() \x7d".toList := by
      rw [← whole, sameAfter]
      decide +kernel
    rw [List.append_cancel_left rest] at whole text
    exact ⟨after, final, completed, inserted, whole, text⟩
  · obtain ⟨after, written, completed, whole, inserts⟩ := places appends atStart
    obtain ⟨final, inserted, text, _⟩ := (inserts .writer "a;\nb;\n".toList).2 rfl
    have sameAfter : after = (program.run atStart).2 := by rw [completed]
    have rest : atStart.buffer.text ++ written =
        atStart.buffer.text ++ "\x7b f() \x7d".toList := by
      rw [← whole, sameAfter]
      decide +kernel
    rw [List.append_cancel_left rest] at whole text
    exact ⟨after, final, completed, inserted, whole, text⟩

end CodeWriter
