import CodeWriter.Proofs.Program.Cursor
import CodeWriter.Proofs.Program.Settings

namespace CodeWriter

theorem Layout.getLast?_indent (unit : Int) (above : List Line) (last : Line) :
    ∃ indent, (Layout.indent unit (above ++ [last])).getLast? = some { last with indent } := by
  refine ⟨(last.placedAt unit (closingIndent unit above)).indent, ?_⟩
  rw [indent_append, indentFrom_cons, indentFrom_nil, List.getLast?_append,
    List.getLast?_singleton, Option.some_or]
  rfl

theorem Layout.getLast?_space_append (unit : Int) (above : List Line) (last : Line) :
    ∃ indent, (space unit (above ++ [last])).getLast? = some { last with indent } := by
  rw [getLast?_space]
  exact getLast?_indent unit above last

theorem Layout.getLast?_arrange (options : Options) (above : List Line) (last : Line) :
    ∃ indent, (arrange options (above ++ [last])).getLast? = some { last with indent } := by
  unfold arrange
  split
  · exact getLast?_space_append _ above last
  · exact ⟨last.indent, by simp⟩

theorem Buffer.current_insert {buffer after : Buffer} {mark : Mark} {text : Text}
    (inserted : buffer.insert mark text = .ok after) :
    buffer.current.tokens.Sublist after.current.tokens := by
  obtain ⟨_, ⟨_, rfl⟩ | ⟨_, _, rfl⟩⟩ := insert_ok_iff.mp inserted
  · exact .refl _
  · unfold insertToken withLines
    dsimp only
    rw [List.getLast?_eq_getElem?, List.getElem?_modify, List.length_modify,
      ← List.getLast?_eq_getElem?, getLast?_lines]
    simp only [Option.map_eq_map, Option.map_some, Option.getD_some]
    split
    · exact List.sublist_insertIdx ..
    · exact .refl _

namespace CursorBuffer

variable {buffer after : CursorBuffer} {shown : Buffer}

/-- The list ends as before, with the cursor at its end, and the last line has got an indent. -/
def KeepsLast (before after : CursorBuffer) : Prop :=
  before.SameEnd after ∧ after.order.getLast? = some after.cursor ∧
    ∃ indent, after.current = { before.current with indent }

theorem Shows.keepsLast {lines : List Line} (shows : buffer.Shows shown) (same : buffer.SameEnd after)
    (relaid : after.Shows (shown.withLines lines))
    (ends : ∃ indent, lines.getLast? = some { shown.current with indent }) :
    buffer.KeepsLast after := by
  obtain ⟨indent, ends⟩ := ends
  refine ⟨same, relaid.last, indent, ?_⟩
  rw [relaid.current_eq, shows.current_eq]
  exact congrArg (Option.getD · Line.blank) ends

theorem Shows.keepsLast_insert {mark : Mark} {text : Text} (shows : buffer.Shows shown)
    (inserted : buffer.insert mark text = .ok after) :
    buffer.SameEnd after ∧ after.order.getLast? = some after.cursor ∧
      buffer.current.tokens.Sublist after.current.tokens := by
  have agree := shows.insert mark text
  rw [inserted] at agree
  generalize viewed : shown.insert mark text = other at agree
  cases agree with
  | ok alike =>
      obtain ⟨same, shows'⟩ := alike
      rw [shows.current_eq, shows'.current_eq]
      exact ⟨same, shows'.last, Buffer.current_insert viewed⟩

end CursorBuffer

namespace CursorSession

theorem Shows.keepsLast_deliver {state : CursorSession} {shown : Session}
    (shows : state.Shows shown) (request : Delivery) :
    state.buffer.KeepsLast (state.deliver request).2.buffer := by
  have unmoved : state.buffer.KeepsLast state.buffer :=
    ⟨.refl _, shows.buffer.last, state.buffer.current.indent, rfl⟩
  unfold CursorSession.deliver
  split
  · exact unmoved
  · unfold CursorSession.read CursorSession.settle
    dsimp only
    split
    · exact unmoved
    · obtain ⟨same, arranged⟩ := shows.buffer.arrange state.rest.writer.options
      exact shows.buffer.keepsLast same arranged (Layout.getLast?_arrange _ _ _)

/-- In every state that a program passes through, inside actions and after faults too: there is a
line, the cursor is at the last one, and no token holds a line feed. From there on, the spacing of
lines comes through, and a layout, a delivery and an insertion leave the cursor where it is, which
is still the last line. An attributed action gives back the source in force, and so does every
program that sets sources in such actions only, ended or faulted. The lines, answers and faults are
those of the session that has no other place for its cursor. -/
theorem reachable_cursor_is_last {options : Options} {disk : Disk} {state : CursorSession}
    (reached : CursorSession.Reachable Operation.Unbroken (fun _ => True) (start options disk)
      state) :
    let buffer := state.buffer
    buffer.order ≠ [] ∧ buffer.order.getLast? = some buffer.cursor ∧
      (∀ line ∈ buffer.lines, ∀ token ∈ line.tokens, '\n' ∉ token.text) ∧
      (∀ unit, ∃ after, buffer.sweep unit = some after ∧ buffer.KeepsLast after) ∧
      (∀ request, buffer.KeepsLast (state.deliver request).2.buffer) ∧
      (∀ mark text after, buffer.insert mark text = .ok after →
        buffer.SameEnd after ∧ after.order.getLast? = some after.cursor ∧
          buffer.current.tokens.Sublist after.current.tokens) ∧
      (∀ origin body,
        (state.around (.attribute origin) (run body)).2.buffer.origin = buffer.origin) ∧
      (∀ body : Program, body.KeepsOrigin →
        (run body state).2.buffer.origin = buffer.origin) ∧
      Session.Reachable Operation.Unbroken (fun _ => True) (.start options disk) state.view ∧
      buffer.lines = state.view.buffer.lines ∧
      ∀ body : Program, body.run state.view = ((run body state).1, (run body state).2.view) := by
  intro buffer
  obtain ⟨shows, passed⟩ := reached.shows
  have unbroken : state.view.Unbroken :=
    (Session.kept_unbroken _).reachable (Session.unbroken_start options disk) passed
  refine ⟨?_, shows.buffer.last, ?_, ?_, shows.keepsLast_deliver,
    fun _ _ _ inserted => shows.buffer.keepsLast_insert inserted, ?_, ?_, passed,
    shows.buffer.lines_eq, ?_⟩
  · intro unlisted
    have last : buffer.order.getLast? = some buffer.cursor := shows.buffer.last
    rw [unlisted] at last
    cases last
  · intro line member
    rw [shows.buffer.lines_eq] at member
    exact unbroken line member
  · intro unit
    obtain ⟨after, swept, same, spaced⟩ := shows.buffer.sweep unit
    exact ⟨after, swept,
      shows.buffer.keepsLast same spaced (Layout.getLast?_space_append unit _ _)⟩
  · intro origin body
    have left := (shows.around (.attribute origin) fun inside => inside.run body).2
    exact left.origin_eq.trans ((congrArg Prod.fst
      (body.settings_around_attribute origin state.view)).trans shows.origin_eq.symm)
  · intro body keeps
    have ran := (shows.run body).2
    exact ran.origin_eq.trans ((congrArg Prod.fst
      (Program.settings_run keeps state.view)).trans shows.origin_eq.symm)
  · intro body
    have ran := shows.run body
    exact Prod.ext ran.1.symm ran.2.view_eq.symm

/-- An attributed action puts a line in braces and asks for the text, which puts a line in above the
cursor. Then it faults in the braces. -/
theorem reachable_cursor_is_last_after_fault :
    let origin : Origin := ⟨⟨0, "a".toList, "x".toList⟩, ⟨0, 1, by decide⟩⟩
    let write (text : String) := Operation.write .writer .inline (.literal text.toList)
    let inBraces : Program :=
      .step (write "f();\n// why\ng(")
        (.step (.deliver .text) (.step (.raise (.raised [])) .done))
    let body : Program := .block (.brace none) inBraces .done
    let first := CursorSession.start .standard {}
    let state := (first.around (.attribute (some origin)) (run body)).2
    CursorSession.Reachable Operation.Unbroken (fun _ => True) first state ∧
      state.buffer.order = [0, 1, 4, 2, 3] ∧ state.buffer.cursor = 3 ∧
      state.buffer.order.getLast? = some state.buffer.cursor ∧
      state.buffer.lines.map Line.text =
        ["\x7b".toList, "f();".toList, [], "// why".toList, "g(".toList] ∧
      state.buffer.current = ⟨[⟨"g(".toList, some origin⟩], 2⟩ ∧
      state.buffer.origin = none ∧ (run body state).2.buffer.origin = none := by
  intro origin write inBraces body first state
  have unbroken : body.All Operation.Unbroken fun _ => True :=
    ⟨trivial, ⟨trivial, trivial, trivial, trivial⟩, trivial⟩
  have begun : CursorSession.Reachable Operation.Unbroken (fun _ => True) first first := .start
  have reached : CursorSession.Reachable Operation.Unbroken (fun _ => True) first state :=
    .leave begun trivial unbroken
  obtain ⟨_, _, _, _, _, _, restored, _⟩ := reachable_cursor_is_last begun
  obtain ⟨_, last, _, _, _, _, _, kept, _⟩ := reachable_cursor_is_last reached
  have origin_eq : state.buffer.origin = none := restored (some origin) body
  have keeps : body.KeepsOrigin := ⟨fun _ => ⟨trivial, trivial, trivial, trivial⟩, trivial⟩
  exact ⟨reached, by decide +kernel, by decide +kernel, last, by decide +kernel,
    by decide +kernel, origin_eq, (kept body keeps).trans origin_eq⟩

end CursorSession

end CodeWriter
