import CodeWriter.Proofs.Buffer.Ink
import CodeWriter.Proofs.Program.Appending
import CodeWriter.Proofs.Program.Reachable

/-! The emission is read off the program alone, and a run adds it to the buffer. -/

namespace CodeWriter

namespace Operation

/-- Texts are written as they are given: nothing is collected that could be written later. -/
def Emits : Operation → Prop
  | .write _ _ (.literal _) => True
  | .endStatement => True
  | .setOrigin _ => True
  | _ => False

def emitted (statementEnd : Text) (origin : Option Origin) : Operation → List Token
  | .write _ _ (.literal text) => [⟨text, origin⟩]
  | .endStatement => [⟨statementEnd, origin⟩]
  | _ => []

def originAfter (origin : Option Origin) : Operation → Option Origin
  | .setOrigin origin => origin
  | _ => origin

theorem Emits.appends {operation : Operation} (emits : operation.Emits) : operation.Appends := by
  cases operation with
  | write route how text => trivial
  | endStatement => trivial
  | setOrigin origin => trivial
  | _ => cases emits

end Operation

namespace Block

def Emits : Block → Prop
  | .brace _ => True
  | .join _ => True
  | .attribute _ => True
  | _ => False

def originWithin (origin : Option Origin) : Block → Option Origin
  | .attribute within => within
  | _ => origin

/-- `last` is the source in force when the action ends; the closing brace carries it. -/
def originAfter (before last : Option Origin) : Block → Option Origin
  | .attribute _ => before
  | _ => last

def opening (origin : Option Origin) : Block → List Token
  | .brace _ => [⟨['{'], origin⟩]
  | _ => []

def closing (origin : Option Origin) : Block → List Token
  | .brace _ => [⟨['}'], origin⟩]
  | _ => []

end Block

namespace Program

def Emits (program : Program) : Prop :=
  program.All Operation.Emits Block.Emits

def originAfter (origin : Option Origin) : Program → Option Origin
  | .done => origin
  | .step operation rest => rest.originAfter (operation.originAfter origin)
  | .block kind body rest =>
      rest.originAfter (kind.originAfter origin (body.originAfter (kind.originWithin origin)))

/-- The pieces that a program emits when it starts with a source in force. -/
def emitted (statementEnd : Text) (origin : Option Origin) : Program → List Token
  | .done => []
  | .step operation rest =>
      operation.emitted statementEnd origin ++
        rest.emitted statementEnd (operation.originAfter origin)
  | .block kind body rest =>
      let within := kind.originWithin origin
      let last := body.originAfter within
      kind.opening origin ++ body.emitted statementEnd within ++ kind.closing last ++
        rest.emitted statementEnd (kind.originAfter origin last)

theorem Emits.appends {program : Program} (emits : program.Emits) : program.Appends := by
  induction program with
  | done => trivial
  | step operation rest ih => exact ⟨Operation.Emits.appends emits.1, ih emits.2⟩
  | block kind body rest ihBody ihRest => exact ⟨trivial, ihBody emits.2.1, ihRest emits.2.2⟩

end Program

/-- The buffer of `after` reads like that of `before` and then the pieces, and `origin` is the
source in force. -/
structure Session.Reads {α : Type} (read : Token → List α) (before : Session)
    (pieces : List Token) (origin : Option Origin) (after : Session) : Prop where
  reading : after.buffer.reading read =
    before.buffer.reading read ++ pieces.flatMap fun piece => piece.pieces.flatMap read
  origin : after.buffer.origin = origin
  options : after.writer.options = before.writer.options

namespace Session.Reads

variable {α : Type} {read : Token → List α}

theorem nothing (session : Session) : session.Reads read [] session.buffer.origin session :=
  ⟨by simp, rfl, rfl⟩

theorem append {first second third : Session} {pieces later : List Token}
    {origin lastOrigin : Option Origin} (before : first.Reads read pieces origin second)
    (after : second.Reads read later lastOrigin third) :
    first.Reads read (pieces ++ later) lastOrigin third where
  reading := by
    rw [after.reading, before.reading, List.flatMap_append, List.append_assoc]
  origin := after.origin
  options := after.options.trans before.options

end Session.Reads

theorem Session.change_ok {session after : Session} {result : Except Fault Buffer} {reply : Reply}
    (changed : session.change result = (.ok reply, after)) :
    ∃ buffer, result = .ok buffer ∧ after = session.withBuffer buffer := by
  cases result with
  | error fault => cases changed
  | ok buffer =>
      cases changed
      exact ⟨buffer, rfl, rfl⟩

section Running

variable {α : Type} {read : Token → List α} (reads : Token.IsReading read)
include reads

theorem Operation.reads_of_emits {operation : Operation} (emits : operation.Emits)
    (session : Session) :
    session.Reads read
      (operation.emitted session.writer.options.statementEnd session.buffer.origin)
      (operation.originAfter session.buffer.origin) (operation.run session).2 := by
  match operation, emits with
  | .write route how (.literal text), emits =>
      refine ⟨?_, ?_, Operation.options_run _ session⟩
      · rw [emitted, List.flatMap_singleton, buffer_run_write]
        cases how with
        | inline => exact Buffer.reading_write reads text session.buffer
        | lineAfter => exact Buffer.reading_writeLine reads text session.buffer
        | lineBefore => exact Buffer.reading_writeBelow reads text session.buffer
      · rw [buffer_run_write]
        exact congrArg Prod.fst (how.settings_apply text session.buffer)
  | .endStatement, _ =>
      refine ⟨?_, Buffer.origin_write _ _, rfl⟩
      rw [emitted, List.flatMap_singleton]
      exact Buffer.reading_write reads _ _
  | .setOrigin origin, _ => exact ⟨(List.append_nil _).symm, rfl, rfl⟩

theorem Block.reads_enter {block : Block} (emits : block.Emits) (session : Session) :
    session.Reads read (block.opening session.buffer.origin)
      (block.originWithin session.buffer.origin) (block.enter session) := by
  refine ⟨?_, ?_, block.options_enter session⟩
  · match block, emits with
    | .brace width, _ =>
        rw [buffer_enter_brace, opening, List.flatMap_singleton]
        exact Buffer.reading_writeLine reads ['{'] session.buffer
    | .join width, _ => simp [opening]
    | .attribute origin, _ => exact (List.append_nil _).symm
  · match block, emits with
    | .brace width, _ =>
        rw [buffer_enter_brace]
        exact Buffer.origin_write ['{'] session.buffer
    | .join width, _ =>
        rw [buffer_enter_join]
        rfl
    | .attribute origin, _ => rfl

theorem Block.reads_conclude {block : Block} (emits : block.Emits) {before after final : Session}
    {mark : Mark} {reply : Reply}
    (left : block.conclude mark (block.restore before after) = (.ok reply, final)) :
    after.Reads read (block.closing after.buffer.origin)
      (block.originAfter before.buffer.origin after.buffer.origin) final := by
  match block, emits with
  | .brace width, _ =>
      obtain ⟨closed, done, rfl⟩ := Session.change_ok left
      refine ⟨?_, congrArg Prod.fst (Buffer.settings_closeBrace done), rfl⟩
      rw [closing, List.flatMap_singleton, Token.pieces_of_not_mem (by simp),
        List.flatMap_singleton]
      exact Buffer.reading_closeBrace reads done
  | .join width, _ =>
      obtain ⟨joined, done, rfl⟩ := Session.change_ok left
      exact ⟨(Buffer.reading_joinFrom reads done).trans (List.append_nil _).symm,
        congrArg Prod.fst (Buffer.settings_joinFrom done), rfl⟩
  | .attribute origin, _ =>
      cases left
      exact ⟨(List.append_nil _).symm, rfl, rfl⟩

end Running

namespace Block

theorem around_ok {block : Block} (emits : block.Emits) {action : Session → Outcome Unit}
    {session final : Session} {reply : Reply}
    (completed : block.around action session = (.ok reply, final)) :
    ∃ after, action (block.enter session) = (.ok (), after) ∧
      block.conclude (block.enter session).buffer.here (block.restore session after) =
        (.ok reply, final) := by
  unfold around at completed
  dsimp only at completed
  split at completed
  · rename_i after inside
    exact ⟨after, inside, completed⟩
  · match block, emits with
    | .brace width, _ => cases completed
    | .join width, _ => cases completed
    | .attribute origin, _ => cases completed

end Block

/-- A run adds what is read off the emission, whatever the options and the widths. -/
theorem Program.reads_of_run {α : Type} {read : Token → List α} (reads : Token.IsReading read)
    {program : Program} (emits : program.Emits) {session final : Session}
    (completed : program.run session = (.ok (), final)) :
    session.Reads read
      (program.emitted session.writer.options.statementEnd session.buffer.origin)
      (program.originAfter session.buffer.origin) final := by
  induction program generalizing session final with
  | done =>
      cases completed
      exact .nothing session
  | step operation rest ih =>
      have stepping := operation.reads_of_emits reads emits.1 session
      unfold run at completed
      split at completed
      · rename_i reply after stepped
        rw [stepped] at stepping
        have later := ih emits.2 completed
        rw [stepping.origin, stepping.options] at later
        exact stepping.append later
      · cases completed
  | block kind body rest ihBody ihRest =>
      have entering := kind.reads_enter reads emits.1 session
      unfold run at completed
      split at completed
      · rename_i reply after left
        -- The block emits at its start, in its action and at its end, each under the source that
        -- the part before it left in force.
        obtain ⟨inside, acted, concluded⟩ := kind.around_ok emits.1 left
        have acting := ihBody emits.2.1 acted
        rw [entering.origin, entering.options] at acting
        have leaving := kind.reads_conclude reads emits.1 concluded
        rw [acting.origin] at leaving
        have whole := (entering.append acting).append leaving
        have later := ihRest emits.2.2 completed
        rw [whole.origin, whole.options] at later
        exact whole.append later
      · cases completed

/-- The buffer of `after` holds the ink of `before` and then that of the pieces, and `origin` is the
source in force. -/
structure Session.Takes (before : Session) (pieces : List Token) (origin : Option Origin)
    (after : Session) : Prop where
  ink : after.buffer.ink = before.buffer.ink ++ pieces.flatMap Token.ink
  origin : after.buffer.origin = origin
  options : after.writer.options = before.writer.options

theorem Program.takes_of_run {program : Program} (emits : program.Emits) {session final : Session}
    (completed : program.run session = (.ok (), final)) :
    session.Takes (program.emitted session.writer.options.statementEnd session.buffer.origin)
      (program.originAfter session.buffer.origin) final := by
  have reads := Program.reads_of_run Token.isReading_ink emits completed
  have ink := reads.reading
  simp only [Token.flatMap_ink_pieces] at ink
  exact ⟨ink, reads.origin, reads.options⟩

/-- A program that writes, sets sources and puts its parts in braces, on joined lines or under a
source never faults, and its text has the ink of what it emits and no other. The buffer's ink,
before and after the lines are laid out, is that of the emission with the source of every character.
-/
theorem Program.emitted_ink_is_delivered {options : Options}
    (blankBreak : ∀ c ∈ options.lineBreak, c = ' ' ∨ c = '\n') (disk : Disk) {program : Program}
    (emits : program.Emits) :
    let pieces := program.emitted options.statementEnd none
    ∃ final, program.run (.start options disk) = (.ok (), final) ∧
      final.writer.deliverText.1.ink = Text.ink (pieces.flatMap Token.text) ∧
      final.buffer.ink = pieces.flatMap Token.ink ∧
      final.writer.deliverText.2.buffer.ink = pieces.flatMap Token.ink := by
  intro pieces
  obtain ⟨final, completed, _⟩ := Program.run_of_appends emits.appends (.start options disk)
  have taken := Program.takes_of_run emits completed
  have written : final.buffer.ink = pieces.flatMap Token.ink := taken.ink
  have laidOut : final.writer.settle.buffer.ink = pieces.flatMap Token.ink := by
    rw [← written]
    exact Writer.flatMap_lines_settle (fun _ _ => rfl) (fun _ => Line.ink_of_isBlank) final.writer
  have sameOptions : final.writer.settle.options = options := by
    rw [Writer.options_settle]
    exact taken.options
  refine ⟨final, completed, ?_, written, laidOut⟩
  rw [← sameOptions] at blankBreak
  calc
    final.writer.deliverText.1.ink = final.writer.settle.buffer.ink.map Prod.fst :=
      Layout.ink_render blankBreak _
    _ = (pieces.flatMap Token.ink).map Prod.fst := by rw [laidOut]
    _ = Text.ink (pieces.flatMap Token.text) := by
      simp [List.map_flatMap, Token.map_fst_ink, Text.ink_flatMap]

/-- A brace inside an attributed part, with a change of the source before the brace is closed, and
joined lines after it. -/
theorem Program.emitted_ink_is_delivered_with_nested_blocks :
    let source : Source := ⟨0, "a".toList, "x = 1".toList⟩
    let origin : Origin := ⟨source, ⟨0, 1, Nat.zero_le 1⟩⟩
    let write (text : String) := Operation.write .writer .lineAfter (.literal text.toList)
    let program : Program :=
      .block (.attribute (some origin))
        (.step (write "if x")
          (.block (.brace none) (.step (write "f (x\ny)") (.step (.setOrigin none) .done)) .done))
        (.block (.join (some 40)) (.step (write "a") (.step .endStatement .done)) .done)
    let options : Options := { Options.standard with lineBreak := " \n".toList }
    (∀ c ∈ options.lineBreak, c = ' ' ∨ c = '\n') ∧ program.Emits ∧
      ∃ final, program.run (.start options {}) = (.ok (), final) ∧
        final.writer.deliverText.1.ink = "ifx\x7bf(xy)\x7da;".toList ∧
        final.buffer.ink =
          "ifx\x7bf(xy)".toList.map (·, some origin) ++ "\x7da;".toList.map (·, none) := by
  intro source origin write program options
  have blankBreak : ∀ c ∈ options.lineBreak, c = ' ' ∨ c = '\n' := by simp [options]
  have emits : program.Emits := by
    simp [program, write, Program.Emits, Program.All, Operation.Emits, Block.Emits]
  obtain ⟨final, completed, text, ink, _⟩ :=
    Program.emitted_ink_is_delivered blankBreak {} emits
  exact ⟨blankBreak, emits, final, completed, text.trans (by decide), ink.trans (by decide)⟩

end CodeWriter
