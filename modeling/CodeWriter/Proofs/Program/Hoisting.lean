import CodeWriter.Proofs.Buffer.Hoisting
import CodeWriter.Proofs.Program.Collecting

namespace CodeWriter

def Operation.Hoists : Operation → Prop
  | .write _ _ _ => True
  | .endStatement => True
  | .mark _ => True
  | .insert _ _ _ => True
  | .raise _ => True
  | .inspect _ => True
  | _ => False

def Block.Hoists : Block → Prop
  | .attribute _ => False
  | _ => True

def Program.Hoists (program : Program) : Prop :=
  program.All Operation.Hoists Block.Hoists

def Operation.InsertsClearOf (start : Mark) (session : Session) : Operation → Prop
  | .insert _ place _ => start.Spares (session.markOf place)
  | _ => True

instance (start : Mark) (session : Session) :
    (operation : Operation) → Decidable (operation.InsertsClearOf start session)
  | .insert _ place _ => inferInstanceAs (Decidable (start.Spares (session.markOf place)))
  | .write _ _ _ | .endStatement | .mark _ | .setOrigin _ | .raise _ | .edit _ | .inspect _
  | .layout _ | .deliver _ | .freshness _ => .isTrue trivial

/-- No insertion that the program comes to when it runs moves what stands before `start`. -/
def Program.InsertsClearOf (start : Mark) : Program → Session → Prop
  | .done, _ => True
  | .step operation rest, session =>
      operation.InsertsClearOf start session ∧
        ((operation.run session).1.isOk = true →
          InsertsClearOf start rest (operation.run session).2)
  | .block kind body rest, session =>
      InsertsClearOf start body (kind.enter session) ∧
        ((kind.around body.run session).1.isOk = true →
          InsertsClearOf start rest (kind.around body.run session).2)

instance decidableInsertsClearOf (start : Mark) :
    (program : Program) → (session : Session) → Decidable (program.InsertsClearOf start session)
  | .done, _ => .isTrue trivial
  | .step operation rest, session =>
      have := decidableInsertsClearOf start rest (operation.run session).2
      inferInstanceAs (Decidable (operation.InsertsClearOf start session ∧ (_ → _)))
  | .block kind body rest, session =>
      have := decidableInsertsClearOf start body (kind.enter session)
      have := decidableInsertsClearOf start rest (kind.around body.run session).2
      inferInstanceAs (Decidable (body.InsertsClearOf start _ ∧ (_ → _)))

section Hoisting

variable {start : Buffer} {session : Session}

theorem Session.hoistsTo_change {result : Except Fault Buffer}
    (hoisted : start.HoistsTo session.buffer)
    (changed : ∀ buffer, result = .ok buffer → start.HoistsTo buffer) :
    start.HoistsTo (session.change result).2.buffer := by
  cases result with
  | error fault => exact hoisted
  | ok buffer => exact changed buffer rfl

theorem Operation.hoistsTo_run {operation : Operation} (hoists : operation.Hoists)
    (clear : operation.InsertsClearOf start.here session)
    (hoisted : start.HoistsTo session.buffer) :
    start.HoistsTo (operation.run session).2.buffer := by
  cases operation with
  | write route how text =>
      have appends : (Operation.write route how text).Appends := trivial
      obtain ⟨_, _, ran, grown⟩ := Operation.run_of_appends appends session
      have settings := how.settings_apply (session.textOf text) session.buffer
      rw [← Operation.buffer_run_write route] at settings
      rw [ran] at settings ⊢
      exact hoisted.grow grown (congrArg Prod.fst settings)
  | endStatement => exact hoisted.grow (Buffer.growsTo_write _ _) (Buffer.origin_write _ _)
  | mark name =>
      rw [run, Session.buffer_saveMark]
      exact hoisted
  | insert route place text =>
      rw [run]
      refine Session.hoistsTo_change ?_ ?_
      · rwa [Session.buffer_announce]
      · intro buffer inserted
        have sameMark : (session.announce route).markOf place = session.markOf place := by
          cases route <;> rfl
        rw [Session.buffer_announce, sameMark] at inserted
        exact hoisted.insert clear inserted
  | raise fault => exact hoisted
  | inspect question => exact hoisted
  | setOrigin origin => cases hoists
  | edit change => cases hoists
  | layout pass => cases hoists
  | deliver request => cases hoists
  | freshness event => cases hoists

namespace Block

theorem hoistsTo_enter {kind : Block} (hoists : kind.Hoists)
    (begun : start.HoistsTo session.buffer) : start.HoistsTo (kind.enter session).buffer := by
  match kind with
  | .collect route name => rwa [buffer_enter_collect]
  | .brace width =>
      rw [buffer_enter_brace]
      have origin := congrArg Prod.fst (Buffer.settings_writeLine ['{'] session.buffer)
      exact begun.grow (Buffer.growsTo_openBrace _) origin
  | .join width => rwa [buffer_enter_join]
  | .attribute origin => cases hoists
  | .attempt => exact begun

theorem hoistsTo_conclude {kind : Block} (hoists : kind.Hoists)
    (begun : start.HoistsTo session.buffer) {after : Session}
    (acted : start.HoistsTo after.buffer) :
    start.HoistsTo
      (kind.conclude (kind.enter session).buffer.here (kind.restore session after)).2.buffer := by
  match kind with
  | .collect route name =>
      rw [buffer_enter_collect]
      unfold conclude restore
      dsimp only
      split
      · rename_i text kept taken
        rw [Session.buffer_saveText]
        exact acted.takeBack begun.here_le taken
      · exact acted
  | .brace width =>
      rw [buffer_enter_brace]
      have below : start.here.line < session.buffer.openBrace.here.line := by
        have notBefore := begun.here_le
        simp only [Mark.le_iff] at notBefore
        rw [Buffer.openBrace_eq]
        simp only [Buffer.here, Buffer.breakLine, Buffer.push, Buffer.length_lines, Buffer.size,
          Buffer.addTokens] at notBefore ⊢
        omega
      exact Session.hoistsTo_change acted fun _ closed => acted.closeBrace below closed
  | .join width =>
      rw [buffer_enter_join]
      exact Session.hoistsTo_change acted fun _ joined => acted.joinFrom begun.here_le joined
  | .attribute origin => cases hoists
  | .attempt => exact acted

theorem hoistsTo_around {kind : Block} (hoists : kind.Hoists) {body : Program}
    (begun : start.HoistsTo session.buffer)
    (acted : start.HoistsTo (body.run (kind.enter session)).2.buffer) :
    start.HoistsTo (kind.around body.run session).2.buffer := by
  cases outcome : body.run (kind.enter session) with
  | mk result after =>
  rw [outcome] at acted
  cases result with
  | ok _ =>
      rw [around_of_ok outcome]
      exact hoistsTo_conclude hoists begun acted
  | error fault =>
      rw [around_of_error outcome]
      match kind with
      | .collect _ _ => exact acted
      | .brace _ => exact acted
      | .join _ => exact acted
      | .attribute _ => cases hoists
      | .attempt => exact acted

end Block

theorem Program.hoistsTo_run {program : Program} (hoists : program.Hoists)
    (clear : program.InsertsClearOf start.here session)
    (hoisted : start.HoistsTo session.buffer) :
    start.HoistsTo (program.run session).2.buffer := by
  induction program generalizing session with
  | done => exact hoisted
  | step operation rest ih =>
      have stepped := Operation.hoistsTo_run hoists.1 clear.1 hoisted
      have later := clear.2
      unfold run
      split
      · rename_i reply after completed
        rw [completed] at stepped later
        exact ih hoists.2 (later rfl) stepped
      · rename_i fault after failed
        rw [failed] at stepped
        exact stepped
  | block kind body rest ihBody ihRest =>
      have entered := Block.hoistsTo_enter hoists.1 hoisted
      have left := Block.hoistsTo_around hoists.1 hoisted (ihBody hoists.2.1 clear.1 entered)
      have later := clear.2
      unfold run
      split
      · rename_i reply after completed
        rw [completed] at left later
        exact ihRest hoists.2.2 (later rfl) left
      · rename_i fault after failed
        rw [failed] at left
        exact left

end Hoisting

/-- Around an action none of whose insertions moves what was there when the block began. Collecting
keeps all old tokens, and if the action ends without fault it leaves nothing but the old lines, with
tokens put into those above. Joining leaves every line above on a line of its own. -/
theorem Session.blocks_keep_to_their_action {body : Program} (hoists : body.Hoists)
    (session : Session) :
    (∀ (route : Route) (name : Option Text),
      let collect := Block.collect route name
      let final := (collect.around body.run session).2
      body.InsertsClearOf session.buffer.here (collect.enter session) →
        (session.buffer.lines.flatMap Line.tokens).Sublist
            (final.buffer.lines.flatMap Line.tokens) ∧
          ∀ after, body.run (collect.enter session) = (.ok (), after) →
            (∃ text, (collect.around body.run session).1 = .ok (.text text)) ∧
              List.Forall₂ (Line.Widens session.buffer.origin) session.buffer.above
                final.buffer.above ∧
              final.buffer.current.tokens = session.buffer.current.tokens) ∧
    ∀ width : Option Int,
      let join := Block.join width
      let final := (join.around body.run session).2
      body.InsertsClearOf { session.buffer.here with token := 0 } (join.enter session) →
        ∃ wide line later, final.buffer.lines = wide ++ line :: later ∧
          List.Forall₂ (Line.Widens session.buffer.origin) session.buffer.above wide := by
  constructor
  · intro route name collect final clear
    have allowed : collect.Hoists := trivial
    have begun : session.buffer.HoistsTo session.buffer := .refl _
    have acted := Program.hoistsTo_run hoists clear (Block.hoistsTo_enter allowed begun)
    refine ⟨(Block.hoistsTo_around allowed begun acted).sublist, ?_⟩
    intro after completed
    rw [completed] at acted
    obtain ⟨text, kept, taken, widens, tokens⟩ := acted.takeBack_here
    have whole : collect.around body.run session =
        (.ok (.text text), (after.withBuffer kept).saveText name text) :=
      Block.around_collect completed taken
    have finalBuffer : final.buffer = kept := by
      simp only [final, whole, Session.buffer_saveText, Session.buffer_withBuffer]
    rw [finalBuffer, whole]
    exact ⟨⟨text, rfl⟩, widens, tokens⟩
  · intro width join final clear
    let start : Buffer := { session.buffer with current := Line.blank }
    have allowed : join.Hoists := trivial
    have begun : start.HoistsTo session.buffer :=
      ⟨rfl, _, Line.forall₂_widens_refl _, session.buffer.current, [], rfl, List.nil_prefix⟩
    have acted := Program.hoistsTo_run hoists clear (Block.hoistsTo_enter allowed begun)
    obtain ⟨_, wide, widens, line, later, lines, _⟩ :=
      Block.hoistsTo_around allowed begun acted
    exact ⟨wide, line, later, lines, widens⟩

/-- A token put into the line above while the end of an assignment is collected, or joined. -/
theorem Session.blocks_keep_to_their_action_with_argument_put_in :
    let write (text : String) := Operation.write .writer .inline (.literal text.toList)
    let call : Program :=
      .step (write "f(") (.step (.mark (some "slot".toList)) (.step (write ");\nb = ") .done))
    let session := (call.run (.start .standard {})).2
    let body : Program :=
      .step (.insert .writer (.saved "slot".toList) (.literal "x".toList))
        (.step (write "y;\nz;") .done)
    let collect := Block.collect .writer none
    let join := Block.join none
    body.Hoists ∧ body.InsertsClearOf session.buffer.here (collect.enter session) ∧
      body.InsertsClearOf { session.buffer.here with token := 0 } (join.enter session) ∧
      (collect.around body.run session).1 = .ok (.text "y;\nz;".toList) ∧
      (session.buffer.lines.flatMap Line.tokens).Sublist
        ((collect.around body.run session).2.buffer.lines.flatMap Line.tokens) ∧
      (collect.around body.run session).2.buffer.lines.map Line.text =
        ["f(x);".toList, "b = ".toList] ∧
      (∃ wide line later,
        (join.around body.run session).2.buffer.lines = wide ++ line :: later ∧
          List.Forall₂ (Line.Widens none) session.buffer.above wide) ∧
      (join.around body.run session).2.buffer.lines.map Line.text =
        ["f(x);".toList, "b = y;z;".toList] := by
  intro write call session body collect join
  have hoists : body.Hoists := ⟨trivial, trivial, trivial⟩
  have clear : body.InsertsClearOf session.buffer.here (collect.enter session) := by
    decide +kernel
  have clearOfLine :
      body.InsertsClearOf { session.buffer.here with token := 0 } (join.enter session) := by
    decide +kernel
  obtain ⟨collecting, joining⟩ := Session.blocks_keep_to_their_action hoists session
  exact ⟨hoists, clear, clearOfLine, by decide +kernel, (collecting .writer none clear).1,
    by decide +kernel, joining none clearOfLine, by decide +kernel⟩

/-- A declaration hoisted to a place that is the start of a line above moves the lines below it. So
collecting takes back a token from before it, which is then in no line, and joining puts two old
lines on one. -/
theorem Session.blocks_take_in_earlier_lines :
    let write (how : Emission) (text : String) := Operation.write .writer how (.literal text.toList)
    let hoist (text : String) :=
      Operation.insert .writer (.saved "top".toList) (.literal text.toList)
    let top := ((Operation.mark (some "top".toList)).run (.start .standard {})).2
    let first := ((write .inline "b = ").run ((write .lineAfter "a();").run top).2).2
    let collected := (Block.collect .writer none).around
      (Program.step (hoist "var x;") (.step (write .inline "y") .done)).run first
    let second := ((write .inline "c(").run ((write .lineAfter ";").run collected.2).2).2
    let joined := (Block.join none).around
      (Program.step (hoist "var z;") (.step (write .inline "1") .done)).run second
    Session.Reachable (fun _ => True) (fun _ => True) (.start .standard {}) first ∧
      Session.Reachable (fun _ => True) (fun _ => True) (.start .standard {}) second ∧
      first.buffer.lines.map Line.text = ["a();".toList, "b = ".toList] ∧
      collected.1 = .ok (.text "b = y".toList) ∧
      ⟨"b = ".toList, none⟩ ∈ first.buffer.lines.flatMap Line.tokens ∧
      ⟨"b = ".toList, none⟩ ∉ collected.2.buffer.lines.flatMap Line.tokens ∧
      second.buffer.lines.map Line.text = ["var x;".toList, "a();;".toList, "c(".toList] ∧
      joined.2.buffer.lines.map Line.text =
        ["var z;".toList, "var x;".toList, "a();;c(1".toList] := by
  intro write hoist top first collected second joined
  have reachedFirst :
      Session.Reachable (fun _ => True) (fun _ => True) (.start .standard {}) first :=
    .step (.step (.step .start trivial) trivial) trivial
  have reachedSecond :
      Session.Reachable (fun _ => True) (fun _ => True) (.start .standard {}) second :=
    .step (.step (.leave reachedFirst trivial (Program.all_true _)) trivial) trivial
  exact ⟨reachedFirst, reachedSecond, by decide +kernel, by decide +kernel, by decide +kernel,
    by decide +kernel, by decide +kernel, by decide +kernel⟩

end CodeWriter
