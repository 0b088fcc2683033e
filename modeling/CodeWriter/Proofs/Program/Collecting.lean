import CodeWriter.Proofs.Buffer.Collecting
import CodeWriter.Proofs.Program.Settings

namespace CodeWriter

theorem Operation.Appends.unbroken {operation : Operation} (appends : operation.Appends) :
    operation.Unbroken := by
  cases operation with
  | edit change => cases appends
  | _ => trivial

theorem Program.Appends.unbroken {program : Program} (appends : program.Appends) :
    program.All Operation.Unbroken fun _ => True :=
  All.mono (fun _ => Operation.Appends.unbroken) (fun _ => id) appends

theorem Block.around_collect {route : Route} {name : Option Text} {action : Session → Outcome Unit}
    {session after : Session} {text : Text} {kept : Buffer}
    (completed : action (session.announce route) = (.ok (), after))
    (taken : after.buffer.takeBack session.buffer.here = .ok (text, kept)) :
    (Block.collect route name).around action session =
      (.ok (.text text), (after.withBuffer kept).saveText name text) := by
  rw [around_of_ok completed]
  simp [conclude, restore, taken]

/-- In every state that a program passes through, with a line feed as both separators: an action
that only appends can be collected. The lines are then those from before it, and the old text and
the collected one make the text at the end of the action, with a line feed between them if the
action began on a new line. If it did not, writing the collected text gives the lines that the
action gives in place. -/
theorem Session.collected_text_is_written_text {options : Options} {disk : Disk}
    (lineBreak : options.lineBreak = ['\n']) (gap : options.gap = ['\n']) {session : Session}
    (reached : Session.Reachable Operation.Unbroken (fun _ => True) (.start options disk) session)
    {action : Program} (appends : action.Appends) (route : Route) (name : Option Text) :
    let collect := Block.collect route name
    ∃ after text final,
      action.run (collect.enter session) = (.ok (), after) ∧
      collect.around action.run session = (.ok (.text text), final) ∧
      final.buffer.lines.map Line.tokens = session.buffer.lines.map Line.tokens ∧
      final.buffer.lines.getLast? = some final.buffer.current ∧
      after.buffer.text =
        session.buffer.text ++
          (if after.buffer.goesOnAt session.buffer.here = true then text else '\n' :: text) ∧
      (after.buffer.goesOnAt session.buffer.here = true →
        (final.buffer.write text).lines.map Line.text = after.buffer.lines.map Line.text) := by
  intro collect
  have unbroken : session.buffer.Unbroken :=
    (Session.kept_unbroken _).reachable (Session.unbroken_start options disk) reached
  have separators : session.buffer.separators = (options.lineBreak, options.gap) :=
    (Session.kept_separators _ _ _).reachable rfl reached
  obtain ⟨after, completed, grown⟩ := Program.run_of_appends appends (collect.enter session)
  have unbrokenAfter : after.Unbroken :=
    (Session.kept_unbroken _).action trivial (Program.Appends.unbroken appends) completed unbroken
  have separatorsAfter : after.buffer.separators = (options.lineBreak, options.gap) :=
    (Session.kept_separators _ _ _).action trivial appends completed separators
  rw [Block.buffer_enter_collect] at grown
  obtain ⟨text, kept, taken, above, tokens⟩ := grown.takeBack
  have written := grown.text_takeBack ((congrArg Prod.fst separatorsAfter).trans lineBreak)
    ((congrArg Prod.snd separatorsAfter).trans gap) taken
  refine ⟨after, text, _, completed, Block.around_collect completed taken, ?_, ?_, written, ?_⟩
  · simp [Buffer.lines, above, tokens]
  · simp [Buffer.lines]
  · intro goesOn
    have unbrokenKept : kept.Unbroken := unbrokenAfter.takeBack taken
    rw [Session.buffer_saveText, Session.buffer_withBuffer,
      Buffer.map_text_lines (unbrokenKept.write text), Buffer.map_text_lines unbrokenAfter,
      Buffer.text_write, Buffer.text_congr above tokens, written, if_pos goesOn]

/-- Behind other text, a block is collected that holds a block on one line and a collected text. -/
theorem Session.collected_text_is_written_text_of_block :
    let write (text : String) := Operation.write .writer .inline (.literal text.toList)
    let session := ((write "x = 1; ").run (.start .standard {})).2
    let inner : Program := .block (.brace none) (.step (write "f();") .done) .done
    let action : Program :=
      .step (write "if (y) ")
        (.block (.brace none)
          (.block (.collect .writer none) (.step (write "\n\n") .done)
            (.step (write "if (z) ") (inner ++ .step (write "\ng();") .done))) .done)
    let text := "if (y) \x7b\nif (z) \x7b f(); \x7d\ng();\n\x7d".toList
    Options.standard.lineBreak = ['\n'] ∧ Options.standard.gap = ['\n'] ∧
      Session.Reachable Operation.Unbroken (fun _ => True) (.start .standard {}) session ∧
      action.Appends ∧
      ∃ final, (Block.collect .writer none).around action.run session = (.ok (.text text), final) ∧
        final.buffer.lines.map Line.tokens = [[⟨"x = 1; ".toList, none⟩]] ∧
        (final.buffer.write text).lines.map Line.text =
          ["x = 1; if (y) \x7b".toList, "if (z) \x7b f(); \x7d".toList, "g();".toList,
            "\x7d".toList] := by
  intro write session inner action text
  have reached :
      Session.Reachable Operation.Unbroken (fun _ => True) (.start .standard {}) session :=
    .step .start trivial
  have appends : action.Appends := by
    simp [action, inner, write, Program.Appends, Program.All, Operation.Appends]
  obtain ⟨after, collected, final, completed, around, tokens, _, _, lines⟩ :=
    Session.collected_text_is_written_text rfl rfl reached appends .writer none
  have evaluated :
      ((Block.collect .writer none).around action.run session).1 = .ok (.text text) := by
    decide +kernel
  have sameAfter : after = (action.run ((Block.collect .writer none).enter session)).2 := by
    rw [completed]
  have goesOn : after.buffer.goesOnAt session.buffer.here = true := by
    rw [sameAfter]
    decide +kernel
  rw [around] at evaluated
  cases evaluated
  refine ⟨rfl, rfl, reached, appends, final, around, tokens.trans (by decide +kernel), ?_⟩
  rw [lines goesOn, sameAfter]
  decide +kernel

end CodeWriter
