import CodeWriter.Proofs.Buffer.Splicing
import CodeWriter.Proofs.Layout.Comments
import CodeWriter.Proofs.Program.Appending
import CodeWriter.Proofs.Program.Reachable

/-! The compact profile parts its lines by nothing, so a comment takes in the text below it. -/

namespace CodeWriter

theorem Options.lineBreak_of_ofProfile {profile : Profile} {width : Int} {options : Options}
    (made : Options.ofProfile profile width = .ok options) :
    options.lineBreak = match profile with
      | .compact => []
      | .pretty => ['\n'] := by
  unfold ofProfile make at made
  cases profile <;> dsimp only at made <;> split at made <;> cases made <;> rfl

/-- In every state of a writer in one of the profiles, the comments in its text end their physical
lines just if the profile is the pretty one or nothing comes below them. -/
theorem Session.comments_end_iff {profile : Profile} {width : Int} {options : Options}
    (made : Options.ofProfile profile width = .ok options) {disk : Disk} {session : Session}
    (reached : Session.Reachable Operation.Unbroken (fun _ => True) (.start options disk) session) :
    let lines := session.writer.settle.buffer.lines
    Layout.CommentsEnd options lines session.writer.deliverText.1 ↔
      profile = .pretty ∨ Layout.NothingBelowComments lines := by
  intro lines
  have lineBreak := Options.lineBreak_of_ofProfile made
  have unbroken : ∀ line ∈ lines, line.Unbroken :=
    Unbroken.settle <|
      (Session.kept_unbroken _).reachable (Session.unbroken_start options disk) reached
  have sameOptions : session.writer.options = options :=
    (Session.kept_options _ _ options).reachable rfl reached
  have text : session.writer.deliverText.1 = Layout.render options lines := by
    rw [Writer.deliverText, Writer.renderedText, Writer.options_settle, sameOptions]
  rw [text]
  cases profile with
  | pretty => simp [Layout.commentsEnd_of_break lineBreak]
  | compact => simp [Layout.commentsEnd_iff_of_no_break lineBreak unbroken]

/-- In a block, a comment with a statement below it. -/
theorem Session.comments_end_iff_in_block :
    let write := Operation.write .writer .inline (.literal "// note\ny();".toList)
    let body := Program.step write .done
    let session := ((Block.brace none).around body.run (.start .standard {})).2
    let lines := session.writer.settle.buffer.lines
    Options.ofProfile .pretty 80 = .ok .standard ∧
      Session.Reachable Operation.Unbroken (fun _ => True) (.start .standard {}) session ∧
      (Layout.CommentsEnd .standard lines session.writer.deliverText.1 ↔
        Profile.pretty = .pretty ∨ Layout.NothingBelowComments lines) ∧
      lines.map Line.isComment = [false, false, true, false, false] ∧
      session.writer.deliverText.1 = "\x7b\n\n  // note\n  y();\n\x7d".toList := by
  intro write body session lines
  have reached :
      Session.Reachable Operation.Unbroken (fun _ => True) (.start .standard {}) session :=
    .leave .start trivial ⟨trivial, trivial⟩
  exact ⟨Options.ofProfile_pretty, reached,
    Session.comments_end_iff Options.ofProfile_pretty reached, by decide +kernel,
    by decide +kernel⟩

/-- A comment on a line of its own and a statement below it: in the compact profile the statement
is part of the comment. -/
theorem Session.compact_comment_takes_in_statement :
    let write (how : Emission) (text : String) := Operation.write .writer how (.literal text.toList)
    let first := ((write .lineAfter "// note").run (.start .compact {})).2
    let session := ((write .inline "f();").run first).2
    let lines := session.writer.settle.buffer.lines
    Session.Reachable Operation.Unbroken (fun _ => True) (.start .compact {}) session ∧
      lines.map Line.text = ["// note".toList, "f();".toList] ∧
      session.writer.deliverText.1 = "// notef();".toList ∧
      ¬Layout.CommentsEnd .compact lines session.writer.deliverText.1 := by
  intro write first session lines
  have reached :
      Session.Reachable Operation.Unbroken (fun _ => True) (.start .compact {}) session :=
    .step (.step .start trivial) trivial
  have unbroken : ∀ line ∈ lines, line.Unbroken :=
    Unbroken.settle <|
      (Session.kept_unbroken _).reachable (Session.unbroken_start .compact {}) reached
  refine ⟨reached, by decide +kernel, by decide +kernel, ?_⟩
  have text : session.writer.deliverText.1 = Layout.render .compact lines := rfl
  rw [text, Layout.commentsEnd_iff_of_no_break rfl unbroken]
  intro nothing
  let comment : Line := { tokens := [⟨"// note".toList, none⟩] }
  let statement : Line := { tokens := [⟨"f();".toList, none⟩] }
  have blank : statement.isBlank = true :=
    nothing [] comment [statement] (by decide +kernel) (by decide +kernel) statement (by simp)
  exact absurd blank (by decide +kernel)

namespace Block

variable {action : Session → Outcome Unit} {session after : Session} {width : Option Int}

theorem around_brace {closed : Buffer}
    (completed : action ((Block.brace width).enter session) = (.ok (), after))
    (done : after.buffer.closeBrace session.buffer.openBrace.here
      (width.getD after.writer.options.width) = .ok closed) :
    (Block.brace width).around action session = (.ok .nothing, after.withBuffer closed) := by
  rw [around_of_ok completed, buffer_enter_brace]
  simp [conclude, restore, done, Session.change]

theorem around_join {joined : Buffer}
    (completed : action ((Block.join width).enter session) = (.ok (), after))
    (done : after.buffer.joinFrom session.buffer.here
      (width.getD after.writer.options.width) = .ok joined) :
    (Block.join width).around action session = (.ok .nothing, after.withBuffer joined) := by
  rw [around_of_ok completed, buffer_enter_join]
  simp [conclude, restore, done, Session.change]

end Block

/-- Around any action that only appends: a block of braces is closed on a line of its own, or the
one line of its body goes behind the opening brace, and then a comment is buried just if that line
or the brace's has one. Joining leaves the lines as they are, or none of them begins with a comment;
then a comment is buried just if one of them has one and something shows below it. -/
theorem Session.joined_lines_bury_comments_iff {body : Program} (appends : body.Appends)
    (session : Session) (width : Option Int) :
    (∃ after closed,
      body.run ((Block.brace width).enter session) = (.ok (), after) ∧
      (Block.brace width).around body.run session = (.ok .nothing, closed) ∧
      let opening := session.buffer.braceLine
      let rows := [opening, after.buffer.current, { tokens := [after.buffer.stamp [' ', '}']] }]
      (closed.buffer.lines = after.buffer.lines ++ [{ tokens := [after.buffer.stamp ['}']] }] ∨
        after.buffer.lines = session.buffer.above ++ [opening, after.buffer.current] ∧
          ∃ line, closed.buffer.lines = session.buffer.above ++ [line] ∧
            Line.Spliced rows line.tokens ∧
            (Line.Buries rows line.tokens ↔
              opening.hasComment = true ∨ after.buffer.current.hasComment = true))) ∧
    ∃ after joined,
      body.run ((Block.join width).enter session) = (.ok (), after) ∧
      (Block.join width).around body.run session = (.ok .nothing, joined) ∧
      (joined.buffer.lines = after.buffer.lines ∨
        ∃ rows line, after.buffer.lines = session.buffer.above ++ rows ∧
          joined.buffer.lines = session.buffer.above ++ [line] ∧
          (∀ row ∈ rows, row.isComment = false) ∧
          Line.Spliced rows line.tokens ∧
          (Line.Buries rows line.tokens ↔ Line.ShowsBelowComment rows)) := by
  constructor
  · obtain ⟨after, completed, grown⟩ :=
      Program.run_of_appends appends ((Block.brace width).enter session)
    rw [Block.buffer_enter_brace] at grown
    obtain ⟨closed, done, result⟩ :=
      grown.closeBrace_spliced (width.getD after.writer.options.width)
    refine ⟨after, after.withBuffer closed, completed, Block.around_brace completed done, ?_⟩
    rcases result with apart | ⟨oneLine, line, lines, spliced⟩
    · exact .inl apart
    · exact .inr ⟨oneLine, line, lines, spliced,
        spliced.buries_iff.trans Buffer.showsBelowComment_of_block⟩
  · obtain ⟨after, completed, grown⟩ :=
      Program.run_of_appends appends ((Block.join width).enter session)
    rw [Block.buffer_enter_join] at grown
    obtain ⟨joined, done, result⟩ :=
      grown.joinFrom_spliced (width.getD after.writer.options.width)
    refine ⟨after, after.withBuffer joined, completed, Block.around_join completed done, ?_⟩
    rcases result with rfl | ⟨rows, line, before, lines, noComment, spliced⟩
    · exact .inl rfl
    · exact .inr ⟨rows, line, before, lines, noComment, spliced, spliced.buries_iff⟩

/-- Behind the last statement, a comment is joined with the lines above it and buries nothing. -/
theorem Session.joined_lines_bury_comments_iff_behind_statement :
    let write (text : String) := Operation.write .writer .inline (.literal text.toList)
    let body : Program := .step (write "f(x,\ny); ") (.step (write "// last") .done)
    let session := Session.start .standard {}
    body.Appends ∧ ∃ joined rows line,
      (Block.join none).around body.run session = (.ok .nothing, joined) ∧
      rows.map Line.text = ["f(x,".toList, "y); // last".toList] ∧
      joined.buffer.lines = [line] ∧ line.text = "f(x,y); // last".toList ∧
      Line.Spliced rows line.tokens ∧ ¬Line.Buries rows line.tokens := by
  intro write body session
  have appends : body.Appends := by simp [body, write, Program.Appends, Program.All,
    Operation.Appends]
  obtain ⟨_, after, joined, completed, around, result⟩ :=
    Session.joined_lines_bury_comments_iff appends session none
  have written : after.buffer.lines =
      [{ tokens := [⟨"f(x,".toList, none⟩] },
        { tokens := [⟨"y); ".toList, none⟩, ⟨"// last".toList, none⟩] }] := by
    have sameAfter : after = (body.run session).2 := (congrArg Prod.snd completed).symm
    rw [sameAfter]
    decide +kernel
  have text : joined.buffer.lines.map Line.text = ["f(x,y); // last".toList] := by
    have sameJoined : joined = ((Block.join none).around body.run session).2 := by rw [around]
    rw [sameJoined]
    decide +kernel
  rcases result with same | ⟨rows, line, before, lines, _, spliced, buries⟩
  · rw [same, written] at text
    exact absurd (congrArg List.length text) (by decide)
  · have sameRows : rows = _ := before.symm.trans written
    rw [lines] at text
    refine ⟨appends, joined, rows, line, around, by rw [sameRows]; decide, lines,
      (List.cons.inj text).1, spliced, ?_⟩
    rw [buries, sameRows]
    decide +kernel

/-- Closing a block on one line buries the brace, and joining a line that ends in a comment buries
the statement below it. -/
theorem Session.joined_lines_bury_brace_and_statement :
    let write (how : Emission) (text : String) := Operation.write .writer how (.literal text.toList)
    let block : Program := .step (write .inline "// end") .done
    let statements : Program :=
      .step (write .inline "x ")
        (.step (write .lineAfter "// note") (.step (write .inline "y ") .done))
    let closed := ((Block.brace none).around block.run (.start .standard {})).2
    let joined := ((Block.join none).around statements.run (.start .standard {})).2
    let blockRows : List Line :=
      [{ tokens := [⟨"\x7b".toList, none⟩] }, { tokens := [⟨"// end".toList, none⟩] },
        { tokens := [⟨" \x7d".toList, none⟩] }]
    let rows : List Line :=
      [{ tokens := [⟨"x ".toList, none⟩, ⟨"// note".toList, none⟩] },
        { tokens := [⟨"y ".toList, none⟩] }]
    block.Appends ∧ statements.Appends ∧
      (block.run ((Block.brace none).enter (.start .standard {}))).2.buffer.lines =
        blockRows.take 2 ∧
      closed.buffer.lines.map Line.text = ["\x7b // end \x7d".toList] ∧
      Line.Buries blockRows closed.buffer.current.tokens ∧
      (statements.run (.start .standard {})).2.buffer.lines = rows ∧
      joined.buffer.lines.map Line.text = ["x // notey ".toList] ∧
      Line.Buries rows joined.buffer.current.tokens := by
  intro write block statements closed joined blockRows rows
  refine ⟨?_, ?_, by decide +kernel, by decide +kernel, ?_, by decide +kernel, by decide +kernel,
    ?_⟩
  · simp [block, write, Program.Appends, Program.All, Operation.Appends]
  · simp [statements, write, Program.Appends, Program.All, Operation.Appends]
  · have tokens : closed.buffer.current.tokens =
        [⟨"\x7b".toList, none⟩, ⟨" ".toList, none⟩, ⟨"// end".toList, none⟩,
          ⟨" \x7d".toList, none⟩] := by decide +kernel
    have spliced : Line.Spliced blockRows closed.buffer.current.tokens := by
      rw [tokens]
      exact (Line.Spliced.empty.behind_row.behind_gap (by decide)).behind_row
    rw [spliced.buries_iff]
    decide +kernel
  · have tokens : joined.buffer.current.tokens = Line.joinTokens rows := by decide +kernel
    rw [tokens, (Line.spliced_joinTokens rows).buries_iff]
    decide +kernel

end CodeWriter
