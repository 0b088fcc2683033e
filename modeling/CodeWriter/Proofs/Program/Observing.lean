import CodeWriter.Proofs.Program.Beyond
import CodeWriter.Proofs.SourceMap.Watching

/-! The layout of all lines takes no notice of what an earlier one did to those above. -/

namespace CodeWriter

namespace Program

/-- The second program is the first one with deliveries between its steps, whatever faults they
have. -/
inductive Observed : Program → Program → Prop
  | done : Observed .done .done
  | step {operation : Operation} {rest observed : Program} (later : Observed rest observed) :
      Observed (.step operation rest) (.step operation observed)
  | block {kind : Block} {body rest observed : Program} (later : Observed rest observed) :
      Observed (.block kind body rest) (.block kind body observed)
  | deliver {program observed : Program} (request : Delivery) (later : Observed program observed) :
      Observed program (.block .attempt (.step (.deliver request) .done) observed)

end Program

namespace Session

/-- Sessions that go on in the same way: they have the same texts and, but for its indent, the same
current line, and a layout of more lines takes no notice of which lines stand above it. -/
structure Interchangeable (first second : Session) : Prop where
  edge : second.beyond second.buffer.above.length = first.beyond first.buffer.above.length
  continued : ∀ (line : Line) (later : List Line), first.buffer.current.tokens <+: line.tokens →
    Layout.arrange first.writer.options (second.buffer.above ++ line :: later) =
      Layout.arrange first.writer.options (first.buffer.above ++ line :: later)

namespace Interchangeable

variable {first second : Session}

theorem refl (session : Session) : session.Interchangeable session :=
  ⟨rfl, fun _ _ _ => rfl⟩

theorem options (alike : first.Interchangeable second) :
    second.writer.options = first.writer.options :=
  options_of_beyond alike.edge

theorem texts (alike : first.Interchangeable second) : second.texts = first.texts := by
  have same := congrArg Session.texts alike.edge
  exact same

theorem current (alike : first.Interchangeable second) :
    second.buffer.current.unplaced first.writer.options =
      first.buffer.current.unplaced first.writer.options := by
  have edges : second.buffer.current.unplaced second.writer.options =
      first.buffer.current.unplaced first.writer.options :=
    congrArg (fun session => session.writer.buffer.current) alike.edge
  rwa [alike.options] at edges

theorem arrange_lines (alike : first.Interchangeable second) :
    Layout.arrange second.writer.options second.buffer.lines =
      Layout.arrange first.writer.options first.buffer.lines := by
  rw [alike.options, Buffer.lines, Buffer.lines, ← alike.continued _ [] (List.prefix_refl _)]
  apply Layout.arrange_congr
  simp [alike.current]

theorem of_growsTo (alike : first.Interchangeable second) {firstFinal secondFinal : Session}
    (firstGrown : first.buffer.GrowsTo firstFinal.buffer)
    (secondGrown : second.buffer.GrowsTo secondFinal.buffer)
    (options : firstFinal.writer.options = first.writer.options)
    (edge : secondFinal.beyond second.buffer.above.length =
      firstFinal.beyond first.buffer.above.length) : firstFinal.Interchangeable secondFinal := by
  obtain ⟨firstBetween, firstAbove, firstStart⟩ := firstGrown.above
  obtain ⟨secondBetween, secondAbove, _⟩ := secondGrown.above
  have between : secondBetween.map (Line.unplaced firstFinal.writer.options) =
      firstBetween.map (Line.unplaced firstFinal.writer.options) := by
    have newAbove := map_above_of_beyond edge
    rwa [secondAbove, firstAbove, List.drop_left, List.drop_left] at newAbove
  have length : secondBetween.length = firstBetween.length := by
    simpa using congrArg List.length between
  constructor
  · rw [secondAbove, firstAbove, List.length_append, List.length_append, ← beyond_beyond, edge,
      length, beyond_beyond]
  · intro line later extended
    obtain ⟨start, rest, begins, startExtended⟩ := firstStart line later extended
    rw [secondAbove, firstAbove, List.append_assoc, List.append_assoc]
    calc
      Layout.arrange firstFinal.writer.options
            (second.buffer.above ++ (secondBetween ++ line :: later)) =
          Layout.arrange firstFinal.writer.options
            (second.buffer.above ++ (firstBetween ++ line :: later)) :=
        Layout.arrange_congr (by simp [between])
      _ = Layout.arrange firstFinal.writer.options
            (first.buffer.above ++ (firstBetween ++ line :: later)) := by
        rw [begins, options]
        exact alike.continued start rest startExtended

theorem run (alike : first.Interchangeable second) {program : Program} (plain : program.Plain) :
    ∃ firstFinal secondFinal, program.run first = (.ok (), firstFinal) ∧
      program.run second = (.ok (), secondFinal) ∧ firstFinal.Interchangeable secondFinal ∧
      program.captured second = program.captured first := by
  obtain ⟨firstFinal, firstRun, firstGrown⟩ := Program.run_of_appends plain.appends first
  obtain ⟨secondFinal, secondRun, secondGrown⟩ := Program.run_of_appends plain.appends second
  obtain ⟨firstBeyond, firstTexts⟩ :=
    Program.run_beyond plain (Nat.le_refl first.buffer.above.length)
  obtain ⟨secondBeyond, secondTexts⟩ :=
    Program.run_beyond plain (Nat.le_refl second.buffer.above.length)
  rw [alike.edge, firstBeyond, firstRun, secondRun] at secondBeyond
  have edge := (Prod.mk.inj secondBeyond).2.symm
  have options : (program.run first).2.writer.options = first.writer.options :=
    (Session.kept_options _ _ first.writer.options).run plain rfl
  rw [firstRun] at options
  refine ⟨firstFinal, secondFinal, firstRun, secondRun, ?_, ?_⟩
  · exact alike.of_growsTo firstGrown secondGrown options edge
  · rw [← secondTexts, alike.edge, firstTexts]

theorem deliver (alike : first.Interchangeable second) (request : Delivery) :
    first.Interchangeable (request.run second).2 := by
  rcases request.session_run second with same | ⟨registry, same⟩
  · rw [same]
    exact alike
  rw [same]
  cases settled : second.writer.settled with
  | true =>
      rw [Writer.settle_of_settled settled]
      exact ⟨alike.edge, alike.continued⟩
  | false =>
      rcases List.eq_nil_or_concat (Layout.arrange second.writer.options second.buffer.lines) with
        noLines | ⟨laid, placed, laidOut⟩
      · exact absurd noLines (Layout.arrange_ne_nil _ second.buffer.lines_ne_nil)
      rw [List.concat_eq_append] at laidOut
      have settles : second.writer.settle =
          { second.writer with
            buffer := { second.buffer with above := laid, current := placed }
            settled := true } := by
        unfold Session.buffer at laidOut
        simp [Writer.settle, settled, Buffer.withLines, laidOut, Session.buffer]
      rw [settles]
      constructor
      · rw [← alike.edge, beyond_above, beyond_above, ← Layout.unplaced_of_arrange laidOut]
        rfl
      · intro line later extended
        have sameTokens : second.buffer.current.tokens = first.buffer.current.tokens := by
          simpa using congrArg Line.tokens alike.current
        have extendedSecond : second.buffer.current.tokens <+: line.tokens := by
          rwa [sameTokens]
        have continued := Layout.arrange_continued laidOut extendedSecond later
        rw [alike.options] at continued
        exact continued.trans (alike.continued line later extended)

end Interchangeable

end Session

theorem Block.around_attempt_deliver (request : Delivery) (session : Session) :
    ∃ reply, Block.attempt.around (Program.run (.step (.deliver request) .done)) session =
      (.ok reply, (request.run session).2) := by
  have inside : (Program.run (.step (.deliver request) .done) session).2 =
      (request.run session).2 := by
    have single : (Operation.deliver request).run session = request.run session := rfl
    rw [Program.run, single]
    rcases request.run session with ⟨_ | _, _⟩ <;> rfl
  rw [← inside]
  exact around_attempt _ session

namespace Program

theorem run_append_ok {first : Program} {session middle : Session}
    (completed : first.run session = (.ok (), middle)) (second : Program) :
    (first ++ second).run session = second.run middle := by
  rw [run_append, completed]

theorem captured_append_ok {first : Program} {session middle : Session}
    (completed : first.run session = (.ok (), middle)) (second : Program) :
    (first ++ second).captured session = first.captured session ++ second.captured middle := by
  induction first generalizing session with
  | done =>
      cases completed
      rfl
  | step operation rest ih =>
      unfold run at completed
      split at completed
      · rename_i reply after stepped
        simp only [step_append, captured, stepped]
        exact ih completed
      · cases completed
  | block kind body rest _ ih =>
      unfold run at completed
      split at completed
      · rename_i reply after left
        simp only [block_append, captured, left]
        rw [ih completed, List.append_assoc _ _ (second.captured middle)]
      · cases completed

/-- Both runs end well, at sessions that go on in the same way, and collect the same texts. -/
def RunsAlike (program observed : Program) (first second : Session) : Prop :=
  ∃ firstFinal secondFinal, program.run first = (.ok (), firstFinal) ∧
    observed.run second = (.ok (), secondFinal) ∧ firstFinal.Interchangeable secondFinal ∧
    secondFinal.writer.Steady ∧ observed.captured second = program.captured first

theorem runsAlike_append {part rest observed : Program} (plain : part.Plain)
    (later : ∀ {first second : Session}, first.Interchangeable second → second.writer.Steady →
      RunsAlike rest observed first second)
    {first second : Session} (alike : first.Interchangeable second)
    (steady : second.writer.Steady) :
    RunsAlike (part ++ rest) (part ++ observed) first second := by
  obtain ⟨firstMiddle, secondMiddle, firstRun, secondRun, middle, texts⟩ := alike.run plain
  have steadyMiddle : secondMiddle.writer.Steady := by
    have kept := steady_run plain.quiet.deliversBetween steady
    rwa [secondRun] at kept
  obtain ⟨firstFinal, secondFinal, firstRest, secondRest, final, steadyFinal, textsRest⟩ :=
    later middle steadyMiddle
  refine ⟨firstFinal, secondFinal, ?_, ?_, final, steadyFinal, ?_⟩
  · rw [run_append_ok firstRun, firstRest]
  · rw [run_append_ok secondRun, secondRest]
  · rw [captured_append_ok firstRun, captured_append_ok secondRun, texts, textsRest]

theorem Observed.runsAlike {program observed : Program} (watched : Observed program observed)
    (plain : program.Plain) {first second : Session} (alike : first.Interchangeable second)
    (steady : second.writer.Steady) : RunsAlike program observed first second := by
  induction watched generalizing first second with
  | done => exact ⟨first, second, rfl, rfl, alike, steady, rfl⟩
  | @step operation rest observed later ih =>
      have single : (Program.step operation .done).Plain := ⟨plain.1, trivial⟩
      exact runsAlike_append single (ih plain.2) alike steady
  | @block kind body rest observed later ih =>
      have single : (Program.block kind body .done).Plain := ⟨plain.1, plain.2.1, trivial⟩
      exact runsAlike_append single (ih plain.2.2) alike steady
  | deliver request later ih =>
      obtain ⟨reply, delivered⟩ := Block.around_attempt_deliver request second
      have through : (Operation.deliver request).ThroughWriter := trivial
      obtain ⟨firstFinal, secondFinal, firstRun, secondRun, final, steadyFinal, texts⟩ :=
        ih plain (alike.deliver request) (Operation.steady_run through steady)
      refine ⟨firstFinal, secondFinal, firstRun, ?_, final, steadyFinal, ?_⟩
      · rw [run, delivered]
        exact secondRun
      · rw [captured, delivered]
        exact texts

/-- Texts and maps that are asked for between the steps of a program, whatever faults the maps have,
change nothing of what comes of it: the texts that it collects and keeps, the text at its end, and
the map at its end, or the fault of that map. -/
theorem observed_run_agrees (options : Options) (disk : Disk) {program observed : Program}
    (plain : program.Plain) (watched : Observed program observed) :
    let start := Session.start options disk
    ∃ final observedFinal, program.run start = (.ok (), final) ∧
      observed.run start = (.ok (), observedFinal) ∧
      observed.captured start = program.captured start ∧
      observedFinal.texts = final.texts ∧
      observedFinal.writer.deliverText.1 = final.writer.deliverText.1 ∧
      ∀ disk file, (observedFinal.writer.deliverMap disk file).1 =
        (final.writer.deliverMap disk file).1 := by
  intro start
  have steadyStart : start.writer.Steady := Writer.steady_start options
  obtain ⟨final, observedFinal, completed, observedCompleted, alike, observedSteady, texts⟩ :=
    watched.runsAlike plain (.refl start) steadyStart
  have steady : final.writer.Steady := by
    have kept := steady_run plain.quiet.deliversBetween steadyStart
    rwa [completed] at kept
  have sameLines : observedFinal.writer.settle.buffer.lines = final.writer.settle.buffer.lines := by
    rw [observedSteady.lines_settle, steady.lines_settle]
    exact alike.arrange_lines
  refine ⟨final, observedFinal, completed, observedCompleted, texts, alike.texts, ?_, ?_⟩
  · unfold Writer.deliverText Writer.renderedText
    rw [sameLines, Writer.options_settle, Writer.options_settle, alike.options]
  · intro disk file
    unfold Writer.deliverMap
    dsimp only
    rw [sameLines, Writer.options_settle, Writer.options_settle, alike.options]
    exact Document.fst_ofLines_some disk _ file _ _ _

/-- Collected text is written again, in braces. Texts are asked for in between, and a map that has a
fault: a span starts behind the end of its source. -/
theorem observed_run_agrees_with_faulty_map :
    let write (text : String) := Operation.write .writer .inline (.literal text.toList)
    let saved := Operation.write .writer .inline (.saved "body".toList)
    let origin : Origin := ⟨⟨0, "a".toList, "x".toList⟩, ⟨2, 3, by decide⟩⟩
    let looking (request : Delivery) (rest : Program) : Program :=
      .block .attempt (.step (.deliver request) .done) rest
    let collecting := Block.collect .writer (some "body".toList)
    let body : Program := .step (write "f();\ng();") .done
    let attributed := Program.block (.attribute (some origin)) (.step (write "\nh();") .done)
    let program : Program :=
      .step (write "if (y) ") (.block collecting body
        (.block (.brace none) (.step saved .done) (attributed .done)))
    let observed : Program :=
      .step (write "if (y) ") (looking .text (.block collecting body
        (looking .text (.block (.brace none) (.step saved .done)
          (looking .text (attributed (looking (.map none) .done)))))))
    program.Plain ∧ Observed program observed ∧
      ∃ observedFinal, observed.run (.start .standard {}) = (.ok (), observedFinal) ∧
        observed.captured (.start .standard {}) = ["f();\ng();".toList] ∧
        observedFinal.writer.deliverText.1 =
          "if (y) \x7b\n  f();\n  g();\n\x7d\n\nh();".toList ∧
        (observedFinal.writer.deliverMap {} none).1 = .error (.offsetOutside 2 1) := by
  intro write saved origin looking collecting body attributed program observed
  have plain : program.Plain := by
    simp [program, body, attributed, collecting, write, saved, Plain, All, Operation.Plain,
      Block.ThroughWriter]
  have watched : Observed program observed :=
    .step (.deliver _ (.block (.deliver _ (.block (.deliver _ (.block (.deliver _ .done)))))))
  obtain ⟨final, observedFinal, completed, observedCompleted, texts, _, text, map⟩ :=
    observed_run_agrees .standard {} plain watched
  have sameFinal : final = (program.run (.start .standard {})).2 := by rw [completed]
  subst sameFinal
  exact ⟨plain, watched, observedFinal, observedCompleted, texts.trans (by decide +kernel),
    text.trans (by decide +kernel), (map {} none).trans (by decide +kernel)⟩

end Program

end CodeWriter
