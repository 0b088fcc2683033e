import CodeWriter.Proofs.Buffer.Joining
import CodeWriter.Proofs.Program.Collecting
import CodeWriter.Proofs.Program.Comments

namespace CodeWriter

namespace Text

/-- All items but the last with a comma behind them. -/
def listed : List Text → List Text
  | [] => []
  | [last] => [last]
  | item :: next :: rest => (item ++ [',']) :: listed (next :: rest)

def listRows (items : List Text) : List Text :=
  ['['] :: (listed items ++ [[']']])

def listLine (items : List Text) : Text :=
  '[' :: ([',', ' '].intercalate items ++ [']'])

@[simp] theorem length_listed (items : List Text) : (listed items).length = items.length := by
  fun_induction listed items with
  | case1 => rfl
  | case2 => rfl
  | case3 item next rest ih => simp [ih]

theorem listed_ne_nil {items : List Text} (nonempty : items ≠ []) : listed items ≠ [] := by
  rwa [← List.length_pos_iff, length_listed, List.length_pos_iff]

theorem intercalate_listRows {items : List Text} (nonempty : items ≠ []) :
    ['\n'].intercalate (listRows items) =
      ['[', '\n'] ++ ['\n'].intercalate (listed items) ++ ['\n', ']'] := by
  have rows : listRows items = [['[']] ++ listed items ++ [[']']] := rfl
  rw [rows, intercalate_concat _ _ (by simp),
    intercalate_append_of_ne_nil _ _ (listed_ne_nil nonempty)]
  simp

theorem mem_listed {items : List Text} {text : Text} (member : text ∈ listed items) :
    ∃ item ∈ items, text = item ∨ text = item ++ [','] := by
  fun_induction listed items with
  | case1 => cases member
  | case2 last => exact ⟨last, List.mem_singleton_self last, .inl (List.mem_singleton.mp member)⟩
  | case3 item next rest ih =>
      rcases List.mem_cons.mp member with rfl | later
      · exact ⟨item, List.mem_cons_self, .inr rfl⟩
      · obtain ⟨other, among, shape⟩ := ih later
        exact ⟨other, List.mem_cons_of_mem item among, shape⟩

theorem forall_mem_listRows {items : List Text} {holds : Text → Prop} (opening : holds ['['])
    (closing : holds [']']) (ofItems : ∀ item ∈ items, holds item ∧ holds (item ++ [','])) :
    ∀ text ∈ listRows items, holds text := by
  intro text member
  simp only [listRows, List.mem_cons, List.mem_append, List.not_mem_nil, or_false] at member
  rcases member with rfl | among | rfl
  · exact opening
  · obtain ⟨item, isItem, rfl | rfl⟩ := mem_listed among
    · exact (ofItems _ isItem).1
    · exact (ofItems item isItem).2
  · exact closing

theorem startsWith_comma (item : Text) :
    startsWith (item ++ [',']) Line.commentStart = startsWith item Line.commentStart := by
  match item with
  | [] => rfl
  | [_] => simp [startsWith, Line.commentStart, List.isPrefixOf]
  | _ :: _ :: _ => rfl

end Text

namespace Line

theorem startsWith_of_isComment {line : Line} (comment : line.isComment = true) :
    line.text.startsWith commentStart = true := by
  obtain ⟨tokens, indent⟩ := line
  induction tokens with
  | nil => cases comment
  | cons token rest ih =>
      cases visible : token.text with
      | nil =>
          have later : isComment ⟨rest, indent⟩ = true := by
            simpa [isComment, firstVisible?, Token.isEmpty, visible] using comment
          simpa [text, visible] using ih later
      | cons c more =>
          have starts : token.text.startsWith commentStart = true := by
            simpa [isComment, firstVisible?, Token.isEmpty, visible] using comment
          rw [Text.startsWith, List.isPrefixOf_iff_prefix] at starts ⊢
          exact starts.trans (List.prefix_append _ _)

theorem text_joinRest_listed {items : List Text} (nonempty : items ≠ []) {second : Line}
    {rest : List Line} (texts : (second :: rest).map Line.text = Text.listed items ++ [[']']]) :
    second.text ++ (joinRest rest).flatMap Token.text =
      [',', ' '].intercalate items ++ [']'] := by
  fun_induction Text.listed items generalizing second rest with
  | case1 => exact absurd rfl nonempty
  | case2 last =>
      obtain ⟨closing, rfl⟩ : ∃ closing, rest = [closing] := by
        have length := congrArg List.length texts
        simpa [List.length_eq_one_iff] using length
      simp only [List.map_cons, List.map_nil, List.cons_append, List.nil_append, List.cons.injEq,
        and_true] at texts
      have closingText : (joinRest [closing]).flatMap Token.text = closing.text := rfl
      rw [closingText, texts.1, texts.2]
      simp
  | case3 item next more ih =>
      obtain ⟨third, fourth, later, rfl⟩ :
          ∃ third fourth later, rest = third :: fourth :: later := by
        have length := congrArg List.length texts
        match rest with
        | [] => simp at length
        | [_] => simp at length
        | third :: fourth :: later => exact ⟨third, fourth, later, rfl⟩
      rw [List.map_cons, List.cons_append, List.cons.injEq] at texts
      have joined := ih (by simp) texts.2
      calc
        second.text ++ (joinRest (third :: fourth :: later)).flatMap Token.text =
            second.text ++ ' ' :: (third.text ++
              (joinRest (fourth :: later)).flatMap Token.text) := by
          simp [joinRest_cons_cons, spaceToken, text]
        _ = item ++ [',', ' '] ++ ([',', ' '].intercalate (next :: more) ++ [']']) := by
          rw [joined, texts.1]
          simp
        _ = [',', ' '].intercalate (item :: next :: more) ++ [']'] := by
          simp [List.intercalate_cons_cons]

theorem text_joinTokens_listRows {items : List Text} (nonempty : items ≠ []) {rows : List Line}
    (texts : rows.map Line.text = Text.listRows items) (indent : Int) :
    text ⟨joinTokens rows, indent⟩ = Text.listLine items := by
  match rows with
  | [] => cases texts
  | [_] =>
      have length := congrArg List.length texts
      simp [Text.listRows] at length
  | first :: second :: rest =>
      rw [List.map_cons, Text.listRows, List.cons.injEq] at texts
      have joined := text_joinRest_listed nonempty texts.2
      calc
        text ⟨joinTokens (first :: second :: rest), indent⟩ =
            first.text ++ (second.text ++ (joinRest rest).flatMap Token.text) := by
          simp [text, joinTokens]
        _ = Text.listLine items := by
          rw [joined, texts.1]
          rfl

theorem canJoin_listRows_iff {items : List Text} (nonempty : items ≠ [])
    (plain : ∀ item ∈ items, item.startsWith commentStart = false) {rows : List Line}
    (texts : rows.map Line.text = Text.listRows items) (width : Int) :
    canJoin width rows = true ↔ ((Text.listLine items).length : Int) < width - 10 := by
  have many : 1 < rows.length := by
    have length := congrArg List.length texts
    simp [Text.listRows] at length
    omega
  have noComment : ∀ row ∈ rows, row.isComment = false := by
    have starts : ∀ text ∈ Text.listRows items, text.startsWith commentStart = false := by
      refine Text.forall_mem_listRows rfl rfl fun item among => ?_
      rw [Text.startsWith_comma]
      exact ⟨plain item among, plain item among⟩
    intro row among
    rw [← Bool.not_eq_true]
    intro comment
    have text := starts row.text (texts ▸ List.mem_map_of_mem among)
    rw [startsWith_of_isComment comment] at text
    cases text
  have sum : (Text.listLine items).length = (rows.map Line.width).sum + (rows.length - 3) := by
    rw [← text_joinTokens_listRows nonempty texts 0]
    exact width_joinTokens rows 0
  rw [canJoin_iff, sum]
  exact ⟨fun short => short.2.2, fun short => ⟨many, noComment, short⟩⟩

end Line

namespace Program

def items (route : Route) : List Text → Program
  | [] => .done
  | [last] => .step (.write route .inline (.literal last)) .done
  | item :: next :: rest =>
      .step (.write route .lineAfter (.literal (item ++ [',']))) (items route (next :: rest))

def list (route : Route) (texts : List Text) : Program :=
  .step (.write route .lineAfter (.literal ['[']))
    (items route texts ++ .step (.write route .lineBefore (.literal [']'])) .done)

theorem appends_items (route : Route) (texts : List Text) : (items route texts).Appends := by
  fun_induction items route texts with
  | case1 => trivial
  | case2 => exact ⟨trivial, trivial⟩
  | case3 item next rest ih => exact ⟨trivial, ih⟩

theorem appends_list (route : Route) (texts : List Text) : (list route texts).Appends :=
  ⟨trivial, (all_append _ _ _ _).mpr ⟨appends_items route texts, trivial, trivial⟩⟩

theorem text_items (route : Route) (texts : List Text) (session : Session) :
    ∃ after, (items route texts).run session = (.ok (), after) ∧
      after.buffer.text = session.buffer.text ++ ['\n'].intercalate (Text.listed texts) := by
  fun_induction items route texts generalizing session with
  | case1 => exact ⟨session, rfl, by simp [Text.listed]⟩
  | case2 last =>
      let write := Operation.write route .inline (.literal last)
      refine ⟨(write.run session).2, rfl, ?_⟩
      rw [Operation.buffer_run_write]
      simp [Emission.apply, Session.textOf, Text.listed]
  | case3 item next rest ih =>
      let write := Operation.write route .lineAfter (.literal (item ++ [',']))
      obtain ⟨after, completed, text⟩ := ih (write.run session).2
      refine ⟨after, completed, ?_⟩
      have joined := Text.intercalate_append_of_ne_nil ['\n'] [item ++ [',']]
        (Text.listed_ne_nil (List.cons_ne_nil next rest))
      rw [List.singleton_append, List.flatMap_singleton] at joined
      rw [text, Operation.buffer_run_write, Text.listed, joined]
      simp [Emission.apply, Session.textOf]

theorem map_text_list (route : Route) {texts : List Text} (nonempty : texts ≠ [])
    (unbroken : ∀ text ∈ texts, '\n' ∉ text) {session : Session}
    (unwritten : session.buffer.lines.map Line.tokens = [[]]) :
    ∃ after, (list route texts).run session = (.ok (), after) ∧
      after.buffer.lines.map Line.text = Text.listRows texts := by
  let opening := Operation.write route .lineAfter (.literal ['['])
  let closing := Operation.write route .lineBefore (.literal [']'])
  obtain ⟨written, completed, text⟩ := text_items route texts (opening.run session).2
  have completedAll : (list route texts).run session = (.ok (), (closing.run written).2) := by
    have split := run_append (items route texts) (.step closing .done) (opening.run session).2
    rw [completed] at split
    exact split
  obtain ⟨line, lines, tokens⟩ := List.map_eq_singleton_iff.mp unwritten
  have blank : session.buffer.text = [] := by simp [Buffer.text, lines, Line.text, tokens]
  have begun : session.Unbroken := by
    intro other among token onLine
    rw [lines, List.mem_singleton] at among
    rw [among, tokens] at onLine
    cases onLine
  have freeAfter : (closing.run written).2.Unbroken := by
    have kept := (Session.kept_unbroken fun _ => True).run (appends_list route texts).unbroken begun
    rwa [completedAll] at kept
  have whole : (closing.run written).2.buffer.text =
      ['\n'].intercalate (Text.listRows texts) := by
    rw [Text.intercalate_listRows nonempty, Operation.buffer_run_write, Emission.apply,
      Buffer.text_writeBelow, text, Operation.buffer_run_write]
    simp [Emission.apply, Session.textOf, blank]
  refine ⟨_, completedAll, ?_⟩
  rw [Buffer.map_text_lines freeAfter, whole]
  apply Text.split_intercalate (List.cons_ne_nil _ _)
  refine Text.forall_mem_listRows (by simp) (by simp) fun text among => ?_
  simp [unbroken text among]

end Program

theorem Block.around_join_of_appends {body : Program} (appends : body.Appends) (session : Session)
    (width : Option Int) :
    ∃ after final first later,
      body.run ((Block.join width).enter session) = (.ok (), after) ∧
      (Block.join width).around body.run session = (.ok .nothing, final) ∧
      after.buffer.lines = session.buffer.above ++ first :: later ∧
      if Line.canJoin (width.getD session.writer.options.width) (first :: later) = true then
        final.buffer.lines =
          session.buffer.above ++ [{ tokens := Line.joinTokens (first :: later) }]
      else final.buffer = after.buffer := by
  obtain ⟨after, completed, grown⟩ :=
    Program.run_of_appends appends ((Block.join width).enter session)
  rw [Block.buffer_enter_join] at grown
  have options : after.writer.options = session.writer.options :=
    (Session.kept_options _ _ _).action trivial body.all_true completed rfl
  obtain ⟨first, later, lines, _⟩ := id grown
  obtain ⟨joined, done, result⟩ :=
    grown.lines_joinFrom lines (width.getD after.writer.options.width)
  refine ⟨after, after.withBuffer joined, first, later, completed,
    Block.around_join completed done, lines, ?_⟩
  rw [options] at result
  exact result

theorem Block.map_text_around_join_iff {items : List Text} (nonempty : items ≠ [])
    (plain : ∀ item ∈ items, item.startsWith Line.commentStart = false) {body : Program}
    (appends : body.Appends) {session : Session} (width : Option Int)
    (onlyLine : session.buffer.above = [])
    (texts : (body.run ((Block.join width).enter session)).2.buffer.lines.map Line.text =
      Text.listRows items) :
    ((Block.join width).around body.run session).2.buffer.lines.map Line.text =
        [Text.listLine items] ↔
      ((Text.listLine items).length : Int) <
        width.getD session.writer.options.width - 10 := by
  obtain ⟨after, final, first, later, completed, around, lines, result⟩ :=
    around_join_of_appends appends session width
  rw [onlyLine, List.nil_append] at lines result
  rw [completed, lines] at texts
  rw [around]
  have short := Line.canJoin_listRows_iff nonempty plain texts (width.getD session.writer.options.width)
  split at result
  · rename_i joins
    refine iff_of_true ?_ (short.mp joins)
    rw [result, List.map_singleton, Line.text_joinTokens_listRows nonempty texts]
  · rename_i apart
    refine iff_of_false (fun single => ?_) (mt short.mpr apart)
    rw [result, lines, texts] at single
    have length := congrArg List.length single
    simp [Text.listRows] at length

/-- Around any action that only appends, in any state and at any width, joining ends without fault.
The rows from the line that the action began on become one line if there are two or more, none of
them a comment, and their widths with a space for every row but the first two and the last come to
less than the width less ten. Those are the tokens and the width of the line. If not, the buffer is
as the action left it. So a list that is written in an empty buffer, in whatever way, with an item
on every line and no comment among the items, becomes the list on one line just if that is short. -/
theorem Session.rows_are_joined_if_short :
    (∀ {body : Program}, body.Appends → ∀ (session : Session) (width : Option Int),
      let before := session.buffer
      let limit := width.getD session.writer.options.width
      let join := Block.join width
      ∃ after final first later,
        body.run (join.enter session) = (.ok (), after) ∧
        join.around body.run session = (.ok .nothing, final) ∧
        after.buffer.lines = before.above ++ first :: later ∧
        let rows := first :: later
        let length := (rows.map Line.width).sum + (later.length - 2)
        if 1 ≤ later.length ∧ (∀ row ∈ rows, row.isComment = false) ∧
            (length : Int) < limit - 10 then
          ∃ line : Line, final.buffer.lines = before.above ++ [line] ∧
            final.buffer.current = line ∧ final.buffer.size = before.size ∧
            line.tokens = (rows.zipIdx.flatMap fun (row, place) =>
              (if 1 < place ∧ place < later.length then [⟨[' '], none⟩] else []) ++ row.tokens) ∧
            line.width = length
        else final.buffer = after.buffer) ∧
    ∀ {items : List Text}, items ≠ [] →
      (∀ item ∈ items, '\n' ∉ item ∧ item.startsWith Line.commentStart = false) →
      ∀ (session : Session) (width : Option Int),
        session.buffer.lines.map Line.tokens = [[]] →
        let limit := width.getD session.writer.options.width
        let join := Block.join width
        (∀ route, (Program.list route items).Appends ∧ ∃ after,
          (Program.list route items).run (join.enter session) = (.ok (), after) ∧
          after.buffer.lines.map Line.text = Text.listRows items) ∧
        ∀ {body : Program}, body.Appends →
          (body.run (join.enter session)).2.buffer.lines.map Line.text = Text.listRows items →
          ((join.around body.run session).2.buffer.lines.map Line.text = [Text.listLine items] ↔
            ((Text.listLine items).length : Int) < limit - 10) := by
  constructor
  · intro body appends session width before limit join
    obtain ⟨after, final, first, later, completed, around, lines, result⟩ :=
      Block.around_join_of_appends appends session width
    refine ⟨after, final, first, later, completed, around, lines, ?_⟩
    intro rows length
    split
    · rename_i joins
      rw [if_pos (Line.canJoin_cons_iff.mpr joins)] at result
      have current := congrArg List.getLast? result
      simp only [Buffer.lines, List.getLast?_concat, Option.some.injEq] at current
      refine ⟨_, result, current, ?_, Line.joinTokens_eq first later, Line.width_joinTokens rows 0⟩
      rw [← Buffer.length_lines, result, List.length_append]
      rfl
    · rename_i apart
      rw [if_neg (mt Line.canJoin_cons_iff.mp apart)] at result
      exact result
  · intro items nonempty plain session width unwritten limit join
    have newlineFree : ∀ item ∈ items, '\n' ∉ item := fun item among => (plain item among).1
    have noComment : ∀ item ∈ items, item.startsWith Line.commentStart = false :=
      fun item among => (plain item among).2
    have above : session.buffer.above = [] := by
      obtain ⟨line, lines, _⟩ := List.map_eq_singleton_iff.mp unwritten
      exact (List.append_eq_singleton_iff.mp lines).elim (·.1) fun other => by cases other.2
    refine ⟨fun route => ⟨Program.appends_list route items, ?_⟩, fun {body} appends texts => ?_⟩
    · apply Program.map_text_list route nonempty newlineFree
      rwa [Block.buffer_enter_join]
    · exact Block.map_text_around_join_iff nonempty noComment appends width above texts

/-- A list with an empty item and a lone slash, behind a source and at both sides of the width. -/
theorem Session.rows_are_joined_if_short_at_width :
    let origin : Origin := ⟨⟨0, "a".toList, "x".toList⟩, ⟨0, 1, by decide⟩⟩
    let items := ["x".toList, [], "/".toList]
    let session := Session.start .standard {}
    let body : Program := .block (.attribute (some origin)) (Program.list .writer items) .done
    body.Appends ∧ Text.listLine items = "[x, , /]".toList ∧
      (∃ final, (Block.join (some 19)).around body.run session = (.ok .nothing, final) ∧
        final.buffer.current.tokens =
          [⟨"[".toList, some origin⟩, ⟨"x,".toList, some origin⟩, ⟨" ".toList, none⟩,
            ⟨",".toList, some origin⟩, ⟨" ".toList, none⟩, ⟨"/".toList, some origin⟩,
            ⟨"]".toList, some origin⟩]) ∧
      ((Block.join (some 19)).around body.run session).2.buffer.lines.map Line.text =
        [Text.listLine items] ∧
      ((Block.join (some 18)).around body.run session).2.buffer.lines.map Line.text ≠
        [Text.listLine items] := by
  intro origin items session body
  have appends : body.Appends := ⟨trivial, Program.appends_list .writer items, trivial⟩
  have texts : (body.run session).2.buffer.lines.map Line.text = Text.listRows items := by
    decide +kernel
  obtain ⟨general, lists⟩ := Session.rows_are_joined_if_short
  obtain ⟨_, final, _, _, _, around, _⟩ := general appends session (some 19)
  have joins (width : Int) :=
    (lists (by decide) (by decide) session (some width) rfl).2 appends texts
  have sameFinal : final = ((Block.join (some 19)).around body.run session).2 := by rw [around]
  refine ⟨appends, by decide, ⟨final, around, ?_⟩, (joins 19).mpr (by decide),
    fun joined => absurd ((joins 18).mp joined) (by decide)⟩
  rw [sameFinal]
  decide +kernel

end CodeWriter
