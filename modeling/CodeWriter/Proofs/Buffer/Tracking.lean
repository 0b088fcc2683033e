import CodeWriter.Proofs.Buffer.Cursor
import CodeWriter.Proofs.Buffer.Hoisting
import CodeWriter.Proofs.Buffer.Settings
import CodeWriter.Proofs.Layout.Content
import CodeWriter.Proofs.Layout.Sweeping

/-! The cursor ends at the last line, and the lines are those of a buffer without a cursor. -/

namespace CodeWriter

theorem Buffer.getLast?_lines (buffer : Buffer) : buffer.lines.getLast? = some buffer.current := by
  simp [lines]

theorem Buffer.eq_of_lines {first second : Buffer} (lines : first.lines = second.lines)
    (settings : first.settings = second.settings) : first = second := by
  obtain ⟨above, current, origin, lineBreak, gap⟩ := first
  obtain ⟨above', current', origin', lineBreak', gap'⟩ := second
  obtain ⟨rfl, same⟩ := List.append_inj' lines rfl
  cases same
  cases settings
  rfl

namespace CursorBuffer

/-- The list refers to lines that were made, to each one once, and they read as given. -/
structure Lists (buffer : CursorBuffer) (lines : List Line) : Prop where
  distinct : buffer.order.Nodup
  made : ∀ ref ∈ buffer.order, ref < buffer.made.length
  reads : buffer.lines = lines

/-- The lines are those of the other buffer, and the cursor is at the last one. -/
structure Shows (buffer : CursorBuffer) (shown : Buffer) : Prop where
  lists : buffer.Lists shown.lines
  last : buffer.order.getLast? = some buffer.cursor
  settings : buffer.settings = shown.settings

variable {buffer after : CursorBuffer} {shown : Buffer} {lines : List Line} {ref place : Nat}

theorem line_edit (change : Line → Line) (small : ref < buffer.made.length) :
    (buffer.edit ref change).line ref = change (buffer.line ref) := by
  simp [line, edit, small]

theorem line_edit_of_ne {other : Nat} (ne : ref ≠ other) (change : Line → Line) :
    (buffer.edit ref change).line other = buffer.line other := by
  simp [line, edit, ne]

theorem line_insertLines (inserted : List Line) (small : ref < buffer.made.length) :
    (buffer.insertLines place inserted).line ref = buffer.line ref := by
  simp [line, insertLines, List.getElem?_append_left small]

theorem length_made_insertLines (place : Nat) (inserted : List Line) (buffer : CursorBuffer) :
    (buffer.insertLines place inserted).made.length = buffer.made.length + inserted.length := by
  simp [insertLines]

theorem map_line_insertLines (place : Nat) (inserted : List Line) (buffer : CursorBuffer) :
    (List.range' buffer.made.length inserted.length).map
      (fun ref => (buffer.insertLines place inserted).line ref) = inserted := by
  refine List.ext_getElem (by simp) fun index _ small => ?_
  simp [line, insertLines, small]

theorem perm_insertLines (place : Nat) (inserted : List Line) (buffer : CursorBuffer) :
    (buffer.insertLines place inserted).order.Perm
      (List.range' buffer.made.length inserted.length ++ buffer.order) := by
  have moved := List.perm_append_comm_assoc (buffer.order.take place)
    (List.range' buffer.made.length inserted.length) (buffer.order.drop place)
  rwa [List.take_append_drop, ← List.append_assoc] at moved

theorem addLine_eq (line : Line) (buffer : CursorBuffer) :
    buffer.addLine line = buffer.insertLines buffer.order.length [line] := by
  simp [addLine, insertLines]

theorem lines_length (buffer : CursorBuffer) : buffer.lines.length = buffer.order.length := by
  simp [CursorBuffer.lines]

namespace Lists

theorem length (lists : buffer.Lists lines) : buffer.order.length = lines.length := by
  rw [← lists.reads, lines_length]

theorem edit (lists : buffer.Lists lines) (found : buffer.order[place]? = some ref)
    (change : Line → Line) : (buffer.edit ref change).Lists (lines.modify place change) := by
  have within := (List.getElem?_eq_some_iff.mp found).1
  refine ⟨lists.distinct, ?_, ?_⟩
  · intro other member
    simpa [CursorBuffer.edit] using lists.made other member
  · rw [← lists.reads]
    refine List.ext_getElem? fun index => ?_
    rw [List.getElem?_modify]
    unfold CursorBuffer.lines
    rw [List.getElem?_map, List.getElem?_map]
    have sameOrder : (buffer.edit ref change).order = buffer.order := rfl
    rw [sameOrder]
    cases listed : buffer.order[index]? with
    | none => simp
    | some other =>
        by_cases hit : place = index
        · subst hit
          cases found.symm.trans listed
          simp [line_edit change (lists.made ref (List.mem_of_getElem? found))]
        · have ne : ref ≠ other := by
            rintro rfl
            exact hit ((List.getElem?_inj within lists.distinct).mp (found.trans listed.symm))
          simp [hit, line_edit_of_ne ne]

theorem lines_insertLines (lists : buffer.Lists lines) (place : Nat) (inserted : List Line) :
    (buffer.insertLines place inserted).lines = lines.take place ++ inserted ++ lines.drop place := by
  have old {refs : List Nat} (listed : refs ⊆ buffer.order) :
      refs.map (fun ref => (buffer.insertLines place inserted).line ref) =
        refs.map fun ref => buffer.line ref :=
    List.map_congr_left fun ref member => line_insertLines inserted (lists.made ref (listed member))
  calc
    (buffer.insertLines place inserted).lines =
        (buffer.order.take place).map (fun ref => (buffer.insertLines place inserted).line ref) ++
          (List.range' buffer.made.length inserted.length).map
            (fun ref => (buffer.insertLines place inserted).line ref) ++
          (buffer.order.drop place).map
            (fun ref => (buffer.insertLines place inserted).line ref) := by
      rw [← List.map_append, ← List.map_append]
      rfl
    _ = buffer.lines.take place ++ inserted ++ buffer.lines.drop place := by
      rw [old (List.take_subset _ _), old (List.drop_subset _ _), map_line_insertLines,
        List.map_take, List.map_drop]
      rfl
    _ = lines.take place ++ inserted ++ lines.drop place := by rw [lists.reads]

theorem insertLines (lists : buffer.Lists lines) (place : Nat) (inserted : List Line) :
    (buffer.insertLines place inserted).Lists (lines.take place ++ inserted ++ lines.drop place) := by
  have fresh : ∀ ref ∈ List.range' buffer.made.length inserted.length,
      buffer.made.length ≤ ref ∧ ref < buffer.made.length + inserted.length := by
    intro ref member
    simpa using member
  have reordered := perm_insertLines place inserted buffer
  refine ⟨?_, ?_, lists.lines_insertLines place inserted⟩
  · rw [reordered.nodup_iff, List.nodup_append]
    refine ⟨List.nodup_range', lists.distinct, ?_⟩
    rintro ref isNew _ isOld rfl
    have := fresh ref isNew
    have := lists.made ref isOld
    omega
  · intro ref member
    rw [length_made_insertLines]
    rcases List.mem_append.mp (reordered.mem_iff.mp member) with isNew | isOld
    · exact (fresh ref isNew).2
    · have := lists.made ref isOld
      omega

theorem addLine (lists : buffer.Lists lines) (line : Line) :
    (buffer.addLine line).Lists (lines ++ [line]) := by
  have added := lists.insertLines buffer.order.length [line]
  rwa [← addLine_eq, lists.length, List.take_length, List.drop_length, List.append_nil] at added

theorem sublist (lists : buffer.Lists lines) {refs : List Nat} (kept : refs.Sublist buffer.order) :
    ({ buffer with order := refs } : CursorBuffer).Lists (refs.map fun ref => buffer.line ref) :=
  ⟨lists.distinct.sublist kept, fun ref member => lists.made ref (kept.mem member), rfl⟩

theorem eraseIdx (lists : buffer.Lists lines) (place : Nat) :
    ({ buffer with order := buffer.order.eraseIdx place } : CursorBuffer).Lists
      (lines.eraseIdx place) := by
  have erased := lists.sublist (List.eraseIdx_sublist buffer.order place)
  rw [← List.eraseIdx_map] at erased
  rwa [← lists.reads]

theorem cutIndex (lists : buffer.Lists shown.lines) (index : Int) :
    buffer.cutIndex index = shown.cutIndex index := by
  unfold CursorBuffer.cutIndex Buffer.cutIndex
  rw [lists.length, Buffer.length_lines]

theorem keepTo (lists : buffer.Lists shown.lines) (index : Int) :
    (buffer.keepTo index).Lists (shown.lines.take (shown.cutIndex index)) := by
  have kept := lists.sublist (List.take_sublist (buffer.cutIndex index) buffer.order)
  rw [List.map_take] at kept
  rwa [← lists.cutIndex, ← lists.reads]

theorem toEnd (lists : buffer.Lists shown.lines) (settings : buffer.settings = shown.settings) :
    buffer.toEnd.Shows shown := by
  refine ⟨⟨lists.distinct, lists.made, lists.reads⟩, ?_, settings⟩
  have listed : buffer.order ≠ [] := by
    rw [← List.length_pos_iff, lists.length, Buffer.length_lines]
    exact Nat.succ_pos _
  simp [CursorBuffer.toEnd, List.getLast?_eq_some_getLast listed]

theorem push (lists : buffer.Lists lines) {line : Line} (same : shown.lines = lines ++ [line])
    (settings : buffer.settings = shown.settings) : (buffer.push line).Shows shown := by
  obtain ⟨distinct, made, reads⟩ := lists.addLine line
  refine ⟨⟨distinct, made, reads.trans same.symm⟩, ?_, settings⟩
  simp [CursorBuffer.push, CursorBuffer.addLine]

end Lists

namespace Shows

theorem lines_eq (shows : buffer.Shows shown) : buffer.lines = shown.lines :=
  shows.lists.reads

theorem current_eq (shows : buffer.Shows shown) : buffer.current = shown.current := by
  have last : buffer.lines.getLast? = some buffer.current := by
    rw [CursorBuffer.lines, List.getLast?_map, shows.last]
    rfl
  rw [shows.lines_eq, Buffer.getLast?_lines] at last
  exact (Option.some.inj last).symm

theorem length (shows : buffer.Shows shown) : buffer.order.length = shown.size := by
  rw [shows.lists.length, Buffer.length_lines]

theorem view_eq (shows : buffer.Shows shown) : buffer.view = shown := by
  refine Buffer.eq_of_lines ?_ shows.settings
  have whole := Buffer.lines_withLines shown.lines_ne_nil shown
  rw [← shows.lines_eq] at whole
  exact whole.trans shows.lines_eq

theorem stamp (shows : buffer.Shows shown) (text : Text) : buffer.stamp text = shown.stamp text := by
  rw [CursorBuffer.stamp, Buffer.stamp, (Prod.mk.inj shows.settings).1]

theorem here (shows : buffer.Shows shown) : buffer.here = shown.here := by
  rw [CursorBuffer.here, Buffer.here, shows.length, shows.current_eq, Buffer.size]
  simp

theorem line? (shows : buffer.Shows shown) (index : Int) : buffer.line? index = shown.line? index := by
  rw [CursorBuffer.line?, Buffer.line?, shows.lines_eq]

theorem validate (shows : buffer.Shows shown) (mark : Mark) :
    buffer.validate mark = shown.validate mark := by
  have sameLine := shows.line? mark.line
  unfold CursorBuffer.validate Buffer.validate
  cases found : shown.line? mark.line <;> simp [sameLine, found, shows.length]

theorem edit (shows : buffer.Shows shown) (change : Line → Line) :
    (buffer.edit buffer.cursor change).Shows { shown with current := change shown.current } := by
  have found : buffer.order[shown.above.length]? = some buffer.cursor := by
    have last := shows.last
    rwa [List.getLast?_eq_getElem?, shows.length] at last
  have edited := shows.lists.edit found change
  refine ⟨?_, shows.last, shows.settings⟩
  rwa [Buffer.lines, List.modify_eq_take_drop, List.take_left, List.drop_left,
    List.modifyHead_cons] at edited

theorem addTokens (shows : buffer.Shows shown) (tokens : List Token) :
    (buffer.addTokens tokens).Shows (shown.addTokens tokens) :=
  shows.edit _

theorem breakLine (shows : buffer.Shows shown) : buffer.breakLine.Shows shown.breakLine :=
  shows.lists.push rfl shows.settings

theorem push (shows : buffer.Shows shown) (line : Line) :
    (buffer.push line).Shows (shown.push line) :=
  shows.lists.push rfl shows.settings

end Shows

theorem Lists.addTexts (texts : List Text) (lists : buffer.Lists shown.lines)
    (settings : buffer.settings = shown.settings) :
    (addTexts texts buffer).Lists (Buffer.pushTexts texts shown).lines ∧
      (addTexts texts buffer).settings = (Buffer.pushTexts texts shown).settings := by
  fun_induction CursorBuffer.addTexts texts buffer generalizing shown with
  | case1 => exact ⟨lists, settings⟩
  | case2 => exact ⟨lists.addLine _, settings⟩
  | case3 text rest buffer more ih =>
      have stamped : buffer.stamp text = shown.stamp text := by
        rw [CursorBuffer.stamp, Buffer.stamp, (Prod.mk.inj settings).1]
      rw [Buffer.pushTexts, ← stamped]
      · exact ih (lists.addLine _) settings
      · exact more

namespace Shows

theorem write (shows : buffer.Shows shown) (text : Text) :
    (buffer.write text).Shows (shown.write text) := by
  have begun := shows.addTokens [buffer.stamp (text.cut '\n').1]
  unfold CursorBuffer.write Buffer.write
  rw [← shows.stamp]
  dsimp only
  split
  · obtain ⟨lists, settings⟩ := Lists.addTexts (text.cut '\n').2 begun.lists begun.settings
    exact lists.toEnd settings
  · rename_i unbroken
    have single := Text.cut_append_of_not_mem unbroken []
    rw [List.append_nil] at single
    rw [single] at begun ⊢
    exact begun

theorem writeLine (shows : buffer.Shows shown) (text : Text) :
    (buffer.writeLine text).Shows (shown.writeLine text) :=
  (shows.write text).breakLine

theorem writeBelow (shows : buffer.Shows shown) (text : Text) :
    (buffer.writeBelow text).Shows (shown.writeBelow text) :=
  shows.breakLine.write text

theorem replaceTail (shows : buffer.Shows shown) (index : Int) (line : Line) :
    (buffer.replaceTail index line).Shows (shown.replaceTail index line) :=
  (shows.lists.keepTo index).push rfl shows.settings

theorem dropFrom (shows : buffer.Shows shown) (index : Int) :
    (buffer.dropFrom index).1 = (shown.dropFrom index).1 ∧
      (buffer.dropFrom index).2.Shows (shown.dropFrom index).2 := by
  have kept := shows.lists.keepTo index
  have settings : (buffer.keepTo index).settings = shown.settings := shows.settings
  unfold CursorBuffer.dropFrom Buffer.dropFrom
  refine ⟨by rw [shows.lines_eq, shows.lists.cutIndex], ?_⟩
  dsimp only
  by_cases nothing : shown.lines.take (shown.cutIndex index) = []
  · rw [nothing] at kept ⊢
    rw [if_pos (List.isEmpty_iff_length_eq_zero.mpr kept.length)]
    exact (kept.addLine Line.blank).toEnd settings
  · have listed : (buffer.keepTo index).order ≠ [] := by
      rwa [← List.length_pos_iff, kept.length, List.length_pos_iff]
    rw [if_neg (by simpa using listed)]
    rw [← Buffer.lines_withLines nothing shown] at kept
    exact kept.toEnd settings

end Shows

/-- Both fault alike, or both give results that belong together. -/
inductive Agree {α β : Type} (related : α → β → Prop) : Except Fault α → Except Fault β → Prop
  | error (fault : Fault) : Agree related (.error fault) (.error fault)
  | ok {result : α} {other : β} (alike : related result other) :
      Agree related (.ok result) (.ok other)

theorem Agree.mono {α β : Type} {related other : α → β → Prop} {first : Except Fault α}
    {second : Except Fault β} (agree : Agree related first second)
    (weaker : ∀ {result result'}, related result result' → other result result') :
    Agree other first second := by
  cases agree with
  | error fault => exact .error fault
  | ok alike => exact .ok (weaker alike)

/-- The list ends as before, and nothing but the lines was touched. -/
structure SameEnd (before after : CursorBuffer) : Prop where
  last : after.order.getLast? = before.order.getLast?
  cursor : after.cursor = before.cursor
  settings : after.settings = before.settings

theorem SameEnd.refl (buffer : CursorBuffer) : buffer.SameEnd buffer :=
  ⟨rfl, rfl, rfl⟩

theorem SameEnd.trans {before after later : CursorBuffer} (first : before.SameEnd after)
    (second : after.SameEnd later) : before.SameEnd later :=
  ⟨second.last.trans first.last, second.cursor.trans first.cursor,
    second.settings.trans first.settings⟩

theorem sameEnd_insertLines (inserted : List Line) (within : place < buffer.order.length) :
    buffer.SameEnd (buffer.insertLines place inserted) := by
  refine ⟨?_, rfl, rfl⟩
  have below : buffer.order.drop place ≠ [] := by
    simpa using within
  rw [CursorBuffer.insertLines, List.getLast?_append_of_ne_nil _ below, List.getLast?_drop,
    if_neg (Nat.not_le.mpr within)]

namespace Shows

theorem sameEnd {result : Buffer} (shows : buffer.Shows shown) (lists : after.Lists result.lines)
    (same : buffer.SameEnd after) (settings : result.settings = shown.settings) :
    after.Shows result := by
  refine ⟨lists, ?_, (same.settings.trans shows.settings).trans settings.symm⟩
  rw [same.last, shows.last, same.cursor]

theorem insert (shows : buffer.Shows shown) (mark : Mark) (text : Text) :
    Agree (fun after other => buffer.SameEnd after ∧ after.Shows other) (buffer.insert mark text)
      (shown.insert mark text) := by
  unfold CursorBuffer.insert Buffer.insert
  rw [shows.validate]
  simp only [shows.stamp]
  cases valid : shown.validate mark with
  | error fault => exact .error fault
  | ok _ =>
      obtain ⟨above, line, later, token, parts, rfl⟩ := Buffer.lines_of_validate valid
      have within : above.length < buffer.order.length := by
        rw [shows.lists.length, parts]
        simp
      dsimp only
      rw [Int.toNat_natCast]
      split
      · have same := sameEnd_insertLines (text.withoutFinalBreak.physicalLines.map fun part =>
          { tokens := [shown.stamp part] }) within
        refine .ok ⟨same, shows.sameEnd ?_ same rfl⟩
        rw [Buffer.lines_insertLines parts]
        have lists := shows.lists.insertLines above.length
          (text.withoutFinalBreak.physicalLines.map fun part =>
            { tokens := [shown.stamp part] })
        rwa [parts, List.take_left, List.drop_left] at lists
      · split
        · exact .error _
        · refine .ok ?_
          have found := List.getElem?_eq_getElem within
          unfold CursorBuffer.insertToken
          rw [found]
          have lists := shows.lists.edit found fun marked =>
            { marked with tokens := marked.tokens.insertIdx token (shown.stamp text) }
          refine ⟨⟨rfl, rfl, rfl⟩, shows.sameEnd ?_ ⟨rfl, rfl, rfl⟩ rfl⟩
          rw [Buffer.lines_insertToken parts]
          rwa [parts, List.modify_eq_take_drop, List.take_left, List.drop_left,
            List.modifyHead_cons] at lists

theorem takeBack (shows : buffer.Shows shown) (mark : Mark) :
    Agree (fun first second => first.1 = second.1 ∧ first.2.Shows second.2)
      (buffer.takeBack mark) (shown.takeBack mark) := by
  unfold CursorBuffer.takeBack Buffer.takeBack
  rw [shows.validate]
  cases shown.validate mark with
  | error fault => exact .error fault
  | ok _ =>
      obtain ⟨sameLater, kept⟩ := shows.dropFrom (mark.line + 1)
      rw [shows.view_eq]
      generalize buffer.dropFrom (mark.line + 1) = first at sameLater kept ⊢
      generalize shown.dropFrom (mark.line + 1) = second at sameLater kept ⊢
      refine .ok ⟨?_, kept.edit _⟩
      rw [sameLater, kept.current_eq]

theorem fitsBrace (shows : buffer.Shows shown) (mark : Mark) (width : Int) :
    buffer.fitsBrace mark width = shown.fitsBrace mark width := by
  unfold CursorBuffer.fitsBrace Buffer.fitsBrace
  rw [shows.line?, shows.length, shows.current_eq]

theorem collapse (shows : buffer.Shows shown) {mark : Mark} (last : mark.line = shown.above.length) :
    Agree Shows (buffer.collapse mark) (.ok shown.collapse) := by
  obtain ⟨sameBody, opening⟩ := shows.dropFrom mark.line
  have cut : shown.cutIndex mark.line = shown.above.length := by
    rw [last]
    exact Buffer.cutIndex_natCast _ _
  have body : (shown.dropFrom mark.line).1 = [shown.current] := by
    rw [Buffer.dropFrom, cut, Buffer.lines, List.drop_left]
  have above : (shown.dropFrom mark.line).2 = shown.withLines shown.above := by
    rw [Buffer.dropFrom, cut, Buffer.lines, List.take_left]
  rw [body] at sameBody
  rw [above] at opening
  unfold CursorBuffer.collapse Buffer.collapse
  rw [← Prod.eta (buffer.dropFrom mark.line), sameBody]
  dsimp only
  split
  · exact .ok (opening.write _)
  · exact .ok (((opening.write _).addTokens _).write _)

theorem closeBrace (shows : buffer.Shows shown) (mark : Mark) (width : Int) :
    Agree Shows (buffer.closeBrace mark width) (shown.closeBrace mark width) := by
  unfold CursorBuffer.closeBrace Buffer.closeBrace
  rw [shows.validate]
  cases valid : shown.validate mark with
  | error fault => exact .error fault
  | ok _ =>
      dsimp only
      rw [shows.fitsBrace]
      split
      · rename_i fits
        refine shows.collapse ?_
        obtain ⟨line, found, _⟩ := Buffer.validate_iff.mp valid
        obtain ⟨natural, found⟩ := Buffer.line?_eq_some_iff.mp found
        have within := (List.getElem?_eq_some_iff.mp found).1
        simp only [Buffer.fitsBrace, Bool.and_eq_true, decide_eq_true_eq] at fits
        rw [Buffer.length_lines] at within
        unfold Buffer.size at within fits
        omega
      · exact .ok (shows.writeBelow _)

theorem joinFrom (shows : buffer.Shows shown) (mark : Mark) (width : Int) :
    Agree Shows (buffer.joinFrom mark width) (shown.joinFrom mark width) := by
  unfold CursorBuffer.joinFrom Buffer.joinFrom
  rw [shows.validate, shows.lines_eq]
  cases shown.validate mark with
  | error fault => exact .error fault
  | ok _ =>
      dsimp only
      split
      · exact .ok (shows.replaceTail _ _)
      · exact .ok shows

end Shows

theorem Lists.indentFrom (unit indent : Int) {refs : List Nat} (distinct : refs.Nodup)
    (made : ∀ ref ∈ refs, ref < buffer.made.length) :
    let after := CursorBuffer.indentFrom unit indent refs buffer
    (∀ ref, ref ∉ refs → after.line ref = buffer.line ref) ∧
      refs.map (fun ref => after.line ref) =
        Layout.indentFrom unit indent (refs.map fun ref => buffer.line ref) ∧
      after.made.length = buffer.made.length ∧ after.order = buffer.order ∧
      buffer.SameEnd after := by
  intro after
  induction refs generalizing buffer indent with
  | nil => exact ⟨fun _ _ => rfl, rfl, rfl, rfl, rfl, rfl, rfl⟩
  | cons ref rest ih =>
      obtain ⟨apart, distinct⟩ := List.nodup_cons.mp distinct
      obtain ⟨small, made⟩ := List.forall_mem_cons.mp made
      let placed := buffer.edit ref fun line => line.placedAt unit indent
      have length : placed.made.length = buffer.made.length := by
        simp [placed, CursorBuffer.edit]
      obtain ⟨others, below, sameLength, sameOrder, sameEnd⟩ :=
        @ih placed (((buffer.line ref).placedAt unit indent).nextIndent unit) distinct
          (fun other member => length ▸ made other member)
      have here : after.line ref = (buffer.line ref).placedAt unit indent :=
        (others ref apart).trans (line_edit _ small)
      have unmoved : rest.map (fun other => placed.line other) =
          rest.map fun other => buffer.line other := by
        refine List.map_congr_left fun other member => line_edit_of_ne ?_ _
        rintro rfl
        exact apart member
      refine ⟨?_, ?_, sameLength.trans length, sameOrder,
        sameEnd.last, sameEnd.cursor, sameEnd.settings⟩
      · intro other elsewhere
        obtain ⟨ne, further⟩ := not_or.mp (List.mem_cons.not.mp elsewhere)
        exact (others other further).trans (line_edit_of_ne (Ne.symm ne) _)
      · rw [List.map_cons, List.map_cons, Layout.indentFrom_cons, here, ← unmoved, ← below]
        rfl

theorem Lists.indent (lists : buffer.Lists lines) (unit : Int) :
    (buffer.indent unit).Lists (Layout.indent unit lines) ∧ buffer.SameEnd (buffer.indent unit) := by
  obtain ⟨_, below, length, order, sameEnd⟩ :=
    Lists.indentFrom unit 0 lists.distinct lists.made
  refine ⟨⟨?_, ?_, ?_⟩, sameEnd⟩
  · rw [CursorBuffer.indent, order]
    exact lists.distinct
  · rw [CursorBuffer.indent, order, length]
    exact lists.made
  · rw [CursorBuffer.lines, CursorBuffer.indent, order, below, ← lists.reads]
    rfl

theorem sameEnd_eraseIdx (within : place + 1 < buffer.order.length) :
    buffer.SameEnd { buffer with order := buffer.order.eraseIdx place } := by
  refine ⟨?_, rfl, rfl⟩
  have below : buffer.order.drop (place + 1) ≠ [] := by
    simpa using within
  rw [List.eraseIdx_eq_take_drop_succ, List.getLast?_append_of_ne_nil _ below, List.getLast?_drop,
    if_neg (Nat.not_le.mpr within)]

theorem Lists.insertIdx (lists : buffer.Lists lines) (within : place ≤ lines.length) (line : Line) :
    (buffer.insertLines place [line]).Lists (lines.insertIdx place line) := by
  have inserted : lines.insertIdx place line = lines.take place ++ line :: lines.drop place := by
    have later := List.modifyTailIdx_add (List.cons line) 0 (lines.take place) (lines.drop place)
    rwa [List.take_append_drop, List.length_take, Nat.min_eq_left within] at later
  have lists := lists.insertLines place [line]
  rwa [List.append_assoc, List.singleton_append, ← inserted] at lists

theorem exists_window {unit : Int} {spaced : List Line}
    (step : Layout.spaceAt unit lines place = some spaced) :
    ∃ line next afterNext, lines[place]? = some line ∧ lines[place + 1]? = some next ∧
      lines[place + 2]? = some afterNext := by
  unfold Layout.spaceAt at step
  split at step
  · rename_i line next afterNext first second third
    exact ⟨line, next, afterNext, first, second, third⟩
  · cases step

theorem Lists.spaceAt {unit : Int} {spaced : List Line} (lists : buffer.Lists lines)
    (step : Layout.spaceAt unit lines place = some spaced) :
    ∃ after, buffer.spaceAt unit place = some after ∧ after.Lists spaced ∧ buffer.SameEnd after := by
  obtain ⟨line, next, afterNext, first, second, third⟩ := exists_window step
  have within : place + 2 < lines.length := (List.getElem?_eq_some_iff.mp third).1
  have listed : place + 2 < buffer.order.length := lists.length ▸ within
  unfold Layout.spaceAt at step
  unfold CursorBuffer.spaceAt
  rw [first, second, third] at step
  rw [lists.reads, first, second, third]
  dsimp only at step ⊢
  split at step
  · rename_i blank
    cases step
    exact ⟨_, if_pos blank, lists.eraseIdx place, sameEnd_eraseIdx (by omega)⟩
  rename_i visible
  rw [if_neg visible]
  split at step
  · rename_i comment
    cases step
    exact ⟨_, if_pos comment, lists.insertIdx (by omega) _, sameEnd_insertLines _ (by omega)⟩
  rename_i noComment
  rw [if_neg noComment]
  split at step
  · rename_i block
    cases step
    exact ⟨_, if_pos block, lists.insertIdx (by omega) _, sameEnd_insertLines _ (by omega)⟩
  rename_i noBlock
  rw [if_neg noBlock]
  split at step
  · rename_i ends
    cases step
    exact ⟨_, if_pos ends, lists.insertIdx (by omega) _, sameEnd_insertLines _ listed⟩
  · rename_i noEnd
    cases step
    exact ⟨_, if_neg noEnd, lists, .refl _⟩

theorem Lists.sweepAt {spaced : List Line} {unit : Int} {places : List Nat}
    (lists : buffer.Lists lines) (swept : places.foldlM (Layout.spaceAt unit) lines = some spaced) :
    ∃ after, places.foldlM (CursorBuffer.spaceAt unit) buffer = some after ∧ after.Lists spaced ∧
      buffer.SameEnd after := by
  induction places generalizing buffer lines with
  | nil =>
      cases swept
      exact ⟨buffer, rfl, lists, .refl _⟩
  | cons place rest ih =>
      rw [List.foldlM_cons] at swept
      obtain ⟨next, step, further⟩ := Option.bind_eq_some_iff.mp swept
      obtain ⟨middle, found, listed, sameEnd⟩ := lists.spaceAt step
      obtain ⟨after, folded, spaced, sameEnd'⟩ := ih listed further
      rw [List.foldlM_cons, found]
      exact ⟨after, folded, spaced, sameEnd.trans sameEnd'⟩

namespace Shows

theorem relaid (shows : buffer.Shows shown) (lists : after.Lists lines) (nonempty : lines ≠ [])
    (same : buffer.SameEnd after) : after.Shows (shown.withLines lines) := by
  rw [← Buffer.lines_withLines nonempty shown] at lists
  exact shows.sameEnd lists same rfl

theorem indent (shows : buffer.Shows shown) (unit : Int) :
    (buffer.indent unit).Shows (shown.withLines (Layout.indent unit shown.lines)) := by
  obtain ⟨indented, same⟩ := shows.lists.indent unit
  refine shows.relaid indented ?_ same
  rw [← List.length_pos_iff, Layout.indent, Layout.length_indentFrom, Buffer.length_lines]
  exact Nat.succ_pos _

/-- The pass comes through, and the cursor that it leaves alone is at the last line still. -/
theorem sweep (shows : buffer.Shows shown) (unit : Int) :
    ∃ after, buffer.sweep unit = some after ∧ buffer.SameEnd after ∧
      after.Shows (shown.withLines (Layout.space unit shown.lines)) := by
  obtain ⟨indented, same⟩ := shows.lists.indent unit
  have swept := Layout.sweep_eq_space unit shown.lines
  unfold Layout.sweep at swept
  rw [← shows.lists.length] at swept
  obtain ⟨after, folded, spaced, same'⟩ := indented.sweepAt swept
  exact ⟨after, folded, same.trans same',
    shows.relaid spaced (Layout.space_ne_nil unit shown.lines_ne_nil) (same.trans same')⟩

theorem space (shows : buffer.Shows shown) (unit : Int) :
    buffer.SameEnd (buffer.space unit) ∧
      (buffer.space unit).Shows (shown.withLines (Layout.space unit shown.lines)) := by
  obtain ⟨after, swept, same, spaced⟩ := shows.sweep unit
  rw [CursorBuffer.space, swept]
  exact ⟨same, spaced⟩

theorem arrange (shows : buffer.Shows shown) (options : Options) :
    buffer.SameEnd (buffer.arrange options) ∧
      (buffer.arrange options).Shows (shown.withLines (Layout.arrange options shown.lines)) := by
  unfold CursorBuffer.arrange Layout.arrange
  split
  · exact shows.space options.indent
  · rw [Buffer.withLines_lines]
    exact ⟨.refl buffer, shows⟩

end Shows

theorem shows_empty (lineBreak gap : Text) : (empty lineBreak gap).Shows (.empty lineBreak gap) := by
  refine ⟨⟨?_, ?_, rfl⟩, rfl, rfl⟩
  · simp [empty]
  · simp [empty]

end CursorBuffer

end CodeWriter
