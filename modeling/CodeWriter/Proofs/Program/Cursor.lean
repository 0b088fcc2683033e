import CodeWriter.Proofs.Buffer.Tracking
import CodeWriter.Proofs.Program.Settling

/-! Programs on a buffer that keeps its cursor apart. Their answers and lines are the same. -/

namespace CodeWriter

/-- A session whose lines are in `buffer`. The lines in `rest` are not looked at. -/
structure CursorSession where
  rest : Session
  buffer : CursorBuffer
deriving DecidableEq, Repr

abbrev CursorOutcome (α : Type) := Except Fault α × CursorSession

namespace CursorBuffer

def emit (how : Emission) (text : Text) (buffer : CursorBuffer) : CursorBuffer :=
  match how with
  | .inline => buffer.write text
  | .lineAfter => buffer.writeLine text
  | .lineBefore => buffer.writeBelow text

def change (buffer : CursorBuffer) : Edit → Reply × CursorBuffer
  | .breakLine => (.nothing, buffer.breakLine)
  | .dropFrom index => (.lines (buffer.dropFrom index).1, (buffer.dropFrom index).2)
  | .replaceTail index line => (.nothing, buffer.replaceTail index line)
  | .push line => (.nothing, buffer.push line)
  | .addTokens tokens => (.nothing, buffer.addTokens tokens)

def pass (buffer : CursorBuffer) : LayoutPass → Reply × CursorBuffer
  | .indent unit => (.number (Layout.closingIndent unit buffer.lines), buffer.indent unit)
  | .space unit => (.nothing, buffer.space unit)
  | .arrange options => (.nothing, buffer.arrange options)

end CursorBuffer

/-- A file name without a map: refused before anything is laid out. -/
def Delivery.refused : Delivery → Bool
  | .product file withMap => file.isSome && !withMap
  | _ => false

theorem Delivery.run_of_refused {request : Delivery} (refused : request.refused = true)
    (session : Session) : request.run session = (.error .fileWithoutMap, session) := by
  match request, refused with
  | .product file withMap, refused =>
      have condition : (file.isSome && !withMap) = true := refused
      simp [run, Writer.deliver, condition, Except.map]

theorem Delivery.run_settle {request : Delivery} (accepted : request.refused = false)
    (session : Session) :
    request.run { session with writer := session.writer.settle } = request.run session := by
  match request, accepted with
  | .text, _ => simp [run, Writer.deliverText]
  | .textBefore ending, _ => cases ending <;> simp [run, Writer.deliverText, Session.textOf]
  | .map file, _ => simp [run, Writer.deliverMap]
  | .mapJson file style, _ => simp [run, Writer.deliverMap]
  | .product file withMap, accepted =>
      have condition : (file.isSome && !withMap) = false := accepted
      simp [run, Writer.deliver, Writer.deliverText, condition]

namespace CursorSession

def start (options : Options) (disk : Disk) : CursorSession where
  rest := .start options disk
  buffer := .empty options.lineBreak options.gap

/-- The session as it is read, without its cursor. -/
def view (state : CursorSession) : Session :=
  state.rest.withBuffer state.buffer.view

def withBuffer (buffer : CursorBuffer) (state : CursorSession) : CursorSession :=
  { state with buffer }

def withOrigin (origin : Option Origin) (state : CursorSession) : CursorSession :=
  { state with buffer := { state.buffer with origin } }

def unsettle (state : CursorSession) : CursorSession :=
  { state with rest := state.rest.unsettle }

def announce (route : Route) (state : CursorSession) : CursorSession :=
  { state with rest := state.rest.announce route }

def saveText (name : Option Text) (text : Text) (state : CursorSession) : CursorSession :=
  { state with rest := state.rest.saveText name text }

def saveMark (name : Option Text) (mark : Mark) (state : CursorSession) : CursorSession :=
  { state with rest := state.rest.saveMark name mark }

def change (result : Except Fault CursorBuffer) (state : CursorSession) : CursorOutcome Reply :=
  match result with
  | .ok buffer => (.ok .nothing, state.withBuffer buffer)
  | .error fault => (.error fault, state)

def settle (state : CursorSession) : CursorSession :=
  if state.rest.writer.settled then state
  else
    { rest := { state.rest with writer := { state.rest.writer with settled := true } }
      buffer := state.buffer.arrange state.rest.writer.options }

/-- What only reads the lines. -/
def read (action : Session → Outcome Reply) (state : CursorSession) : CursorOutcome Reply :=
  ((action state.view).1, { state with rest := (action state.view).2 })

def deliver (request : Delivery) (state : CursorSession) : CursorOutcome Reply :=
  if request.refused then (.error .fileWithoutMap, state) else state.settle.read request.run

def step (operation : Operation) (state : CursorSession) : CursorOutcome Reply :=
  match operation with
  | .write route how text =>
      (.ok .nothing,
        (state.announce route).withBuffer (state.buffer.emit how (state.rest.textOf text)))
  | .endStatement =>
      (.ok .nothing,
        state.unsettle.withBuffer (state.buffer.write state.rest.writer.options.statementEnd))
  | .insert route place text =>
      (state.announce route).change
        (state.buffer.insert (state.rest.markOf place) (state.rest.textOf text))
  | .mark name => (.ok (.mark state.buffer.here), state.saveMark name state.buffer.here)
  | .setOrigin origin => (.ok (.origin origin), state.withOrigin origin)
  | .raise fault => (.error fault, state)
  | .edit change =>
      (.ok (state.buffer.change change).1, state.withBuffer (state.buffer.change change).2)
  | .inspect question => (question.answer state.view, state)
  | .layout pass => (.ok (state.buffer.pass pass).1, state.withBuffer (state.buffer.pass pass).2)
  | .deliver request => state.deliver request
  | .freshness event => state.read (Operation.freshness event).run

def enter (block : Block) (state : CursorSession) : CursorSession :=
  match block with
  | .collect route _ => state.announce route
  | .brace none => state.unsettle.withBuffer state.buffer.openBrace
  | .brace (some _) => state.withBuffer state.buffer.openBrace
  | .join none => state.unsettle
  | .join (some _) => state
  | .attribute origin => state.withOrigin origin
  | .attempt => state

def conclude (mark : Mark) (state : CursorSession) : Block → CursorOutcome Reply
  | .collect _ name =>
      match state.buffer.takeBack mark with
      | .ok (text, buffer) => (.ok (.text text), (state.withBuffer buffer).saveText name text)
      | .error fault => (.error fault, state)
  | .brace width =>
      state.change (state.buffer.closeBrace mark (width.getD state.rest.writer.options.width))
  | .join width =>
      state.change (state.buffer.joinFrom mark (width.getD state.rest.writer.options.width))
  | .attribute _ => (.ok .nothing, state)
  | .attempt => (.ok (.caught none), state)

def recover (fault : Fault) (state : CursorSession) : Block → CursorOutcome Reply
  | .attempt => (.ok (.caught (some fault)), state)
  | _ => (.error fault, state)

def restore (before after : CursorSession) : Block → CursorSession
  | .attribute _ => after.withOrigin before.buffer.origin
  | _ => after

def around (block : Block) (action : CursorSession → CursorOutcome Unit) (state : CursorSession) :
    CursorOutcome Reply :=
  match action (state.enter block) with
  | (.ok (), after) => (state.restore after block).conclude (state.enter block).buffer.here block
  | (.error fault, after) => (state.restore after block).recover fault block

def run : Program → CursorSession → CursorOutcome Unit
  | .done, state => (.ok (), state)
  | .step operation rest, state =>
      match state.step operation with
      | (.ok _, state) => run rest state
      | (.error fault, state) => (.error fault, state)
  | .block kind body rest, state =>
      match state.around kind (run body) with
      | (.ok _, state) => run rest state
      | (.error fault, state) => (.error fault, state)

def semantics : Program.Semantics CursorSession where
  step operation state := (state.step operation).2
  enter block state := state.enter block
  leave block body state := (state.around block (run body)).2

end CursorSession

namespace CursorBuffer.Shows

variable {buffer : CursorBuffer} {shown : Buffer}

theorem emit (shows : buffer.Shows shown) (how : Emission) (text : Text) :
    (buffer.emit how text).Shows (how.apply text shown) := by
  cases how with
  | inline => exact shows.write text
  | lineAfter => exact shows.writeLine text
  | lineBefore => exact shows.writeBelow text

theorem change (shows : buffer.Shows shown) (edit : Edit) :
    (buffer.change edit).1 = (edit.apply shown).1 ∧
      (buffer.change edit).2.Shows (edit.apply shown).2 := by
  cases edit with
  | breakLine => exact ⟨rfl, shows.breakLine⟩
  | dropFrom index =>
      obtain ⟨sameLines, kept⟩ := shows.dropFrom index
      exact ⟨congrArg Reply.lines sameLines, kept⟩
  | replaceTail index line => exact ⟨rfl, shows.replaceTail index line⟩
  | push line => exact ⟨rfl, shows.push line⟩
  | addTokens tokens => exact ⟨rfl, shows.addTokens tokens⟩

theorem pass (shows : buffer.Shows shown) (pass : LayoutPass) :
    (buffer.pass pass).1 = (pass.apply shown.lines).1 ∧
      (buffer.pass pass).2.Shows (shown.withLines (pass.apply shown.lines).2) := by
  cases pass with
  | indent unit =>
      have sameIndent := congrArg (Layout.closingIndent unit) shows.lines_eq
      exact ⟨congrArg Reply.number sameIndent, shows.indent unit⟩
  | space unit => exact ⟨rfl, (shows.space unit).2⟩
  | arrange options => exact ⟨rfl, (shows.arrange options).2⟩

end CursorBuffer.Shows

namespace CursorSession

/-- The cursor is at the last line, and without it the session is the other one. -/
def Shows (state : CursorSession) (shown : Session) : Prop :=
  ∃ buffer, state.buffer.Shows buffer ∧ shown = state.rest.withBuffer buffer

def Yields {α : Type} (outcome : CursorOutcome α) (shown : Outcome α) : Prop :=
  outcome.1 = shown.1 ∧ outcome.2.Shows shown.2

variable {state : CursorSession} {shown : Session}

theorem Yields.ok_or_error {α : Type} {outcome : CursorOutcome α} {other : Outcome α}
    (yields : Yields outcome other) :
    (∃ reply state shown, outcome = (.ok reply, state) ∧ other = (.ok reply, shown) ∧
        state.Shows shown) ∨
      ∃ fault state shown, outcome = (.error fault, state) ∧ other = (.error fault, shown) ∧
        state.Shows shown := by
  obtain ⟨result, state⟩ := outcome
  obtain ⟨_, shown⟩ := other
  obtain ⟨rfl, shows⟩ := yields
  cases result with
  | error fault => exact .inr ⟨fault, state, shown, rfl, rfl, shows⟩
  | ok reply => exact .inl ⟨reply, state, shown, rfl, rfl, shows⟩

theorem shows_start (options : Options) (disk : Disk) :
    (start options disk).Shows (.start options disk) :=
  ⟨.empty options.lineBreak options.gap, CursorBuffer.shows_empty _ _, rfl⟩

namespace Shows

theorem view_eq (shows : state.Shows shown) : state.view = shown := by
  obtain ⟨buffer, shows, rfl⟩ := shows
  rw [view, shows.view_eq]

theorem buffer (shows : state.Shows shown) : state.buffer.Shows shown.buffer := by
  obtain ⟨buffer, shows, rfl⟩ := shows
  exact shows

theorem origin_eq (shows : state.Shows shown) : state.buffer.origin = shown.buffer.origin :=
  congrArg Prod.fst shows.buffer.settings

theorem withBuffer (shows : state.Shows shown) {changed : CursorBuffer} {buffer : Buffer}
    (same : changed.Shows buffer) : (state.withBuffer changed).Shows (shown.withBuffer buffer) := by
  obtain ⟨_, _, rfl⟩ := shows
  exact ⟨buffer, same, rfl⟩

theorem withOrigin (shows : state.Shows shown) (origin : Option Origin) :
    (state.withOrigin origin).Shows (shown.withOrigin origin) := by
  obtain ⟨buffer, ⟨⟨distinct, made, reads⟩, last, settings⟩, rfl⟩ := shows
  have separators := congrArg Prod.snd settings
  exact ⟨{ buffer with origin }, ⟨⟨distinct, made, reads⟩, last, Prod.ext rfl separators⟩, rfl⟩

theorem unsettle (shows : state.Shows shown) : state.unsettle.Shows shown.unsettle := by
  obtain ⟨buffer, shows, rfl⟩ := shows
  exact ⟨buffer, shows, rfl⟩

theorem announce (shows : state.Shows shown) (route : Route) :
    (state.announce route).Shows (shown.announce route) := by
  obtain ⟨buffer, shows, rfl⟩ := shows
  cases route <;> exact ⟨buffer, shows, rfl⟩

theorem saveText (shows : state.Shows shown) (name : Option Text) (text : Text) :
    (state.saveText name text).Shows (shown.saveText name text) := by
  obtain ⟨buffer, shows, rfl⟩ := shows
  cases name <;> exact ⟨buffer, shows, rfl⟩

theorem saveMark (shows : state.Shows shown) (name : Option Text) (mark : Mark) :
    (state.saveMark name mark).Shows (shown.saveMark name mark) := by
  obtain ⟨buffer, shows, rfl⟩ := shows
  cases name <;> exact ⟨buffer, shows, rfl⟩

theorem change (shows : state.Shows shown) {result : Except Fault CursorBuffer}
    {other : Except Fault Buffer} (agree : CursorBuffer.Agree CursorBuffer.Shows result other) :
    Yields (state.change result) (shown.change other) := by
  cases agree with
  | error fault => exact ⟨rfl, shows⟩
  | ok same => exact ⟨rfl, shows.withBuffer same⟩

theorem settle (shows : state.Shows shown) :
    state.settle.Shows { shown with writer := shown.writer.settle } := by
  obtain ⟨buffer, shows, rfl⟩ := shows
  unfold CursorSession.settle Writer.settle
  cases settled : state.rest.writer.settled with
  | true =>
      have same : (state.rest.withBuffer buffer).writer.settled = true := settled
      rw [if_pos rfl, if_pos same]
      exact ⟨buffer, shows, rfl⟩
  | false =>
      have same : ¬(state.rest.withBuffer buffer).writer.settled = true := by
        simpa [Session.withBuffer] using settled
      rw [if_neg (by simp), if_neg same]
      exact ⟨_, (shows.arrange _).2, rfl⟩

theorem read (shows : state.Shows shown) (action : Session → Outcome Reply)
    (kept : (action shown).2.buffer = shown.buffer) :
    Yields (state.read action) (action shown) := by
  unfold CursorSession.read
  rw [shows.view_eq]
  refine ⟨rfl, shown.buffer, shows.buffer, ?_⟩
  rw [← kept]
  rfl

theorem deliver (shows : state.Shows shown) (request : Delivery) :
    Yields (state.deliver request) (request.run shown) := by
  unfold CursorSession.deliver
  cases refused : request.refused with
  | true =>
      rw [Delivery.run_of_refused refused]
      exact ⟨rfl, shows⟩
  | false =>
      rw [← Delivery.run_settle refused, if_neg (by simp)]
      refine shows.settle.read request.run ?_
      rcases request.session_run { shown with writer := shown.writer.settle } with
        same | ⟨registry, same⟩
      · rw [same]
      · rw [same]
        simp only [Session.buffer, Writer.settle_settle]

theorem textOf (shows : state.Shows shown) (text : TextArgument) :
    state.rest.textOf text = shown.textOf text := by
  obtain ⟨_, _, rfl⟩ := shows
  rfl

theorem markOf (shows : state.Shows shown) (place : MarkArgument) :
    state.rest.markOf place = shown.markOf place := by
  obtain ⟨_, _, rfl⟩ := shows
  rfl

theorem options (shows : state.Shows shown) :
    state.rest.writer.options = shown.writer.options := by
  obtain ⟨_, _, rfl⟩ := shows
  rfl

theorem step (shows : state.Shows shown) (operation : Operation) :
    Yields (state.step operation) (operation.run shown) := by
  cases operation with
  | write route how text =>
      unfold CursorSession.step
      dsimp only
      rw [shows.textOf]
      have written := (shows.announce route).withBuffer (shows.buffer.emit how (shown.textOf text))
      cases route <;> exact ⟨rfl, written⟩
  | endStatement =>
      unfold CursorSession.step
      dsimp only
      rw [shows.options]
      exact ⟨rfl, shows.unsettle.withBuffer (shows.buffer.write _)⟩
  | insert route place text =>
      unfold CursorSession.step
      dsimp only
      rw [shows.textOf, shows.markOf]
      have inserted := (shows.announce route).change
        ((shows.buffer.insert (shown.markOf place) (shown.textOf text)).mono And.right)
      cases route <;> exact inserted
  | mark name =>
      unfold CursorSession.step
      dsimp only
      rw [shows.buffer.here]
      exact ⟨rfl, shows.saveMark name shown.buffer.here⟩
  | setOrigin origin => exact ⟨rfl, shows.withOrigin origin⟩
  | raise fault => exact ⟨rfl, shows⟩
  | edit change =>
      obtain ⟨sameReply, changed⟩ := shows.buffer.change change
      exact ⟨congrArg Except.ok sameReply, shows.withBuffer changed⟩
  | inspect question => exact ⟨congrArg question.answer shows.view_eq, shows⟩
  | layout pass =>
      obtain ⟨sameReply, laid⟩ := shows.buffer.pass pass
      exact ⟨congrArg Except.ok sameReply, shows.withBuffer laid⟩
  | deliver request => exact shows.deliver request
  | freshness event => exact shows.read _ rfl

theorem enter (shows : state.Shows shown) (block : Block) :
    (state.enter block).Shows (block.enter shown) := by
  match block with
  | .collect route name => exact shows.announce route
  | .brace none => exact shows.unsettle.withBuffer (shows.buffer.writeLine _)
  | .brace (some _) => exact shows.withBuffer (shows.buffer.writeLine _)
  | .join none => exact shows.unsettle
  | .join (some _) => exact shows
  | .attribute origin => exact shows.withOrigin origin
  | .attempt => exact shows

theorem conclude (shows : state.Shows shown) (mark : Mark) (block : Block) :
    Yields (state.conclude mark block) (block.conclude mark shown) := by
  match block with
  | .collect route name =>
      unfold CursorSession.conclude Block.conclude
      dsimp only
      have agree := shows.buffer.takeBack mark
      generalize state.buffer.takeBack mark = taken at agree ⊢
      generalize shown.buffer.takeBack mark = other at agree ⊢
      cases agree with
      | error fault => exact ⟨rfl, shows⟩
      | @ok first second same =>
          obtain ⟨sameText, kept⟩ := same
          dsimp only
          rw [sameText]
          exact ⟨rfl, (shows.withBuffer kept).saveText name second.1⟩
  | .brace width =>
      unfold CursorSession.conclude
      dsimp only
      rw [shows.options]
      exact shows.change (shows.buffer.closeBrace mark _)
  | .join width =>
      unfold CursorSession.conclude
      dsimp only
      rw [shows.options]
      exact shows.change (shows.buffer.joinFrom mark _)
  | .attribute origin => exact ⟨rfl, shows⟩
  | .attempt => exact ⟨rfl, shows⟩

theorem restore {before : CursorSession} {shownBefore : Session}
    (first : before.Shows shownBefore) (shows : state.Shows shown) (block : Block) :
    (before.restore state block).Shows (block.restore shownBefore shown) := by
  match block with
  | .attribute origin =>
      unfold CursorSession.restore
      dsimp only
      rw [first.origin_eq]
      exact shows.withOrigin _
  | .collect .. | .brace _ | .join _ | .attempt => exact shows

theorem around (shows : state.Shows shown) (block : Block)
    {action : CursorSession → CursorOutcome Unit} {shownAction : Session → Outcome Unit}
    (inside : ∀ {state shown}, state.Shows shown → Yields (action state) (shownAction shown)) :
    Yields (state.around block action) (block.around shownAction shown) := by
  have entered := shows.enter block
  unfold CursorSession.around
  rcases (inside entered).ok_or_error with
    ⟨_, after, shownAfter, acted, completed, same⟩ | ⟨fault, after, shownAfter, acted, failed, same⟩
  · rw [acted, Block.around_of_ok completed, ← entered.buffer.here]
    exact (shows.restore same block).conclude _ block
  · rw [acted, Block.around_of_error failed]
    have restored := shows.restore same block
    cases block <;> exact ⟨rfl, restored⟩

theorem run (shows : state.Shows shown) (program : Program) :
    Yields (CursorSession.run program state) (program.run shown) := by
  induction program generalizing state shown with
  | done => exact ⟨rfl, shows⟩
  | step operation rest ih =>
      unfold CursorSession.run Program.run
      rcases (shows.step operation).ok_or_error with
        ⟨_, after, shownAfter, stepped, ran, same⟩ | ⟨fault, after, shownAfter, stepped, ran, same⟩
      · rw [stepped, ran]
        exact ih same
      · rw [stepped, ran]
        exact ⟨rfl, same⟩
  | block kind body rest ihBody ihRest =>
      unfold CursorSession.run Program.run
      rcases (shows.around kind ihBody).ok_or_error with
        ⟨_, after, shownAfter, left, ran, same⟩ | ⟨fault, after, shownAfter, left, ran, same⟩
      · rw [left, ran]
        exact ihRest same
      · rw [left, ran]
        exact ⟨rfl, same⟩

end Shows

def Reachable (operations : Operation → Prop) (blocks : Block → Prop) (start : CursorSession) :
    CursorSession → Prop :=
  semantics.Reachable operations blocks start

theorem Reachable.leave {operations : Operation → Prop} {blocks : Block → Prop}
    {first : CursorSession} (reached : Reachable operations blocks first state) {block : Block}
    (allowed : blocks block) {body : Program} (inside : body.All operations blocks) :
    Reachable operations blocks first (state.around block (run body)).2 :=
  Program.Semantics.Reachable.leave reached allowed inside

/-- The cursor is at the last line in every state, and without it the states are those of the
programs that have no other place for it. -/
theorem Reachable.shows {operations : Operation → Prop} {blocks : Block → Prop} {options : Options}
    {disk : Disk} (reached : Reachable operations blocks (start options disk) state) :
    state.Shows state.view ∧
      Session.Reachable operations blocks (.start options disk) state.view := by
  have view {state shown} (shows : CursorSession.Shows state shown)
      (passed : Session.Reachable operations blocks (.start options disk) shown) :
      state.Shows state.view ∧
        Session.Reachable operations blocks (.start options disk) state.view := by
    rw [shows.view_eq]
    exact ⟨shows, passed⟩
  refine Program.Semantics.Reachable.invariant (fun state => state.Shows state.view ∧
    Session.Reachable operations blocks (.start options disk) state.view) reached ?_ ?_ ?_ ?_
  · exact view (shows_start options disk) .start
  · rintro operation state allowed ⟨shows, passed⟩
    exact view (shows.step operation).2 (passed.step allowed)
  · rintro block state allowed ⟨shows, passed⟩
    exact view (shows.enter block) (passed.enter allowed)
  · rintro block body state allowed inside ⟨shows, passed⟩
    exact view (shows.around block fun same => same.run body).2 (passed.leave allowed inside)

end CursorSession

end CodeWriter
