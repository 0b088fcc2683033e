import CodeWriter.Program.Basic

namespace CodeWriter

structure Session where
  writer : Writer := {}
  disk : Disk := {}
  texts : List (Text × Text) := []
  marks : List (Text × Mark) := []
deriving DecidableEq, Repr

/-- An answer or a fault, and the state after it. -/
abbrev Outcome (α : Type) := Except Fault α × Session

namespace Session

def start (options : Options) (disk : Disk) : Session where
  writer := .start options
  disk := disk

def buffer (session : Session) : Buffer :=
  session.writer.buffer

def withBuffer (buffer : Buffer) (session : Session) : Session :=
  { session with writer := { session.writer with buffer } }

def unsettle (session : Session) : Session :=
  { session with writer := session.writer.unsettle }

/-- Only what goes through the writer tells it of the change. -/
def announce (route : Route) (session : Session) : Session :=
  match route with
  | .writer => session.unsettle
  | .buffer => session

def withOrigin (origin : Option Origin) (session : Session) : Session :=
  session.withBuffer { session.buffer with origin }

/-- A name that was never saved stands for the empty text. -/
def textOf (session : Session) : TextArgument → Text
  | .literal text => text
  | .saved name => (session.texts.lookup name).getD []

/-- A name that was never saved stands for the start of the buffer. -/
def markOf (session : Session) : MarkArgument → Mark
  | .literal mark => mark
  | .saved name => (session.marks.lookup name).getD ⟨0, 0⟩

def saveText (name : Option Text) (text : Text) (session : Session) : Session :=
  match name with
  | some name => { session with texts := (name, text) :: session.texts }
  | none => session

def saveMark (name : Option Text) (mark : Mark) (session : Session) : Session :=
  match name with
  | some name => { session with marks := (name, mark) :: session.marks }
  | none => session

/-- Takes over the buffer of a change that may fail; a failed one leaves the buffer as it is. -/
def change (result : Except Fault Buffer) (session : Session) : Outcome Reply :=
  match result with
  | .ok buffer => (.ok .nothing, session.withBuffer buffer)
  | .error fault => (.error fault, session)

@[simp] theorem buffer_withBuffer (buffer : Buffer) (session : Session) :
    (session.withBuffer buffer).buffer = buffer := rfl

@[simp] theorem withBuffer_buffer (session : Session) :
    session.withBuffer session.buffer = session := rfl

@[simp] theorem withBuffer_withBuffer (first second : Buffer) (session : Session) :
    (session.withBuffer first).withBuffer second = session.withBuffer second := rfl

@[simp] theorem buffer_unsettle (session : Session) :
    session.unsettle.buffer = session.buffer := rfl

@[simp] theorem buffer_announce (route : Route) (session : Session) :
    (session.announce route).buffer = session.buffer := by
  cases route <;> rfl

@[simp] theorem buffer_saveText (name : Option Text) (text : Text) (session : Session) :
    (session.saveText name text).buffer = session.buffer := by
  cases name <;> rfl

@[simp] theorem buffer_saveMark (name : Option Text) (mark : Mark) (session : Session) :
    (session.saveMark name mark).buffer = session.buffer := by
  cases name <;> rfl

end Session

def Emission.apply (text : Text) (buffer : Buffer) : Emission → Buffer
  | .inline => buffer.write text
  | .lineAfter => buffer.writeLine text
  | .lineBefore => buffer.writeBelow text

def Edit.apply (buffer : Buffer) : Edit → Reply × Buffer
  | .breakLine => (.nothing, buffer.breakLine)
  | .dropFrom index => (.lines (buffer.dropFrom index).1, (buffer.dropFrom index).2)
  | .replaceTail index line => (.nothing, buffer.replaceTail index line)
  | .push line => (.nothing, buffer.push line)
  | .addTokens tokens => (.nothing, buffer.addTokens tokens)

def Inspection.answer (session : Session) : Inspection → Except Fault Reply
  | .stamp text => .ok (.token (session.buffer.stamp (session.textOf text)))
  | .validate mark => (session.buffer.validate (session.markOf mark)).map fun _ => .nothing
  | .size => .ok (.number session.buffer.size)
  | .renderLines options => .ok (.text (Layout.render options session.buffer.lines))

def LayoutPass.apply (lines : List Line) : LayoutPass → Reply × List Line
  | .indent unit => (.number (Layout.closingIndent unit lines), Layout.indent unit lines)
  | .space unit => (.nothing, Layout.space unit lines)
  | .arrange options => (.nothing, Layout.arrange options lines)

def Delivery.run (session : Session) (delivery : Delivery) : Outcome Reply :=
  let writer := session.writer
  let deliver (result : Except Fault Reply × Writer) : Outcome Reply :=
    (result.1, { session with writer := result.2 })
  match delivery with
  | .text => deliver (.ok (.text writer.deliverText.1), writer.deliverText.2)
  | .textBefore ending =>
      deliver (.ok (.text (writer.deliverText.1 ++ session.textOf ending)), writer.deliverText.2)
  | .map file =>
      let (document, after) := writer.deliverMap session.disk file
      deliver (document.map .map, after)
  | .mapJson file style =>
      let (document, after) := writer.deliverMap session.disk file
      deliver (document.map fun document => .text (document.json style), after)
  | .product file withMap =>
      let (finished, after) := writer.deliver session.disk file withMap
      deliver (finished.map .product, after)

def FreshnessStep.run (disk : Disk) (registry : Registry) :
    FreshnessStep → Except Fault Reply × Disk × Registry
  | .putFiles files =>
      (.ok .nothing, files.foldl (fun disk entry => disk.put entry.1 entry.2) disk, registry)
  | .setClock now => (.ok .nothing, { disk with now }, registry)
  | .observe path =>
      match registry.observe disk path with
      | .ok (registry, time) => (.ok (.time time), disk, registry)
      | .error fault => (.error fault, disk, registry)
  | .contains path => (.ok (.flag (registry.contains path)), disk, registry)
  | .size => (.ok (.number registry.size), disk, registry)
  | .isFresh => ((registry.isFresh disk).map .flag, disk, registry)
  | .newest => (.ok (.time (some (registry.newest disk))), disk, registry)

def Operation.run (operation : Operation) (session : Session) : Outcome Reply :=
  match operation with
  | .write route how text =>
      let session := session.announce route
      (.ok .nothing, session.withBuffer (how.apply (session.textOf text) session.buffer))
  | .endStatement =>
      let session := session.unsettle
      (.ok .nothing,
        session.withBuffer (session.buffer.write session.writer.options.statementEnd))
  | .insert route place text =>
      let session := session.announce route
      session.change (session.buffer.insert (session.markOf place) (session.textOf text))
  | .mark name => (.ok (.mark session.buffer.here), session.saveMark name session.buffer.here)
  | .setOrigin origin => (.ok (.origin origin), session.withOrigin origin)
  | .raise fault => (.error fault, session)
  | .edit change =>
      let (reply, buffer) := change.apply session.buffer
      (.ok reply, session.withBuffer buffer)
  | .inspect question => (question.answer session, session)
  | .layout pass =>
      let (reply, lines) := pass.apply session.buffer.lines
      (.ok reply, session.withBuffer (session.buffer.withLines lines))
  | .deliver request => request.run session
  | .freshness event =>
      let (reply, disk, registry) := event.run session.disk session.writer.registry
      (reply, { session with disk, writer := { session.writer with registry } })

end CodeWriter
