import CodeWriter.Buffer.Joining
import CodeWriter.Layout.Rendering
import CodeWriter.SourceMap.Building

/-! Lines are laid out when a text or map is asked for, if the writer was told of a change. -/

namespace CodeWriter

structure Writer where
  options : Options := {}
  buffer : Buffer := {}
  registry : Registry := {}
  /-- Whether the lines count as laid out. -/
  settled : Bool := false
deriving DecidableEq, Repr

structure Product where
  text : Text
  map : Option Document
  fresh : Bool
deriving DecidableEq, Repr

namespace Writer

def start (options : Options) : Writer where
  options := options
  buffer := .empty options.lineBreak options.gap

/-- The lines are about to change. -/
def unsettle (writer : Writer) : Writer :=
  { writer with settled := false }

/-- Lay the lines out, unless they count as laid out already. -/
def settle (writer : Writer) : Writer :=
  if writer.settled then writer
  else
    { writer with
      buffer := writer.buffer.withLines (Layout.arrange writer.options writer.buffer.lines)
      settled := true }

def renderedText (writer : Writer) : Text :=
  Layout.render writer.options writer.buffer.lines

def deliverText (writer : Writer) : Text × Writer :=
  (writer.settle.renderedText, writer.settle)

/-- The map of the lines. The registry has seen the sources also when the map fails. -/
def deliverMap (disk : Disk) (file : Option Text) (writer : Writer) :
    Except Fault Document × Writer :=
  let writer := writer.settle
  let (document, registry) :=
    Document.ofLines disk writer.options.indent file (some writer.registry) writer.buffer.lines
  (document, { writer with registry := registry.getD writer.registry })

def isFresh (disk : Disk) (writer : Writer) : Except Fault Bool :=
  writer.registry.isFresh disk

/-- Text, and map if it is asked for. A file name is for the map only. -/
def deliver (disk : Disk) (file : Option Text) (withMap : Bool) (writer : Writer) :
    Except Fault Product × Writer :=
  if file.isSome && !withMap then (.error .fileWithoutMap, writer)
  else
    let (text, writer) := writer.deliverText
    let (map, writer) : Except Fault (Option Document) × Writer :=
      if withMap then
        let (document, writer) := writer.deliverMap disk file
        (document.map some, writer)
      else (.ok none, writer)
    let product := do
      let map ← map
      let fresh ← writer.isFresh disk
      return { text, map, fresh }
    (product, writer)

@[simp] theorem settle_of_settled {writer : Writer} (settled : writer.settled = true) :
    writer.settle = writer := by
  simp [settle, settled]

@[simp] theorem settled_settle (writer : Writer) : writer.settle.settled = true := by
  unfold settle
  split <;> simp_all

@[simp] theorem settle_settle (writer : Writer) : writer.settle.settle = writer.settle := by
  simp

@[simp] theorem options_settle (writer : Writer) : writer.settle.options = writer.options := by
  unfold settle
  split <;> rfl

end Writer

end CodeWriter
