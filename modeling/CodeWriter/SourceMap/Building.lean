import CodeWriter.Freshness.Registry
import CodeWriter.Line.Basic
import CodeWriter.SourceMap.Document
import CodeWriter.SourceMap.Mapping
import CodeWriter.SourceMap.SourceIndex

/-! The sites of lines are the tokens that a map has to mention, at their places in the text. -/

namespace CodeWriter

/-- A token with a source, at its place in the output. -/
structure Site where
  row : Nat
  column : Nat
  origin : Origin
deriving DecidableEq, Repr

namespace Site

def ofTokens (row : Nat) : Nat → List Token → List Site
  | _, [] => []
  | column, token :: rest =>
      (token.mappedOrigin?.map fun origin => { row, column, origin }).toList ++
        ofTokens row (column + token.text.length) rest

def ofLine (unit : Int) (row : Nat) (line : Line) : List Site :=
  if line.isBlank then [] else ofTokens row (line.margin unit) line.tokens

def ofLinesFrom (unit : Int) : Nat → List Line → List Site
  | _, [] => []
  | row, line :: rest => ofLine unit row line ++ ofLinesFrom unit (row + 1) rest

/-- In the order of lines, and of tokens on a line. -/
def ofLines (unit : Int) (lines : List Line) : List Site :=
  ofLinesFrom unit 0 lines

def mapping (source : Nat) (position : Position) (site : Site) : Mapping where
  line := site.row
  column := site.column
  source := source
  sourceLine := position.line
  sourceColumn := position.column

end Site

/-- A map in the making. Without a registry no modification time is asked for. -/
structure Draft where
  index : SourceIndex := {}
  encoder : Encoder := {}
  registry : Option Registry := none
deriving DecidableEq, Repr

namespace Draft

def watch (disk : Disk) (source : Source) : Option Registry → Except Fault (Option Registry)
  | none => .ok none
  | some registry => (registry.observe disk source.name).map fun seen => some seen.1

/-- The source is known, and the time of its file seen, before its position is asked for. What was
done stays done when a later step fails. -/
def place (disk : Disk) (site : Site) (draft : Draft) : Except Fault Unit × Draft :=
  let ((number, added), index) := draft.index.insert site.origin.source
  let draft := { draft with index }
  match if added then watch disk site.origin.source draft.registry else .ok draft.registry with
  | .error fault => (.error fault, draft)
  | .ok registry =>
      let draft := { draft with registry }
      match site.origin.position with
      | .error fault => (.error fault, draft)
      | .ok position =>
          match draft.encoder.put (site.mapping number position) with
          | .error fault => (.error fault, draft)
          | .ok encoder => (.ok (), { draft with encoder })

def placeAll (disk : Disk) : List Site → Draft → Except Fault Unit × Draft
  | [], draft => (.ok (), draft)
  | site :: rest, draft =>
      match draft.place disk site with
      | (.error fault, draft) => (.error fault, draft)
      | (.ok (), draft) => placeAll disk rest draft

/-- Without a name of its own the document takes that of the first source. -/
def document (file : Option Text) (draft : Draft) : Document where
  file := file.getD ((draft.index.names.head?).getD [])
  sources := draft.index.names
  mappings := draft.encoder.text

end Draft

namespace Document

/-- The map of lines, and the registry after it, also when there is no map. -/
def ofLines (disk : Disk) (unit : Int) (file : Option Text) (registry : Option Registry)
    (lines : List Line) : Except Fault Document × Option Registry :=
  match Draft.placeAll disk (Site.ofLines unit lines) { registry } with
  | (.ok (), draft) => (.ok (draft.document file), draft.registry)
  | (.error fault, draft) => (.error fault, draft.registry)

end Document

end CodeWriter
