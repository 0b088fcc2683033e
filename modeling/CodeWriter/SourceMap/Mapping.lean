import CodeWriter.SourceMap.Vlq

/-! The column starts anew on every line; source and position run through the whole text. -/

namespace CodeWriter

/-- A place of the output and the place of a source that it comes from. -/
structure Mapping where
  line : Int := 0
  column : Int := 0
  source : Int := 0
  sourceLine : Int := 0
  sourceColumn : Int := 0
deriving DecidableEq, Repr, Inhabited

/-- Writes mappings in the order of their lines. -/
structure Encoder where
  last : Mapping := {}
  text : Text := []
  started : Bool := false
deriving DecidableEq, Repr

namespace Encoder

def empty : Encoder := {}

/-- The four numbers of a segment, the column counted from `column`. -/
def segment (column : Int) (last mapping : Mapping) : Text :=
  [mapping.column - column, mapping.source - last.source,
    mapping.sourceLine - last.sourceLine,
    mapping.sourceColumn - last.sourceColumn].flatMap Vlq.encode

def separator (mapping : Mapping) (encoder : Encoder) : Text :=
  if mapping.line = encoder.last.line then
    if encoder.started then [','] else []
  else List.replicate (mapping.line - encoder.last.line).toNat ';'

/-- The column that the segment of `mapping` counts from. -/
def baseColumn (mapping : Mapping) (encoder : Encoder) : Int :=
  if mapping.line = encoder.last.line then encoder.last.column else 0

/-- Refuses to step back to an earlier line; writes nothing for a mapping that was just written. -/
def put (mapping : Mapping) (encoder : Encoder) : Except Fault Encoder :=
  if mapping.line < encoder.last.line then
    .error (.mappingOutOfOrder mapping.line encoder.last.line)
  else if encoder.started ∧ mapping = encoder.last then .ok encoder
  else
    .ok {
      last := mapping
      started := true
      text := encoder.text ++ encoder.separator mapping ++
        segment (encoder.baseColumn mapping) encoder.last mapping }

/-- A refused mapping leaves the encoder as it is. -/
def putOrKeep (mapping : Mapping) (encoder : Encoder) : Encoder :=
  match encoder.put mapping with
  | .ok after => after
  | .error _ => encoder

end Encoder

/-- Where reading stands: the sums of the differences so far. -/
structure MappingCursor where
  column : Int := 0
  source : Int := 0
  sourceLine : Int := 0
  sourceColumn : Int := 0
deriving DecidableEq, Repr

namespace MappingCursor

/-- Every segment moves the column; only one of four numbers or more moves the rest and tells of a
source. -/
def advance (row : Nat) (cursor : MappingCursor) : List Int → MappingCursor × Option Mapping
  | column :: source :: sourceLine :: sourceColumn :: _ =>
      let moved : MappingCursor := {
        column := cursor.column + column
        source := cursor.source + source
        sourceLine := cursor.sourceLine + sourceLine
        sourceColumn := cursor.sourceColumn + sourceColumn }
      (moved, some {
        line := row
        column := moved.column
        source := moved.source
        sourceLine := moved.sourceLine
        sourceColumn := moved.sourceColumn })
  | column :: _ => ({ cursor with column := cursor.column + column }, none)
  | [] => (cursor, none)

end MappingCursor

namespace Mapping

def decodeSegments (row : Nat) :
    MappingCursor → List Text → Except Fault (MappingCursor × List Mapping)
  | cursor, [] => .ok (cursor, [])
  | cursor, segment :: rest =>
      match Vlq.decodeAll segment with
      | .error fault => .error fault
      | .ok fields =>
          let (moved, mapping?) := cursor.advance row fields
          match decodeSegments row moved rest with
          | .error fault => .error fault
          | .ok (final, mappings) => .ok (final, mapping?.toList ++ mappings)

def decodeGroups : Nat → MappingCursor → List Text → Except Fault (List Mapping)
  | _, _, [] => .ok []
  | row, cursor, group :: rest =>
      let segments := (group.split ',').filter fun segment => !segment.isEmpty
      match decodeSegments row { cursor with column := 0 } segments with
      | .error fault => .error fault
      | .ok (moved, mappings) =>
          match decodeGroups (row + 1) moved rest with
          | .error fault => .error fault
          | .ok more => .ok (mappings ++ more)

/-- The mappings of a text, in order. Segments that tell of no source are left out. -/
def decode (text : Text) : Except Fault (List Mapping) :=
  decodeGroups 0 {} (text.split ';')

end Mapping

end CodeWriter
