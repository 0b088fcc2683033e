import CodeWriter.Source.Position
import CodeWriter.Source.Span

/-! A source is told apart by its `id`: two sources of one name and text are still two. -/

namespace CodeWriter

structure Source where
  id : Nat
  name : Text
  text : Text
deriving DecidableEq, Repr, Inhabited

def Source.describe (source : Source) : Text :=
  "SourceBuffer(".toList ++ source.name.quoted ++ [')']

def Source.position (source : Source) (offset : Offset) : Except Fault Position :=
  Position.ofOffset source.text offset.value

/-- Where a piece of output comes from: a span of a source. The span may reach past the text; that
only shows when the position of its start is asked for. -/
structure Origin where
  source : Source
  span : Span
deriving DecidableEq, Repr

def Origin.ofInts (source : Source) (start stop : Int) : Except Fault Origin :=
  (Span.ofInts start stop).map fun span => { source, span }

def Origin.position (origin : Origin) : Except Fault Position :=
  origin.source.position ⟨origin.span.start⟩

end CodeWriter
