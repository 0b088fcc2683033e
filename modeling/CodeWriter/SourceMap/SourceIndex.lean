import CodeWriter.Source.Basic

namespace CodeWriter

structure SourceIndex where
  sources : List Source := []
deriving DecidableEq, Repr

namespace SourceIndex

def empty : SourceIndex := {}

def find? (source : Source) (index : SourceIndex) : Option Nat :=
  index.sources.idxOf? source

def add (source : Source) (index : SourceIndex) : SourceIndex :=
  ⟨index.sources ++ [source]⟩

/-- The number of a source, and whether it had to be added for that. -/
def insert (source : Source) (index : SourceIndex) : (Nat × Bool) × SourceIndex :=
  match index.find? source with
  | some number => ((number, false), index)
  | none => ((index.sources.length, true), index.add source)

def names (index : SourceIndex) : List Text :=
  index.sources.map Source.name

theorem find?_eq_none_iff {source : Source} {index : SourceIndex} :
    index.find? source = none ↔ source ∉ index.sources := by
  simp [find?, List.idxOf?_eq_none_iff]

theorem insert_of_mem {source : Source} {index : SourceIndex} {number : Nat}
    (known : index.find? source = some number) :
    index.insert source = ((number, false), index) := by
  simp [insert, known]

theorem insert_of_not_mem {source : Source} {index : SourceIndex}
    (unknown : source ∉ index.sources) :
    index.insert source = ((index.sources.length, true), index.add source) := by
  simp [insert, find?_eq_none_iff.mpr unknown]

end SourceIndex

end CodeWriter
