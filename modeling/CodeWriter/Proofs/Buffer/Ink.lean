import CodeWriter.Proofs.Buffer.Reading
import CodeWriter.Proofs.Layout.Content

/-! Characters other than spaces and line feeds, each with the source of its token. -/

namespace CodeWriter

def isInk (c : Char) : Bool :=
  c != ' ' && c != '\n'

def Text.ink (text : Text) : Text :=
  text.filter isInk

@[simp] theorem Text.ink_nil : Text.ink [] = [] := rfl

@[simp] theorem Text.ink_append (first second : Text) :
    Text.ink (first ++ second) = first.ink ++ second.ink :=
  List.filter_append ..

theorem Text.ink_flatMap {α : Type} (text : α → Text) (items : List α) :
    Text.ink (items.flatMap text) = items.flatMap fun item => (text item).ink := by
  simp [Text.ink, List.filter_flatMap]

theorem Text.ink_eq_nil {text : Text} (blank : ∀ c ∈ text, c = ' ' ∨ c = '\n') :
    text.ink = [] := by
  rw [Text.ink, List.filter_eq_nil_iff]
  intro c member inked
  rcases blank c member with rfl | rfl <;> cases inked

theorem Text.ink_cut (text : Text) :
    (text.cut '\n').1.ink ++ (text.cut '\n').2.flatMap Text.ink = text.ink := by
  have whole := congrArg Text.ink (Text.cut_flatMap '\n' text)
  rw [Text.ink_append, Text.ink_flatMap] at whole
  exact whole

def Token.ink (token : Token) : List (Char × Option Origin) :=
  token.text.ink.map (·, token.origin)

theorem Token.isReading_ink : Token.IsReading Token.ink where
  empty _ := rfl
  space _ := rfl
  closing _ := rfl

theorem Token.flatMap_ink_pieces (token : Token) :
    token.pieces.flatMap Token.ink = token.ink := by
  have whole := congrArg (List.map (·, token.origin)) (Text.ink_cut token.text)
  rw [List.map_append, List.map_flatMap] at whole
  simpa [pieces, Text.physicalLines, Text.split, List.flatMap_map, ink] using whole

theorem Token.map_fst_ink (token : Token) : token.ink.map Prod.fst = token.text.ink := by
  simp [Token.ink, Function.comp_def]

namespace Line

def ink (line : Line) : List (Char × Option Origin) :=
  line.tokens.flatMap Token.ink

theorem ink_of_isBlank {line : Line} (blank : line.isBlank = true) : line.ink = [] :=
  reading_of_isBlank Token.isReading_ink blank

theorem map_fst_ink (line : Line) : line.ink.map Prod.fst = line.text.ink := by
  simp [ink, text, List.map_flatMap, Token.map_fst_ink, Text.ink_flatMap]

theorem ink_render (unit : Int) (line : Line) : (line.render unit).ink = line.text.ink := by
  unfold render
  split
  · rename_i blank
    rw [isBlank_iff.mp blank]
  · have margin : Text.ink (List.replicate (line.margin unit) ' ') = [] :=
      Text.ink_eq_nil fun c member => .inl (List.eq_of_mem_replicate member)
    rw [Text.ink_append, margin, List.nil_append]

end Line

theorem Layout.ink_render {options : Options}
    (blankBreak : ∀ c ∈ options.lineBreak, c = ' ' ∨ c = '\n') (lines : List Line) :
    (Layout.render options lines).ink = (lines.flatMap Line.ink).map Prod.fst := by
  have noInk := Text.ink_eq_nil blankBreak
  cases lines with
  | nil => rfl
  | cons line rest =>
      rw [Layout.render, List.map_cons, Text.intercalate_cons, List.flatMap_map]
      simp [Text.ink_flatMap, noInk, Line.ink_render, List.map_flatMap, Line.map_fst_ink]

def Buffer.ink (buffer : Buffer) : List (Char × Option Origin) :=
  buffer.lines.flatMap Line.ink

end CodeWriter
