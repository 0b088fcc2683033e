import CodeWriter.Proofs.Buffer.Unbroken

namespace CodeWriter

theorem Line.render_eq_nil_iff {unit : Int} {line : Line} :
    line.render unit = [] ↔ line.isBlank = true := by
  unfold render
  split
  · rename_i blank
    simp [blank]
  · rename_i visible
    simp [visible, ← isBlank_iff]

namespace Layout

def textAbove (options : Options) (above : List Line) : Text :=
  above.flatMap fun line => line.render options.indent ++ options.lineBreak

def textBelow (options : Options) (below : List Line) : Text :=
  below.flatMap fun line => options.lineBreak ++ line.render options.indent

theorem render_append (options : Options) (above : List Line) (line : Line) (below : List Line) :
    render options (above ++ line :: below) =
      textAbove options above ++ line.render options.indent ++ textBelow options below := by
  induction above with
  | nil =>
      rw [List.nil_append, render, List.map_cons, Text.intercalate_cons, List.flatMap_map]
      rfl
  | cons first rest ih =>
      obtain ⟨second, more, shape⟩ : ∃ second more, rest ++ line :: below = second :: more :=
        List.exists_cons_of_ne_nil (by simp)
      rw [shape, render, List.map_cons] at ih
      rw [List.cons_append, shape, render, List.map_cons, List.map_cons,
        List.intercalate_cons_cons, ih]
      simp [textAbove]

/-- In the text, the rendering of every comment is followed by a line feed or by nothing. -/
def CommentsEnd (options : Options) (lines : List Line) (text : Text) : Prop :=
  ∀ above line below, lines = above ++ line :: below → line.isComment = true →
    ∃ after, text = textAbove options above ++ line.render options.indent ++ after ∧
      ∀ c ∈ after.head?, c = '\n'

theorem commentsEnd_render_iff {options : Options} {lines : List Line} :
    CommentsEnd options lines (render options lines) ↔
      ∀ above line below, lines = above ++ line :: below → line.isComment = true →
        ∀ c ∈ (textBelow options below).head?, c = '\n' := by
  constructor
  · intro ends above line below parts comment
    obtain ⟨after, text, follows⟩ := ends above line below parts comment
    rw [parts, render_append] at text
    rwa [List.append_cancel_left text]
  · intro follows above line below parts comment
    exact ⟨textBelow options below, by rw [parts, render_append],
      follows above line below parts comment⟩

theorem commentsEnd_of_break {options : Options} (lineFeed : options.lineBreak = ['\n'])
    (lines : List Line) : CommentsEnd options lines (render options lines) := by
  rw [commentsEnd_render_iff]
  intro above line below _ _ c first
  cases below with
  | nil => simp [textBelow] at first
  | cons next rest => simpa [textBelow, lineFeed, eq_comm] using first

def NothingBelowComments (lines : List Line) : Prop :=
  ∀ above line below, lines = above ++ line :: below → line.isComment = true →
    ∀ later ∈ below, later.isBlank = true

theorem textBelow_of_no_break {options : Options} (noBreak : options.lineBreak = [])
    (below : List Line) : textBelow options below = below.flatMap (Line.render options.indent) := by
  simp [textBelow, noBreak]

theorem commentsEnd_iff_of_no_break {options : Options} (noBreak : options.lineBreak = [])
    {lines : List Line} (unbroken : ∀ line ∈ lines, line.Unbroken) :
    CommentsEnd options lines (render options lines) ↔ NothingBelowComments lines := by
  rw [commentsEnd_render_iff]
  refine forall₃_congr fun above line below => forall₂_congr fun parts _ => ?_
  have noFeed : '\n' ∉ textBelow options below := by
    rw [textBelow_of_no_break noBreak, List.mem_flatMap]
    rintro ⟨later, member, broken⟩
    exact (unbroken later (by simp [parts, member])).render options.indent broken
  have nothing : (∀ c ∈ (textBelow options below).head?, c = '\n') ↔
      textBelow options below = [] := by
    cases shape : textBelow options below with
    | nil => simp
    | cons c rest =>
        rw [shape] at noFeed
        simp only [List.mem_cons, not_or] at noFeed
        simpa using Ne.symm noFeed.1
  rw [nothing, textBelow_of_no_break noBreak, List.flatMap_eq_nil_iff]
  exact forall₂_congr fun later _ => Line.render_eq_nil_iff

end Layout

end CodeWriter
