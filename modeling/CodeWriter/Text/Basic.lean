/-! Texts are lists of characters, so a length, a column or an offset counts code points. -/

namespace CodeWriter

abbrev Text := List Char

/-- The text before the first separator, and the texts after each separator. -/
def Text.cut (separator : Char) : Text → Text × List Text
  | [] => ([], [])
  | c :: rest =>
      if c = separator then
        ([], (cut separator rest).1 :: (cut separator rest).2)
      else
        (c :: (cut separator rest).1, (cut separator rest).2)

/-- The maximal separator-free pieces, in order; there is always at least one. -/
def Text.split (separator : Char) (text : Text) : List Text :=
  (text.cut separator).1 :: (text.cut separator).2

def Text.physicalLines (text : Text) : List Text :=
  text.split '\n'

def Text.lastLine (text : Text) : Text :=
  text.physicalLines.getLast?.getD []

def Text.withoutFinalBreak (text : Text) : Text :=
  if text.getLast? = some '\n' then text.dropLast else text

def Text.startsWith (text start : Text) : Bool :=
  start.isPrefixOf text

@[simp] theorem Text.cut_nil (separator : Char) :
    Text.cut separator [] = ([], []) := rfl

theorem Text.cut_separator (separator : Char) (rest : Text) :
    Text.cut separator (separator :: rest) = ([], rest.split separator) := by
  simp [Text.cut, Text.split]

theorem Text.cut_other {separator c : Char} (different : c ≠ separator) (rest : Text) :
    Text.cut separator (c :: rest) =
      (c :: (rest.cut separator).1, (rest.cut separator).2) := by
  simp [Text.cut, different]

theorem Text.cut_flatMap (separator : Char) (text : Text) :
    (text.cut separator).1 ++ (text.cut separator).2.flatMap (separator :: ·) = text := by
  induction text with
  | nil => rfl
  | cons c rest ih =>
      by_cases same : c = separator
      · subst same
        rw [Text.cut_separator]
        simpa [Text.split] using ih
      · rw [Text.cut_other same]
        simpa using ih

theorem Text.intercalate_cons (separator first : Text) (rest : List Text) :
    separator.intercalate (first :: rest) = first ++ rest.flatMap (separator ++ ·) := by
  induction rest generalizing first with
  | nil => simp
  | cons second more ih => simp [List.intercalate_cons_cons, ih]

theorem Text.intercalate_append (separator : Text) {first : List Text} (nonempty : first ≠ [])
    (second : List Text) :
    separator.intercalate (first ++ second) =
      separator.intercalate first ++ second.flatMap (separator ++ ·) := by
  obtain ⟨text, rest, rfl⟩ := List.exists_cons_of_ne_nil nonempty
  simp [Text.intercalate_cons]

theorem Text.intercalate_concat (separator text : Text) {texts : List Text}
    (nonempty : texts ≠ []) :
    separator.intercalate (texts ++ [text]) =
      separator.intercalate texts ++ separator ++ text := by
  simp [Text.intercalate_append separator nonempty]

theorem Text.intercalate_append_of_ne_nil (separator : Text) (first : List Text)
    {second : List Text} (nonempty : second ≠ []) :
    separator.intercalate (first ++ second) =
      first.flatMap (· ++ separator) ++ separator.intercalate second := by
  induction first with
  | nil => rfl
  | cons text rest ih =>
      obtain ⟨next, more, follows⟩ :=
        List.exists_cons_of_ne_nil (List.append_ne_nil_of_right_ne_nil rest nonempty)
      rw [List.cons_append, follows, List.intercalate_cons_cons, ← follows, ih, List.flatMap_cons]
      simp only [List.append_assoc]

theorem Text.intercalate_split (separator : Char) (text : Text) :
    [separator].intercalate (text.split separator) = text := by
  rw [Text.split, Text.intercalate_cons]
  exact Text.cut_flatMap separator text

theorem Text.separator_not_mem_split {separator : Char} {text piece : Text}
    (member : piece ∈ text.split separator) : separator ∉ piece := by
  induction text generalizing piece with
  | nil =>
      simp only [Text.split, Text.cut_nil, List.mem_cons, List.not_mem_nil, or_false] at member
      simp [member]
  | cons c rest ih =>
      by_cases same : c = separator
      · subst same
        rw [Text.split, Text.cut_separator] at member
        rcases List.mem_cons.mp member with rfl | later
        · simp
        · exact ih later
      · rw [Text.split, Text.cut_other same] at member
        rcases List.mem_cons.mp member with rfl | later
        · have first : separator ∉ (Text.cut separator rest).1 := ih (by simp [Text.split])
          simp [first, Ne.symm same]
        · exact ih (by simp [Text.split, later])

theorem Text.length_split (separator : Char) (text : Text) :
    (text.split separator).length = text.count separator + 1 := by
  induction text with
  | nil => simp [Text.split]
  | cons c rest ih =>
      by_cases same : c = separator
      · subst same
        rw [Text.split, Text.cut_separator, List.length_cons, ih, List.count_cons_self]
      · rw [Text.split, Text.cut_other same, List.count_cons_of_ne same, ← ih]
        simp [Text.split]

theorem Text.cut_append_of_not_mem {separator : Char} {piece : Text}
    (separatorFree : separator ∉ piece) (rest : Text) :
    Text.cut separator (piece ++ rest) =
      (piece ++ (rest.cut separator).1, (rest.cut separator).2) := by
  induction piece with
  | nil => rfl
  | cons c more ih =>
      have different : c ≠ separator := fun same => separatorFree (by simp [same])
      rw [List.cons_append, Text.cut_other different, ih fun member => separatorFree (by simp [member])]
      rfl

theorem Text.split_of_not_mem {separator : Char} {piece : Text} (separatorFree : separator ∉ piece) :
    Text.split separator piece = [piece] := by
  have whole := Text.cut_append_of_not_mem separatorFree []
  rw [List.append_nil] at whole
  simp [Text.split, whole]

theorem Text.split_append_separator {separator : Char} {piece : Text}
    (separatorFree : separator ∉ piece) (rest : Text) :
    Text.split separator (piece ++ separator :: rest) = piece :: rest.split separator := by
  rw [Text.split, Text.cut_append_of_not_mem separatorFree, Text.cut_separator]
  simp

theorem Text.split_intercalate {separator : Char} {pieces : List Text} (nonempty : pieces ≠ [])
    (separatorFree : ∀ piece ∈ pieces, separator ∉ piece) :
    Text.split separator ([separator].intercalate pieces) = pieces := by
  induction pieces with
  | nil => exact absurd rfl nonempty
  | cons first rest ih =>
      rw [List.forall_mem_cons] at separatorFree
      cases rest with
      | nil => simp [Text.split_of_not_mem separatorFree.1]
      | cons second more =>
          have cut := Text.split_append_separator separatorFree.1 ([separator].intercalate (second :: more))
          rw [ih (by simp) separatorFree.2] at cut
          simpa [List.intercalate_cons_cons] using cut

end CodeWriter
