import CodeWriter.Text.Basic

/-! White space by the bidirectional classes and general category of the character standard. -/

namespace CodeWriter

def isBlankChar (c : Char) : Bool :=
  let code := c.toNat
  (0x09 ≤ code && code ≤ 0x0D) || (0x1C ≤ code && code ≤ 0x20) ||
    code == 0x85 || code == 0xA0 || code == 0x1680 ||
    (0x2000 ≤ code && code ≤ 0x200A) || code == 0x2028 || code == 0x2029 ||
    code == 0x202F || code == 0x205F || code == 0x3000

def Text.isBlank (text : Text) : Bool :=
  text.all isBlankChar

def Text.trim (padding : Char → Bool) (text : Text) : Text :=
  ((text.dropWhile padding).reverse.dropWhile padding).reverse

theorem isBlankChar_of_isWhitespace {c : Char} (space : c.isWhitespace = true) :
    isBlankChar c = true := by
  simp only [Char.isWhitespace, Bool.or_eq_true, decide_eq_true_eq] at space
  rcases space with ((rfl | rfl) | rfl) | rfl <;> decide

@[simp] theorem Text.isBlank_nil : Text.isBlank [] = true := rfl

theorem Text.isBlank_append (first second : Text) :
    Text.isBlank (first ++ second) = (first.isBlank && second.isBlank) := by
  simp [Text.isBlank]

end CodeWriter
