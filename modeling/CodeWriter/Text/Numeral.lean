import CodeWriter.Text.Basic

namespace CodeWriter

def Text.ofNat (n : Nat) : Text :=
  Nat.toDigits 10 n

def Text.ofInt : Int → Text
  | .ofNat n => Text.ofNat n
  | .negSucc n => '-' :: Text.ofNat (n + 1)

def Text.hexadecimal : Nat → Nat → Text
  | 0, _ => []
  | width + 1, n => hexadecimal width (n / 16) ++ [Nat.digitChar (n % 16)]

@[simp] theorem Text.length_hexadecimal (width n : Nat) :
    (Text.hexadecimal width n).length = width := by
  induction width generalizing n with
  | zero => rfl
  | succ width ih => simp [Text.hexadecimal, ih]

end CodeWriter
