import CodeWriter.Text.Numeral

/-! Quotients of natural numbers, rounded. A half goes to the even neighbour each time. -/

namespace CodeWriter

namespace Decimal

def roundDiv (numerator denominator : Nat) : Nat :=
  let quotient := numerator / denominator
  let rest := numerator % denominator
  if denominator < 2 * rest ∨ (denominator = 2 * rest ∧ quotient % 2 = 1) then quotient + 1
  else quotient

/-- A quotient of two numbers that are not negative. -/
structure Ratio where
  numerator : Nat
  denominator : Nat
deriving DecidableEq, Repr

namespace Ratio

def scale (exponent : Int) (ratio : Ratio) : Ratio :=
  if 0 ≤ exponent then { ratio with numerator := ratio.numerator <<< exponent.toNat }
  else { ratio with denominator := ratio.denominator <<< (-exponent).toNat }

/-- The exponent by which a ratio reaches 53 binary digits before the point. -/
def leadExponent (ratio : Ratio) : Int :=
  let guess : Int := 53 + Nat.log2 ratio.denominator - Nat.log2 ratio.numerator
  let scaled := ratio.scale guess
  if scaled.numerator / scaled.denominator < 1 <<< 53 then guess else guess - 1

/-- The nearest ratio whose numerator has 53 binary digits, over a power of two. -/
def nearest (ratio : Ratio) : Ratio :=
  let exponent := ratio.leadExponent
  let scaled := ratio.scale exponent
  scale (-exponent) ⟨roundDiv scaled.numerator scaled.denominator, 1⟩

def padded (length : Nat) (digits : Text) : Text :=
  List.replicate (length - digits.length) '0' ++ digits

def fixed (places : Nat) (ratio : Ratio) : Text :=
  let one := Nat.pow 10 places
  let units := roundDiv (ratio.numerator * one) ratio.denominator
  Text.ofNat (units / one) ++ '.' :: padded places (Text.ofNat (units % one))

end Ratio

theorem two_mul_roundDiv_le {numerator denominator : Nat} (positive : 0 < denominator) :
    2 * denominator * roundDiv numerator denominator ≤ 2 * numerator + denominator := by
  have whole := Nat.div_add_mod numerator denominator
  have less := Nat.mod_lt numerator positive
  unfold roundDiv
  simp only
  split
  · rename_i up
    rw [Nat.mul_assoc, Nat.mul_add]
    rcases up with up | up <;> omega
  · rw [Nat.mul_assoc]
    omega

theorem le_two_mul_roundDiv {numerator denominator : Nat} (positive : 0 < denominator) :
    2 * numerator ≤ 2 * denominator * roundDiv numerator denominator + denominator := by
  have whole := Nat.div_add_mod numerator denominator
  have less := Nat.mod_lt numerator positive
  unfold roundDiv
  simp only
  split
  · rw [Nat.mul_assoc, Nat.mul_add]
    omega
  · rename_i down
    rw [Nat.mul_assoc]
    omega

end Decimal

end CodeWriter
