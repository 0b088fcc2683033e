import CodeWriter.Decimal.Fixed

/-! Counts of seconds with 53 significant binary digits, as a disk and a clock report them. -/

namespace CodeWriter

/-- A point in time, in ticks of which 2⁶² make a second. -/
structure Time where
  ticks : Int
deriving DecidableEq, Repr, Inhabited

namespace Time

def ticksPerSecond : Nat := 1 <<< 62

/-- The time nearest to a count of milliseconds; a time before the origin mirrors the one after. -/
def ofMilliseconds (count : Int) : Time :=
  let seconds := Decimal.Ratio.nearest ⟨count.natAbs, 1000⟩
  ⟨count.sign * (seconds.numerator * ticksPerSecond / seconds.denominator : Nat)⟩

/-- The count of milliseconds of a time: a product of 53 digits, then a whole number. -/
def milliseconds (time : Time) : Int :=
  let product := Decimal.Ratio.nearest ⟨1000 * time.ticks.natAbs, ticksPerSecond⟩
  time.ticks.sign * Decimal.roundDiv product.numerator product.denominator

instance : LE Time where
  le first second := first.ticks ≤ second.ticks

instance (first second : Time) : Decidable (first ≤ second) :=
  inferInstanceAs (Decidable (first.ticks ≤ second.ticks))

instance : Max Time := maxOfLe

theorem le_iff (first second : Time) : first ≤ second ↔ first.ticks ≤ second.ticks :=
  Iff.rfl

@[simp] theorem ticks_max (first second : Time) :
    (max first second).ticks = max first.ticks second.ticks := by
  show (if first ≤ second then second else first).ticks = _
  simp only [le_iff]
  split <;> omega

end Time

end CodeWriter
