import CodeWriter.Fault

namespace CodeWriter

structure Offset where
  value : Nat
deriving DecidableEq, Repr, Inhabited

def Offset.ofInt (value : Int) : Except Fault Offset :=
  if value < 0 then .error .negativeOffset else .ok ⟨value.toNat⟩

def Offset.describe (offset : Offset) : Text :=
  "TextSize(".toList ++ Text.ofNat offset.value ++ [')']

instance : Ord Offset where
  compare first second := compare first.value second.value

structure Span where
  start : Nat
  stop : Nat
  start_le_stop : start ≤ stop := by omega
deriving DecidableEq, Repr

/-- A negative end is reported before a reversed pair. -/
def Span.ofInts (start stop : Int) : Except Fault Span :=
  if negative : start < 0 ∨ stop < 0 then .error .negativeSpan
  else if reversed : stop < start then .error .reversedSpan
  else .ok { start := start.toNat, stop := stop.toNat }

def Span.describe (span : Span) : Text :=
  "TextRange(".toList ++ Text.ofNat span.start ++ ", ".toList ++ Text.ofNat span.stop ++ [')']

/-- Spans are ordered by their start, then by their end. -/
instance : Ord Span where
  compare first second :=
    (compare first.start second.start).then (compare first.stop second.stop)

@[simp] theorem Offset.ofInt_natCast (n : Nat) :
    Offset.ofInt n = .ok ⟨n⟩ := by
  have natural : ¬((n : Int) < 0) := by omega
  simp [Offset.ofInt, natural]

theorem Span.ofInts_natCast {start stop : Nat} (ordered : start ≤ stop) :
    Span.ofInts start stop = .ok ⟨start, stop, ordered⟩ := by
  have natural : ¬((start : Int) < 0 ∨ (stop : Int) < 0) := by omega
  have forward : ¬((stop : Int) < start) := by omega
  simp [Span.ofInts, natural, forward]

end CodeWriter
