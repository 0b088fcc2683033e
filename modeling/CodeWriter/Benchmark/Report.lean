import CodeWriter.Benchmark.Arguments
import CodeWriter.Decimal.Fixed
import CodeWriter.Demo.Basic

namespace CodeWriter

namespace Benchmark

def unitSizes (disk : Disk) (profile : Profile) : Except Fault (Nat × Nat) := do
  let options ← Options.ofProfile profile 80
  let (text, rendered) := (← Demo.writer Demo.defaultSource options).deliverText
  let document ← (rendered.deliverMap disk none).1
  return (text.length, document.mappings.length)

def headings (kind : Text) (count : Nat) : List Text :=
  (List.range count).map fun index =>
    kind ++ Text.ofNat (index + 1) ++ ['/'] ++ Text.ofNat count

/-- The heading of every run that shows its progress, in order, with the count of its units. -/
def progressBars (settings : Settings) : List (Text × Int) :=
  if settings.progress then
    (headings "warmup ".toList settings.warmupCount ++
      headings "run ".toList settings.runCount).map fun heading => (heading, settings.units)
  else []

def sorted (times : List Nat) : List Nat :=
  times.mergeSort

/-- The middle time, or halfway between the middle two; in thousandths of a second. -/
def median (times : List Nat) : Decimal.Ratio :=
  let ordered := sorted times
  let upper := ordered.getD (times.length / 2) 0
  if times.length % 2 = 1 then ⟨upper, 1000⟩
  else .nearest ⟨ordered.getD (times.length / 2 - 1) 0 + upper, 2000⟩

def mean (times : List Nat) : Decimal.Ratio :=
  Decimal.Ratio.nearest ⟨times.foldl (· + ·) 0, 1000 * times.length⟩

def seconds (ratio : Decimal.Ratio) : Text :=
  ratio.fixed 4 ++ ['s']

def report (disk : Disk) (settings : Settings) (times : List Nat) : Except Fault Text := do
  let measured := times.drop settings.warmupCount
  let (textSize, mappingSize) ← unitSizes disk settings.profile
  let mean := mean measured
  if mean.numerator = 0 then
    .error .divisionByZero
  else
    let units := settings.units.toNat
    let rate := Decimal.Ratio.nearest ⟨units * mean.denominator, mean.numerator⟩
    let ordered := sorted measured
    return [
      "Mode: ".toList ++ settings.profile.name,
      "Units: ".toList ++ Text.ofNat units,
      "Output chars: ".toList ++ Text.ofNat (units * textSize),
      "Mapping chars: ".toList ++ Text.ofNat (units * mappingSize),
      "Runs: ".toList ++ Text.ofNat measured.length ++ " (warmups=".toList ++
        Text.ofNat settings.warmupCount ++ [')'],
      "Best:   ".toList ++ seconds ⟨ordered.head?.getD 0, 1000⟩,
      "Median: ".toList ++ seconds (median measured),
      "Mean:   ".toList ++ seconds mean,
      "Worst:  ".toList ++ seconds ⟨ordered.getLast?.getD 0, 1000⟩,
      "Units/s (mean): ".toList ++ rate.fixed 1].flatMap (· ++ ['\n'])

inductive Ending where
  | reported (output : Text)
  | invalidUnits (units : Int)
  | misused (fault : UsageFault)
deriving DecidableEq, Repr

structure Run where
  ending : Ending
  bars : List (Text × Int)
deriving DecidableEq, Repr

def Ending.invalidUnitsMessage (units : Int) : Text :=
  "Invalid --units: ".toList ++ Text.ofInt units

/-- A whole call. `time` tells how long each timed run takes, the warm-ups counted too. -/
def run (disk : Disk) (arguments : List Text) (time : Nat → Nat) : Except Fault Run :=
  match Settings.ofArguments arguments with
  | .error fault => .ok { ending := .misused fault, bars := [] }
  | .ok settings =>
      if settings.units ≤ 0 then .ok { ending := .invalidUnits settings.units, bars := [] }
      else
        let times := (List.range (settings.warmupCount + settings.runCount)).map time
        (report disk settings times).map fun output =>
          { ending := .reported output, bars := progressBars settings }

end Benchmark

end CodeWriter
