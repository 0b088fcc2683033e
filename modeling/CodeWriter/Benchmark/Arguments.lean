import CodeWriter.Layout.Options
import CodeWriter.Text.Integer

/-! Arguments are read from left to right. The first fault ends the reading. -/

namespace CodeWriter

namespace Benchmark

structure Settings where
  units : Int := 2000
  runs : Int := 5
  warmups : Int := 1
  profile : Profile := .pretty
  progress : Bool := true
deriving DecidableEq, Repr

inductive Flag where
  | units
  | runs
  | warmups
  | mode
  | noProgress
deriving DecidableEq, Repr

namespace Flag

def all : List Flag := [.units, .runs, .warmups, .mode, .noProgress]

def name : Flag → Text
  | .units => "--units".toList
  | .runs => "--runs".toList
  | .warmups => "--warmups".toList
  | .mode => "--mode".toList
  | .noProgress => "--no-progress".toList

def takesValue : Flag → Bool
  | .noProgress => false
  | _ => true

def ofName? (name : Text) : Option Flag :=
  all.find? fun flag => flag.name == name

end Flag

inductive UsageFault where
  | notAnInteger (flag : Flag) (value : Text)
  | notAChoice (flag : Flag) (value : Text)
  | valueMissing (flag : Flag)
  | valueIgnored (flag : Flag) (value : Text)
  | unrecognized (words : List Text)
deriving DecidableEq, Repr

def Flag.complaint (fault : Text) (flag : Flag) : Text :=
  "argument ".toList ++ flag.name ++ [':', ' '] ++ fault

def UsageFault.message : UsageFault → Text
  | .notAnInteger flag value => flag.complaint ("invalid int value: ".toList ++ value.quoted)
  | .notAChoice flag value =>
      flag.complaint ("invalid choice: ".toList ++ value.quoted ++ " (choose from ".toList ++
        [',', ' '].intercalate (Profile.all.map fun profile => profile.name.quoted) ++ [')'])
  | .valueMissing flag => flag.complaint "expected one argument".toList
  | .valueIgnored flag value =>
      flag.complaint ("ignored explicit argument ".toList ++ value.quoted)
  | .unrecognized words => "unrecognized arguments: ".toList ++ [' '].intercalate words

inductive Word where
  | option (flag : Flag) (value : Option Text)
  | unknownFlag
  | divider
  | plain
deriving DecidableEq, Repr

namespace Word

def isDecimalDigit (c : Char) : Bool :=
  (decimalDigit? c).isSome

def isNegativeNumber : Text → Bool
  | '-' :: rest =>
      let fraction := rest.dropWhile isDecimalDigit
      match fraction with
      | [] => !rest.isEmpty
      | '.' :: places => !places.isEmpty && places.all isDecimalDigit
      | _ => false
  | _ => false

def classify (argument : Text) : Word :=
  if argument = ['-', '-'] then .divider
  else if !argument.startsWith ['-'] || argument.length = 1 then .plain
  else
    match Flag.ofName? argument with
    | some flag => .option flag none
    | none =>
        let (name, after) := argument.cut '='
        match Flag.ofName? name, after with
        | some flag, _ :: _ => .option flag (some (argument.drop (name.length + 1)))
        | _, _ =>
            if isNegativeNumber argument.withoutFinalBreak || argument.contains ' ' then .plain
            else .unknownFlag

/-- The arguments with their forms; after a divider all are plain. -/
def classifyAll : List Text → List (Text × Word)
  | [] => []
  | argument :: rest =>
      match classify argument with
      | .divider => (argument, .divider) :: rest.map fun argument => (argument, .plain)
      | word => (argument, word) :: classifyAll rest

end Word

namespace Settings

def setInteger (flag : Flag) (value : Text) (set : Int → Settings) : Except UsageFault Settings :=
  match value.readInt? with
  | some number => .ok (set number)
  | none => .error (.notAnInteger flag value)

def set (flag : Flag) (value : Text) (settings : Settings) : Except UsageFault Settings :=
  match flag with
  | .units => setInteger flag value fun units => { settings with units }
  | .runs => setInteger flag value fun runs => { settings with runs }
  | .warmups => setInteger flag value fun warmups => { settings with warmups }
  | .mode =>
      match Profile.ofName value with
      | .ok profile => .ok { settings with profile }
      | .error _ => .error (.notAChoice flag value)
  | .noProgress => .ok { settings with progress := false }

def readWords : Settings → List (Text × Word) → Except UsageFault (Settings × List Text)
  | settings, [] => .ok (settings, [])
  | settings, (_, .option flag (some value)) :: rest =>
      if flag.takesValue then
        match settings.set flag value with
        | .ok settings => readWords settings rest
        | .error fault => .error fault
      else .error (.valueIgnored flag value)
  | settings, (_, .option flag none) :: rest =>
      if flag.takesValue then
        match rest with
        | (value, .plain) :: rest =>
            match settings.set flag value with
            | .ok settings => readWords settings rest
            | .error fault => .error fault
        | _ => .error (.valueMissing flag)
      else
        match settings.set flag [] with
        | .ok settings => readWords settings rest
        | .error fault => .error fault
  | settings, (argument, _) :: rest =>
      (readWords settings rest).map fun (settings, words) => (settings, argument :: words)

def ofArguments (arguments : List Text) : Except UsageFault Settings :=
  match readWords {} (Word.classifyAll arguments) with
  | .error fault => .error fault
  | .ok (settings, []) => .ok settings
  | .ok (_, words) => .error (.unrecognized words)

def runCount (settings : Settings) : Nat :=
  (max settings.runs 1).toNat

def warmupCount (settings : Settings) : Nat :=
  settings.warmups.toNat

end Settings

end Benchmark

end CodeWriter
