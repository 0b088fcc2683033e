import CodeWriter.Benchmark.Report
import CodeWriter.Demo.Listing

namespace CodeWriter

namespace CommandLine

def asString (text : Text) : String :=
  String.ofList text

def fail (message : Text) (code : UInt32) : IO UInt32 := do
  IO.eprintln (asString message)
  return code

def place : IO Exhibit.Place := do
  try
    IO.FS.createDirAll (asString Exhibit.directory)
  catch _ =>
    return .fileForDirectory
  try
    IO.FS.writeFile (asString Exhibit.path) ""
    return .writable
  catch _ =>
    return .directoryForFile

def listing : IO UInt32 := do
  match Exhibit.ofSource {} Demo.defaultSource .standard with
  | .error fault => fail fault.message 1
  | .ok exhibit =>
      match Exhibit.checkPlace (← place) with
      | .error fault => fail fault.message 1
      | .ok () =>
          IO.FS.writeFile (asString Exhibit.path) (asString exhibit.file)
          IO.print (asString exhibit.confirmation)
          return 0

def timeRun (settings : Benchmark.Settings) : IO Nat := do
  let start ← IO.monoMsNow
  for _ in [0 : settings.units.toNat] do
    let sizes ← IO.lazyPure fun _ => Benchmark.unitSizes {} settings.profile
    match sizes with
    | .ok _ => pure ()
    | .error fault => throw (IO.userError (asString fault.message))
  return (← IO.monoMsNow) - start

def timeRuns (settings : Benchmark.Settings) : IO (List Nat) :=
  (List.range (settings.warmupCount + settings.runCount)).mapM fun _ => timeRun settings

def benchmark (arguments : List Text) : IO UInt32 := do
  let times ←
    match Benchmark.Settings.ofArguments arguments with
    | .ok settings => if 0 < settings.units then timeRuns settings else pure []
    | .error _ => pure []
  match Benchmark.run {} arguments fun call => times.getD call 0 with
  | .error fault => fail fault.message 1
  | .ok run =>
      for (label, units) in run.bars do
        IO.eprintln (asString label ++ ": " ++ toString units)
      match run.ending with
      | .reported output =>
          IO.print (asString output)
          return 0
      | .invalidUnits units => fail (Benchmark.Ending.invalidUnitsMessage units) 1
      | .misused fault => fail ("error: ".toList ++ fault.message) 2

end CommandLine

end CodeWriter

def main (arguments : List String) : IO UInt32 :=
  match arguments with
  | "listing" :: [] => CodeWriter.CommandLine.listing
  | "benchmark" :: rest => CodeWriter.CommandLine.benchmark (rest.map String.toList)
  | _ => CodeWriter.CommandLine.fail "usage: listing | benchmark [option ...]".toList 2
