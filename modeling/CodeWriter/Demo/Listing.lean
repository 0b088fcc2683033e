import CodeWriter.Demo.Basic

namespace CodeWriter

namespace Listing

def token (token : Token) : Except Fault Text :=
  match token.origin with
  | none => .ok token.text.quoted
  | some origin =>
      origin.position.map fun position =>
        token.text.quoted ++ ['@'] ++ Text.ofNat position.line ++ [':'] ++
          Text.ofNat position.column

def kind (line : Line) : Text :=
  if line.isBlank then "blank".toList
  else if line.isComment then "comment".toList
  else "code".toList

def line (index : Nat) (line : Line) : Except Fault Text := do
  let tokens ← line.tokens.mapM token
  return ['['] ++ Text.ofNat index ++ "] indent=".toList ++ Text.ofInt line.indent ++
    " kind=".toList ++ kind line ++ " tokens=[".toList ++ [',', ' '].intercalate tokens ++ [']']

def lines (lines : List Line) : Except Fault (List Text) :=
  lines.zipIdx.mapM fun (entry, index) => line index entry

end Listing

/-- A demonstration as it is shown: its text, its lines and its map. -/
structure Exhibit where
  text : Text
  listing : List Text
  mapJson : Text
deriving DecidableEq, Repr

namespace Exhibit

/-- The map asks the disk for the time of the source. -/
def ofSource (disk : Disk) (source : Source) (options : Options) : Except Fault Exhibit := do
  let (text, rendered) := (← Demo.writer source options).deliverText
  let listing ← Listing.lines rendered.buffer.lines
  let document ← (rendered.deliverMap disk none).1
  return { text, listing, mapJson := document.json (.indented 2) }

def file (exhibit : Exhibit) : Text :=
  exhibit.listing.flatMap (· ++ ['\n']) ++
    '\n' :: exhibit.text ++ ['\n'] ++ '\n' :: exhibit.mapJson ++ ['\n']

def directory : Text := "out".toList

def path : Text := "out/demo_lines.txt".toList

/-- What stands at the place of the file before it is written. -/
inductive Place where
  | writable
  | fileForDirectory
  | directoryForFile
deriving DecidableEq, Repr

def checkPlace : Place → Except Fault Unit
  | .writable => .ok ()
  | .fileForDirectory => .error (.fileExists directory)
  | .directoryForFile => .error (.isDirectory path)

def confirmation (exhibit : Exhibit) : Text :=
  "Wrote ".toList ++ Text.ofNat exhibit.listing.length ++ " lines to ".toList ++ path ++ ['\n']

end Exhibit

end CodeWriter
