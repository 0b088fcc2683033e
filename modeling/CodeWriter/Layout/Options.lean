import CodeWriter.Fault

namespace CodeWriter

inductive Profile where
  | compact
  | pretty
deriving DecidableEq, Repr, Inhabited

def Profile.name : Profile → Text
  | .compact => "compact".toList
  | .pretty => "pretty".toList

def Profile.all : List Profile := [.compact, .pretty]

def Profile.ofName (name : Text) : Except Fault Profile :=
  match Profile.all.find? fun profile => profile.name == name with
  | some profile => .ok profile
  | none => .error (.unknownProfile name)

structure Options where
  profile : Profile := .pretty
  width : Nat := 80
  indent : Nat := 2
  statementEnd : Text := [';', '\n']
  lineBreak : Text := ['\n']
  gap : Text := ['\n']
  width_pos : 0 < width := by omega
deriving DecidableEq, Repr

namespace Options

def standard : Options := {}

/-- The width is checked before the indent. -/
def make (profile : Profile) (width indent : Int) (statementEnd lineBreak gap : Text) :
    Except Fault Options :=
  if narrow : width ≤ 0 then .error .nonpositiveWidth
  else if indent < 0 then .error .negativeIndent
  else
    .ok {
      profile, width := width.toNat, indent := indent.toNat, statementEnd, lineBreak, gap }

def ofProfile (profile : Profile) (width : Int) : Except Fault Options :=
  match profile with
  | .compact => make .compact width 0 [';', ' '] [] [' ']
  | .pretty => make .pretty width 2 [';', '\n'] ['\n'] ['\n']

def indents (options : Options) : Bool :=
  0 < options.indent

def compact : Options where
  profile := .compact
  indent := 0
  statementEnd := [';', ' ']
  lineBreak := []
  gap := [' ']

theorem ofProfile_compact : ofProfile .compact 80 = .ok compact := rfl

theorem ofProfile_pretty : ofProfile .pretty 80 = .ok standard := rfl

end Options

end CodeWriter
