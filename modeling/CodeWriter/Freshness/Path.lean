import CodeWriter.Text.Basic

/-! File paths in normal form. Exactly two slashes at the front are kept apart from one. -/

namespace CodeWriter

/-- The slashes that stay at the front of a path. -/
def Text.pathRoot (path : Text) : Text :=
  match (path.takeWhile fun c => c == '/').length with
  | 0 => []
  | 2 => ['/', '/']
  | _ => ['/']

def Text.pathComponents (path : Text) : List Text :=
  (path.split '/').filter fun component => !(component.isEmpty || component == ['.'])

def Text.normalizePath (path : Text) : Text :=
  match path.pathRoot ++ ['/'].intercalate path.pathComponents with
  | [] => ['.']
  | normal => normal

end CodeWriter
