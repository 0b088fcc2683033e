import CodeWriter.Text.Numeral

/-! Source map documents (version 3). Characters beyond ASCII are escaped by UTF-16 units. -/

namespace CodeWriter

namespace Json

def units (c : Char) : List Nat :=
  if c.toNat < 0x10000 then [c.toNat]
  else
    let rest := c.toNat - 0x10000
    [0xD800 + rest / 0x400, 0xDC00 + rest % 0x400]

def escape (c : Char) : Text :=
  if c = '"' then ['\\', '"']
  else if c = '\\' then ['\\', '\\']
  else if c = '\n' then ['\\', 'n']
  else if c = '\r' then ['\\', 'r']
  else if c = '\t' then ['\\', 't']
  else if c = '\x08' then ['\\', 'b']
  else if c = '\x0c' then ['\\', 'f']
  else if 0x20 ≤ c.toNat ∧ c.toNat < 0x7F then [c]
  else (units c).flatMap fun unit => '\\' :: 'u' :: Text.hexadecimal 4 unit

def string (text : Text) : Text :=
  '"' :: text.flatMap escape ++ ['"']

/-- Where items go: on one line, or each on its own line, `unit` further in for every level. -/
inductive Style where
  | flat
  | indented (unit : Nat)
deriving DecidableEq, Repr

/-- Items between two brackets at a depth; nothing stands between the brackets if there are none. -/
def bracketed (style : Style) (depth : Nat) (opening closing : Char) : List Text → Text
  | [] => [opening, closing]
  | items =>
      match style with
      | .flat => opening :: [',', ' '].intercalate items ++ [closing]
      | .indented unit =>
          let margin (depth : Nat) := '\n' :: List.replicate (unit * depth) ' '
          opening :: margin (depth + 1) ++ (',' :: margin (depth + 1)).intercalate items ++
            margin depth ++ [closing]

def member (name value : Text) : Text :=
  string name ++ [':', ' '] ++ value

end Json

structure Document where
  file : Text
  sources : List Text
  mappings : Text
deriving DecidableEq, Repr

namespace Document

def version : Nat := 3

def json (style : Json.Style) (document : Document) : Text :=
  Json.bracketed style 0 '{' '}'
    [Json.member "version".toList (Text.ofNat version),
      Json.member "file".toList (Json.string document.file),
      Json.member "sources".toList
        (Json.bracketed style 1 '[' ']' (document.sources.map Json.string)),
      Json.member "mappings".toList (Json.string document.mappings)]

end Document

end CodeWriter
