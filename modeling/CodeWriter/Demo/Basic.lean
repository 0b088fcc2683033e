import CodeWriter.Program.Run

namespace CodeWriter

def Text.find? : Text → Text → Option Nat
  | [], phrase => if phrase.isEmpty then some 0 else none
  | c :: rest, phrase =>
      if Text.startsWith (c :: rest) phrase then some 0 else (find? rest phrase).map (· + 1)

def Source.phrase (source : Source) (phrase : Text) : Except Fault Origin :=
  match source.text.find? phrase with
  | some start =>
      .ok { source, span := ⟨start, start + phrase.length, Nat.le_add_right _ _⟩ }
  | none => .error .phraseMissing

namespace Demo

def sourceText : Text :=
  ("# compute totals\n" ++
    "def total(items)\n" ++
    "  sum = 0\n" ++
    "  items.each \x7b |item| sum += item.price \x7d\n" ++
    "  sum\n" ++
    "end\n" ++
    "\n" ++
    "if ready then start(total([1, 2, 3])) end\n").toList

def source (name text : Text) : Source :=
  { id := 0, name, text }

def defaultSource : Source :=
  source "demo.rb".toList sourceText

def write (how : Emission) (text : String) : Program :=
  .step (.write .writer how (.literal text.toList)) .done

def attributed (origin : Origin) (body : Program) : Program :=
  .block (.attribute origin) body .done

def braced (body : Program) : Program :=
  .block (.brace none) body .done

def joined (body : Program) : Program :=
  .block (.join none) body .done

def body (first loop action last : Origin) : Program :=
  attributed first (write .inline "let sum = 0" ++ .step .endStatement .done) ++
  attributed loop
    (write .inline "for (let item of items) " ++
      attributed action (braced (write .inline "sum += item.price;"))) ++
  attributed last (write .lineBefore "return sum")

def array : Program :=
  write .lineAfter "[" ++ write .lineAfter "1," ++ write .lineAfter "2," ++
    write .inline "3" ++ write .lineBefore "]"

def call (start : Origin) : Program :=
  braced
    (attributed start (write .inline "start(total(" ++ joined array ++ write .inline "))"))

def program (source : Source) : Except Fault Program := do
  let comment ← source.phrase "# compute totals".toList
  let header ← source.phrase "def total".toList
  let first ← source.phrase "sum = 0".toList
  let loop ← source.phrase "items.each".toList
  let action ← source.phrase "sum += item.price".toList
  let last ← source.phrase "sum\nend".toList
  let condition ← source.phrase "if ready".toList
  let start ← source.phrase "start(".toList
  return attributed comment (write .lineAfter "// compute totals") ++
    attributed header (write .inline "function total(items) ") ++
    write .lineAfter "\x7b" ++ body first loop action last ++ write .lineBefore "\x7d" ++
    attributed condition (write .lineBefore "if (ready) " ++ call start)

def writer (source : Source) (options : Options) : Except Fault Writer := do
  let program ← program source
  let (result, session) := program.run (.start options {})
  result
  return session.writer

end Demo

end CodeWriter
