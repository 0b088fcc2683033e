import CodeWriter.Program.Session
import CodeWriter.Proofs.Buffer.Writing

namespace CodeWriter

namespace Emission

def addition (text : Text) : Emission → Text
  | .inline => text
  | .lineAfter => text ++ ['\n']
  | .lineBefore => '\n' :: text

def additions (calls : List (Emission × Text)) : Text :=
  calls.flatMap fun call => call.1.addition call.2

end Emission

namespace Buffer

def writeAll (calls : List (Emission × Text)) (buffer : Buffer) : Buffer :=
  calls.foldl (fun buffer call => call.1.apply call.2 buffer) buffer

theorem Adds.apply {before after : Buffer} {text : Text} (adds : before.Adds text after)
    (how : Emission) (more : Text) :
    before.Adds (text ++ how.addition more) (how.apply more after) := by
  cases how with
  | inline => exact adds.write more
  | lineAfter => exact adds.writeLine more
  | lineBefore => exact adds.writeBelow more

theorem Adds.writeAll {before after : Buffer} {text : Text} (adds : before.Adds text after)
    (calls : List (Emission × Text)) :
    before.Adds (text ++ Emission.additions calls) (after.writeAll calls) := by
  induction calls generalizing text after with
  | nil =>
      rw [Emission.additions, List.flatMap_nil, List.append_nil]
      exact adds
  | cons call rest ih =>
      have whole := ih (adds.apply call.1 call.2)
      rwa [List.append_assoc] at whole

theorem adds_writeAll (calls : List (Emission × Text)) (buffer : Buffer) :
    buffer.Adds (Emission.additions calls) (buffer.writeAll calls) :=
  (Adds.refl buffer).writeAll calls

theorem adds_write (text : Text) (buffer : Buffer) : buffer.Adds text (buffer.write text) :=
  (Adds.refl buffer).write text

theorem adds_foldl_write (pieces : List Text) (buffer : Buffer) :
    buffer.Adds pieces.flatten (pieces.foldl (fun buffer piece => buffer.write piece) buffer) := by
  have whole := buffer.adds_writeAll (pieces.map fun piece => (Emission.inline, piece))
  rw [writeAll, List.foldl_map, Emission.additions, List.flatMap_map] at whole
  rwa [← List.flatMap_id]

theorem Adds.map_text_lines_congr {before after other : Buffer} {text : Text}
    (adds : before.Adds text after) (otherAdds : before.Adds text other) :
    after.lines.map Line.text = other.lines.map Line.text := by
  rw [adds.map_text_lines, otherAdds.map_text_lines]

/-- Writing is concatenation, in any pieces and by any calls: the text of the buffer goes on with
what the calls add, the texts of the lines are those of writing it at once, a line comes in for each
line feed, and every token that comes in is without line feed and carries the source in force. -/
theorem writing_is_concatenation (buffer : Buffer) :
    (∀ text : Text,
      (buffer.write text).text = buffer.text ++ text ∧
        (buffer.writeLine text).text = buffer.text ++ text ++ ['\n'] ∧
        (buffer.writeBelow text).text = buffer.text ++ ['\n'] ++ text) ∧
      (∀ pieces : List Text,
        (pieces.foldl (fun buffer piece => buffer.write piece) buffer).lines.map Line.text =
          (buffer.write pieces.flatten).lines.map Line.text) ∧
      ∀ calls : List (Emission × Text),
        let after := buffer.writeAll calls
        let added := Emission.additions calls
        after.text = buffer.text ++ added ∧
          after.lines.map Line.text = (buffer.write added).lines.map Line.text ∧
          after.size = buffer.size + added.count '\n' ∧
          ∃ tokens later,
            after.lines = buffer.above ++
                { buffer.current with tokens := buffer.current.tokens ++ tokens } :: later ∧
              ∀ token ∈ tokens ++ later.flatMap Line.tokens,
                '\n' ∉ token.text ∧ token.origin = buffer.origin := by
  refine ⟨fun text => ⟨?_, ?_, ?_⟩, fun pieces => ?_, fun calls => ?_⟩
  · exact text_write text buffer
  · exact text_writeLine text buffer
  · rw [text_writeBelow, List.append_assoc]
    rfl
  · exact (adds_foldl_write pieces buffer).map_text_lines_congr (adds_write _ buffer)
  · have adds := adds_writeAll calls buffer
    obtain ⟨tokens, later, added, _⟩ := adds_writeAll calls buffer
    refine ⟨adds.text_eq, adds.map_text_lines_congr (adds_write _ buffer), adds.size_eq, tokens,
      later, added.lines, List.forall_mem_append.mpr ⟨added.onLine, ?_⟩⟩
    intro token member
    obtain ⟨line, among, onIt⟩ := List.mem_flatMap.mp member
    exact added.below line among token onIt

end Buffer

end CodeWriter
