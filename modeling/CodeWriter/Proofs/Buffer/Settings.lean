import CodeWriter.Buffer.Joining

namespace CodeWriter

namespace Buffer

def separators (buffer : Buffer) : Text × Text :=
  (buffer.lineBreak, buffer.gap)

def settings (buffer : Buffer) : Option Origin × Text × Text :=
  (buffer.origin, buffer.separators)

@[simp] theorem settings_push (line : Line) (buffer : Buffer) :
    (buffer.push line).settings = buffer.settings := rfl

@[simp] theorem settings_addTokens (tokens : List Token) (buffer : Buffer) :
    (buffer.addTokens tokens).settings = buffer.settings := rfl

@[simp] theorem settings_breakLine (buffer : Buffer) :
    buffer.breakLine.settings = buffer.settings := rfl

@[simp] theorem settings_withLines (lines : List Line) (buffer : Buffer) :
    (buffer.withLines lines).settings = buffer.settings := rfl

@[simp] theorem settings_pushTexts (texts : List Text) (buffer : Buffer) :
    (pushTexts texts buffer).settings = buffer.settings := by
  fun_induction pushTexts texts buffer with
  | case1 => rfl
  | case2 => rfl
  | case3 text rest buffer _ ih => exact ih

@[simp] theorem settings_write (text : Text) (buffer : Buffer) :
    (buffer.write text).settings = buffer.settings := by
  simp [write]

@[simp] theorem settings_writeLine (text : Text) (buffer : Buffer) :
    (buffer.writeLine text).settings = buffer.settings := by
  simp [writeLine]

@[simp] theorem settings_writeBelow (text : Text) (buffer : Buffer) :
    (buffer.writeBelow text).settings = buffer.settings := by
  simp [writeBelow]

@[simp] theorem settings_collapse (buffer : Buffer) :
    buffer.collapse.settings = buffer.settings := by
  unfold collapse
  dsimp only
  split <;> simp

theorem settings_insert {buffer after : Buffer} {mark : Mark} {text : Text}
    (inserted : buffer.insert mark text = .ok after) : after.settings = buffer.settings := by
  obtain ⟨_, ⟨_, rfl⟩ | ⟨_, _, rfl⟩⟩ := insert_ok_iff.mp inserted
  · rfl
  · rfl

theorem settings_takeBack {buffer kept : Buffer} {mark : Mark} {text : Text}
    (taken : buffer.takeBack mark = .ok (text, kept)) : kept.settings = buffer.settings := by
  unfold takeBack at taken
  split at taken
  · cases taken
  · cases taken
    rfl

theorem settings_closeBrace {buffer closed : Buffer} {mark : Mark} {width : Int}
    (done : buffer.closeBrace mark width = .ok closed) : closed.settings = buffer.settings := by
  rcases closeBrace_ok done with rfl | rfl <;> simp

theorem settings_joinFrom {buffer joined : Buffer} {mark : Mark} {width : Int}
    (done : buffer.joinFrom mark width = .ok joined) : joined.settings = buffer.settings := by
  rcases joinFrom_ok done with rfl | ⟨_, rfl⟩ <;> rfl

end Buffer

end CodeWriter
