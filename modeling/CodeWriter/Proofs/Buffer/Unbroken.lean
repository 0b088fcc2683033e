import CodeWriter.Buffer.Joining
import CodeWriter.Layout.Rendering
import Mathlib.Data.List.InsertIdx

namespace CodeWriter

def Token.Unbroken (token : Token) : Prop :=
  '\n' ∉ token.text

def Line.Unbroken (line : Line) : Prop :=
  ∀ token ∈ line.tokens, token.Unbroken

namespace Line.Unbroken

theorem ofNoTokens (indent : Int) : Line.Unbroken ⟨[], indent⟩ := by
  intro token member
  cases member

theorem singleton {token : Token} (unbroken : token.Unbroken) :
    Line.Unbroken { tokens := [token] } := by
  intro other member
  rw [List.mem_singleton.mp member]
  exact unbroken

theorem append {line : Line} {tokens : List Token} (unbroken : line.Unbroken)
    (added : ∀ token ∈ tokens, token.Unbroken) :
    Line.Unbroken { line with tokens := line.tokens ++ tokens } := by
  intro token member
  rcases List.mem_append.mp member with before | new
  · exact unbroken token before
  · exact added token new

theorem text {line : Line} (unbroken : line.Unbroken) : '\n' ∉ line.text := by
  intro member
  obtain ⟨token, onLine, inToken⟩ := List.mem_flatMap.mp member
  exact unbroken token onLine inToken

theorem render {line : Line} (unbroken : line.Unbroken) (unit : Int) :
    '\n' ∉ line.render unit := by
  unfold Line.render
  split
  · exact List.not_mem_nil
  · simp [unbroken.text]

end Line.Unbroken

theorem Line.mem_joinRest {lines : List Line} {token : Token} (member : token ∈ joinRest lines) :
    token = spaceToken ∨ ∃ line ∈ lines, token ∈ line.tokens := by
  fun_induction joinRest lines with
  | case1 => cases member
  | case2 last => exact .inr ⟨last, by simp, member⟩
  | case3 line rest _ ih =>
      simp only [List.cons_append, List.mem_cons, List.mem_append] at member
      rcases member with rfl | onLine | later
      · exact .inl rfl
      · exact .inr ⟨line, by simp, onLine⟩
      · rcases ih later with rfl | ⟨other, among, onOther⟩
        · exact .inl rfl
        · exact .inr ⟨other, by simp [among], onOther⟩

theorem Line.mem_joinTokens {lines : List Line} {token : Token}
    (member : token ∈ joinTokens lines) :
    token = spaceToken ∨ ∃ line ∈ lines, token ∈ line.tokens := by
  unfold joinTokens at member
  split at member
  · rename_i first second rest
    rw [List.mem_append, List.mem_append] at member
    rcases member with (onFirst | onSecond) | later
    · exact .inr ⟨first, by simp, onFirst⟩
    · exact .inr ⟨second, by simp, onSecond⟩
    · rcases Line.mem_joinRest later with rfl | ⟨other, among, onOther⟩
      · exact .inl rfl
      · exact .inr ⟨other, by simp [among], onOther⟩
  · exact .inr (List.mem_flatMap.mp member)

namespace Layout

theorem unbroken_indentFrom (unit indent : Int) {lines : List Line}
    (unbroken : ∀ line ∈ lines, line.Unbroken) :
    ∀ line ∈ indentFrom unit indent lines, line.Unbroken := by
  induction lines generalizing indent with
  | nil => simp
  | cons first rest ih =>
      intro line member
      rcases List.mem_cons.mp member with rfl | later
      · exact unbroken first (by simp)
      · exact ih _ (fun line onList => unbroken line (by simp [onList])) line later

theorem unbroken_spaced (unit : Int) {first : Line} {rest : List Line}
    (unbroken : ∀ line ∈ first :: rest, line.Unbroken) :
    ∀ line ∈ spaced unit first rest, line.Unbroken := by
  have spacer : ∀ line : Line, (line.spacerAfter unit).Unbroken :=
    fun line => .ofNoTokens (line.nextIndent unit)
  simp only [List.forall_mem_cons] at unbroken
  unfold spaced
  split
  · simp only [List.forall_mem_cons] at unbroken
    split
    · simpa using unbroken.2
    · split
      · simpa [spacer] using unbroken
      · split
        · simpa [spacer] using unbroken
        · split <;> simpa [spacer] using unbroken
  · simpa using unbroken

theorem unbroken_space (unit : Int) {lines : List Line}
    (unbroken : ∀ line ∈ lines, line.Unbroken) : ∀ line ∈ space unit lines, line.Unbroken := by
  have indented := unbroken_indentFrom unit 0 unbroken
  unfold space indent
  generalize indentFrom unit 0 lines = placed at indented ⊢
  induction placed with
  | nil => simp
  | cons first rest ih =>
      rw [List.foldr_cons]
      apply unbroken_spaced
      rw [List.forall_mem_cons] at indented ⊢
      exact ⟨indented.1, ih indented.2⟩

theorem unbroken_arrange (options : Options) {lines : List Line}
    (unbroken : ∀ line ∈ lines, line.Unbroken) :
    ∀ line ∈ arrange options lines, line.Unbroken := by
  unfold arrange
  split
  · exact unbroken_space _ unbroken
  · exact unbroken

end Layout

namespace Buffer

def Unbroken (buffer : Buffer) : Prop :=
  ∀ line ∈ buffer.lines, line.Unbroken

theorem unbroken_iff {buffer : Buffer} :
    buffer.Unbroken ↔ (∀ line ∈ buffer.above, line.Unbroken) ∧ buffer.current.Unbroken := by
  simp [Unbroken, lines, or_imp, forall_and]

theorem unbroken_stamp {text : Text} (newlineFree : '\n' ∉ text) (buffer : Buffer) :
    (buffer.stamp text).Unbroken :=
  newlineFree

theorem unbroken_empty (lineBreak gap : Text) : (Buffer.empty lineBreak gap).Unbroken :=
  unbroken_iff.mpr ⟨by simp [empty], .ofNoTokens 0⟩

theorem unbroken_withLines {lines : List Line} (unbroken : ∀ line ∈ lines, line.Unbroken)
    (buffer : Buffer) : (buffer.withLines lines).Unbroken := by
  by_cases nonempty : lines = []
  · subst nonempty
    exact unbroken_iff.mpr ⟨by simp [withLines], .ofNoTokens 0⟩
  · unfold Unbroken
    rw [lines_withLines nonempty]
    exact unbroken

namespace Unbroken

variable {buffer : Buffer} (unbroken : buffer.Unbroken)
include unbroken

theorem push {line : Line} (added : line.Unbroken) : (buffer.push line).Unbroken := by
  intro other member
  rw [lines_push, List.mem_append, List.mem_singleton] at member
  rcases member with before | rfl
  · exact unbroken other before
  · exact added

theorem breakLine : buffer.breakLine.Unbroken :=
  unbroken.push (.ofNoTokens 0)

theorem addTokens {tokens : List Token} (added : ∀ token ∈ tokens, token.Unbroken) :
    (buffer.addTokens tokens).Unbroken := by
  obtain ⟨above, current⟩ := unbroken_iff.mp unbroken
  exact unbroken_iff.mpr ⟨above, current.append added⟩

theorem write (text : Text) : (buffer.write text).Unbroken := by
  have pieces : ∀ piece ∈ text.split '\n', '\n' ∉ piece :=
    fun piece => Text.separator_not_mem_split
  rw [Text.split, List.forall_mem_cons] at pieces
  obtain ⟨first, later⟩ := pieces
  have begun : (buffer.addTokens [buffer.stamp (text.cut '\n').1]).Unbroken :=
    unbroken.addTokens (by simpa using unbroken_stamp first buffer)
  unfold Buffer.write
  generalize buffer.addTokens [buffer.stamp (text.cut '\n').1] = written at begun ⊢
  generalize (text.cut '\n').2 = pieces at later ⊢
  fun_induction pushTexts pieces written with
  | case1 => exact begun
  | case2 => exact begun.breakLine
  | case3 piece rest written _ ih =>
      rw [List.forall_mem_cons] at later
      exact ih (begun.push (.singleton (unbroken_stamp later.1 written))) later.2

theorem writeLine (text : Text) : (buffer.writeLine text).Unbroken :=
  (unbroken.write text).breakLine

theorem writeBelow (text : Text) : (buffer.writeBelow text).Unbroken :=
  unbroken.breakLine.write text

theorem insert {mark : Mark} {text : Text} {after : Buffer}
    (inserted : buffer.insert mark text = .ok after) : after.Unbroken := by
  obtain ⟨_, ⟨_, rfl⟩ | ⟨_, inLine, rfl⟩⟩ := insert_ok_iff.mp inserted
  · obtain ⟨above, current⟩ := unbroken_iff.mp unbroken
    refine unbroken_iff.mpr ⟨?_, current⟩
    intro line member
    simp only [insertLines, List.mem_append, List.mem_map] at member
    rcases member with (before | ⟨part, isPart, rfl⟩) | later
    · exact above line (List.mem_of_mem_take before)
    · exact .singleton (unbroken_stamp (Text.separator_not_mem_split isPart) buffer)
    · exact above line (List.mem_of_mem_drop later)
  · apply unbroken_withLines
    intro line member
    rw [List.modify_eq_take_drop] at member
    rcases List.mem_append.mp member with before | later
    · exact unbroken line (List.mem_of_mem_take before)
    · cases suffix : buffer.lines.drop mark.line.toNat with
      | nil => simp [suffix] at later
      | cons marked rest =>
          have fromBuffer : ∀ line ∈ marked :: rest, line.Unbroken := by
            intro line onSuffix
            exact unbroken line (List.mem_of_mem_drop (suffix ▸ onSuffix))
          rw [suffix, List.modifyHead_cons] at later
          rcases List.mem_cons.mp later with rfl | further
          · intro token onLine
            rcases List.eq_or_mem_of_mem_insertIdx onLine with rfl | old
            · exact inLine
            · exact fromBuffer marked (by simp) token old
          · exact fromBuffer line (by simp [further])

theorem dropFrom (index : Int) : (buffer.dropFrom index).2.Unbroken :=
  unbroken_withLines (fun line member => unbroken line (List.mem_of_mem_take member)) buffer

theorem replaceTail (index : Int) {line : Line} (added : line.Unbroken) :
    (buffer.replaceTail index line).Unbroken := by
  refine unbroken_iff.mpr ⟨?_, added⟩
  intro line member
  exact unbroken line (List.mem_of_mem_take member)

theorem takeBack {mark : Mark} {text : Text} {after : Buffer}
    (taken : buffer.takeBack mark = .ok (text, after)) : after.Unbroken := by
  unfold Buffer.takeBack at taken
  split at taken
  · cases taken
  · cases taken
    obtain ⟨above, current⟩ := unbroken_iff.mp (unbroken.dropFrom (mark.line + 1))
    refine unbroken_iff.mpr ⟨above, ?_⟩
    intro token member
    exact current token (List.mem_of_mem_take member)

theorem openBrace : buffer.openBrace.Unbroken :=
  unbroken.writeLine ['{']

theorem collapse : buffer.collapse.Unbroken := by
  obtain ⟨above, current⟩ := unbroken_iff.mp unbroken
  have opening : (buffer.withLines buffer.above).Unbroken := unbroken_withLines above buffer
  unfold Buffer.collapse
  dsimp only
  split
  · exact opening.write _
  · exact ((opening.write _).addTokens current).write _

theorem closeBrace {mark : Mark} {width : Int} {after : Buffer}
    (closed : buffer.closeBrace mark width = .ok after) : after.Unbroken := by
  rcases closeBrace_ok closed with rfl | rfl
  · exact unbroken.collapse
  · exact unbroken.writeBelow ['}']

theorem joinFrom {mark : Mark} {width : Int} {after : Buffer}
    (joined : buffer.joinFrom mark width = .ok after) : after.Unbroken := by
  rcases joinFrom_ok joined with rfl | ⟨_, rfl⟩
  · exact unbroken
  · apply unbroken.replaceTail
    intro token member
    rcases Line.mem_joinTokens member with rfl | ⟨line, among, onLine⟩
    · simp [Token.Unbroken, Line.spaceToken]
    · exact unbroken line (List.mem_of_mem_drop among) token onLine

end Unbroken

end Buffer

end CodeWriter
