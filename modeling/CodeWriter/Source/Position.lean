import CodeWriter.Fault

/-! Only a line feed ends a line, and every other character takes one column. -/

namespace CodeWriter

structure Position where
  line : Nat
  column : Nat
deriving DecidableEq, Repr, Inhabited

namespace Position

/-- The position, seen from one character further to the front. -/
def behind (c : Char) (position : Position) : Position :=
  if c = '\n' then { position with line := position.line + 1 }
  else if position.line = 0 then { position with column := position.column + 1 }
  else position

def locate : Text → Nat → Option Position
  | _, 0 => some ⟨0, 0⟩
  | [], _ + 1 => none
  | c :: rest, offset + 1 => (locate rest offset).map (behind c)

/-- The position of an offset of any sign; the end of the text is the last one that has any. -/
def ofOffset (text : Text) (offset : Int) : Except Fault Position :=
  if offset < 0 then .error (.offsetOutside offset text.length)
  else
    match locate text offset.toNat with
    | some position => .ok position
    | none => .error (.offsetOutside offset text.length)

@[simp] theorem locate_zero (text : Text) : locate text 0 = some ⟨0, 0⟩ := by
  cases text <;> rfl

@[simp] theorem locate_nil_succ (offset : Nat) : locate [] (offset + 1) = none := rfl

@[simp] theorem locate_cons_succ (c : Char) (rest : Text) (offset : Nat) :
    locate (c :: rest) (offset + 1) = (locate rest offset).map (behind c) := rfl

theorem locate_eq_none_iff {text : Text} {offset : Nat} :
    locate text offset = none ↔ text.length < offset := by
  induction text generalizing offset with
  | nil => cases offset <;> simp
  | cons c rest ih =>
      cases offset with
      | zero => simp
      | succ offset => simp [ih]

end Position

end CodeWriter
