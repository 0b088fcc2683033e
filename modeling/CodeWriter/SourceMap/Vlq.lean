import CodeWriter.Fault

/-! Base-64 digits of five bits, lowest first. The sign is the lowest bit of the whole. -/

namespace CodeWriter

namespace Vlq

def alphabet : Text :=
  ['A', 'B', 'C', 'D', 'E', 'F', 'G', 'H', 'I', 'J', 'K', 'L', 'M', 'N', 'O', 'P',
   'Q', 'R', 'S', 'T', 'U', 'V', 'W', 'X', 'Y', 'Z', 'a', 'b', 'c', 'd', 'e', 'f',
   'g', 'h', 'i', 'j', 'k', 'l', 'm', 'n', 'o', 'p', 'q', 'r', 's', 't', 'u', 'v',
   'w', 'x', 'y', 'z', '0', '1', '2', '3', '4', '5', '6', '7', '8', '9', '+', '/']

def digitChar (digit : Nat) : Char :=
  alphabet.getD digit 'A'

def digit? (c : Char) : Option Nat :=
  alphabet.idxOf? c

/-- The magnitude with the sign as its lowest bit. -/
def zigzag (value : Int) : Nat :=
  if value < 0 then 2 * value.natAbs + 1 else 2 * value.natAbs

def unzigzag (data : Nat) : Int :=
  if data % 2 = 1 then -(data / 2 : Nat) else (data / 2 : Nat)

def encodeNat (data : Nat) : Text :=
  if data < 32 then [digitChar data]
  else digitChar (32 + data % 32) :: encodeNat (data / 32)
termination_by data
decreasing_by exact Nat.div_lt_self (by omega) (by omega)

def encode (value : Int) : Text :=
  encodeNat (zigzag value)

/-- Reads one code off the front. `place` is where the text starts, for the report of a character
that is no digit. -/
def readNat : (place : Int) → Text → Except Fault (Nat × Text)
  | _, [] => .error .truncatedNumber
  | place, c :: rest =>
      match digit? c with
      | none => .error (.foreignDigit c place)
      | some digit =>
          if digit < 32 then .ok (digit, rest)
          else
            match readNat (place + 1) rest with
            | .ok (high, after) => .ok (digit - 32 + 32 * high, after)
            | .error fault => .error fault

def read (place : Int) (text : Text) : Except Fault (Int × Text) :=
  (readNat place text).map fun (data, rest) => (unzigzag data, rest)

/-- Reads one code at a place and gives the place after it. A negative place counts from the end;
reading then goes on from the front. -/
def decodeAt (text : Text) (place : Int) : Except Fault (Int × Int) :=
  if place < -(text.length : Int) then .error .placeOutside
  else
    let window :=
      if place < 0 then text.drop (text.length + place).toNat ++ text else text.drop place.toNat
    (read place window).map fun (value, rest) =>
      (value, place + (window.length - rest.length : Nat))

theorem digit?_digitChar {digit : Nat} (small : digit < 64) :
    digit? (digitChar digit) = some digit := by
  have all : ∀ d : Fin 64, digit? (digitChar d) = some d.val := by decide +kernel
  exact all ⟨digit, small⟩

theorem unzigzag_zigzag (value : Int) : unzigzag (zigzag value) = value := by
  unfold unzigzag zigzag
  split <;> split <;> omega

theorem length_readNat_lt {place : Int} {text rest : Text} {data : Nat}
    (result : readNat place text = .ok (data, rest)) : rest.length < text.length := by
  induction text generalizing place data with
  | nil => simp [readNat] at result
  | cons c more ih =>
      unfold readNat at result
      split at result
      · cases result
      · split at result
        · cases result
          simp
        · split at result
          · rename_i high after recursive
            cases result
            have shorter := ih recursive
            simp only [List.length_cons]
            omega
          · cases result

theorem length_read_lt {place : Int} {text rest : Text} {value : Int}
    (result : read place text = .ok (value, rest)) : rest.length < text.length := by
  unfold read at result
  cases found : readNat place text with
  | error fault => simp [found, Except.map] at result
  | ok pair =>
      obtain ⟨data, after⟩ := pair
      simp only [found, Except.map, Except.ok.injEq, Prod.mk.injEq] at result
      exact result.2 ▸ length_readNat_lt found

/-- All the numbers of a text with the place after each, the text starting at `place`. -/
def readAllFrom (place : Int) (text : Text) : Except Fault (List (Int × Int)) :=
  if text.isEmpty then .ok []
  else
    match _ : read place text with
    | .error fault => .error fault
    | .ok (value, rest) =>
        let next := place + (text.length - rest.length : Nat)
        match readAllFrom next rest with
        | .error fault => .error fault
        | .ok more => .ok ((value, next) :: more)
termination_by text.length
decreasing_by exact length_read_lt ‹_›

def readAll (text : Text) : Except Fault (List (Int × Int)) :=
  readAllFrom 0 text

def decodeAll (text : Text) : Except Fault (List Int) :=
  (readAll text).map (List.map Prod.fst)

end Vlq

end CodeWriter
