import CodeWriter.Proofs.SourceMap.Fields
import Mathlib.Data.Nat.Digits.Lemmas

/-! A negative place counts from the end, and reading runs over the end to the front. -/

namespace CodeWriter

/-- The character at a place; a negative place counts from the end. -/
def Text.charAt? (text : Text) (place : Int) : Option Char :=
  if place < -(text.length : Int) then none
  else if place < 0 then text[(text.length + place).toNat]?
  else text[place.toNat]?

namespace Vlq

/-- The characters that reading at a place meets. -/
def window (text : Text) (place : Int) : Text :=
  if place < 0 then text.drop (text.length + place).toNat ++ text else text.drop place.toNat

theorem decodeAt_of_outside {text : Text} {place : Int}
    (outside : place < -(text.length : Int)) : decodeAt text place = .error .placeOutside := by
  rw [decodeAt, if_pos outside]

theorem decodeAt_of_within {text : Text} {place : Int}
    (within : -(text.length : Int) ≤ place) :
    decodeAt text place =
      (read place (window text place)).map fun (value, rest) =>
        (value, place + ((window text place).length - rest.length : Nat)) := by
  rw [decodeAt, if_neg (Int.not_lt.mpr within)]
  rfl

theorem window_of_length_le {text : Text} {place : Int} (past : (text.length : Int) ≤ place) :
    window text place = [] := by
  have natural : ¬(place < 0) := by omega
  rw [window, if_neg natural, List.drop_eq_nil_iff]
  omega

theorem window_eq_cons {text : Text} {place : Int} {c : Char}
    (found : text.charAt? place = some c) :
    window text place = c :: window text (place + 1) := by
  unfold Text.charAt? at found
  split at found
  · cases found
  rename_i within
  split at found
  · rename_i negative
    obtain ⟨inside, rfl⟩ := List.getElem?_eq_some_iff.mp found
    have further : (text.length + place).toNat + 1 = (text.length + (place + 1)).toNat := by omega
    rw [window, if_pos negative, List.drop_eq_getElem_cons inside, List.cons_append, further]
    by_cases last : place + 1 < 0
    · rw [window, if_pos last]
    · obtain rfl : place = -1 := by omega
      simp [window]
  · rename_i natural
    obtain ⟨inside, rfl⟩ := List.getElem?_eq_some_iff.mp found
    have further : place.toNat + 1 = (place + 1).toNat := by omega
    have naturalNext : ¬(place + 1 < 0) := by omega
    rw [window, if_neg natural, List.drop_eq_getElem_cons inside, further, window,
      if_neg naturalNext]

theorem exists_charAt? {text : Text} {place : Int} (within : -(text.length : Int) ≤ place)
    (inside : place < text.length) : ∃ c, text.charAt? place = some c := by
  rw [Text.charAt?, if_neg (Int.not_lt.mpr within)]
  split
  · exact ⟨_, List.getElem?_eq_getElem (by omega)⟩
  · exact ⟨_, List.getElem?_eq_getElem (by omega)⟩

/-- Five bits for each digit of a code, lowest first. The last digit has no mark to take off. -/
def codeData (start : Text) (last : Char) : Nat :=
  ((start.map fun c => alphabet.idxOf c - 32).mapIdx fun index bits => bits * 32 ^ index).sum +
    alphabet.idxOf last * 32 ^ start.length

/-- What may come of reading at a place. -/
inductive ReadsAt (text : Text) (place : Int) : Except Fault (Int × Int) → Prop
  | outside (before : place < -(text.length : Int)) :
      ReadsAt text place (.error .placeOutside)
  | truncated (within : -(text.length : Int) ≤ place)
      (goesOn : ∀ c ∈ window text place, continues c = true) :
      ReadsAt text place (.error .truncatedNumber)
  | foreign {start rest : Text} {c : Char} (within : -(text.length : Int) ≤ place)
      (split : window text place = start ++ c :: rest)
      (goesOn : ∀ c ∈ start, continues c = true) (unknown : c ∉ alphabet) :
      ReadsAt text place (.error (.foreignDigit c (place + start.length)))
  | code {start rest : Text} {last : Char} (within : -(text.length : Int) ≤ place)
      (split : window text place = start ++ last :: rest)
      (goesOn : ∀ c ∈ start, continues c = true) (known : last ∈ alphabet)
      (ends : continues last = false) :
      ReadsAt text place
        (.ok (if codeData start last % 2 = 1 then -(codeData start last / 2 : Nat)
            else (codeData start last / 2 : Nat),
          place + start.length + 1))

theorem idxOf_of_digit? {c : Char} {digit : Nat} (found : digit? c = some digit) :
    alphabet.idxOf c = digit := by
  rw [digit?] at found
  rw [List.idxOf_eq_getD_idxOf?, found, Option.getD_some]

theorem digit?_of_ends_of_mem {c : Char} (ends : continues c = false) (known : c ∈ alphabet) :
    digit? c = some (lowBits c) := by
  rcases digit?_of_ends ends with foreign | digit
  · simp [← isSome_digit?, foreign] at known
  · exact digit

theorem codeData_eq_ofDigits {start : Text} (goesOn : ∀ c ∈ start, continues c = true)
    {last : Char} (ends : digit? last = some (lowBits last)) :
    codeData start last = Nat.ofDigits 32 ((start ++ [last]).map lowBits) := by
  have bits : start.map lowBits = start.map fun c => alphabet.idxOf c - 32 := by
    apply List.map_congr_left
    intro c member
    rw [idxOf_of_digit? (digit?_of_continues (goesOn c member)), Nat.add_sub_cancel_left]
  rw [List.map_append, Nat.ofDigits_append, bits, Nat.ofDigits_eq_sum_mapIdx, codeData,
    idxOf_of_digit? ends]
  simp [Nat.mul_comm]

theorem decodeAt_of_continues {text : Text} {place : Int}
    (within : -(text.length : Int) ≤ place)
    (goesOn : ∀ c ∈ window text place, continues c = true) :
    decodeAt text place = .error .truncatedNumber := by
  rw [decodeAt_of_within within, read, readNat_of_continues goesOn]
  rfl

theorem decodeAt_of_foreign {text start rest : Text} {place : Int} {c : Char}
    (within : -(text.length : Int) ≤ place) (split : window text place = start ++ c :: rest)
    (goesOn : ∀ c ∈ start, continues c = true) (unknown : digit? c = none) :
    decodeAt text place = .error (.foreignDigit c (place + start.length)) := by
  rw [decodeAt_of_within within, split, read, readNat_of_foreign goesOn unknown]
  rfl

theorem decodeAt_of_run {text start rest : Text} {place : Int} {last : Char}
    (within : -(text.length : Int) ≤ place) (split : window text place = start ++ last :: rest)
    (goesOn : ∀ c ∈ start, continues c = true) (ends : digit? last = some (lowBits last)) :
    decodeAt text place =
      .ok (unzigzag (codeData start last), place + start.length + 1) := by
  have length : ((start ++ last :: rest).length - rest.length : Nat) = start.length + 1 := by
    rw [List.length_append, List.length_cons]
    omega
  rw [decodeAt_of_within within, split, read_of_run goesOn ends, Except.map]
  dsimp only
  rw [length, runValue, codeData_eq_ofDigits goesOn ends, Int.natCast_add, Int.natCast_one,
    Int.add_assoc]

theorem readsAt_decodeAt (text : Text) (place : Int) :
    ReadsAt text place (decodeAt text place) := by
  by_cases outside : place < -(text.length : Int)
  · rw [decodeAt_of_outside outside]
    exact .outside outside
  have within := Int.not_lt.mp outside
  rcases exists_run (window text place) with goesOn | ⟨start, last, rest, split, goesOn, ends⟩
  · rw [decodeAt_of_continues within goesOn]
    exact .truncated within goesOn
  rcases digit?_of_ends ends with foreign | digit
  · rw [decodeAt_of_foreign within split goesOn foreign]
    have unknown : last ∉ alphabet := by simp [← isSome_digit?, foreign]
    exact .foreign within split goesOn unknown
  · rw [decodeAt_of_run within split goesOn digit]
    exact .code within split goesOn (isSome_digit?.mp (by rw [digit]; rfl)) ends

theorem decodeAt_of_readsAt {text : Text} {place : Int} {result : Except Fault (Int × Int)}
    (reads : ReadsAt text place result) : decodeAt text place = result := by
  cases reads with
  | outside before => exact decodeAt_of_outside before
  | truncated within goesOn => exact decodeAt_of_continues within goesOn
  | foreign within split goesOn unknown =>
      apply decodeAt_of_foreign within split goesOn
      simpa [← isSome_digit?] using unknown
  | code within split goesOn known ends =>
      exact decodeAt_of_run within split goesOn (digit?_of_ends_of_mem ends known)

/-- Reads on at a place, with what was read so far and the number of its bits. -/
def scan (text : Text) (place : Int) (data shift : Nat) : Except Fault (Nat × Int) :=
  if text.length ≤ place then .error .truncatedNumber
  else
    match text.charAt? place with
    | none => .error .placeOutside
    | some c =>
        match digit? c with
        | none => .error (.foreignDigit c place)
        | some digit =>
            let more := data ||| (digit &&& 31) <<< shift
            if digit &&& 32 = 0 then .ok (more, place + 1)
            else scan text (place + 1) more (shift + 5)
termination_by (text.length - place).toNat

def signed (data : Nat) : Int :=
  if data &&& 1 = 1 then -(data >>> 1 : Nat) else (data >>> 1 : Nat)

theorem signed_eq_unzigzag (data : Nat) : signed data = unzigzag data := by
  rw [signed, unzigzag, Nat.and_one_is_mod, Nat.shiftRight_one]

theorem or_shiftLeft_eq_add {data shift : Nat} (small : data < 2 ^ shift) (bits : Nat) :
    data ||| bits <<< shift = data + 2 ^ shift * bits := by
  rw [Nat.or_comm, Nat.shiftLeft_eq, Nat.mul_comm bits, ← Nat.two_pow_add_eq_or_of_lt small,
    Nat.add_comm]

theorem and_continuation_eq_zero_iff {digit : Nat} (small : digit < 64) :
    digit &&& 32 = 0 ↔ digit < 32 := by
  have all : ∀ d : Fin 64, d.val &&& 32 = 0 ↔ d.val < 32 := by decide
  exact all ⟨digit, small⟩

theorem scan_eq_readNat {text : Text} {place : Int} (within : -(text.length : Int) ≤ place)
    {data shift : Nat} (small : data < 2 ^ shift) :
    scan text place data shift =
      (readNat place (window text place)).map fun (high, rest) =>
        (data + 2 ^ shift * high, place + ((window text place).length - rest.length : Nat)) := by
  fun_induction scan text place data shift with
  | case1 place data shift past =>
      rw [window_of_length_le past]
      rfl
  | case2 place data shift inside missing =>
      obtain ⟨c, found⟩ := exists_charAt? within (Int.not_le.mp inside)
      rw [found] at missing
      cases missing
  | case3 place data shift inside c found unknown =>
      rw [window_eq_cons found, readNat, unknown]
      rfl
  | case4 place data shift inside c found digit known more ends =>
      have low := (and_continuation_eq_zero_iff (digit?_lt known)).mp ends
      have bits : digit &&& 31 = digit := by
        rw [Nat.and_two_pow_sub_one_eq_mod digit 5, Nat.mod_eq_of_lt low]
      rw [window_eq_cons found, readNat, known]
      simp [low, more, bits, or_shiftLeft_eq_add small, Except.map]
  | case5 place data shift inside c found digit known more goesOn ih =>
      have digitLt := digit?_lt known
      have high : ¬(digit < 32) := mt (and_continuation_eq_zero_iff digitLt).mpr goesOn
      have bits : digit &&& 31 = digit - 32 := by
        rw [Nat.and_two_pow_sub_one_eq_mod digit 5]
        omega
      have sum : more = data + 2 ^ shift * (digit - 32) := by
        rw [← bits]
        exact or_shiftLeft_eq_add small _
      have smallMore : more < 2 ^ (shift + 5) := by
        have width : 2 ^ shift * (digit - 32) ≤ 2 ^ shift * 31 := Nat.mul_le_mul_left _ (by omega)
        rw [Nat.pow_add]
        omega
      rw [ih (by omega) smallMore, window_eq_cons found, readNat, known]
      dsimp only
      rw [if_neg high]
      cases later : readNat (place + 1) (window text (place + 1)) with
      | error fault => rfl
      | ok result =>
          obtain ⟨value, rest⟩ := result
          have shorter := length_readNat_lt later
          have data' : more + 2 ^ (shift + 5) * value =
              data + 2 ^ shift * (digit - 32 + 32 * value) := by
            rw [sum, Nat.pow_add, Nat.mul_add, Nat.mul_assoc, Nat.add_assoc]
          simp only [Except.map, data', List.length_cons, Except.ok.injEq, Prod.mk.injEq, true_and]
          omega

/-- Scanning from a place on reads the code that stands there. -/
theorem decodeAt_eq_scan (text : Text) (place : Int) :
    decodeAt text place =
      (scan text place 0 0).map fun (data, next) => (signed data, next) := by
  by_cases outside : place < -(text.length : Int)
  · have inside : ¬((text.length : Int) ≤ place) := by omega
    have missing : text.charAt? place = none := by rw [Text.charAt?, if_pos outside]
    rw [decodeAt_of_outside outside, scan, if_neg inside, missing]
    rfl
  have within := Int.not_lt.mp outside
  rw [decodeAt_of_within within, scan_eq_readNat within (by decide), read]
  cases readNat place (window text place) with
  | error fault => rfl
  | ok result => simp [Except.map, signed_eq_unzigzag]

/-- Reading at a place gives what the grammar says of the characters from there on and nothing else,
and scanning them gives the same. -/
theorem places_are_read_by_the_grammar (text : Text) (place : Int) :
    (∀ result, decodeAt text place = result ↔ ReadsAt text place result) ∧
      decodeAt text place =
        (scan text place 0 0).map (fun (data, next) => (signed data, next)) ∧
      Fault.truncatedNumber.message = "Truncated VLQ value".toList ∧
      ∀ c found, (Fault.foreignDigit c found).message =
        "Invalid base64 VLQ digit ".toList ++ Text.quoted [c] ++ " at ".toList ++
          Text.ofInt found := by
  refine ⟨fun result => ⟨?_, decodeAt_of_readsAt⟩, decodeAt_eq_scan text place, rfl,
    fun _ _ => rfl⟩
  rintro rfl
  exact readsAt_decodeAt text place

/-- The last digit goes on, and the code ends at the front of the text. -/
example : decodeAt ['C', 'g'] (-1) = .ok (32, 1) := by decide

end Vlq

end CodeWriter
