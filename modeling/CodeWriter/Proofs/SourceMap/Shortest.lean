import CodeWriter.Proofs.SourceMap.Scanning

namespace CodeWriter

namespace Vlq

theorem digitChar_of_digit? {c : Char} {digit : Nat} (found : digit? c = some digit) :
    digitChar digit = c := by
  obtain ⟨inside, same, _⟩ := List.idxOf?_eq_some_iff.mp found
  rw [digitChar, List.getD_eq_getElem?_getD, List.getElem?_eq_getElem inside]
  exact same

theorem zigzag_unzigzag (data : Nat) : zigzag (unzigzag data) = if data = 1 then 0 else data := by
  unfold zigzag unzigzag
  split <;> split <;> split <;> omega

/-- The number that the digits of a code stand for, sign and all. -/
def runData (run : Text) : Nat :=
  Nat.ofDigits 32 (run.map lowBits)

theorem runData_cons (c : Char) (run : Text) :
    runData (c :: run) = lowBits c + 32 * runData run := by
  simp [runData, Nat.ofDigits_cons]

theorem runData_singleton (c : Char) : runData [c] = lowBits c := by
  simp [runData]

theorem lowBits_lt (c : Char) : lowBits c < 32 :=
  Nat.mod_lt _ (by decide)

theorem encodeNat_of_lt {data : Nat} (small : data < 32) : encodeNat data = [digitChar data] := by
  rw [encodeNat, if_pos small]

theorem encodeNat_runData_cons {c : Char} (goesOn : continues c = true) {run : Text}
    (positive : 0 < runData run) :
    encodeNat (runData (c :: run)) = c :: encodeNat (runData run) := by
  have low := lowBits_lt c
  have large : ¬(runData (c :: run) < 32) := by
    rw [runData_cons]
    omega
  have bits : runData (c :: run) % 32 = lowBits c := by
    rw [runData_cons]
    omega
  have high : runData (c :: run) / 32 = runData run := by
    rw [runData_cons]
    omega
  rw [encodeNat, if_neg large, bits, high, digitChar_of_digit? (digit?_of_continues goesOn)]

theorem encodeNat_runData_cons_zero {c : Char} {run : Text} (zero : runData run = 0) :
    encodeNat (runData (c :: run)) = [digitChar (lowBits c)] := by
  rw [runData_cons, zero, Nat.mul_zero, Nat.add_zero, encodeNat_of_lt (lowBits_lt c)]

theorem lowBits_eq_zero_of_runData {start : Text} {last : Char}
    (zero : runData (start ++ [last]) = 0) : lowBits last = 0 := by
  induction start with
  | nil => rwa [List.nil_append, runData_singleton] at zero
  | cons c more ih =>
      apply ih
      rw [List.cons_append, runData_cons] at zero
      omega

section Run

variable {start : Text} {last : Char}

theorem length_encodeNat_runData_le (goesOn : ∀ c ∈ start, continues c = true) :
    (encodeNat (runData (start ++ [last]))).length ≤ (start ++ [last]).length := by
  induction start with
  | nil => rw [List.nil_append, runData_singleton, encodeNat_of_lt (lowBits_lt last)]; simp
  | cons c more ih =>
      rw [List.forall_mem_cons] at goesOn
      rw [List.cons_append]
      rcases Nat.eq_zero_or_pos (runData (more ++ [last])) with zero | positive
      · rw [encodeNat_runData_cons_zero zero]
        simp
      · rw [encodeNat_runData_cons goesOn.1 positive, List.length_cons, List.length_cons]
        exact Nat.succ_le_succ (ih goesOn.2)

theorem encodeNat_runData_iff (goesOn : ∀ c ∈ start, continues c = true)
    (ends : digit? last = some (lowBits last)) :
    encodeNat (runData (start ++ [last])) = start ++ [last] ↔ start = [] ∨ lowBits last ≠ 0 := by
  induction start with
  | nil =>
      rw [List.nil_append, runData_singleton, encodeNat_of_lt (lowBits_lt last),
        digitChar_of_digit? ends]
      simp
  | cons c more ih =>
      rw [List.forall_mem_cons] at goesOn
      rw [List.cons_append]
      rcases Nat.eq_zero_or_pos (runData (more ++ [last])) with zero | positive
      · rw [encodeNat_runData_cons_zero zero]
        simp [lowBits_eq_zero_of_runData zero]
      · rw [encodeNat_runData_cons goesOn.1 positive, List.cons.injEq, ih goesOn.2]
        cases more with
        | nil =>
            rw [List.nil_append, runData_singleton] at positive
            simp [Nat.ne_of_gt positive]
        | cons _ _ => simp

theorem encode_runValue (run : Text) :
    encode (runValue run) = encodeNat (if runData run = 1 then 0 else runData run) := by
  rw [encode, runValue, zigzag_unzigzag]
  rfl

theorem length_encode_runValue_le (goesOn : ∀ c ∈ start, continues c = true) :
    (encode (runValue (start ++ [last]))).length ≤ (start ++ [last]).length := by
  rw [encode_runValue]
  split
  · rw [encodeNat_of_lt (by decide), List.length_append]
    exact Nat.le_add_left _ _
  · exact length_encodeNat_runData_le goesOn

theorem lowBits_eq_zero_iff (ends : digit? last = some (lowBits last)) :
    lowBits last = 0 ↔ last = 'A' := by
  constructor
  · intro zero
    rw [← digitChar_of_digit? ends, zero]
    rfl
  · rintro rfl
    decide

theorem lowBits_eq_one_iff (ends : digit? last = some (lowBits last)) :
    lowBits last = 1 ↔ last = 'B' := by
  constructor
  · intro one
    rw [← digitChar_of_digit? ends, one]
    rfl
  · rintro rfl
    decide

theorem runData_eq_one_iff (c : Char) (run : Text) :
    runData (c :: run) = 1 ↔ lowBits c = 1 ∧ runData run = 0 := by
  rw [runData_cons]
  omega

theorem encode_runValue_iff (goesOn : ∀ c ∈ start, continues c = true)
    (ends : digit? last = some (lowBits last)) :
    encode (runValue (start ++ [last])) = start ++ [last] ↔
      start = [] ∧ last ≠ 'B' ∨ start ≠ [] ∧ last ≠ 'A' := by
  rw [encode_runValue]
  simp only [ne_eq, ← lowBits_eq_one_iff ends, ← lowBits_eq_zero_iff ends]
  split
  · rename_i one
    rw [encodeNat_of_lt (by decide)]
    cases start with
    | nil =>
        rw [List.nil_append, runData_singleton] at one
        have other : digitChar 0 ≠ last := by
          rintro rfl
          exact absurd one (by decide)
        simp [one, other]
    | cons c more =>
        have zero := lowBits_eq_zero_of_runData ((runData_eq_one_iff c _).mp one).2
        simp [zero]
  · rename_i other
    rw [encodeNat_runData_iff goesOn ends]
    cases start with
    | nil =>
        rw [List.nil_append, runData_singleton] at other
        simp [other]
    | cons c more => simp

end Run

/-- What is read at a place is written in no more digits than were read, and in the same ones just
if they are a single digit other than `B` or several digits of which the last is not `A`. -/
theorem written_code_is_shortest {text : Text} {place value next : Int} (natural : 0 ≤ place)
    (result : decodeAt text place = .ok (value, next)) :
    let code := text.extract place.toNat next.toNat
    (encode value).length ≤ code.length ∧
      (encode value = code ↔
        code.length = 1 ∧ code ≠ ['B'] ∨ 1 < code.length ∧ code.getLast? ≠ some 'A') := by
  intro code
  have reads := readsAt_decodeAt text place
  rw [result] at reads
  cases reads with
  | @code start rest last within split goesOn known ends =>
      have digit := digit?_of_ends_of_mem ends known
      have parted : code = start ++ [last] := by
        have size : (place + start.length + 1).toNat - place.toNat = (start ++ [last]).length := by
          rw [List.length_append, List.length_singleton]
          omega
        have ahead : text.drop place.toNat = start ++ [last] ++ rest := by
          rw [List.append_assoc, List.singleton_append, ← split, window,
            if_neg (Int.not_lt.mpr natural)]
        simp only [code]
        rw [List.extract_eq_take_drop, size, ahead, List.take_left]
      have number : unzigzag (codeData start last) = runValue (start ++ [last]) := by
        rw [codeData_eq_ofDigits goesOn digit, runValue]
      show (encode (unzigzag (codeData start last))).length ≤ code.length ∧
        (encode (unzigzag (codeData start last)) = code ↔ _)
      rw [number, parted, encode_runValue_iff goesOn digit, List.getLast?_concat]
      refine ⟨length_encode_runValue_le goesOn, ?_⟩
      cases start with
      | nil => simp
      | cons c more => simp

/-- `kA` holds five bits more than `E` and has the same value. It is read behind another code. -/
theorem written_code_is_shortest_for_padded_code :
    let text : Text := ['C', 'k', 'A', 'D']
    decodeAt text 1 = .ok (2, 3) ∧ encode 2 = ['E'] ∧
      (encode 2).length ≤ (text.extract 1 3).length ∧ encode 2 ≠ text.extract 1 3 := by
  intro text
  have result : decodeAt text 1 = .ok (2, 3) := by decide
  obtain ⟨short, same⟩ := written_code_is_shortest (by decide) result
  have code : encode 2 = ['E'] := by rw [encode, encodeNat_of_lt (by decide)]; rfl
  refine ⟨result, code, short, ?_⟩
  intro equal
  rcases same.mp equal with ⟨single, _⟩ | ⟨_, last⟩
  · exact absurd single (by decide)
  · exact last (by decide)

end Vlq

end CodeWriter
