import CodeWriter.SourceMap.Vlq

namespace CodeWriter

namespace Vlq

theorem readNat_encodeNat (data : Nat) (place : Int) (rest : Text) :
    readNat place (encodeNat data ++ rest) = .ok (data, rest) := by
  induction data using Nat.strongRecOn generalizing place with
  | ind data ih =>
      rw [encodeNat]
      split
      · rename_i small
        simp [readNat, digit?_digitChar (by omega : data < 64), small]
      · rename_i large
        have digit : digit? (digitChar (32 + data % 32)) = some (32 + data % 32) :=
          digit?_digitChar (by omega)
        have continues : ¬(32 + data % 32 < 32) := by omega
        simp only [List.cons_append, readNat, digit, continues, if_false,
          ih (data / 32) (by omega)]
        congr 2
        omega

theorem read_encode (value place : Int) (rest : Text) :
    read place (encode value ++ rest) = .ok (value, rest) := by
  simp [read, encode, readNat_encodeNat, Except.map, unzigzag_zigzag]

theorem encodeNat_ne_nil (data : Nat) : encodeNat data ≠ [] := by
  rw [encodeNat]
  split <;> simp

theorem encode_ne_nil (value : Int) : encode value ≠ [] :=
  encodeNat_ne_nil (zigzag value)

theorem isSome_digit?_of_mem_encodeNat {data : Nat} {c : Char}
    (member : c ∈ encodeNat data) : (digit? c).isSome = true := by
  induction data using Nat.strongRecOn with
  | ind data ih =>
      rw [encodeNat] at member
      split at member
      · rename_i small
        rw [List.mem_singleton.mp member, digit?_digitChar (by omega)]
        rfl
      · rename_i large
        rcases List.mem_cons.mp member with rfl | later
        · rw [digit?_digitChar (by omega)]
          rfl
        · exact ih (data / 32) (by omega) later

theorem isSome_digit?_of_mem_encode {value : Int} {c : Char} (member : c ∈ encode value) :
    (digit? c).isSome = true :=
  isSome_digit?_of_mem_encodeNat member

theorem readAllFrom_of_read {place value : Int} {text rest : Text}
    (result : read place text = .ok (value, rest)) :
    readAllFrom place text =
      (readAllFrom (place + (text.length - rest.length : Nat)) rest).map
        ((value, place + (text.length - rest.length : Nat)) :: ·) := by
  have shorter := length_read_lt result
  have found : ¬(text.isEmpty = true) := by
    intro ended
    rw [List.isEmpty_iff.mp ended] at shorter
    exact Nat.not_lt_zero _ shorter
  rw [readAllFrom, if_neg found]
  split
  · rename_i fault failed
    rw [result] at failed
    cases failed
  · rename_i first after readFirst
    rw [result] at readFirst
    cases readFirst
    dsimp only
    cases readAllFrom (place + (text.length - rest.length : Nat)) rest <;> rfl

theorem map_fst_readAllFrom_of_read {place value : Int} {text rest : Text} {values : List Int}
    (result : read place text = .ok (value, rest))
    (later : (readAllFrom (place + (text.length - rest.length : Nat)) rest).map
      (List.map Prod.fst) = .ok values) :
    (readAllFrom place text).map (List.map Prod.fst) = .ok (value :: values) := by
  rw [readAllFrom_of_read result]
  revert later
  cases readAllFrom _ rest with
  | error fault => intro later; cases later
  | ok numbers =>
      intro later
      simp only [Except.map, Except.ok.injEq] at later ⊢
      rw [List.map_cons, later]

theorem map_fst_readAllFrom_flatMap_encode (place : Int) (values : List Int) :
    (readAllFrom place (values.flatMap encode)).map (List.map Prod.fst) = .ok values := by
  induction values generalizing place with
  | nil => simp [readAllFrom, Except.map]
  | cons value more ih =>
      rw [List.flatMap_cons]
      exact map_fst_readAllFrom_of_read (read_encode value place _) (ih _)

theorem decodeAll_flatMap_encode (values : List Int) :
    decodeAll (values.flatMap encode) = .ok values :=
  map_fst_readAllFrom_flatMap_encode 0 values

end Vlq

end CodeWriter
