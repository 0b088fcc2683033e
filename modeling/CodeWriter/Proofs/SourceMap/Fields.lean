import CodeWriter.Proofs.SourceMap.Codes
import Mathlib.Data.List.SplitBy
import Mathlib.Data.Nat.Digits.Defs

/-! A digit below 32 ends a number, so the digits fall into runs. -/

namespace CodeWriter

/-- What can be wrong with a text that is no row of numbers. -/
def Fault.IsMalformedNumber : Fault → Prop
  | .truncatedNumber => True
  | .foreignDigit _ _ => True
  | _ => False

namespace Vlq

/-- A digit after which its number goes on. -/
def continues (c : Char) : Bool :=
  (digit? c).any fun digit => 32 ≤ digit

def WellFormed (text : Text) : Prop :=
  (∀ c ∈ text, (digit? c).isSome = true) ∧ ∀ c ∈ text.getLast?, continues c = false

instance (text : Text) : Decidable (WellFormed text) :=
  inferInstanceAs (Decidable (_ ∧ _))

def runs (text : Text) : List Text :=
  text.splitBy fun c _ => continues c

def lowBits (c : Char) : Nat :=
  (digit? c).getD 0 % 32

def runValue (run : Text) : Int :=
  unzigzag (Nat.ofDigits 32 (run.map lowBits))

def fields (text : Text) : List Int :=
  (runs text).map runValue

theorem isSome_digit? {c : Char} : (digit? c).isSome = true ↔ c ∈ alphabet := by
  simp [digit?]

theorem digit?_lt {c : Char} {digit : Nat} (found : digit? c = some digit) : digit < 64 :=
  (List.idxOf?_eq_some_iff.mp found).1

theorem digit?_of_continues {c : Char} (goesOn : continues c = true) :
    digit? c = some (32 + lowBits c) := by
  unfold continues at goesOn
  unfold lowBits
  cases found : digit? c with
  | none => simp [found] at goesOn
  | some digit =>
      have small := digit?_lt found
      have large : 32 ≤ digit := by simpa [found] using goesOn
      simp only [Option.getD_some, Option.some.injEq]
      omega

theorem digit?_of_ends {c : Char} (ends : continues c = false) :
    digit? c = none ∨ digit? c = some (lowBits c) := by
  unfold continues at ends
  unfold lowBits
  cases found : digit? c with
  | none => exact .inl rfl
  | some digit =>
      have small : digit < 32 := by simpa [found] using ends
      exact .inr (by simp [Nat.mod_eq_of_lt small])

theorem exists_run (text : Text) :
    (∀ c ∈ text, continues c = true) ∨
      ∃ start last rest, text = start ++ last :: rest ∧
        (∀ c ∈ start, continues c = true) ∧ continues last = false := by
  induction text with
  | nil => exact .inl (by simp)
  | cons c rest ih =>
      cases goesOn : continues c with
      | false => exact .inr ⟨[], c, rest, rfl, by simp, goesOn⟩
      | true =>
          rcases ih with all | ⟨start, last, more, rfl, before, ends⟩
          · exact .inl (by simpa [goesOn] using all)
          · exact .inr ⟨c :: start, last, more, rfl, by simpa [goesOn] using before, ends⟩

theorem readNat_cons_of_continues {c : Char} (goesOn : continues c = true) (place : Int)
    (rest : Text) :
    readNat place (c :: rest) =
      (readNat (place + 1) rest).map fun (high, after) => (lowBits c + 32 * high, after) := by
  have large : ¬(32 + lowBits c < 32) := by omega
  have bits : 32 + lowBits c - 32 = lowBits c := by omega
  simp only [readNat, digit?_of_continues goesOn, large, if_false, bits]
  cases readNat (place + 1) rest <;> rfl

theorem readNat_of_continues {text : Text} (goesOn : ∀ c ∈ text, continues c = true)
    (place : Int) : readNat place text = .error .truncatedNumber := by
  induction text generalizing place with
  | nil => rfl
  | cons c rest ih =>
      rw [List.forall_mem_cons] at goesOn
      rw [readNat_cons_of_continues goesOn.1, ih goesOn.2]
      rfl

theorem readNat_of_foreign {start : Text} (goesOn : ∀ c ∈ start, continues c = true)
    {last : Char} (foreign : digit? last = none) (place : Int) (rest : Text) :
    readNat place (start ++ last :: rest) =
      .error (.foreignDigit last (place + start.length)) := by
  induction start generalizing place with
  | nil => simp [readNat, foreign]
  | cons c more ih =>
      rw [List.forall_mem_cons] at goesOn
      rw [List.cons_append, readNat_cons_of_continues goesOn.1, ih goesOn.2, Except.map,
        List.length_cons]
      congr 2
      omega

theorem readNat_of_run {start : Text} (goesOn : ∀ c ∈ start, continues c = true) {last : Char}
    (ends : digit? last = some (lowBits last)) (place : Int) (rest : Text) :
    readNat place (start ++ last :: rest) =
      .ok (Nat.ofDigits 32 ((start ++ [last]).map lowBits), rest) := by
  induction start generalizing place with
  | nil =>
      have small : lowBits last < 32 := Nat.mod_lt _ (by decide)
      simp [readNat, ends, small]
  | cons c more ih =>
      rw [List.forall_mem_cons] at goesOn
      rw [List.cons_append, readNat_cons_of_continues goesOn.1, ih goesOn.2]
      simp [Except.map, Nat.ofDigits_cons]

theorem read_of_run {start : Text} (goesOn : ∀ c ∈ start, continues c = true) {last : Char}
    (ends : digit? last = some (lowBits last)) (place : Int) (rest : Text) :
    read place (start ++ last :: rest) = .ok (runValue (start ++ [last]), rest) := by
  rw [read, readNat_of_run goesOn ends]
  rfl

theorem runs_append {start : Text} (goesOn : ∀ c ∈ start, continues c = true) {last : Char}
    (ends : continues last = false) (rest : Text) :
    runs (start ++ last :: rest) = (start ++ [last]) :: runs rest := by
  have chain : List.IsChain (fun c _ => continues c = true) (start ++ [last]) := by
    induction start with
    | nil => exact .singleton last
    | cons c more ih =>
        rw [List.forall_mem_cons] at goesOn
        exact List.isChain_cons.mpr ⟨fun _ _ => goesOn.1, ih goesOn.2⟩
  have whole : start ++ last :: rest = (start ++ [last]) ++ rest := by simp
  unfold runs
  rw [whole, List.splitBy_append (by simp [ends]), List.splitBy_of_isChain (by simp) chain]
  rfl

theorem fields_append {start : Text} (goesOn : ∀ c ∈ start, continues c = true) {last : Char}
    (ends : continues last = false) (rest : Text) :
    fields (start ++ last :: rest) = runValue (start ++ [last]) :: fields rest := by
  rw [fields, runs_append goesOn ends]
  rfl

theorem wellFormed_append {start : Text} (goesOn : ∀ c ∈ start, continues c = true)
    {last : Char} (ends : continues last = false) (digit : (digit? last).isSome = true)
    (rest : Text) : WellFormed (start ++ last :: rest) ↔ WellFormed rest := by
  have digits : ∀ c ∈ start, (digit? c).isSome = true := by
    intro c member
    rw [digit?_of_continues (goesOn c member)]
    rfl
  unfold WellFormed
  rw [List.getLast?_append, List.getLast?_cons, Option.some_or]
  cases found : rest.getLast? with
  | none =>
      obtain rfl : rest = [] := List.getLast?_eq_none_iff.mp found
      simpa [ends, digit, or_imp, forall_and] using digits
  | some final =>
      simp only [List.forall_mem_append, List.forall_mem_cons, Option.getD_some]
      exact ⟨fun ⟨⟨_, _, later⟩, last⟩ => ⟨later, last⟩,
        fun ⟨later, last⟩ => ⟨⟨digits, digit, later⟩, last⟩⟩

theorem readAllFrom_of_fault {place : Int} {text : Text} {fault : Fault} (nonempty : text ≠ [])
    (failed : read place text = .error fault) : readAllFrom place text = .error fault := by
  rw [readAllFrom, if_neg (by simpa using nonempty)]
  split
  · rename_i other result
    rw [failed] at result
    cases result
    rfl
  · rename_i result
    rw [failed] at result
    cases result

theorem not_wellFormed_of_continues {text : Text} (nonempty : text ≠ [])
    (goesOn : ∀ c ∈ text, continues c = true) : ¬WellFormed text := by
  intro wellFormed
  have ends := wellFormed.2 _ (List.getLast?_eq_some_getLast nonempty)
  rw [goesOn _ (List.getLast_mem nonempty)] at ends
  cases ends

theorem not_wellFormed_of_foreign {text : Text} {c : Char} (member : c ∈ text)
    (foreign : digit? c = none) : ¬WellFormed text := by
  intro wellFormed
  have isDigit := wellFormed.1 c member
  rw [foreign] at isDigit
  cases isDigit

theorem readAllFrom_cases (place : Int) (text : Text) :
    (WellFormed text ∧
        (readAllFrom place text).map (List.map Prod.fst) = .ok (fields text)) ∨
      (¬WellFormed text ∧
        ∃ fault, readAllFrom place text = .error fault ∧ fault.IsMalformedNumber) := by
  induction length : text.length using Nat.strongRecOn generalizing place text with
  | ind count ih =>
      by_cases ended : text = []
      · subst ended
        exact .inl ⟨⟨by simp, by simp⟩, by simp [readAllFrom, Except.map, fields, runs]⟩
      rcases exists_run text with goesOn | ⟨start, last, rest, rfl, goesOn, ends⟩
      · refine .inr ⟨not_wellFormed_of_continues ended goesOn, .truncatedNumber, ?_, trivial⟩
        exact readAllFrom_of_fault ended (by rw [read, readNat_of_continues goesOn]; rfl)
      · rcases digit?_of_ends ends with foreign | digit
        · refine .inr ⟨not_wellFormed_of_foreign (by simp) foreign,
            .foreignDigit last (place + start.length), ?_, trivial⟩
          exact readAllFrom_of_fault ended (by rw [read, readNat_of_foreign goesOn foreign]; rfl)
        · have first := read_of_run goesOn digit place rest
          have shorter : rest.length < count := length ▸ length_read_lt first
          rw [fields_append goesOn ends, wellFormed_append goesOn ends (by simp [digit])]
          rcases ih _ shorter _ rest rfl with
            ⟨wellFormed, numbers⟩ | ⟨malformed, fault, failed, kind⟩
          · exact .inl ⟨wellFormed, map_fst_readAllFrom_of_read first numbers⟩
          · exact .inr ⟨malformed, fault, by rw [readAllFrom_of_read first, failed]; rfl, kind⟩

theorem decodeAll_of_wellFormed {text : Text} (wellFormed : WellFormed text) :
    decodeAll text = .ok (fields text) := by
  rcases readAllFrom_cases 0 text with ⟨_, numbers⟩ | ⟨malformed, _⟩
  · exact numbers
  · exact absurd wellFormed malformed

theorem decodeAll_of_not_wellFormed {text : Text} (malformed : ¬WellFormed text) :
    ∃ fault, decodeAll text = .error fault ∧ fault.IsMalformedNumber := by
  rcases readAllFrom_cases 0 text with ⟨wellFormed, _⟩ | ⟨_, fault, failed, kind⟩
  · exact absurd wellFormed malformed
  · exact ⟨fault, by rw [decodeAll, readAll, failed]; rfl, kind⟩

end Vlq

end CodeWriter
