import CodeWriter.Proofs.Layout.Counting

/-! Brackets are seen at the edges of lines only, so a pair may be seen on one side alone. -/

namespace CodeWriter

/-- A character of a line, and whether it stands where the indentation looks for its kind: at the end
of the line for an opening bracket, at the start for any other. -/
structure Sign where
  char : Char
  atEdge : Bool
deriving DecidableEq, Repr

theorem isClosingBracket_of_opening {c : Char} (opens : isOpeningBracket c = true) :
    isClosingBracket c = false := by
  simp only [isOpeningBracket, Bool.or_eq_true, beq_iff_eq] at opens
  rcases opens with (rfl | rfl) | rfl <;> rfl

def bracketPairs : List (Char × Char) :=
  [('(', ')'), ('{', '}'), ('[', ']')]

namespace Sign

def opens (sign : Sign) : Bool :=
  isOpeningBracket sign.char

def closes (sign : Sign) : Bool :=
  isClosingBracket sign.char

def matchedBy (opening closing : Sign) : Bool :=
  bracketPairs.contains (opening.char, closing.char)

def seenOpening (sign : Sign) : Nat :=
  (sign.opens && sign.atEdge).toNat

def seenClosing (sign : Sign) : Nat :=
  (sign.closes && sign.atEdge).toNat

/-- A closing bracket is seen only together with the opening one. -/
def closesInSight (opening closing : Sign) : Bool :=
  opening.atEdge || !closing.atEdge

def seenAlike (opening closing : Sign) : Bool :=
  opening.atEdge == closing.atEdge

theorem opens_of_matchedBy {opening closing : Sign} (pair : opening.matchedBy closing = true) :
    opening.opens = true := by
  simp only [matchedBy, bracketPairs, List.contains_cons, List.contains_nil, Bool.or_false,
    Bool.or_eq_true, beq_iff_eq, Prod.mk.injEq] at pair
  rcases pair with ⟨char, _⟩ | ⟨char, _⟩ | ⟨char, _⟩ <;> simp [opens, char, isOpeningBracket]

theorem closesInSight_of_seenAlike {opening closing : Sign}
    (alike : opening.seenAlike closing = true) : opening.closesInSight closing = true := by
  rw [closesInSight, eq_of_beq alike]
  exact Bool.or_not_self _

theorem seenOpening_of_opens {sign : Sign} (opens : sign.opens = true) :
    sign.seenOpening = sign.atEdge.toNat := by
  rw [seenOpening, opens, Bool.true_and]

theorem seenOpening_of_not_opens {sign : Sign} (noOpening : sign.opens = false) :
    sign.seenOpening = 0 := by
  rw [seenOpening, noOpening, Bool.false_and, Bool.toNat_false]

theorem seenClosing_of_closes {sign : Sign} (closes : sign.closes = true) :
    sign.seenClosing = sign.atEdge.toNat := by
  rw [seenClosing, closes, Bool.true_and]

theorem seenClosing_of_not_closes {sign : Sign} (noClosing : sign.closes = false) :
    sign.seenClosing = 0 := by
  rw [seenClosing, noClosing, Bool.false_and, Bool.toNat_false]

theorem seenClosing_of_opens {sign : Sign} (opens : sign.opens = true) : sign.seenClosing = 0 :=
  seenClosing_of_not_closes (isClosingBracket_of_opening opens)

theorem toNat_atEdge_le {opening closing : Sign} (inSight : opening.closesInSight closing = true) :
    closing.atEdge.toNat ≤ opening.atEdge.toNat := by
  cases seen : closing.atEdge with
  | false => exact Nat.zero_le _
  | true =>
      rw [closesInSight, seen, Bool.not_true, Bool.or_false] at inSight
      rw [inSight]

end Sign

def Text.signsFrom (atStart : Bool) : Text → List Sign
  | [] => []
  | c :: rest =>
      { char := c, atEdge := if isOpeningBracket c then rest.isEmpty else atStart } ::
        signsFrom false rest

def Text.signs (text : Text) : List Sign :=
  text.signsFrom true

namespace Layout

section Reading

variable (agree : Sign → Sign → Bool)

/-- What one character does to the open brackets, the last one first. -/
def readSign (opened : List Sign) (sign : Sign) : Option (List Sign) :=
  if sign.opens then some (sign :: opened)
  else if sign.closes then
    match opened with
    | [] => none
    | last :: outer => if last.matchedBy sign && agree last sign then some outer else none
  else some opened

/-- The brackets that are open after some characters, if every closing one so far has its match. -/
def readSigns (opened signs : List Sign) : Option (List Sign) :=
  signs.foldlM (readSign agree) opened

/-- The texts, read in order, form a balanced bracket string in which the brackets of a pair agree;
other characters are skipped. -/
def MatchedBy (texts : List Text) : Prop :=
  readSigns agree [] (texts.flatMap Text.signs) = some []

instance (texts : List Text) : Decidable (MatchedBy agree texts) :=
  inferInstanceAs (Decidable (_ = _))

end Reading

section Reading

variable {agree agree' : Sign → Sign → Bool} {opened after signs : List Sign} {sign : Sign}

theorem readSign_eq_some_iff :
    readSign agree opened sign = some after ↔
      sign.opens = true ∧ sign :: opened = after ∨
        sign.opens = false ∧ sign.closes = true ∧
            (∃ last, opened = last :: after ∧ last.matchedBy sign = true ∧
              agree last sign = true) ∨
          sign.opens = false ∧ sign.closes = false ∧ opened = after := by
  unfold readSign
  cases sign.opens with
  | true => simp
  | false =>
      cases sign.closes with
      | false => simp
      | true =>
          cases opened with
          | nil => simp
          | cons last outer => simp [and_comm]

theorem readSigns_cons :
    readSigns agree opened (sign :: signs) = some after ↔
      ∃ next, readSign agree opened sign = some next ∧ readSigns agree next signs = some after := by
  rw [readSigns, List.foldlM_cons, Option.bind_eq_bind, Option.bind_eq_some_iff]
  rfl

theorem readSigns_append {first second : List Sign} :
    readSigns agree opened (first ++ second) = some after ↔
      ∃ middle, readSigns agree opened first = some middle ∧
        readSigns agree middle second = some after := by
  rw [readSigns, List.foldlM_append, Option.bind_eq_bind, Option.bind_eq_some_iff]
  rfl

theorem readSigns_mono
    (weaker : ∀ opening closing, agree opening closing = true → agree' opening closing = true)
    (matched : readSigns agree opened signs = some after) :
    readSigns agree' opened signs = some after := by
  induction signs generalizing opened with
  | nil => exact matched
  | cons sign rest ih =>
      obtain ⟨next, step, later⟩ := readSigns_cons.mp matched
      refine readSigns_cons.mpr ⟨next, ?_, ih later⟩
      rcases readSign_eq_some_iff.mp step with opens | ⟨noOpening, closes, last, top, pair, agreed⟩ |
        other
      · exact readSign_eq_some_iff.mpr (.inl opens)
      · exact readSign_eq_some_iff.mpr (.inr (.inl
          ⟨noOpening, closes, last, top, pair, weaker last sign agreed⟩))
      · exact readSign_eq_some_iff.mpr (.inr (.inr other))

end Reading

def seenOpenings (signs : List Sign) : Nat :=
  (signs.map Sign.seenOpening).sum

def seenClosings (signs : List Sign) : Nat :=
  (signs.map Sign.seenClosing).sum

@[simp] theorem seenOpenings_nil : seenOpenings [] = 0 := rfl

theorem seenOpenings_cons (sign : Sign) (rest : List Sign) :
    seenOpenings (sign :: rest) = sign.seenOpening + seenOpenings rest := by
  simp [seenOpenings]

theorem seenClosings_cons (sign : Sign) (rest : List Sign) :
    seenClosings (sign :: rest) = sign.seenClosing + seenClosings rest := by
  simp [seenClosings]

@[simp] theorem seenOpenings_append (first second : List Sign) :
    seenOpenings (first ++ second) = seenOpenings first + seenOpenings second := by
  simp [seenOpenings]

@[simp] theorem seenClosings_append (first second : List Sign) :
    seenClosings (first ++ second) = seenClosings first + seenClosings second := by
  simp [seenClosings]

section Seeing

variable {opened after signs : List Sign} {sign : Sign}

/-- A closing bracket that is seen takes back an opening one that is seen. -/
theorem seen_of_readSign (matched : readSign Sign.closesInSight opened sign = some after) :
    sign.seenClosing + seenOpenings after ≤ seenOpenings opened + sign.seenOpening := by
  rcases readSign_eq_some_iff.mp matched with ⟨opens, rfl⟩ |
    ⟨noOpening, closes, last, rfl, pair, inSight⟩ | ⟨noOpening, noClosing, rfl⟩
  · rw [seenOpenings_cons, Sign.seenClosing_of_opens opens]
    omega
  · have edges := Sign.toNat_atEdge_le inSight
    rw [seenOpenings_cons, Sign.seenOpening_of_opens (Sign.opens_of_matchedBy pair),
      Sign.seenClosing_of_closes closes]
    omega
  · rw [Sign.seenClosing_of_not_closes noClosing]
    omega

theorem seen_of_readSigns (matched : readSigns Sign.closesInSight opened signs = some after) :
    seenClosings signs + seenOpenings after ≤ seenOpenings opened + seenOpenings signs := by
  induction signs generalizing opened with
  | nil =>
      cases matched
      exact Nat.le_of_eq (Nat.add_comm _ _)
  | cons sign rest ih =>
      obtain ⟨next, step, later⟩ := readSigns_cons.mp matched
      have first := seen_of_readSign step
      have more := ih later
      rw [seenOpenings_cons, seenClosings_cons]
      omega

theorem seen_of_readSign_alike (matched : readSign Sign.seenAlike opened sign = some after) :
    sign.seenClosing + seenOpenings after = seenOpenings opened + sign.seenOpening := by
  rcases readSign_eq_some_iff.mp matched with ⟨opens, rfl⟩ |
    ⟨noOpening, closes, last, rfl, pair, alike⟩ | ⟨noOpening, noClosing, rfl⟩
  · rw [seenOpenings_cons, Sign.seenClosing_of_opens opens]
    omega
  · rw [seenOpenings_cons, Sign.seenOpening_of_opens (Sign.opens_of_matchedBy pair),
      Sign.seenClosing_of_closes closes, Sign.seenOpening_of_not_opens noOpening, eq_of_beq alike]
    rfl
  · rw [Sign.seenClosing_of_not_closes noClosing, Sign.seenOpening_of_not_opens noOpening,
      Nat.zero_add]
    rfl

theorem seen_of_readSigns_alike (matched : readSigns Sign.seenAlike opened signs = some after) :
    seenClosings signs + seenOpenings after = seenOpenings opened + seenOpenings signs := by
  induction signs generalizing opened with
  | nil =>
      cases matched
      exact Nat.add_comm _ _
  | cons sign rest ih =>
      obtain ⟨next, step, later⟩ := readSigns_cons.mp matched
      have first := seen_of_readSign_alike step
      have more := ih later
      rw [seenOpenings_cons, seenClosings_cons]
      omega

end Seeing

theorem seenOpenings_signsFrom (atStart : Bool) (text : Text) :
    seenOpenings (text.signsFrom atStart) = text.opensAtEnd.toNat := by
  induction text generalizing atStart with
  | nil => rfl
  | cons c rest ih =>
      rw [Text.signsFrom, seenOpenings_cons, ih]
      cases opens : isOpeningBracket c with
      | false =>
          rw [@Sign.seenOpening_of_not_opens ⟨c, _⟩ opens, Nat.zero_add]
          cases rest <;> simp [Text.opensAtEnd, opens]
      | true =>
          rw [@Sign.seenOpening_of_opens ⟨c, _⟩ opens]
          cases rest <;> simp [Text.opensAtEnd, opens]

theorem seenClosings_signsFrom (atStart : Bool) (text : Text) :
    seenClosings (text.signsFrom atStart) = (atStart && text.closesAtStart).toNat := by
  induction text generalizing atStart with
  | nil => simp [Text.signsFrom, seenClosings, Text.closesAtStart]
  | cons c rest ih =>
      rw [Text.signsFrom, seenClosings_cons, ih, Bool.false_and, Bool.toNat_false, Nat.add_zero,
        Text.closesAtStart_cons, Bool.and_comm]
      cases opens : isOpeningBracket c with
      | false => rfl
      | true =>
          have noClosing : isClosingBracket c = false := isClosingBracket_of_opening opens
          rw [noClosing]
          exact Sign.seenClosing_of_not_closes noClosing

theorem seenOpenings_flatMap (texts : List Text) :
    seenOpenings (texts.flatMap Text.signs) = openings texts := by
  induction texts with
  | nil => rfl
  | cons text rest ih =>
      rw [List.flatMap_cons, seenOpenings_append, ih, Text.signs, seenOpenings_signsFrom,
        openings_cons]

theorem seenClosings_flatMap (texts : List Text) :
    seenClosings (texts.flatMap Text.signs) = closings texts := by
  induction texts with
  | nil => rfl
  | cons text rest ih =>
      rw [List.flatMap_cons, seenClosings_append, ih, Text.signs, seenClosings_signsFrom,
        closings_cons, Bool.true_and]

theorem exists_start_of_signs (text : Text) :
    ∃ start rest, text.signs = start ++ rest ∧ seenClosings start = text.closesAtStart.toNat ∧
      seenOpenings start = 0 := by
  cases closes : text.closesAtStart with
  | false => exact ⟨[], text.signs, rfl, rfl, rfl⟩
  | true =>
      cases text with
      | nil => cases closes
      | cons c rest =>
          have noOpening : isOpeningBracket c = false := by
            by_contra opens
            rw [Bool.not_eq_false] at opens
            rw [Text.closesAtStart_cons, isClosingBracket_of_opening opens] at closes
            cases closes
          refine ⟨[⟨c, true⟩], Text.signsFrom false rest, ?_, ?_, ?_⟩
          · simp [Text.signs, Text.signsFrom, noOpening]
          · rw [seenClosings_cons, @Sign.seenClosing_of_closes ⟨c, true⟩ closes]
            rfl
          · rw [seenOpenings_cons, @Sign.seenOpening_of_not_opens ⟨c, true⟩ noOpening]
            rfl

section Matching

variable {texts : List Text}

theorem MatchedBy.closings_le (matched : MatchedBy Sign.closesInSight texts) {index : Nat}
    (inside : index < texts.length) :
    closings (texts.take (index + 1)) ≤ openings (texts.take index) := by
  obtain ⟨start, rest, signs, closing, noOpening⟩ := exists_start_of_signs texts[index]
  have upTo : texts.take (index + 1) = texts.take index ++ [texts[index]] :=
    List.take_succ_eq_append_getElem inside
  have whole : texts.flatMap Text.signs =
      ((texts.take index).flatMap Text.signs ++ start) ++
        (rest ++ (texts.drop (index + 1)).flatMap Text.signs) := by
    calc
      texts.flatMap Text.signs =
          (texts.take (index + 1) ++ texts.drop (index + 1)).flatMap Text.signs := by
        rw [List.take_append_drop]
      _ = _ := by
        simp only [upTo, List.flatMap_append, List.flatMap_singleton, signs, List.append_assoc]
  rw [MatchedBy, whole] at matched
  obtain ⟨middle, readAbove, _⟩ := readSigns_append.mp matched
  have bound := seen_of_readSigns readAbove
  rw [seenClosings_append, seenOpenings_append, seenClosings_flatMap, seenOpenings_flatMap,
    closing, noOpening, seenOpenings_nil] at bound
  rw [upTo, closings_append, closings_cons, closings_nil]
  omega

theorem MatchedBy.closesInSight (matched : MatchedBy Sign.seenAlike texts) :
    MatchedBy Sign.closesInSight texts :=
  readSigns_mono (fun _ _ => Sign.closesInSight_of_seenAlike) matched

theorem MatchedBy.balanced (matched : MatchedBy Sign.seenAlike texts) : Balanced texts where
  enough _ inside := matched.closesInSight.closings_le inside
  level := by
    have same := seen_of_readSigns_alike matched
    rw [seenClosings_flatMap, seenOpenings_flatMap, seenOpenings_nil] at same
    omega

end Matching

theorem closingIndent_eq_zero_iff {unit : Int} {lines : List Line} :
    closingIndent unit lines = 0 ↔
      unit = 0 ∨ closings (lines.map Line.text) = openings (lines.map Line.text) := by
  rw [closingIndent_eq, Int.mul_eq_zero]
  omega

theorem indent_nonneg_iff {unit : Int} (natural : 0 ≤ unit) {lines : List Line} :
    (∀ line ∈ indent unit lines, 0 ≤ line.indent) ↔
      unit = 0 ∨ ∀ index < lines.length,
        closings ((lines.map Line.text).take (index + 1)) ≤
          openings ((lines.map Line.text).take index) := by
  rw [indent_eq_mapIdx]
  constructor
  · intro nonneg
    by_contra! counted
    obtain ⟨nonzero, index, inside, less⟩ := counted
    have level := nonneg _ (List.mem_mapIdx.mpr ⟨index, inside, rfl⟩)
    have beyond : depthAt (lines.map Line.text) index < 0 := by
      unfold depthAt
      omega
    have negative := Int.mul_neg_of_pos_of_neg (by omega : 0 < unit) beyond
    exact absurd level (Int.not_le.mpr negative)
  · intro counted line member
    obtain ⟨index, inside, rfl⟩ := List.mem_mapIdx.mp member
    rcases counted with rfl | enough
    · exact Int.le_of_eq (Int.zero_mul _).symm
    · have deep : 0 ≤ depthAt (lines.map Line.text) index := by
        have bound := enough index inside
        unfold depthAt
        omega
      exact Int.mul_nonneg natural deep

/-- The running indent is back at the margin exactly if as many lines start with a closing bracket as
end with an opening one, and no line is beyond the margin exactly if no line starts with a closing
bracket too many. Balanced brackets are not beyond it when a closing one is seen only together with
its opening one, and they come back to it when an opening one is seen only so, too. -/
theorem indent_returns_iff_edges_agree {unit : Int} (natural : 0 ≤ unit) (lines : List Line) :
    let texts := lines.map Line.text
    (closingIndent unit lines = 0 ↔ unit = 0 ∨ closings texts = openings texts) ∧
      ((∀ line ∈ indent unit lines, 0 ≤ line.indent) ↔
        unit = 0 ∨ ∀ index < lines.length,
          closings (texts.take (index + 1)) ≤ openings (texts.take index)) ∧
      (MatchedBy Sign.closesInSight texts → ∀ line ∈ indent unit lines, 0 ≤ line.indent) ∧
      (MatchedBy Sign.seenAlike texts →
        closingIndent unit lines = 0 ∧ ∀ line ∈ indent unit lines, 0 ≤ line.indent) := by
  intro texts
  have sameLength : texts.length = lines.length := List.length_map _
  have inSight (matched : MatchedBy Sign.closesInSight texts) :
      ∀ line ∈ indent unit lines, 0 ≤ line.indent := by
    refine (indent_nonneg_iff natural).mpr (.inr fun index inside => ?_)
    exact matched.closings_le (by omega)
  refine ⟨closingIndent_eq_zero_iff, indent_nonneg_iff natural, inSight, fun matched => ?_⟩
  exact ⟨closingIndent_eq_zero_iff.mpr (.inr matched.balanced.level), inSight matched.closesInSight⟩

/-- Brackets in the middle of lines that stay open over the end of a line, around and inside a block;
and a pair of which only the opening bracket is seen, which shifts the lines after it. -/
theorem indent_returns_iff_edges_agree_around_arguments :
    let ofTexts (texts : List String) := texts.map fun text => Line.ofTexts [text.toList]
    let lines := ofTexts ["f(\x7b", "a: g(1,", "2),", "", "\x7d)"]
    let shifted := ofTexts ["a(", "b)", "c"]
    (0 : Int) ≤ 2 ∧ MatchedBy Sign.seenAlike (lines.map Line.text) ∧
      closingIndent 2 lines = 0 ∧ (∀ line ∈ indent 2 lines, 0 ≤ line.indent) ∧
      (indent 2 lines).map Line.indent = [0, 2, 2, 2, 0] ∧
      MatchedBy Sign.closesInSight (shifted.map Line.text) ∧
      (∀ line ∈ indent 2 shifted, 0 ≤ line.indent) ∧ closingIndent 2 shifted ≠ 0 := by
  intro ofTexts lines shifted
  have natural : (0 : Int) ≤ 2 := by decide
  have alike : MatchedBy Sign.seenAlike (lines.map Line.text) := by decide
  have inSight : MatchedBy Sign.closesInSight (shifted.map Line.text) := by decide
  obtain ⟨_, _, _, returns⟩ := indent_returns_iff_edges_agree natural lines
  obtain ⟨backIff, _, within, _⟩ := indent_returns_iff_edges_agree natural shifted
  obtain ⟨back, nonneg⟩ := returns alike
  refine ⟨natural, alike, back, nonneg, by decide, inSight, within inSight, ?_⟩
  rw [Ne, backIff]
  decide

/-- A pair of which only the closing bracket is seen takes its line beyond the margin, and what
follows with it. -/
theorem balanced_brackets_leave_margin :
    let lines := [Line.ofTexts ["x (y".toList], Line.ofTexts [")".toList]]
    MatchedBy (fun _ _ => true) (lines.map Line.text) ∧ closingIndent 2 lines = -2 ∧
      (indent 2 lines).map Line.indent = [0, -2] := by
  decide

end Layout

end CodeWriter
