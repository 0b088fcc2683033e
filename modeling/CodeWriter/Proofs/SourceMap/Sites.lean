import CodeWriter.SourceMap.Building
import Mathlib.Data.List.Forall2

namespace CodeWriter

/-- The piece stands in the text, starting at the column. -/
def Text.HoldsAt (text : Text) (column : Nat) (piece : Text) : Prop :=
  ∃ before after, text = before ++ piece ++ after ∧ before.length = column

namespace Token

def isMapped (token : Token) : Bool :=
  token.origin.isSome && !token.isBlank

theorem mappedOrigin?_of_isMapped {token : Token} (mapped : token.isMapped = true) :
    ∃ origin, token.origin = some origin ∧ token.mappedOrigin? = some origin := by
  simp only [isMapped, Bool.and_eq_true, Option.isSome_iff_exists, Bool.not_eq_true'] at mapped
  obtain ⟨⟨origin, known⟩, visible⟩ := mapped
  exact ⟨origin, known, by simp [mappedOrigin?, visible, known]⟩

theorem mappedOrigin?_of_not_isMapped {token : Token} (unmapped : token.isMapped = false) :
    token.mappedOrigin? = none := by
  unfold mappedOrigin?
  split
  · rfl
  · simp_all [isMapped]

theorem length_pos_of_isMapped {token : Token} (mapped : token.isMapped = true) :
    0 < token.text.length := by
  apply List.length_pos_iff.mpr
  intro noText
  simp [isMapped, isBlank, noText] at mapped

end Token

def Line.mappedTokens (line : Line) : List Token :=
  line.tokens.filter Token.isMapped

theorem Line.mappedTokens_of_isBlank {line : Line} (blank : line.isBlank = true) :
    line.mappedTokens = [] := by
  rw [Line.mappedTokens, List.filter_eq_nil_iff]
  intro token member mapped
  have noText := List.all_eq_true.mp blank token member
  have hasText := Token.length_pos_of_isMapped mapped
  rw [List.isEmpty_iff.mp noText] at hasText
  exact Nat.lt_irrefl 0 hasText

namespace Site

def Before (first second : Site) : Prop :=
  first.row < second.row ∨ first.row = second.row ∧ first.column < second.column

theorem ofTokens_cons_of_isMapped {token : Token} {origin : Origin} (row column : Nat)
    (rest : List Token) (known : token.mappedOrigin? = some origin) :
    ofTokens row column (token :: rest) =
      { row, column, origin } :: ofTokens row (column + token.text.length) rest := by
  simp [ofTokens, known]

theorem ofTokens_cons_of_not_isMapped {token : Token} (row column : Nat) (rest : List Token)
    (unmapped : token.isMapped = false) :
    ofTokens row column (token :: rest) =
      ofTokens row (column + token.text.length) rest := by
  simp [ofTokens, Token.mappedOrigin?_of_not_isMapped unmapped]

theorem place_of_mem_ofTokens {row column : Nat} {tokens : List Token} {site : Site}
    (member : site ∈ ofTokens row column tokens) : site.row = row ∧ column ≤ site.column := by
  induction tokens generalizing column with
  | nil => cases member
  | cons token rest ih =>
      rw [ofTokens, List.mem_append] at member
      rcases member with first | later
      · simp only [Option.mem_toList, Option.map_eq_some_iff] at first
        obtain ⟨origin, _, rfl⟩ := first
        exact ⟨rfl, Nat.le_refl column⟩
      · obtain ⟨sameRow, after⟩ := ih later
        exact ⟨sameRow, by omega⟩

theorem pairwise_ofTokens (row column : Nat) (tokens : List Token) :
    (ofTokens row column tokens).Pairwise Before := by
  induction tokens generalizing column with
  | nil => exact .nil
  | cons token rest ih =>
      cases mapped : token.isMapped with
      | false =>
          rw [ofTokens_cons_of_not_isMapped row column rest mapped]
          exact ih _
      | true =>
          obtain ⟨origin, _, known⟩ := Token.mappedOrigin?_of_isMapped mapped
          rw [ofTokens_cons_of_isMapped row column rest known]
          refine .cons ?_ (ih _)
          intro site later
          have place := place_of_mem_ofTokens later
          have width := Token.length_pos_of_isMapped mapped
          exact .inr ⟨place.1.symm, by dsimp only; omega⟩

theorem row_of_mem_ofLine {unit : Int} {row : Nat} {line : Line} {site : Site}
    (member : site ∈ ofLine unit row line) : site.row = row := by
  unfold ofLine at member
  split at member
  · cases member
  · exact (place_of_mem_ofTokens member).1

theorem row_of_mem_ofLinesFrom {unit : Int} {row : Nat} {lines : List Line} {site : Site}
    (member : site ∈ ofLinesFrom unit row lines) : row ≤ site.row := by
  induction lines generalizing row with
  | nil => cases member
  | cons line rest ih =>
      rcases List.mem_append.mp member with onLine | later
      · exact Nat.le_of_eq (row_of_mem_ofLine onLine).symm
      · exact Nat.le_of_succ_le (ih later)

theorem pairwise_ofLinesFrom (unit : Int) (row : Nat) (lines : List Line) :
    (ofLinesFrom unit row lines).Pairwise Before := by
  induction lines generalizing row with
  | nil => exact .nil
  | cons line rest ih =>
      refine List.pairwise_append.mpr ⟨?_, ih _, ?_⟩
      · unfold ofLine
        split
        · exact .nil
        · exact pairwise_ofTokens _ _ _
      · intro first onLine second later
        have firstRow := row_of_mem_ofLine onLine
        have secondRow := row_of_mem_ofLinesFrom later
        exact .inl (by omega)

theorem pairwise_ofLines (unit : Int) (lines : List Line) :
    (ofLines unit lines).Pairwise Before :=
  pairwise_ofLinesFrom unit 0 lines

/-- The site of a token, on lines of which the first one is in the row `row`. -/
def StandsFor (unit : Int) (row : Nat) (lines : List Line) (site : Site) (token : Token) : Prop :=
  token.origin = some site.origin ∧
    ∃ index line, site.row = row + index ∧ lines[index]? = some line ∧
      (line.render unit).HoldsAt site.column token.text

theorem forall₂_ofTokens (row : Nat) (before : Text) (tokens : List Token) :
    List.Forall₂
      (fun site token => token.origin = some site.origin ∧ site.row = row ∧
        (before ++ tokens.flatMap Token.text).HoldsAt site.column token.text)
      (ofTokens row before.length tokens) (tokens.filter Token.isMapped) := by
  induction tokens generalizing before with
  | nil => exact .nil
  | cons token rest ih =>
      have later := ih (before ++ token.text)
      rw [List.length_append, List.append_assoc] at later
      cases mapped : token.isMapped with
      | false =>
          rw [ofTokens_cons_of_not_isMapped row before.length rest mapped,
            List.filter_cons_of_neg (by simp [mapped])]
          exact later
      | true =>
          obtain ⟨origin, source, known⟩ := Token.mappedOrigin?_of_isMapped mapped
          rw [ofTokens_cons_of_isMapped row before.length rest known,
            List.filter_cons_of_pos mapped]
          refine .cons ⟨source, rfl, ?_⟩ later
          exact ⟨before, rest.flatMap Token.text, by simp, rfl⟩

theorem forall₂_ofLine (unit : Int) (row : Nat) (line : Line) :
    List.Forall₂
      (fun site token => token.origin = some site.origin ∧ site.row = row ∧
        (line.render unit).HoldsAt site.column token.text)
      (ofLine unit row line) line.mappedTokens := by
  unfold ofLine Line.render
  split
  · rename_i blank
    rw [Line.mappedTokens_of_isBlank blank]
    exact .nil
  · have placed := forall₂_ofTokens row (List.replicate (line.margin unit) ' ') line.tokens
    rw [List.length_replicate] at placed
    exact placed

theorem forall₂_ofLinesFrom (unit : Int) (row : Nat) (lines : List Line) :
    List.Forall₂ (StandsFor unit row lines) (ofLinesFrom unit row lines)
      (lines.flatMap Line.mappedTokens) := by
  induction lines generalizing row with
  | nil => exact .nil
  | cons line rest ih =>
      rw [ofLinesFrom, List.flatMap_cons]
      refine List.rel_append (List.Forall₂.imp ?_ (forall₂_ofLine unit row line))
        (List.Forall₂.imp ?_ (ih (row + 1)))
      · rintro site token ⟨source, sameRow, holds⟩
        exact ⟨source, 0, line, sameRow, rfl, holds⟩
      · rintro site token ⟨source, index, other, inRow, found, holds⟩
        exact ⟨source, index + 1, other, by omega, by simpa using found, holds⟩

theorem forall₂_ofLines (unit : Int) (lines : List Line) :
    List.Forall₂ (StandsFor unit 0 lines) (ofLines unit lines)
      (lines.flatMap Line.mappedTokens) :=
  forall₂_ofLinesFrom unit 0 lines

end Site

end CodeWriter
