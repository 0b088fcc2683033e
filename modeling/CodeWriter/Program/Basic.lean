import CodeWriter.Writer

/-! A step may go through the writer, which then knows of the change, or straight to the buffer. -/

namespace CodeWriter

inductive Route where
  | writer
  | buffer
deriving DecidableEq, Repr

inductive TextArgument where
  | literal (text : Text)
  | saved (name : Text)
deriving DecidableEq, Repr

inductive MarkArgument where
  | literal (mark : Mark)
  | saved (name : Text)
deriving DecidableEq, Repr

/-- Where new lines are opened when a text is written. -/
inductive Emission where
  | inline
  | lineAfter
  | lineBefore
deriving DecidableEq, Repr

/-- Changes of whole lines, straight on the buffer. -/
inductive Edit where
  | breakLine
  | dropFrom (index : Int)
  | replaceTail (index : Int) (line : Line)
  | push (line : Line)
  | addTokens (tokens : List Token)
deriving DecidableEq, Repr

inductive Inspection where
  | stamp (text : TextArgument)
  | validate (mark : MarkArgument)
  | size
  | renderLines (options : Options)
deriving DecidableEq, Repr

inductive LayoutPass where
  | indent (unit : Int)
  | space (unit : Int)
  | arrange (options : Options)
deriving DecidableEq, Repr

inductive Delivery where
  | text
  | textBefore (text : TextArgument)
  | map (file : Option Text)
  | mapJson (file : Option Text) (style : Json.Style)
  | product (file : Option Text) (withMap : Bool)
deriving DecidableEq, Repr

/-- Changes of the files and the clock, and questions to a registry. -/
inductive FreshnessStep where
  | putFiles (files : List (Text × FileState))
  | setClock (now : Time)
  | observe (path : Text)
  | contains (path : Text)
  | size
  | isFresh
  | newest
deriving DecidableEq, Repr

inductive Operation where
  | write (route : Route) (how : Emission) (text : TextArgument)
  | endStatement
  | insert (route : Route) (mark : MarkArgument) (text : TextArgument)
  | mark (name : Option Text)
  | setOrigin (origin : Option Origin)
  | raise (fault : Fault)
  | edit (change : Edit)
  | inspect (question : Inspection)
  | layout (pass : LayoutPass)
  | deliver (request : Delivery)
  | freshness (event : FreshnessStep)
deriving DecidableEq, Repr

/-- What happens around an action: its text is collected, it is put in braces, its lines are joined,
its tokens are attributed to a source, or its fault is caught. Braces and joining without a width go
through the writer and take the width of its options. -/
inductive Block where
  | collect (route : Route) (name : Option Text)
  | brace (width : Option Int)
  | join (width : Option Int)
  | attribute (origin : Option Origin)
  | attempt
deriving DecidableEq, Repr

inductive Program where
  | done
  | step (operation : Operation) (rest : Program)
  | block (kind : Block) (body rest : Program)
deriving DecidableEq, Repr, Inhabited

inductive Reply where
  | nothing
  | text (text : Text)
  | mark (mark : Mark)
  | token (token : Token)
  | lines (lines : List Line)
  | origin (origin : Option Origin)
  | number (value : Int)
  | time (time : Option Time)
  | flag (value : Bool)
  | caught (fault : Option Fault)
  | map (document : Document)
  | product (product : Product)
deriving DecidableEq, Repr

namespace Program

def append : Program → Program → Program
  | .done, after => after
  | .step operation rest, after => .step operation (append rest after)
  | .block kind body rest, after => .block kind body (append rest after)

instance : Append Program := ⟨append⟩

@[simp] theorem done_append (after : Program) : Program.done ++ after = after := rfl

@[simp] theorem step_append (operation : Operation) (rest after : Program) :
    Program.step operation rest ++ after = .step operation (rest ++ after) := rfl

@[simp] theorem block_append (kind : Block) (body rest after : Program) :
    Program.block kind body rest ++ after = .block kind body (rest ++ after) := rfl

@[simp] theorem append_done (program : Program) : program ++ Program.done = program := by
  induction program with
  | done => rfl
  | step operation rest ih => simp [ih]
  | block kind body rest _ ih => simp [ih]

def All (operations : Operation → Prop) (blocks : Block → Prop) : Program → Prop
  | .done => True
  | .step operation rest => operations operation ∧ All operations blocks rest
  | .block kind body rest =>
      blocks kind ∧ All operations blocks body ∧ All operations blocks rest

@[simp] theorem all_append (operations : Operation → Prop) (blocks : Block → Prop)
    (first second : Program) :
    All operations blocks (first ++ second) ↔
      All operations blocks first ∧ All operations blocks second := by
  induction first with
  | done => simp [All]
  | step operation rest ih => simp [All, ih, and_assoc]
  | block kind body rest _ ih => simp [All, ih, and_assoc]

theorem All.mono {operations operations' : Operation → Prop} {blocks blocks' : Block → Prop}
    (ofOperations : ∀ operation, operations operation → operations' operation)
    (ofBlocks : ∀ block, blocks block → blocks' block) {program : Program}
    (all : program.All operations blocks) : program.All operations' blocks' := by
  induction program with
  | done => trivial
  | step operation rest ih => exact ⟨ofOperations operation all.1, ih all.2⟩
  | block kind body rest ihBody ihRest =>
      exact ⟨ofBlocks kind all.1, ihBody all.2.1, ihRest all.2.2⟩

end Program

end CodeWriter
