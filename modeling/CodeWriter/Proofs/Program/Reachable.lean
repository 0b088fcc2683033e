import CodeWriter.Program.Run
import CodeWriter.Proofs.Buffer.Unbroken

namespace CodeWriter

/-- What the parts of a program do to states of some kind: an operation, the start of a block, and a
whole block, ended or faulted. -/
structure Program.Semantics (σ : Type) where
  step : Operation → σ → σ
  enter : Block → σ → σ
  leave : Block → Program → σ → σ

namespace Program.Semantics

variable {σ : Type} {semantics : Semantics σ} {operations : Operation → Prop} {blocks : Block → Prop}
  {start state : σ}

/-- The states that programs of some operations and blocks pass through. A state inside an action is
reached by entering the block that holds it. -/
inductive Reachable (semantics : Semantics σ) (operations : Operation → Prop)
    (blocks : Block → Prop) (start : σ) : σ → Prop
  | start : Reachable semantics operations blocks start start
  | step {state : σ} (reached : Reachable semantics operations blocks start state)
      {operation : Operation} (allowed : operations operation) :
      Reachable semantics operations blocks start (semantics.step operation state)
  | enter {state : σ} (reached : Reachable semantics operations blocks start state)
      {block : Block} (allowed : blocks block) :
      Reachable semantics operations blocks start (semantics.enter block state)
  | leave {state : σ} (reached : Reachable semantics operations blocks start state)
      {block : Block} (allowed : blocks block)
      {body : Program} (inside : body.All operations blocks) :
      Reachable semantics operations blocks start (semantics.leave block body state)

theorem Reachable.invariant (invariant : σ → Prop)
    (reached : semantics.Reachable operations blocks start state) (holds : invariant start)
    (step : ∀ operation state, operations operation → invariant state →
      invariant (semantics.step operation state))
    (enter : ∀ block state, blocks block → invariant state →
      invariant (semantics.enter block state))
    (leave : ∀ block body state, blocks block → body.All operations blocks → invariant state →
      invariant (semantics.leave block body state)) : invariant state := by
  induction reached with
  | start => exact holds
  | step _ allowed ih => exact step _ _ allowed ih
  | enter _ allowed ih => exact enter _ _ allowed ih
  | leave _ allowed inside ih => exact leave _ _ _ allowed inside ih

end Program.Semantics

namespace Session

def semantics : Program.Semantics Session where
  step operation session := (operation.run session).2
  enter block session := block.enter session
  leave block body session := (block.around body.run session).2

/-- The states that programs of some operations and blocks pass through, inside actions too. -/
def Reachable (operations : Operation → Prop) (blocks : Block → Prop) (start : Session) :
    Session → Prop :=
  semantics.Reachable operations blocks start

namespace Reachable

variable {operations : Operation → Prop} {blocks : Block → Prop} {first session : Session}

theorem start : Reachable operations blocks first first :=
  Program.Semantics.Reachable.start

theorem step (reached : Reachable operations blocks first session) {operation : Operation}
    (allowed : operations operation) : Reachable operations blocks first (operation.run session).2 :=
  Program.Semantics.Reachable.step reached allowed

theorem enter (reached : Reachable operations blocks first session) {block : Block}
    (allowed : blocks block) : Reachable operations blocks first (block.enter session) :=
  Program.Semantics.Reachable.enter reached allowed

theorem leave (reached : Reachable operations blocks first session) {block : Block}
    (allowed : blocks block) {body : Program} (inside : body.All operations blocks) :
    Reachable operations blocks first (block.around body.run session).2 :=
  Program.Semantics.Reachable.leave reached allowed inside

end Reachable

end Session

/-- What every single step of a program keeps. -/
structure Session.Kept (operations : Operation → Prop) (blocks : Block → Prop)
    (invariant : Session → Prop) : Prop where
  step : ∀ operation session, operations operation → invariant session →
    invariant (operation.run session).2
  enter : ∀ block session, blocks block → invariant session → invariant (block.enter session)
  restore : ∀ origin session, invariant session → invariant (session.withOrigin origin)
  conclude : ∀ mark block session, blocks block → invariant session →
    invariant (Block.conclude mark session block).2

namespace Session.Kept

variable {operations : Operation → Prop} {blocks : Block → Prop} {invariant : Session → Prop}
  (kept : Session.Kept operations blocks invariant)
include kept

theorem around {block : Block} {action : Session → Outcome Unit} (allowed : blocks block)
    (inside : ∀ session, invariant session → invariant (action session).2)
    {session : Session} (holds : invariant session) :
    invariant (block.around action session).2 := by
  have entered := inside _ (kept.enter block session allowed holds)
  have restored : invariant (Block.restore session (action (block.enter session)).2 block) := by
    unfold Block.restore
    split
    · exact kept.restore _ _ entered
    · exact entered
  unfold Block.around
  dsimp only
  split
  · rename_i after completed
    rw [completed] at restored
    exact kept.conclude _ block _ allowed restored
  · rename_i fault after failed
    rw [failed] at restored
    unfold Block.recover
    split <;> exact restored

theorem run {program : Program} (all : program.All operations blocks) {session : Session}
    (holds : invariant session) : invariant (program.run session).2 := by
  induction program generalizing session with
  | done => exact holds
  | step operation rest ih =>
      have stepped := kept.step operation session all.1 holds
      unfold Program.run
      split
      · rename_i reply after completed
        rw [completed] at stepped
        exact ih all.2 stepped
      · rename_i fault after failed
        rw [failed] at stepped
        exact stepped
  | block kind body rest ihBody ihRest =>
      have left := kept.around all.1 (fun _ => ihBody all.2.1) holds
      unfold Program.run
      split
      · rename_i reply after completed
        rw [completed] at left
        exact ihRest all.2.2 left
      · rename_i fault after failed
        rw [failed] at left
        exact left

theorem action {block : Block} (allowed : blocks block) {body : Program}
    (all : body.All operations blocks) {session after : Session} {result : Except Fault Unit}
    (acted : body.run (block.enter session) = (result, after)) (holds : invariant session) :
    invariant after := by
  have entered := kept.run all (kept.enter block session allowed holds)
  rwa [acted] at entered

theorem reachable {start session : Session} (holds : invariant start)
    (reached : Session.Reachable operations blocks start session) : invariant session :=
  Program.Semantics.Reachable.invariant invariant reached holds kept.step kept.enter
    fun _ _ _ allowed inside => kept.around allowed fun _ => kept.run inside

end Session.Kept

theorem Writer.options_deliver (disk : Disk) (file : Option Text) (withMap : Bool)
    (writer : Writer) : (writer.deliver disk file withMap).2.options = writer.options := by
  unfold Writer.deliver
  split
  · rfl
  · dsimp only
    split <;> simp [deliverText, deliverMap]

theorem Delivery.options_run (request : Delivery) (session : Session) :
    (request.run session).2.writer.options = session.writer.options := by
  cases request with
  | product file withMap => exact Writer.options_deliver _ _ _ _
  | text => exact Writer.options_settle _
  | textBefore ending => exact Writer.options_settle _
  | map file => exact Writer.options_settle _
  | mapJson file style => exact Writer.options_settle _

namespace Session

@[simp] theorem options_announce (route : Route) (session : Session) :
    (session.announce route).writer.options = session.writer.options := by
  cases route <;> rfl

@[simp] theorem options_saveText (name : Option Text) (text : Text) (session : Session) :
    (session.saveText name text).writer.options = session.writer.options := by
  cases name <;> rfl

@[simp] theorem options_saveMark (name : Option Text) (mark : Mark) (session : Session) :
    (session.saveMark name mark).writer.options = session.writer.options := by
  cases name <;> rfl

@[simp] theorem options_change (result : Except Fault Buffer) (session : Session) :
    (session.change result).2.writer.options = session.writer.options := by
  cases result <;> rfl

end Session

theorem Operation.options_run (operation : Operation) (session : Session) :
    (operation.run session).2.writer.options = session.writer.options := by
  cases operation with
  | write route how text => exact session.options_announce route
  | insert route place text =>
      exact (Session.options_change _ _).trans (session.options_announce route)
  | mark name => exact Session.options_saveMark _ _ _
  | deliver request => exact request.options_run session
  | _ => rfl

theorem Block.options_enter (block : Block) (session : Session) :
    (block.enter session).writer.options = session.writer.options := by
  match block with
  | .collect route _ => exact session.options_announce route
  | .brace width => cases width <;> rfl
  | .join width => cases width <;> rfl
  | .attribute _ => rfl
  | .attempt => rfl

theorem Block.options_conclude (mark : Mark) (block : Block) (session : Session) :
    (Block.conclude mark session block).2.writer.options = session.writer.options := by
  match block with
  | .collect _ name =>
      unfold Block.conclude
      dsimp only
      split
      · exact Session.options_saveText _ _ _
      · rfl
  | .brace _ => exact Session.options_change _ _
  | .join _ => exact Session.options_change _ _
  | .attribute _ => rfl
  | .attempt => rfl

theorem Session.kept_options (operations : Operation → Prop) (blocks : Block → Prop)
    (options : Options) :
    Session.Kept operations blocks fun session => session.writer.options = options where
  step operation session _ same := (operation.options_run session).trans same
  enter block session _ same := (block.options_enter session).trans same
  restore _ _ same := same
  conclude mark block session _ same := (block.options_conclude mark session).trans same

theorem Program.all_true (program : Program) :
    program.All (fun _ => True) fun _ => True := by
  induction program with
  | done => trivial
  | step operation rest ih => exact ⟨trivial, ih⟩
  | block kind body rest ihBody ihRest => exact ⟨trivial, ihBody, ihRest⟩

theorem Program.options_run (program : Program) (session : Session) :
    (program.run session).2.writer.options = session.writer.options :=
  (Session.kept_options _ _ session.writer.options).run program.all_true rfl

theorem Block.options_around (block : Block) (body : Program) (session : Session) :
    (block.around body.run session).2.writer.options = session.writer.options :=
  (Session.kept_options (fun _ => True) (fun _ => True) session.writer.options).around trivial
    (fun inside same => (body.options_run inside).trans same) rfl

/-- A change that puts in no line feed, or cuts at it. -/
def Edit.Unbroken : Edit → Prop
  | .replaceTail _ line => line.Unbroken
  | .push line => line.Unbroken
  | .addTokens tokens => ∀ token ∈ tokens, token.Unbroken
  | _ => True

/-- Everything but the changes of whole lines goes through operations that cut at line feeds. -/
def Operation.Unbroken : Operation → Prop
  | .edit change => change.Unbroken
  | _ => True

namespace Session

def Unbroken (session : Session) : Prop :=
  session.buffer.Unbroken

theorem unbroken_start (options : Options) (disk : Disk) : (Session.start options disk).Unbroken :=
  Buffer.unbroken_empty _ _

theorem Unbroken.settle {writer : Writer} (unbroken : writer.buffer.Unbroken) :
    writer.settle.buffer.Unbroken := by
  unfold Writer.settle
  split
  · exact unbroken
  · exact Buffer.unbroken_withLines (Layout.unbroken_arrange _ unbroken) _

theorem Unbroken.announce {session : Session} (unbroken : session.Unbroken) (route : Route) :
    (session.announce route).Unbroken := by
  unfold Unbroken
  rwa [buffer_announce]

theorem Unbroken.change {session : Session} {result : Except Fault Buffer}
    (unbroken : session.Unbroken) (changed : ∀ buffer, result = .ok buffer → buffer.Unbroken) :
    (session.change result).2.Unbroken := by
  cases result with
  | error fault => exact unbroken
  | ok buffer => exact changed buffer rfl

theorem Unbroken.deliver {session : Session} (unbroken : session.Unbroken) (request : Delivery) :
    (request.run session).2.Unbroken := by
  have settled := Unbroken.settle unbroken
  cases request with
  | text => exact settled
  | textBefore ending => exact settled
  | map file => exact settled
  | mapJson file style => exact settled
  | product file withMap =>
      unfold Delivery.run Writer.deliver
      dsimp only
      split
      · exact unbroken
      · split
        · exact Unbroken.settle settled
        · exact settled

theorem Unbroken.step {operation : Operation} {session : Session} (allowed : operation.Unbroken)
    (unbroken : session.Unbroken) : (operation.run session).2.Unbroken := by
  cases operation with
  | write route how text =>
      have announced : (session.announce route).buffer.Unbroken := unbroken.announce route
      cases how with
      | inline => exact announced.write _
      | lineAfter => exact announced.writeLine _
      | lineBefore => exact announced.writeBelow _
  | endStatement => exact Buffer.Unbroken.write unbroken _
  | insert route place text =>
      have announced := unbroken.announce route
      exact announced.change fun _ => Buffer.Unbroken.insert announced
  | mark name =>
      unfold Operation.run Unbroken
      rw [buffer_saveMark]
      exact unbroken
  | setOrigin origin => exact unbroken
  | raise fault => exact unbroken
  | edit change =>
      cases change with
      | breakLine => exact Buffer.Unbroken.breakLine unbroken
      | dropFrom index => exact Buffer.Unbroken.dropFrom unbroken index
      | replaceTail index line => exact Buffer.Unbroken.replaceTail unbroken index allowed
      | push line => exact Buffer.Unbroken.push unbroken allowed
      | addTokens tokens => exact Buffer.Unbroken.addTokens unbroken allowed
  | inspect question => exact unbroken
  | layout pass =>
      apply Buffer.unbroken_withLines
      cases pass with
      | indent unit => exact Layout.unbroken_indentFrom unit 0 unbroken
      | space unit => exact Layout.unbroken_space unit unbroken
      | arrange options => exact Layout.unbroken_arrange options unbroken
  | deliver request => exact unbroken.deliver request
  | freshness event => exact unbroken

theorem Unbroken.enter {session : Session} (unbroken : session.Unbroken) (block : Block) :
    (block.enter session).Unbroken := by
  match block with
  | .collect route name => exact unbroken.announce route
  | .brace width =>
      cases width <;> exact Buffer.Unbroken.openBrace unbroken
  | .join width => cases width <;> exact unbroken
  | .attribute origin => exact unbroken
  | .attempt => exact unbroken

theorem Unbroken.conclude {session : Session} (unbroken : session.Unbroken) (mark : Mark)
    (block : Block) : (Block.conclude mark session block).2.Unbroken := by
  match block with
  | .collect route name =>
      unfold Block.conclude
      dsimp only
      split
      · rename_i text after taken
        unfold Unbroken
        rw [buffer_saveText]
        exact Buffer.Unbroken.takeBack unbroken taken
      · exact unbroken
  | .brace width => exact unbroken.change fun _ => Buffer.Unbroken.closeBrace unbroken
  | .join width => exact unbroken.change fun _ => Buffer.Unbroken.joinFrom unbroken
  | .attribute origin => exact unbroken
  | .attempt => exact unbroken

theorem kept_unbroken (blocks : Block → Prop) :
    Kept Operation.Unbroken blocks Session.Unbroken where
  step _ _ allowed unbroken := unbroken.step allowed
  enter block _ _ unbroken := unbroken.enter block
  restore _ _ unbroken := unbroken
  conclude mark block _ _ unbroken := unbroken.conclude mark block

end Session

end CodeWriter
