import CodeWriter.Proofs.SourceMap.Registering

/-! Freshness follows from the requests for maps, each with the files and lines of its moment. -/

namespace CodeWriter

/-- A request for a map: the files at that time, and the lines that it is for. -/
structure MapCall where
  disk : Disk
  lines : List Line

namespace MapCall

def registered (call : MapCall) : List Source :=
  Origin.registered (call.lines.flatMap (Line.reading Token.mentioned))

/-- The time of the file, if a source of its name was registered while the file had one. -/
def seen (path : Text) (call : MapCall) : Option Time :=
  call.disk.timeAmong call.registered path

/-- This is the time that the file had at the last one of the requests that saw a time of it. -/
def LastSeen (path : Text) (time : Time) (calls : List MapCall) : Prop :=
  ∃ earlier call later, calls = earlier ++ call :: later ∧ call.seen path = some time ∧
    ∀ other ∈ later, other.seen path = none

def lastSeen? (path : Text) (calls : List MapCall) : Option Time :=
  calls.reverse.findSome? (seen path)

theorem lastSeen?_eq_some_iff {path : Text} {time : Time} {calls : List MapCall} :
    lastSeen? path calls = some time ↔ LastSeen path time calls := by
  rw [lastSeen?, List.findSome?_eq_some_iff]
  constructor
  · rintro ⟨later, call, earlier, split, seen, unseen⟩
    refine ⟨earlier.reverse, call, later.reverse, ?_, seen, fun other member => ?_⟩
    · rw [← List.reverse_reverse calls, split]
      simp
    · exact unseen other (List.mem_reverse.mp member)
  · rintro ⟨earlier, call, later, rfl, seen, unseen⟩
    refine ⟨later.reverse, call, earlier.reverse, by simp, seen, fun other member => ?_⟩
    exact unseen other (List.mem_reverse.mp member)

instance (path : Text) (time : Time) (calls : List MapCall) :
    Decidable (LastSeen path time calls) :=
  decidable_of_iff _ lastSeen?_eq_some_iff

theorem lastSeen?_append (path : Text) (calls later : List MapCall) :
    lastSeen? path (calls ++ later) = (lastSeen? path later).or (lastSeen? path calls) := by
  simp [lastSeen?, List.findSome?_append]

end MapCall

def Delivery.mapCalls (session : Session) : Delivery → List MapCall
  | .map _ => [⟨session.disk, session.buffer.lines⟩]
  | .mapJson _ _ => [⟨session.disk, session.buffer.lines⟩]
  | .product _ true => [⟨session.disk, session.buffer.lines⟩]
  | _ => []

def Operation.mapCalls (session : Session) : Operation → List MapCall
  | .deliver request => request.mapCalls session
  | _ => []

def Program.mapCalls : Program → Session → List MapCall
  | .done, _ => []
  | .step operation rest, session =>
      operation.mapCalls session ++
        match operation.run session with
        | (.ok _, after) => rest.mapCalls after
        | (.error _, _) => []
  | .block kind body rest, session =>
      body.mapCalls (kind.enter session) ++
        match kind.around body.run session with
        | (.ok _, after) => rest.mapCalls after
        | (.error _, _) => []

/-- No registry is asked but through a map, and whatever becomes of the files, each one can be asked
for its time. -/
def Operation.AsksByMaps : Operation → Prop
  | .freshness (.observe _) => False
  | .freshness (.putFiles files) => ∀ entry ∈ files, entry.2 ≠ .malformedPath
  | _ => True

/-- The requests made so far go along with the session. -/
def Session.recording : Program.Semantics (List MapCall × Session) where
  step operation state := (state.1 ++ operation.mapCalls state.2, (operation.run state.2).2)
  enter block state := (state.1, block.enter state.2)
  leave block body state :=
    (state.1 ++ body.mapCalls (block.enter state.2), (block.around body.run state.2).2)

/-- The states that programs pass through, inside actions too, with the requests made on the way. -/
def Session.ReachedThrough (start : Session) (calls : List MapCall) (session : Session) : Prop :=
  recording.Reachable Operation.AsksByMaps (fun _ => True) ([], start) (calls, session)

theorem Session.ReachedThrough.start {first : Session} : first.ReachedThrough [] first :=
  Program.Semantics.Reachable.start

theorem Session.ReachedThrough.leave {first session : Session} {calls : List MapCall}
    (reached : first.ReachedThrough calls session) (block : Block) {body : Program}
    (inside : body.All Operation.AsksByMaps fun _ => True) :
    first.ReachedThrough (calls ++ body.mapCalls (block.enter session))
      (block.around body.run session).2 :=
  Program.Semantics.Reachable.leave reached trivial inside

/-- The times that the writer remembers are those that the requests have seen last. -/
structure Session.Remembers (calls : List MapCall) (session : Session) : Prop where
  askable : session.disk.Askable
  distinct : session.writer.registry.Distinct
  times : ∀ path, session.writer.registry.time? path = MapCall.lastSeen? path calls

def Session.watched (session : Session) : Disk × Registry :=
  (session.disk, session.writer.registry)

namespace Session

theorem Remembers.of_registry {calls : List MapCall} {session after : Session}
    (remembers : session.Remembers calls) (askable : after.disk.Askable)
    (same : after.writer.registry = session.writer.registry) : after.Remembers calls := by
  constructor
  · exact askable
  · rw [same]
    exact remembers.distinct
  · rw [same]
    exact remembers.times

theorem Remembers.of_watched {calls : List MapCall} {session after : Session}
    (remembers : session.Remembers calls) (same : after.watched = session.watched) :
    after.Remembers calls := by
  obtain ⟨disk, registry⟩ := Prod.mk.inj same
  exact remembers.of_registry (disk ▸ remembers.askable) registry

theorem watched_announce (route : Route) (session : Session) :
    (session.announce route).watched = session.watched := by
  cases route <;> rfl

theorem watched_saveText (name : Option Text) (text : Text) (session : Session) :
    (session.saveText name text).watched = session.watched := by
  cases name <;> rfl

theorem watched_saveMark (name : Option Text) (mark : Mark) (session : Session) :
    (session.saveMark name mark).watched = session.watched := by
  cases name <;> rfl

theorem watched_change (result : Except Fault Buffer) (session : Session) :
    (session.change result).2.watched = session.watched := by
  cases result <;> rfl

end Session

namespace Block

theorem watched_enter (block : Block) (session : Session) :
    (block.enter session).watched = session.watched := by
  match block with
  | .collect route _ => exact session.watched_announce route
  | .brace none => rfl
  | .brace (some _) => rfl
  | .join none => rfl
  | .join (some _) => rfl
  | .attribute _ => rfl
  | .attempt => rfl

theorem watched_conclude (mark : Mark) (block : Block) (session : Session) :
    (block.conclude mark session).2.watched = session.watched := by
  match block with
  | .collect route name =>
      unfold conclude
      dsimp only
      split
      · exact Session.watched_saveText _ _ _
      · rfl
  | .brace width => exact Session.watched_change _ _
  | .join width => exact Session.watched_change _ _
  | .attribute origin => rfl
  | .attempt => rfl

theorem watched_restore (before after : Session) (block : Block) :
    (block.restore before after).watched = after.watched := by
  cases block <;> rfl

theorem watched_recover (fault : Fault) (session : Session) (block : Block) :
    (block.recover fault session).2.watched = session.watched := by
  cases block <;> rfl

theorem watched_around (block : Block) (action : Session → Outcome Unit) (session : Session) :
    (block.around action session).2.watched = (action (block.enter session)).2.watched := by
  cases acted : action (block.enter session) with
  | mk result after =>
      cases result with
      | ok done => rw [around_of_ok acted, watched_conclude, watched_restore]
      | error fault => rw [around_of_error acted, watched_recover, watched_restore]

end Block

namespace Writer

@[simp] theorem registry_settle (writer : Writer) : writer.settle.registry = writer.registry := by
  unfold settle
  split <;> rfl

/-- Whether the lines have to be laid out first makes no difference to the sources they mention. -/
theorem registry_deliverMap {disk : Disk} (askable : disk.Askable) (file : Option Text)
    (writer : Writer) :
    (writer.deliverMap disk file).2.registry =
      writer.registry.rememberAll disk (MapCall.registered ⟨disk, writer.buffer.lines⟩) := by
  have kept : writer.settle.buffer.lines.flatMap (Line.reading Token.mentioned) =
      writer.buffer.lines.flatMap (Line.reading Token.mentioned) :=
    flatMap_lines_settle (fun _ _ => rfl)
      (fun _ blank => Line.reading_of_isBlank Token.isReading_mentioned blank) writer
  have mapped := Document.ofLines_snd askable writer.settle.options.indent file
    writer.settle.registry writer.settle.buffer.lines
  rw [kept, registry_settle] at mapped
  unfold deliverMap
  dsimp only
  rw [registry_settle, mapped]
  rfl

end Writer

namespace Session.Remembers

variable {calls : List MapCall} {session : Session} (remembers : session.Remembers calls)
include remembers

theorem unmapped {after : Session} (same : after.watched = session.watched) :
    after.Remembers (calls ++ []) := by
  rw [List.append_nil]
  exact remembers.of_watched same

theorem mapped {after : Session} (disk : after.disk = session.disk)
    (registry : after.writer.registry = session.writer.registry.rememberAll session.disk
      (MapCall.registered ⟨session.disk, session.buffer.lines⟩)) :
    after.Remembers (calls ++ [⟨session.disk, session.buffer.lines⟩]) := by
  constructor
  · rw [disk]
    exact remembers.askable
  · rw [registry]
    exact remembers.distinct.rememberAll _ _
  · intro path
    rw [registry, Registry.time?_rememberAll, remembers.times, MapCall.lastSeen?_append]
    simp [MapCall.lastSeen?, MapCall.seen]

theorem deliver (request : Delivery) :
    (request.run session).2.Remembers (calls ++ request.mapCalls session) := by
  have settled : ({ session with writer := session.writer.settle }).watched = session.watched := by
    simp [Session.watched]
  have mapped := fun file => Writer.registry_deliverMap remembers.askable file session.writer
  cases request with
  | text => exact remembers.unmapped settled
  | textBefore ending => exact remembers.unmapped settled
  | map file => exact remembers.mapped rfl (mapped file)
  | mapJson file style => exact remembers.mapped rfl (mapped file)
  | product file withMap =>
      cases withMap with
      | false =>
          unfold Delivery.run Writer.deliver
          dsimp only
          split
          · exact remembers.unmapped rfl
          · exact remembers.unmapped settled
      | true =>
          have settledFirst : session.writer.settle.deliverMap session.disk file =
              session.writer.deliverMap session.disk file := by
            rw [Writer.deliverMap, Writer.settle_settle, Writer.deliverMap]
          refine remembers.mapped rfl (Eq.trans ?_ (mapped file))
          rw [← settledFirst]
          simp [Delivery.run, Writer.deliver, Writer.deliverText]

theorem step {operation : Operation} (allowed : operation.AsksByMaps) :
    (operation.run session).2.Remembers (calls ++ operation.mapCalls session) := by
  cases operation with
  | deliver request => exact remembers.deliver request
  | freshness event =>
      show Session.Remembers (calls ++ []) _
      rw [List.append_nil]
      cases event with
      | observe path => cases allowed
      | putFiles files => exact remembers.of_registry (remembers.askable.putAll allowed) rfl
      | _ => exact remembers.of_registry remembers.askable rfl
  | write route how text => exact remembers.unmapped (session.watched_announce route)
  | insert route place text =>
      exact remembers.unmapped
        ((Session.watched_change _ _).trans (session.watched_announce route))
  | mark name => exact remembers.unmapped (Session.watched_saveMark _ _ _)
  | _ => exact remembers.unmapped rfl

theorem run {program : Program} (all : program.All Operation.AsksByMaps fun _ => True) :
    (program.run session).2.Remembers (calls ++ program.mapCalls session) := by
  induction program generalizing calls session with
  | done => simpa [Program.mapCalls] using remembers
  | step operation rest ih =>
      have stepped := remembers.step all.1
      rw [Program.run, Program.mapCalls]
      cases ran : operation.run session with
      | mk result after =>
          rw [ran] at stepped
          cases result with
          | error fault => simpa using stepped
          | ok reply =>
              rw [← List.append_assoc]
              exact ih stepped all.2
  | block kind body rest ihBody ihRest =>
      have left := (ihBody (remembers.of_watched (kind.watched_enter session)) all.2.1).of_watched
        (kind.watched_around body.run session)
      rw [Program.run, Program.mapCalls]
      cases ran : kind.around body.run session with
      | mk result after =>
          rw [ran] at left
          cases result with
          | error fault => simpa using left
          | ok reply =>
              rw [← List.append_assoc]
              exact ihRest left all.2.2

end Session.Remembers

theorem Session.remembers_start {disk : Disk} (askable : disk.Askable) (options : Options) :
    (Session.start options disk).Remembers [] :=
  ⟨askable, List.nodup_nil, fun _ => rfl⟩

theorem Session.ReachedThrough.remembers {start session : Session} {calls : List MapCall}
    (begins : start.Remembers []) (reached : start.ReachedThrough calls session) :
    session.Remembers calls := by
  refine Program.Semantics.Reachable.invariant (fun state => state.2.Remembers state.1) reached
    begins ?_ ?_ ?_
  · exact fun _ _ allowed remembers => remembers.step allowed
  · exact fun block state _ remembers => remembers.of_watched (block.watched_enter state.2)
  · intro block body state _ inside remembers
    have entered := remembers.of_watched (block.watched_enter state.2)
    exact (entered.run inside).of_watched (block.watched_around body.run state.2)

open MapCall in
/-- In every state that a program passes through: the output is fresh if and only if requests for
maps have seen the time of some file, and every file has the time now that was seen of it last. The
newest time is the greatest one of these, and the clock's if there is none. -/
theorem Session.freshness_follows_map_calls {options : Options} {disk : Disk}
    (askable : disk.Askable) {calls : List MapCall} {session : Session}
    (reached : ReachedThrough (.start options disk) calls session) :
    (∃ fresh, (Operation.freshness .isFresh).run session = (.ok (.flag fresh), session) ∧
      (fresh = true ↔ (∃ path time, LastSeen path time calls) ∧
        ∀ path time, LastSeen path time calls → session.disk.state path = .modified time)) ∧
    ∃ newest, (Operation.freshness .newest).run session = (.ok (.time (some newest)), session) ∧
      ((∀ path time, ¬LastSeen path time calls) → newest = session.disk.now) ∧
      ((∃ path time, LastSeen path time calls) →
        (∃ path, LastSeen path newest calls) ∧
          ∀ path time, LastSeen path time calls → time ≤ newest) := by
  have remembers := reached.remembers (remembers_start askable options)
  have seen : ∀ path time, LastSeen path time calls ↔
      session.writer.registry.time? path = some time := by
    intro path time
    rw [remembers.times, lastSeen?_eq_some_iff]
  simp only [seen]
  constructor
  · obtain ⟨fresh, answered, iff⟩ :=
      Registry.isFresh_of_askable remembers.askable remembers.distinct
    refine ⟨fresh, ?_, iff⟩
    simp [Operation.run, FreshnessStep.run, answered, Except.map]
  · refine ⟨session.writer.registry.newest session.disk, rfl, ?_, ?_⟩
    · intro unseen
      exact Registry.newest_of_empty _ remembers.distinct fun path =>
        Option.eq_none_iff_forall_ne_some.mpr (unseen path)
    · exact Registry.newest_of_mem _ remembers.distinct

/-- A file is gone when the second map is asked for, and that map is refused for a span behind the
end of its source. The time of the file stays the one that the first map saw, the source that the
second one was refused for is remembered, and the one behind it is not. -/
theorem Session.freshness_follows_map_calls_after_refused_map :
    let origin (id : Nat) (name : String) (start : Nat) : Option Origin :=
      some ⟨⟨id, name.toList, ['a']⟩, ⟨start, start, Nat.le_refl start⟩⟩
    let write (source : Option Origin) (text : String) (rest : Program) : Program :=
      .step (.setOrigin source) (.step (.write .writer .inline (.literal text.toList)) rest)
    let body : Program :=
      write (origin 0 "lib//a.rb" 0) "a" (.step (.deliver (.map none))
        (.step (.freshness (.putFiles [("lib/a.rb".toList, .unreadable)]))
          (write (origin 1 "./lib/a.rb" 1) "b" (write (origin 2 "c.rb" 5) "c"
            (write (origin 3 "d.rb" 0) "d" (.step (.deliver (.map none)) .done))))))
    let disk : Disk :=
      { files := [("lib/a.rb".toList, .modified ⟨1⟩), ("c.rb".toList, .modified ⟨3⟩),
          ("d.rb".toList, .modified ⟨9⟩)] }
    let start : Session := .start .standard disk
    let calls := body.mapCalls start
    let session := (Block.attempt.around body.run start).2
    disk.Askable ∧ start.ReachedThrough calls session ∧
      MapCall.LastSeen "lib/a.rb".toList ⟨1⟩ calls ∧ MapCall.LastSeen "c.rb".toList ⟨3⟩ calls ∧
      ¬MapCall.LastSeen "d.rb".toList ⟨9⟩ calls ∧
      (Operation.freshness .isFresh).run session = (.ok (.flag false), session) ∧
      ∃ newest : Time, (Operation.freshness .newest).run session =
        (.ok (.time (some newest)), session) ∧ ⟨3⟩ ≤ newest := by
  intro origin write body disk start calls session
  have askable : disk.Askable := by
    intro entry member
    revert entry
    decide
  have allowed : body.All Operation.AsksByMaps fun _ => True := by
    simp [body, write, Program.All, Operation.AsksByMaps]
  have reached : start.ReachedThrough calls session :=
    ReachedThrough.start.leave .attempt allowed
  have first : MapCall.LastSeen "lib/a.rb".toList ⟨1⟩ calls := by decide +kernel
  have second : MapCall.LastSeen "c.rb".toList ⟨3⟩ calls := by decide +kernel
  have third : ¬MapCall.LastSeen "d.rb".toList ⟨9⟩ calls := by decide +kernel
  obtain ⟨⟨fresh, answered, unchanged⟩, newest, asked, _, greatest⟩ :=
    freshness_follows_map_calls askable reached
  have stale : fresh = false := by
    rw [Bool.eq_false_iff]
    intro isFresh
    have present := (unchanged.mp isFresh).2 _ _ first
    revert present
    decide +kernel
  refine ⟨askable, reached, first, second, third, ?_, newest, asked, ?_⟩
  · rw [answered, stale]
  · exact (greatest ⟨_, _, second⟩).2 _ _ second

end CodeWriter
