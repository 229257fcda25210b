import BatchPool.Batch.Code

/-!
# Batches with scripted handlers

Handlers whose behaviour is written down beforehand: when they fail, and which records they push into
their own batch. With them a whole sequence of calls can be played.

* `Batch.Script`: what a handler does, by the number of the call.
* `Batch.Props`: the scripts, and the notes of what they did; `Batch.Player.handle`: the code of a
  handler.
* `Batch.Rig`: a batch in this world, and `Batch.Rig.push`, `Batch.Rig.flush`, `Batch.Rig.transfer`:
  calls, played to their end.
-/

namespace BatchPool

namespace Batch

/-- What a handler does. Its calls are numbered from one. -/
structure Script where
  label : String := ""
  failAlways : Bool := false
  failCalls : List Nat := []
  failIf : Json := .null
  message : String := ""
  context : Option String := none
  panics : Bool := false
  repush : List (Nat × List Json) := []
  reflush : List Nat := []

/-- A handler: a script by its number, or the recorder, which keeps every group. -/
inductive Player where
  | script (number : Nat)
  | recorder
  deriving Repr, DecidableEq

/-- What a scripted handler did. -/
inductive Note where
  | called (label : String) (call : Nat) (group : List Json)
  | repushed (label : String) (index : Nat) (reply : Reply)
  | reflushed (label : String) (reply : Reply)

/-- The world of scripted handlers: scripts with the number of their calls so far, notes with the
newest first, and what the recorder kept with the oldest group first. -/
structure Props where
  scripts : List (Script × Nat) := []
  notes : List Note := []
  recorded : List (List Json) := []

/-- A batch with scripted handlers. -/
abbrev Rig := Scene Json Player Props

namespace Script

/-- The script fails on this group in this call. -/
def fails (s : Script) (call : Nat) (group : List Json) : Bool :=
  s.failAlways || s.failCalls.contains call ||
    match s.failIf with
    | .null => false
    | v => group.any fun r => r == v

/-- How a call of the handler ends. -/
def outcome (s : Script) (call : Nat) (group : List Json) : Outcome :=
  if s.fails call group then
    if s.panics then .panicked (some s.message)
    else
      let f := Failure.stated s.message
      .failed (match s.context with
        | some text => f.context text
        | none => f)
  else .done

/-- The records that a call of the handler pushes. -/
def pushes (s : Script) (call : Nat) : List Json := (s.repush.lookup call).getD []

/-- How often a handler can call its own batch. -/
def weight (s : Script) : Nat :=
  s.repush.foldl (fun n r => n + r.2.length) s.reflush.length

end Script

/-! ## Handlers -/

namespace Player

/-- Writes a note. -/
def note (n : Note) : Code Json Props Unit := modify fun p => { p with notes := n :: p.notes }

/-- Pushes the records of a script from inside its handler, the first of them being number `index`.
A panic of a nested call goes on outwards. -/
def repush (label : String) : (index : Nat) → List Json → Code Json Props (Option (Option String))
  | _, [] => return none
  | index, record :: rest => do
    match ← Code.pushing record with
    | .panicked text => return some text
    | reply =>
      note (.repushed label index reply)
      repush label (index + 1) rest

/-- The next call of a script: its number, counted. -/
def countCall (number : Nat) : Code Json Props (Script × Nat) := do
  let p ← get
  match p.scripts[number]? with
  | none => return ({}, 0)
  | some (s, count) =>
    set { p with scripts := p.scripts.set number (s, count + 1) }
    return (s, count + 1)

/-- What a handler does with a group. -/
def handle : Player → List Json → Code Json Props Outcome
  | .recorder, group => do
    modify fun p => { p with recorded := p.recorded ++ [group] }
    return .done
  | .script number, group => do
    let (s, count) ← countCall number
    note (.called s.label count group)
    match ← repush s.label 0 (s.pushes count) with
    | some text => return .panicked text
    | none =>
      if s.reflush.contains count then
        match ← Code.flushing with
        | .panicked text => return .panicked text
        | reply =>
          note (.reflushed s.label reply)
          return s.outcome count group
      else return s.outcome count group

end Player

namespace Rig

/-- The batch of the rig. -/
def batch (r : Rig) : Batch Json Player := r.calls.batch

/-- The groups that the recorder kept. -/
def recorded (r : Rig) : List (List Json) := r.world.recorded

/-- The rig with one more script, whose number is returned. -/
def addScript (r : Rig) (s : Script) : Player × Rig :=
  (.script r.world.scripts.length,
    { r with world := { r.world with scripts := r.world.scripts ++ [(s, 0)] } })

/-- The rig with another batch. -/
def replace (r : Rig) (b : Batch Json Player) : Rig := { r with calls := { batch := b } }

/-- The rig with its batch initialised again. -/
def init (r : Rig) (capacity : Nat) (handlers : Handlers Player) : Rig :=
  (Scene.move Calls.move? (.init capacity handlers) r).2

/-- Handlers cannot be nested deeper than this: each nested call uses up an entry of a script. -/
def depth (r : Rig) : Nat := r.world.scripts.foldl (fun n s => n + s.1.weight) 1

/-- Plays code from outside. -/
def outer {β : Type} (thread : Nat) (code : Code Json Props β) : StateM Rig β := do
  code.run Calls.move? (Scene.play Calls.move? Player.handle thread (← get).depth) thread

/-- Pushes a record. -/
def push (thread : Nat) (record : Json) : StateM Rig Reply := outer thread (.pushing record)

/-- Flushes the batch. -/
def flush (thread : Nat) : StateM Rig Reply := outer thread .flushing

/-- Pushes all records of a source and flushes. -/
def transfer (thread : Nat) (source : Source Json) : StateM Rig Transferred :=
  outer thread (.transferring source)

/-- The notes so far, the oldest first, and the rig without them. -/
def takeNotes : StateM Rig (List Note) := do
  let r ← get
  set { r with world := { r.world with notes := [] } }
  return r.world.notes.reverse

end Rig

end Batch

end BatchPool
