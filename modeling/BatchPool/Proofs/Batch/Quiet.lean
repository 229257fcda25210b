import BatchPool.Batch.Code
import BatchPool.Proofs.Batch.Outcomes

/-!
# Calls while handlers leave their batch alone

A handler may do to the world what it likes, but makes no call of its batch: `serve` says what the
handlers do. Such a call ends before anything else happens to the batch.

* `Scene.quietCall`: a call, with such handlers.
* `Calls.Ready`: the thread can call a batch of the given capacity and handlers, which has room for
  a record. Every call keeps that.
* `Calls.Ready.push`, `Calls.Ready.flush`: what the calls come to.
-/

namespace BatchPool

namespace Batch

variable {α H σ : Type}

namespace Scene

/-- A call, while handlers have only to do with the world. -/
def quietCall (serve : H → List α → StateM σ Outcome) (thread depth : Nat) (m : Calls.Move α H) :
    StateM (Scene α H σ) Reply :=
  call Calls.move?
    (play Calls.move? (fun handler group => .aside (serve handler group)) thread (depth + 1))
    thread m

variable {serve : H → List α → StateM σ Outcome} {thread depth : Nat} {m : Calls.Move α H}
  {c e : Calls α H} {w : σ} {handler : H} {group : List α}

theorem play_aside (serve : H → List α → StateM σ Outcome) (thread depth : Nat) (handler : H)
    (group : List α) (s : Scene α H σ) :
    play Calls.move? (fun handler group => .aside (serve handler group)) thread (depth + 1) handler
      group s =
        ((serve handler group s.world).1, { s with world := (serve handler group s.world).2 }) :=
  rfl

theorem top_of_mayCall (free : c.mayCall thread = true) :
    ∀ handler group rest, c.stack thread ≠ .holding handler group :: rest := by
  intro handler group rest holding
  rw [Calls.mayCall, holding] at free
  cases free

/-- A call of a batch that was not initialised comes to nothing. -/
theorem quietCall_refused (free : c.mayCall thread = true)
    (hm : c.move? m = some (c.note (.returned thread .uninitialized))) :
    quietCall serve thread depth m ⟨c, w⟩ =
      (.uninitialized, ⟨c.note (.returned thread .uninitialized), w⟩) :=
  call_of_returned hm (top_of_mayCall (c := c.note _) free)

/-- A call that takes a group out has its handler called, and comes to what the handler comes to. -/
theorem quietCall_of_holding (serve : H → List α → StateM σ Outcome) (depth : Nat)
    (hm : c.move? m = some e) (free : c.mayCall thread = true)
    (holding : e.stack thread = .holding handler group :: c.stack thread) (w : σ) :
    ∃ d, quietCall serve thread depth m ⟨c, w⟩ =
        ((serve handler group w).1.reply, ⟨d, (serve handler group w).2⟩) ∧
      d.batch = e.batch ∧ d.called = e.called ++ [⟨thread, handler, group⟩] ∧
      d.appended = e.appended ∧ d.mayCall thread = true := by
  let entered := (e.setStack thread (.serving handler group :: c.stack thread)).note
    (.called thread handler group)
  let left := (entered.setStack thread (c.stack thread)).note
    (.returned thread (serve handler group w).1.reply)
  have enter : e.move? (.enter thread) = some entered := by simp [Calls.move?, holding, entered]
  have leave : entered.move? (.leave thread (serve handler group w).1) = some left := by
    simp [Calls.move?, entered, left]
  refine ⟨left, ?_, rfl, ?_, ?_, ?_⟩
  · rw [quietCall, call_of_holding hm holding]
    refine (bind_of_run (move_of_some enter)).trans ?_
    refine (bind_of_run (play_aside ..)).trans ?_
    exact bind_of_run (move_of_some leave)
  · simp [left, entered, Calls.called, Calls.events_note, Event.called?]
  · simp [left, entered, Calls.appended, Calls.events_note, Event.appended?]
  · rw [← free]
    simp [left, entered, Calls.mayCall]

end Scene

namespace Calls

/-- The thread can call a batch of the given capacity and handlers. -/
structure Ready (capacity : Nat) (hs : Handlers H) (thread : Nat) (c : Calls α H) : Prop where
  capacity_eq : c.batch.capacity = capacity
  handlers_eq : c.batch.handlers = some hs
  room : c.batch.position < capacity
  free : c.mayCall thread = true

variable {thread capacity : Nat} {m : Move α H}
  {hs : Handlers H} {c e : Calls α H}

theorem Ready.moves (h : c.Ready capacity hs thread) (call : m.caller? ≠ none)
    (hm : c.move? m = some e) : Moves hs c m e := by
  refine .of_move? h.handlers_eq ?_ call hm
  rw [h.capacity_eq]
  exact h.room

theorem Ready.kept (h : c.Ready capacity hs thread) (hm : Moves hs c m e) (d : Calls α H)
    (batch : d.batch = e.batch) (free : d.mayCall thread = true) : d.Ready capacity hs thread where
  capacity_eq := by rw [batch, hm.fixed.1, h.capacity_eq]
  handlers_eq := by rw [batch, hm.fixed.2, h.handlers_eq]
  room := by
    rw [batch]
    exact hm.room_next h.capacity_eq h.room
  free := free

/-- **A push keeps its record, or completes a group** and has it handled. -/
theorem Ready.push (h : c.Ready capacity hs thread) (serve : H → List α → StateM σ Outcome)
    (depth : Nat) (record : α) (w : σ) :
    ∃ d, d.Ready capacity hs thread ∧ d.appended = c.appended ++ [record] ∧
      ((c.batch.position + 1 < capacity ∧ d.batch.records = c.batch.records ++ [record] ∧
          d.called = c.called ∧
          Scene.quietCall serve thread depth (.push thread record) ⟨c, w⟩ = (.ok, ⟨d, w⟩)) ∨
        (c.batch.position + 1 = capacity ∧ d.batch.records = [] ∧
          d.called = c.called ++ [⟨thread, hs.push, c.batch.records ++ [record]⟩] ∧
          Scene.quietCall serve thread depth (.push thread record) ⟨c, w⟩ =
            ((serve hs.push (c.batch.records ++ [record]) w).1.reply,
              ⟨d, (serve hs.push (c.batch.records ++ [record]) w).2⟩))) := by
  obtain ⟨e, he⟩ : ∃ e, c.move? (.push thread record) = some e := ⟨_, if_pos h.free⟩
  have hm := h.moves (by simp [Move.caller?]) he
  have next := h.kept hm
  have appends : e.appended = c.appended ++ [record] := hm.appended_eq
  have calls : e.called = c.called := by simpa [entered] using hm.called_eq
  cases hm with
  | keep free _ more records =>
    rw [h.capacity_eq] at more
    refine ⟨_, next _ rfl free, appends, .inl ⟨more, records, calls, ?_⟩⟩
    exact Scene.call_of_returned he (Scene.top_of_mayCall free)
  | fill free _ full records =>
    rw [h.capacity_eq] at full
    obtain ⟨d, runs, batch, called, appended, free⟩ :=
      Scene.quietCall_of_holding serve depth he free (by rw [stack_note, stack_setStack_self]) w
    refine ⟨d, next d batch free, by rw [appended, appends],
      .inr ⟨full, by rw [batch]; exact records, by rw [called, calls], runs⟩⟩

/-- **A flush has what is buffered handled**, if anything is. -/
theorem Ready.flush (h : c.Ready capacity hs thread) (serve : H → List α → StateM σ Outcome)
    (depth : Nat) (w : σ) :
    ∃ d, d.Ready capacity hs thread ∧ d.appended = c.appended ∧ d.batch.records = [] ∧
      ((c.batch.records = [] ∧ d.called = c.called ∧
          Scene.quietCall serve thread depth (.flush thread) ⟨c, w⟩ = (.ok, ⟨d, w⟩)) ∨
        (c.batch.records ≠ [] ∧ d.called = c.called ++ [⟨thread, hs.flush, c.batch.records⟩] ∧
          Scene.quietCall serve thread depth (.flush thread) ⟨c, w⟩ =
            ((serve hs.flush c.batch.records w).1.reply,
              ⟨d, (serve hs.flush c.batch.records w).2⟩))) := by
  obtain ⟨e, he⟩ : ∃ e, c.move? (.flush thread) = some e := ⟨_, if_pos h.free⟩
  have hm := h.moves (by simp [Move.caller?]) he
  have next := h.kept hm
  have appends : e.appended = c.appended := by simpa [Move.pushed?] using hm.appended_eq
  have calls : e.called = c.called := by simpa [entered] using hm.called_eq
  cases hm with
  | pass free _ empty records =>
    refine ⟨_, next _ rfl free, appends, records, .inl ⟨empty, calls, ?_⟩⟩
    exact Scene.call_of_returned he (Scene.top_of_mayCall free)
  | drain free _ some records =>
    obtain ⟨d, runs, batch, called, appended, free⟩ :=
      Scene.quietCall_of_holding serve depth he free (by rw [stack_note, stack_setStack_self]) w
    refine ⟨d, next d batch free, by rw [appended, appends], by rw [batch]; exact records,
      .inr ⟨some, by rw [called, calls], runs⟩⟩

end Calls

end Batch

end BatchPool
