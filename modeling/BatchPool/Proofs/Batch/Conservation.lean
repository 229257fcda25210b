import BatchPool.Batch.Calls

/-!
# What becomes of the records of a batch

Every record that is pushed is in one group that was taken out, or in the buffer, in the order of
the pushes; and every group goes once to one handler, however the calls of several threads
interleave, how the handlers end, and what they do with the batch.

* `Batch.push_spec`, `Batch.flush_spec`: what the step of a call does to the records.
* `Calls.Moves`: what a move can do, and `Calls.Moves.of_move?`: no move does anything else.
* `Calls.Conserved`: what every move keeps.
* `Calls.Faithful`: what follows for every run of calls.
-/

namespace BatchPool

namespace Batch

variable {α H : Type}

/-! ## One call -/

/-- A push puts its record behind the others. It keeps them while there is room for more, and takes
them all out otherwise. -/
theorem push_spec {b : Batch α H} {hs : Handlers H} (handlers : b.handlers = some hs)
    (room : b.position < b.capacity) (record : α) :
    (b.position + 1 < b.capacity ∧ (b.push record).1 = .kept ∧
        (b.push record).2.records = b.records ++ [record]) ∨
      (b.position + 1 = b.capacity ∧ (b.push record).1 = .taken hs.push (b.records ++ [record]) ∧
        (b.push record).2.records = []) := by
  unfold position at room ⊢
  unfold push
  rw [handlers]
  by_cases one : b.capacity = 1
  · have empty : b.records = [] := List.eq_nil_of_length_eq_zero (by omega)
    right
    simp [one, empty]
  · simp only [one, if_false, List.length_append, List.length_singleton]
    by_cases more : b.records.length + 1 < b.capacity
    · rw [if_pos more]
      exact .inl ⟨more, rfl, rfl⟩
    · rw [if_neg more]
      exact .inr ⟨by omega, rfl, rfl⟩

/-- A flush takes out the records, if there are any. -/
theorem flush_spec {b : Batch α H} {hs : Handlers H} (handlers : b.handlers = some hs) :
    b.flush.2.records = [] ∧
      ((b.records = [] ∧ b.flush.1 = .kept) ∨
        (b.records ≠ [] ∧ b.flush.1 = .taken hs.flush b.records)) := by
  unfold flush
  rw [handlers]
  by_cases empty : b.records = []
  · simp [empty]
  · simp only [if_neg empty]
    exact ⟨rfl, .inr ⟨empty, trivial⟩⟩

/-- The handler of the call is still to be called. -/
def Frame.isHolding : Frame α H → Bool
  | .holding _ _ => true
  | .serving _ _ => false

/-! ## What happened -/

/-- A group that a thread took out for a handler. -/
structure Parcel (α H : Type) where
  thread : Nat
  handler : H
  group : List α

namespace Event

/-- The record that was pushed. -/
def appended? : Event α H → Option α
  | .appended _ record => some record
  | _ => none

/-- The group that was taken out. -/
def taken? : Event α H → Option (Parcel α H)
  | .taken thread handler group => some ⟨thread, handler, group⟩
  | _ => none

/-- The group that its handler was called with. -/
def called? : Event α H → Option (Parcel α H)
  | .called thread handler group => some ⟨thread, handler, group⟩
  | _ => none

end Event

namespace Calls

variable {β : Type}

/-- What happened, the oldest first, as far as `f` is interested. -/
def events (c : Calls α H) (f : Event α H → Option β) : List β := c.history.reverse.filterMap f

/-- The records that were pushed. -/
def appended (c : Calls α H) : List α := c.events Event.appended?

/-- The groups that were taken out. -/
def taken (c : Calls α H) : List (Parcel α H) := c.events Event.taken?

/-- The groups that handlers were called with. -/
def called (c : Calls α H) : List (Parcel α H) := c.events Event.called?

/-- The groups of a thread. -/
def ofThread (thread : Nat) (parcels : List (Parcel α H)) : List (Parcel α H) :=
  parcels.filter fun x => x.thread = thread

/-- The group that a thread has in its hands. -/
def inHand (c : Calls α H) (thread : Nat) : List (Parcel α H) :=
  match c.stack thread with
  | .holding handler group :: _ => [⟨thread, handler, group⟩]
  | _ => []

/-- The thread whose call moves; a new initialisation is no call. -/
def Move.caller? : Move α H → Option Nat
  | .push thread _ | .flush thread | .enter thread | .leave thread _ => some thread
  | .init _ _ => none

/-- The record that is pushed in a move. -/
def Move.pushed? : Move α H → Option α
  | .push _ record => some record
  | _ => none

/-- The state after a list of moves, where all of them are possible. -/
def run? (c : Calls α H) : List (Move α H) → Option (Calls α H)
  | [] => some c
  | m :: rest =>
    match c.move? m with
    | some d => d.run? rest
    | none => none

/-! ## One move -/

/-- The moves of calls, for the handlers of the batch. -/
inductive Moves (hs : Handlers H) (c : Calls α H) : Move α H → Calls α H → Prop where
  | keep {thread : Nat} {record : α} {b : Batch α H} (free : c.mayCall thread = true)
      (fixed : b.capacity = c.batch.capacity ∧ b.handlers = c.batch.handlers)
      (room : c.batch.position + 1 < c.batch.capacity)
      (records : b.records = c.batch.records ++ [record]) :
    Moves hs c (.push thread record)
      (({ c with batch := b }.note (.appended thread record)).note (.returned thread .ok))
  | fill {thread : Nat} {record : α} {b : Batch α H} (free : c.mayCall thread = true)
      (fixed : b.capacity = c.batch.capacity ∧ b.handlers = c.batch.handlers)
      (full : c.batch.position + 1 = c.batch.capacity) (records : b.records = []) :
    Moves hs c (.push thread record)
      ((({ c with batch := b }.note (.appended thread record)).setStack thread
        (.holding hs.push (c.batch.records ++ [record]) :: c.stack thread)).note
          (.taken thread hs.push (c.batch.records ++ [record])))
  | pass {thread : Nat} {b : Batch α H} (free : c.mayCall thread = true)
      (fixed : b.capacity = c.batch.capacity ∧ b.handlers = c.batch.handlers)
      (empty : c.batch.records = []) (records : b.records = []) :
    Moves hs c (.flush thread) ({ c with batch := b }.note (.returned thread .ok))
  | drain {thread : Nat} {b : Batch α H} (free : c.mayCall thread = true)
      (fixed : b.capacity = c.batch.capacity ∧ b.handlers = c.batch.handlers)
      (some : c.batch.records ≠ []) (records : b.records = []) :
    Moves hs c (.flush thread)
      (({ c with batch := b }.setStack thread
        (.holding hs.flush c.batch.records :: c.stack thread)).note
          (.taken thread hs.flush c.batch.records))
  | enter {thread : Nat} {handler : H} {group : List α} {rest : List (Frame α H)}
      (holding : c.stack thread = .holding handler group :: rest) :
    Moves hs c (.enter thread)
      ((c.setStack thread (.serving handler group :: rest)).note (.called thread handler group))
  | leave {thread : Nat} {outcome : Outcome} {handler : H} {group : List α}
      {rest : List (Frame α H)} (serving : c.stack thread = .serving handler group :: rest) :
    Moves hs c (.leave thread outcome)
      ((c.setStack thread rest).note (.returned thread outcome.reply))

variable {hs : Handlers H} {c d : Calls α H} {m : Move α H}

/-- A move that is possible is one of these. -/
theorem Moves.of_move? (handlers : c.batch.handlers = some hs)
    (room : c.batch.position < c.batch.capacity) (call : m.caller? ≠ none)
    (h : c.move? m = some d) : Moves hs c m d := by
  cases m with
  | push thread record =>
    have fixed := push_fixed c.batch record
    simp only [move?] at h
    split at h
    · next free =>
      obtain ⟨more, kept, records⟩ | ⟨full, taken, records⟩ := push_spec handlers room record
      · rw [kept] at h
        cases h
        exact .keep free fixed more records
      · rw [taken] at h
        cases h
        exact .fill free fixed full records
    · cases h
  | flush thread =>
    have fixed := flush_fixed c.batch
    simp only [move?] at h
    split at h
    · next free =>
      obtain ⟨records, ⟨empty, kept⟩ | ⟨some, taken⟩⟩ := flush_spec handlers
      · rw [kept] at h
        cases h
        exact .pass free fixed empty records
      · rw [taken] at h
        cases h
        exact .drain free fixed some records
    · cases h
  | enter thread =>
    simp only [move?] at h
    split at h
    · next holding => cases h; exact .enter holding
    · cases h
  | leave thread outcome =>
    simp only [move?] at h
    split at h
    · next serving => cases h; exact .leave serving
    · cases h
  | init => exact absurd rfl call

/-! ## Small facts -/

theorem events_note (c : Calls α H) (e : Event α H) (f : Event α H → Option β) :
    (c.note e).events f = c.events f ++ (f e).toList := by
  cases h : f e <;> simp [events, note, h]

@[simp] theorem stack_batch (c : Calls α H) (b : Batch α H) (thread : Nat) :
    { c with batch := b }.stack thread = c.stack thread := rfl

@[simp] theorem events_batch (c : Calls α H) (b : Batch α H) (f : Event α H → Option β) :
    { c with batch := b }.events f = c.events f := rfl

@[simp] theorem events_setStack (c : Calls α H) (thread : Nat) (frames : List (Frame α H))
    (f : Event α H → Option β) : (c.setStack thread frames).events f = c.events f := rfl

theorem inHand_congr {thread : Nat} (same : d.stack thread = c.stack thread) :
    d.inHand thread = c.inHand thread := by
  unfold inHand
  rw [same]

/-- A thread whose innermost call has no group in its hands has none. -/
theorem inHand_eq_nil {thread : Nat}
    (top : ∀ f rest, c.stack thread = f :: rest → f.isHolding = false) :
    c.inHand thread = [] := by
  unfold inHand
  split
  · next stack => cases top _ _ stack
  · rfl

theorem inHand_of_mayCall {thread : Nat} (free : c.mayCall thread = true) :
    c.inHand thread = [] := by
  unfold mayCall at free
  unfold inHand
  split at free <;> simp_all

/-- A thread that can make a call has called the handlers of all its groups. -/
theorem not_holding_of_mayCall {thread : Nat} (free : c.mayCall thread = true)
    (inner : ∀ f ∈ (c.stack thread).tail, f.isHolding = false) :
    ∀ f ∈ c.stack thread, f.isHolding = false := by
  intro f hf
  unfold mayCall at free
  cases stack : c.stack thread with
  | nil => simp [stack] at hf
  | cons top rest =>
    rw [stack] at free hf inner
    obtain rfl | below := List.mem_cons.1 hf
    · cases f with
      | holding => cases free
      | serving => rfl
    · exact inner f below

theorem ofThread_append (thread : Nat) (a b : List (Parcel α H)) :
    ofThread thread (a ++ b) = ofThread thread a ++ ofThread thread b :=
  List.filter_append ..

theorem ofThread_self (thread : Nat) (handler : H) (group : List α) :
    ofThread thread [⟨thread, handler, group⟩] = [⟨thread, handler, group⟩] := by
  simp [ofThread]

theorem ofThread_ne {thread caller : Nat} (other : thread ≠ caller) (handler : H) (group : List α) :
    ofThread thread [⟨caller, handler, group⟩] = [] := by
  simp [ofThread, Ne.symm other]

/-! ## What every move keeps -/

/-- What every call keeps of a batch with the given capacity and handlers. -/
structure Conserved (capacity : Nat) (hs : Handlers H) (c : Calls α H) : Prop where
  capacity_eq : c.batch.capacity = capacity
  handlers_eq : c.batch.handlers = some hs
  /-- The buffer is not full. -/
  room : c.batch.position < capacity
  /-- The groups that were taken out, and behind them the buffer, are the records in the order in
  which they were pushed. -/
  records : (c.taken.map (·.group)).flatten ++ c.batch.records = c.appended
  /-- A group is a full one for the handler of full groups, or a smaller one for the other handler.
  -/
  groups : ∀ x ∈ c.taken, (x.handler = hs.push ∧ x.group.length = capacity) ∨
    (x.handler = hs.flush ∧ 1 ≤ x.group.length ∧ x.group.length < capacity)
  /-- A thread has called the handlers of its groups with them, once with each and in their order,
  except for the one that it has in its hands. -/
  delivered : ∀ thread, ofThread thread c.taken = ofThread thread c.called ++ c.inHand thread
  /-- Only the innermost call of a thread has a group in its hands. -/
  inner : ∀ thread, ∀ f ∈ (c.stack thread).tail, f.isHolding = false

variable {capacity : Nat}

theorem Moves.fixed (hm : Moves hs c m d) :
    d.batch.capacity = c.batch.capacity ∧ d.batch.handlers = c.batch.handlers := by
  cases hm with
  | keep _ fixed | fill _ fixed | pass _ fixed | drain _ fixed => exact fixed
  | enter | leave => exact ⟨rfl, rfl⟩

/-- The buffer does not fill up. -/
theorem Moves.room_next (hm : Moves hs c m d) (fixed : c.batch.capacity = capacity)
    (room : c.batch.position < capacity) : d.batch.position < capacity := by
  have hpos : 0 < capacity := Nat.zero_lt_of_lt room
  cases hm with
  | keep _ _ more records =>
    rw [fixed] at more
    simpa [position, records] using more
  | fill _ _ _ records | pass _ _ _ records | drain _ _ _ records =>
    simpa [position, records] using hpos
  | enter | leave => exact room

/-- **A move keeps the records in their order.** -/
theorem Conserved.records_next (h : c.Conserved capacity hs) (hm : Moves hs c m d) :
    (d.taken.map (·.group)).flatten ++ d.batch.records = d.appended := by
  have before := h.records
  simp only [taken, appended] at before ⊢
  cases hm with
  | keep _ _ _ records | fill _ _ _ records | drain _ _ _ records =>
    simp [events_note, records, Event.taken?, Event.appended?, ← before]
  | pass _ _ empty records =>
    rw [empty] at before
    simp [events_note, records, Event.taken?, Event.appended?, ← before]
  | enter | leave => simpa [events_note, Event.taken?, Event.appended?] using before

theorem Conserved.groups_next (h : c.Conserved capacity hs) (hm : Moves hs c m d) :
    ∀ x ∈ d.taken, (x.handler = hs.push ∧ x.group.length = capacity) ∨
      (x.handler = hs.flush ∧ 1 ≤ x.group.length ∧ x.group.length < capacity) := by
  have before := h.groups
  have room := h.room
  have capacity_eq := h.capacity_eq
  simp only [taken, position] at before room ⊢
  cases hm with
  | fill _ _ full =>
    intro x hx
    rw [events_note, List.mem_append] at hx
    obtain old | new := hx
    · exact before x (by simpa [events_note, Event.taken?] using old)
    · cases List.mem_singleton.1 new
      simp only [position] at full
      exact .inl ⟨rfl, by rw [List.length_append, List.length_singleton]; omega⟩
  | drain _ _ some =>
    intro x hx
    rw [events_note, List.mem_append] at hx
    obtain old | new := hx
    · exact before x (by simpa using old)
    · cases List.mem_singleton.1 new
      exact .inr ⟨rfl, List.length_pos_iff.2 some, room⟩
  | _ => simpa [events_note, Event.taken?] using before

/-- A move leaves the calls of the other threads as they are. -/
theorem Moves.frame {thread : Nat} (hm : Moves hs c m d) (other : m.caller? ≠ some thread) :
    d.stack thread = c.stack thread ∧ ofThread thread d.taken = ofThread thread c.taken ∧
      ofThread thread d.called = ofThread thread c.called := by
  simp only [taken, called]
  cases hm with
  | keep | pass => exact ⟨rfl, by simp [events_note, Event.taken?, Event.called?]⟩
  | @fill caller | @drain caller | @enter caller | @leave caller =>
    have ne : thread ≠ caller := fun h => other (h ▸ rfl)
    refine ⟨by simp [stack_setStack_ne _ ne], ?_⟩
    simp [events_note, Event.taken?, Event.called?, ofThread_append, ofThread_ne ne]

/-- **A thread passes on the groups that it took out.** -/
theorem Conserved.delivered_next (h : c.Conserved capacity hs) (hm : Moves hs c m d) :
    ∀ thread, ofThread thread d.taken = ofThread thread d.called ++ d.inHand thread := by
  intro thread
  have before := h.delivered thread
  by_cases other : m.caller? = some thread
  · simp only [taken, called] at before ⊢
    cases hm with
    | keep | pass => simpa [events_note, Event.taken?, Event.called?, inHand] using before
    | fill free | drain free =>
      cases other
      rw [inHand_of_mayCall free] at before
      simp [events_note, Event.taken?, Event.called?, ofThread_append, ofThread_self, inHand,
        before]
    | enter holding =>
      cases other
      simp only [inHand, holding] at before
      simp [events_note, Event.taken?, Event.called?, ofThread_append, ofThread_self, inHand,
        before]
    | leave serving =>
      cases other
      simp only [inHand, serving] at before
      rw [inHand_eq_nil]
      · simpa [events_note, Event.taken?, Event.called?] using before
      · intro f below stack
        rw [stack_note, stack_setStack_self] at stack
        exact h.inner thread f (by simp [serving, stack])
  · obtain ⟨stack, taken, called⟩ := hm.frame other
    rw [taken, called, inHand_congr stack, before]

theorem Conserved.inner_next (h : c.Conserved capacity hs) (hm : Moves hs c m d) :
    ∀ thread, ∀ f ∈ (d.stack thread).tail, f.isHolding = false := by
  intro thread f hf
  have before := h.inner thread
  by_cases other : m.caller? = some thread
  · cases hm with
    | keep | pass => exact before f hf
    | fill free | drain free =>
      cases other
      rw [stack_note, stack_setStack_self, List.tail_cons] at hf
      exact not_holding_of_mayCall free before f hf
    | enter holding =>
      cases other
      rw [stack_note, stack_setStack_self, List.tail_cons] at hf
      exact before f (by rw [holding]; exact hf)
    | leave serving =>
      cases other
      rw [stack_note, stack_setStack_self] at hf
      exact before f (by rw [serving]; exact List.mem_of_mem_tail hf)
  · rw [(hm.frame other).1] at hf
    exact before f hf

/-- **A move of a call loses nothing.** -/
theorem Conserved.next (h : c.Conserved capacity hs) (hm : Moves hs c m d) :
    d.Conserved capacity hs where
  capacity_eq := hm.fixed.1.trans h.capacity_eq
  handlers_eq := hm.fixed.2.trans h.handlers_eq
  room := hm.room_next h.capacity_eq h.room
  records := h.records_next hm
  groups := h.groups_next hm
  delivered := h.delivered_next hm
  inner := h.inner_next hm

/-! ## Runs -/

theorem conserved_init (b : Batch α H) (size : Nat) (hs : Handlers H) :
    Conserved (effectiveSize size) hs { batch := b.init size hs } where
  capacity_eq := rfl
  handlers_eq := rfl
  room := effectiveSize_pos size
  records := rfl
  groups := fun x hx => by cases hx
  delivered := fun _ => rfl
  inner := fun _ f hf => by cases hf

theorem Conserved.of_move? (h : c.Conserved capacity hs) (call : m.caller? ≠ none)
    (hm : c.move? m = some d) : Moves hs c m d := by
  refine .of_move? h.handlers_eq ?_ call hm
  rw [h.capacity_eq]
  exact h.room

theorem Moves.appended_eq (hm : Moves hs c m d) : d.appended = c.appended ++ m.pushed?.toList := by
  simp only [appended]
  cases hm <;> simp [events_note, Event.appended?, Move.pushed?]

/-- The group of the handler that a thread calls by a move. -/
def entered (c : Calls α H) : Move α H → List (Parcel α H)
  | .enter thread => c.inHand thread
  | _ => []

/-- Handlers are called by no other move. -/
theorem Moves.called_eq (hm : Moves hs c m d) : d.called = c.called ++ c.entered m := by
  simp only [called]
  cases hm with
  | enter holding => simp [events_note, Event.called?, entered, inHand, holding]
  | _ => simp [events_note, Event.called?, entered]

/-- What holds of a batch at its initialisation is kept by every run of calls. -/
theorem Conserved.of_run {moves : List (Move α H)} (h : c.Conserved capacity hs)
    (calls : ∀ m ∈ moves, m.caller? ≠ none) (hr : c.run? moves = some d) :
    d.Conserved capacity hs ∧ d.appended = c.appended ++ moves.filterMap Move.pushed? := by
  induction moves generalizing c with
  | nil =>
    cases hr
    exact ⟨h, by simp⟩
  | cons m rest ih =>
    simp only [run?] at hr
    split at hr
    · next e he =>
      have hm := h.of_move? (calls m List.mem_cons_self) he
      obtain ⟨conserved, all⟩ := ih (h.next hm) (fun m hm => calls m (List.mem_cons_of_mem _ hm)) hr
      refine ⟨conserved, ?_⟩
      rw [all, hm.appended_eq]
      cases hp : m.pushed? <;> simp [hp]
    · cases hr

/-- What holds after the given moves of calls on a batch with the given capacity and handlers, and
what the next move does. -/
structure Faithful (capacity : Nat) (hs : Handlers H) (moves : List (Move α H)) (c : Calls α H) :
    Prop extends Conserved capacity hs c where
  /-- The records are those of all pushes, in their order. -/
  pushes : c.appended = moves.filterMap Move.pushed?
  /-- A push takes out nothing, or a full group for the handler of full groups. -/
  pushed : ∀ thread record d, c.move? (.push thread record) = some d → d.taken = c.taken ∨
    ∃ group, group.length = capacity ∧ d.taken = c.taken ++ [⟨thread, hs.push, group⟩]
  /-- A flush takes out nothing, or a smaller group for the other handler. -/
  flushed : ∀ thread d, c.move? (.flush thread) = some d → d.taken = c.taken ∨
    ∃ group, 1 ≤ group.length ∧ group.length < capacity ∧
      d.taken = c.taken ++ [⟨thread, hs.flush, group⟩]
  /-- A thread that calls a handler calls the one of the group in its hands with it, and then has
  none in its hands. -/
  entered : ∀ thread d, c.move? (.enter thread) = some d → d.inHand thread = [] ∧
    d.called = c.called ++ c.inHand thread

/-- **Calls lose no record, and pass on every group once.** -/
theorem faithful (b : Batch α H) (size : Nat) {moves : List (Move α H)}
    (calls : ∀ m ∈ moves, m.caller? ≠ none)
    (hr : run? { batch := b.init size hs } moves = some c) :
    c.Faithful (effectiveSize size) hs moves := by
  obtain ⟨h, pushes⟩ := (conserved_init b size hs).of_run calls hr
  refine { h with pushes := pushes, pushed := ?_, flushed := ?_, entered := ?_ }
  · intro thread record d hd
    have hm := h.of_move? (m := .push thread record) (by simp [Move.caller?]) hd
    cases hm with
    | keep => exact .inl (by simp [taken, events_note, Event.taken?])
    | fill _ _ full =>
      refine .inr ⟨c.batch.records ++ [record], ?_, by simp [taken, events_note, Event.taken?]⟩
      rw [List.length_append, ← h.capacity_eq, ← full]
      rfl
  · intro thread d hd
    have hm := h.of_move? (m := .flush thread) (by simp [Move.caller?]) hd
    cases hm with
    | pass => exact .inl (by simp [taken, events_note, Event.taken?])
    | drain _ _ some =>
      refine .inr ⟨c.batch.records, List.length_pos_iff.2 some, h.room, ?_⟩
      simp [taken, events_note, Event.taken?]
  · intro thread d hd
    have hm := h.of_move? (m := .enter thread) (by simp [Move.caller?]) hd
    cases hm with
    | enter holding => simp [called, events_note, Event.called?, inHand, holding]

/-- Groups of two. Thread 0 fills a group, and its handler, while thread 1 has pushed a record into
the fresh buffer, fills another one and panics; thread 1 flushes what is left. -/
theorem faithful_nested :
    ∃ c : Calls Nat String,
      run? { batch := ({} : Batch Nat String).init 2 { push := "full", flush := "rest" } }
        [.push 0 10, .push 0 11, .push 1 12, .enter 0, .push 0 13, .enter 0,
          .leave 0 (.panicked none), .push 1 14, .leave 0 (.panicked none), .flush 1] = some c ∧
      c.batch.records = [] ∧ (c.inHand 1).map (·.group) = [[14]] ∧
      c.Faithful 2 { push := "full", flush := "rest" }
        [.push 0 10, .push 0 11, .push 1 12, .enter 0, .push 0 13, .enter 0,
          .leave 0 (.panicked none), .push 1 14, .leave 0 (.panicked none), .flush 1] :=
  ⟨_, rfl, rfl, rfl, faithful {} 2 (by decide) rfl⟩

end Calls

end Batch

end BatchPool
