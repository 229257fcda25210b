import Mathlib.Data.List.Forall2
import BatchPool.Proofs.Batch.Results

/-!
# Handlers that fail

How a handler ends is the reply to the one call that called it. Nothing else depends on it: whether
handlers succeed, fail or panic, the same calls take out the same groups, and leave the same records
behind.

* `Call`: a call of a batch; `Calls.answer?`: the call until it returns, `Calls.answerAll?`: one call
  after another.
* `Call.parcel?`: the group that a call takes out, and `Call.reply`: what the call comes to.
* `Between.answer`: what a call does that is made while no thread is in another one.
* `Calls.Alike`: two states that differ in replies at most; `Alike.run`: with other outcomes a run goes
  the same way, however the calls of several threads interleave.
* `Calls.Undisturbed`: what follows for every list of calls.
-/

namespace BatchPool

namespace Batch

variable {α H : Type}

/-- A call of a batch. -/
inductive Call (α : Type) where
  | push (thread : Nat) (record : α)
  | flush (thread : Nat)

namespace Call

/-- The thread that makes the call. -/
def thread : Call α → Nat
  | push thread _ | flush thread => thread

/-- The record that is pushed. -/
def record? : Call α → Option α
  | push _ record => some record
  | flush _ => none

/-- The step of the call under the lock. -/
def move : Call α → Calls.Move α H
  | push thread record => .push thread record
  | flush thread => .flush thread

/-- The group that the call takes out, and its handler. -/
def parcel? (hs : Handlers H) (b : Batch α H) : Call α → Option (Parcel α H)
  | push thread record =>
    if b.position + 1 = b.capacity then some ⟨thread, hs.push, b.records ++ [record]⟩ else none
  | flush thread => if b.records = [] then none else some ⟨thread, hs.flush, b.records⟩

/-- What the call comes to, if its handler has the given outcome. -/
def reply (hs : Handlers H) (b : Batch α H) (outcome : Outcome) (call : Call α) : Reply :=
  match call.parcel? hs b with
  | some _ => outcome.reply
  | none => .ok

end Call

namespace Calls

/-- The same move, but for the outcome of the handler that returns by it. -/
inductive Move.Recast : Move α H → Move α H → Prop where
  | refl (m : Move α H) : Recast m m
  | leave (thread : Nat) (outcome other : Outcome) :
    Recast (.leave thread outcome) (.leave thread other)

/-- The state after a call that is made and returns, where the handler has the given outcome if one is
called. -/
def answer? (c : Calls α H) (call : Call α) (outcome : Outcome) : Option (Calls α H) :=
  match c.move? call.move with
  | none => none
  | some d =>
    match d.stack call.thread with
    | .holding _ _ :: _ => d.run? [.enter call.thread, .leave call.thread outcome]
    | _ => some d

/-- The state after calls that are made one after another. -/
def answerAll? (c : Calls α H) : List (Call α × Outcome) → Option (Calls α H)
  | [] => some c
  | (call, outcome) :: rest =>
    match c.answer? call outcome with
    | some d => d.answerAll? rest
    | none => none

end Calls

/-- The event, whatever a call came to. -/
def Event.unjudged : Event α H → Event α H
  | .returned thread _ => .returned thread .ok
  | event => event

namespace Calls

/-- Two states differ in what calls came to at most. -/
structure Alike (c d : Calls α H) : Prop where
  batch : d.batch = c.batch
  callStacks : d.callStacks = c.callStacks
  history : d.history.map Event.unjudged = c.history.map Event.unjudged

/-- No thread is in a call, and every group that was taken out went to its handler. -/
structure Between (capacity : Nat) (hs : Handlers H) (c : Calls α H) : Prop
    extends Conserved capacity hs c where
  callStacks : c.callStacks = []
  pending : ∀ thread, c.pending thread = none
  called : c.called = c.taken

/-- Only the thread of the group is in a call. It has the group in its hands, and all others went to
their handlers. -/
structure InHands (capacity : Nat) (hs : Handlers H) (x : Parcel α H) (c : Calls α H) : Prop
    extends Conserved capacity hs c where
  callStacks : c.callStacks = [(x.thread, [.holding x.handler x.group])]
  pending : ∀ thread, c.pending thread = if thread = x.thread then some x.group else none
  taken : c.taken = c.called ++ [x]

/-- What a call does to a batch of the given capacity, between the states `c` and `d`, if its handler
has the given outcome. -/
structure Answered (capacity : Nat) (hs : Handlers H) (call : Call α) (outcome : Outcome)
    (c d : Calls α H) : Prop where
  /-- The handler is called with the group that the call takes out, and no handler otherwise. -/
  called : d.called = c.called ++ (call.parcel? hs c.batch).toList
  /-- The call has one reply. -/
  result : d.results call.thread = c.results call.thread ++
    [((call.parcel? hs c.batch).map (·.group), call.reply hs c.batch outcome)]
  /-- No other thread has. -/
  others : ∀ thread, thread ≠ call.thread → d.results thread = c.results thread
  /-- Nothing of a group that was taken out is left, and nothing else is lost. -/
  records : d.batch.records =
    if (call.parcel? hs c.batch).isSome then [] else c.batch.records ++ call.record?.toList
  appended : d.appended = c.appended ++ call.record?.toList
  capacity : c.batch.capacity = capacity ∧ d.batch.capacity = capacity

variable {hs : Handlers H} {c d e : Calls α H} {m m' : Move α H} {capacity thread : Nat}
  {call : Call α} {outcome : Outcome} {handler : H} {group : List α}

/-! ## One call after another -/

/-- A thread calls the handler of the group in its hands, and returns from it. -/
theorem run?_serve {rest : List (Frame α H)}
    (holding : e.stack thread = .holding handler group :: rest) (outcome : Outcome) :
    e.run? [.enter thread, .leave thread outcome] =
      some ((((e.setStack thread (.serving handler group :: rest)).note
        (.called thread handler group)).setStack thread rest).note
          (.returned thread outcome.reply)) := by
  simp [run?, move?, holding]

theorem InHands.stack_eq {x : Parcel α H} (h : e.InHands capacity hs x) :
    e.stack x.thread = [.holding x.handler x.group] := by
  simp [stack, h.callStacks]

/-- What is in hand goes to its handler, and the reply is the outcome of the handler. -/
theorem InHands.serve {x : Parcel α H} (h : e.InHands capacity hs x) (outcome : Outcome) :
    ∃ d, e.run? [.enter x.thread, .leave x.thread outcome] = some d ∧ d.Between capacity hs ∧
      d.batch = e.batch ∧ d.called = e.called ++ [x] ∧ d.appended = e.appended ∧
      d.results x.thread = e.results x.thread ++ [(some x.group, outcome.reply)] ∧
      ∀ t, t ≠ x.thread → d.results t = e.results t := by
  let entered :=
    (e.setStack x.thread [.serving x.handler x.group]).note (.called x.thread x.handler x.group)
  let d := (entered.setStack x.thread []).note (.returned x.thread outcome.reply)
  have serving : entered.stack x.thread = [.serving x.handler x.group] := by simp [entered]
  have calls : d.called = e.called ++ [x] := by
    simp [d, entered, called, events_note, Event.called?]
  have takes : d.taken = e.taken := by simp [d, entered, Calls.taken, events_note, Event.taken?]
  have between : d.Between capacity hs := {
    (h.toConserved.next (.enter h.stack_eq)).next (.leave serving) with
    callStacks := by simp [d, entered, setStack, h.callStacks]
    pending := fun t => by
      have before := h.pending t
      by_cases mine : x.thread = t
      · simp [d, pending_note, mine]
      · simpa [d, entered, pending_note, mine, Ne.symm mine] using before
    called := by rw [calls, takes, h.taken] }
  refine ⟨d, run?_serve h.stack_eq outcome, between, rfl, calls, ?_, ?_, fun t other => ?_⟩
  · simp [d, entered, appended, events_note, Event.appended?]
  · simp [d, entered, results_note, pending_note, h.pending]
  · simp [d, entered, results_note, Ne.symm other]

/-- A call that takes a group out comes to what its handler comes to. -/
theorem InHands.answer {x : Parcel α H} (h : e.InHands capacity hs x) (call : Call α)
    (he : c.move? call.move = some e) (takes : call.parcel? hs c.batch = some x)
    (mine : x.thread = call.thread) (called : e.called = c.called)
    (results : ∀ t, e.results t = c.results t) (records : e.batch.records = [])
    (appended : e.appended = c.appended ++ call.record?.toList) (fixed : c.batch.capacity = capacity)
    (outcome : Outcome) :
    ∃ d, c.answer? call outcome = some d ∧ d.Between capacity hs ∧
      Answered capacity hs call outcome c d := by
  obtain ⟨d, hd, between, batch, serves, appends, result, others⟩ := h.serve outcome
  have stack := h.stack_eq
  rw [mine] at hd stack result others
  refine ⟨d, by simp only [answer?, he, stack, hd], between, ?_⟩
  exact {
    called := by rw [serves, called, takes, Option.toList_some]
    result := by simp only [result, results, Call.reply, takes, Option.map_some]
    others := fun t other => (others t other).trans (results t)
    records := by simp [batch, records, takes]
    appended := appends.trans appended
    capacity := ⟨fixed, between.capacity_eq⟩ }

/-- A call that takes nothing out returns at once. -/
theorem Between.answer_of_none (h : e.Between capacity hs) (call : Call α)
    (he : c.move? call.move = some e)
    (none : call.parcel? hs c.batch = none) (called : e.called = c.called)
    (result : e.results call.thread = c.results call.thread ++ [(Option.none, .ok)])
    (others : ∀ t, t ≠ call.thread → e.results t = c.results t)
    (records : e.batch.records = c.batch.records ++ call.record?.toList)
    (appended : e.appended = c.appended ++ call.record?.toList) (fixed : c.batch.capacity = capacity)
    (outcome : Outcome) :
    ∃ d, c.answer? call outcome = some d ∧ d.Between capacity hs ∧
      Answered capacity hs call outcome c d := by
  have stack : e.stack call.thread = [] := by simp [Calls.stack, h.callStacks]
  refine ⟨e, by simp only [answer?, he, stack], h, ?_⟩
  exact {
    called := by rw [called, none, Option.toList_none, List.append_nil]
    result := by simp only [result, Call.reply, none, Option.map_none]
    others := others
    records := by simp [records, none]
    appended := appended
    capacity := ⟨fixed, h.capacity_eq⟩ }

theorem Between.mayCall (h : c.Between capacity hs) (thread : Nat) : c.mayCall thread = true := by
  simp [Calls.mayCall, stack, h.callStacks]

/-- **A push completes a group or keeps its record.** If it completes one, the reply is that of the
handler, and the group is gone from the buffer in any case. -/
theorem Between.push (h : c.Between capacity hs) (thread : Nat) (record : α) (outcome : Outcome) :
    ∃ d, c.answer? (.push thread record) outcome = some d ∧ d.Between capacity hs ∧
      Answered capacity hs (.push thread record) outcome c d := by
  obtain ⟨e, he⟩ : ∃ e, c.move? (.push thread record) = some e := ⟨_, if_pos (h.mayCall thread)⟩
  have hm : Moves hs c (.push thread record) e := h.of_move? (by simp [Move.caller?]) he
  have next := h.toConserved.next hm
  have calls := h.callStacks
  have pending := h.pending
  have called := h.called
  simp only [Calls.called, Calls.taken] at called
  cases hm with
  | keep _ _ room records =>
    have between : Between capacity hs _ := { next with
      callStacks := calls
      pending := fun t => by simp [pending_note, pending]
      called := by simpa [Calls.called, Calls.taken, events_note, Event.called?, Event.taken?] }
    exact between.answer_of_none (.push thread record) he (if_neg (Nat.ne_of_lt room))
      (by simp [Calls.called, events_note, Event.called?])
      (by simp [Call.thread, results_note, pending_note, pending])
      (fun t (other : t ≠ thread) => by simp [results_note, Ne.symm other])
      records (by simp [appended, events_note, Event.appended?, Call.record?]) h.capacity_eq outcome
  | fill _ _ full records =>
    have held : InHands capacity hs ⟨thread, hs.push, c.batch.records ++ [record]⟩ _ := { next with
      callStacks := by simp [setStack, stack, calls]
      pending := fun t => by simp [pending_note, pending, eq_comm]
      taken := by simp [Calls.called, Calls.taken, events_note, Event.called?, Event.taken?, called] }
    exact held.answer (.push thread record) he (if_pos full) rfl
      (by simp [Calls.called, events_note, Event.called?]) (fun t => by simp [results_note]) records
      (by simp [appended, events_note, Event.appended?, Call.record?]) h.capacity_eq outcome

/-- **A flush takes out what is buffered.** If that is nothing, no handler is called; otherwise the
reply is that of the handler, and the buffer is empty in any case. -/
theorem Between.flush (h : c.Between capacity hs) (thread : Nat) (outcome : Outcome) :
    ∃ d, c.answer? (.flush thread) outcome = some d ∧ d.Between capacity hs ∧
      Answered capacity hs (.flush thread) outcome c d := by
  obtain ⟨e, he⟩ : ∃ e, c.move? (.flush thread) = some e := ⟨_, if_pos (h.mayCall thread)⟩
  have hm : Moves hs c (.flush thread) e := h.of_move? (by simp [Move.caller?]) he
  have next := h.toConserved.next hm
  have calls := h.callStacks
  have pending := h.pending
  have called := h.called
  simp only [Calls.called, Calls.taken] at called
  cases hm with
  | pass _ _ empty records =>
    have between : Between capacity hs _ := { next with
      callStacks := calls
      pending := fun t => by simp [pending_note, pending]
      called := by simpa [Calls.called, Calls.taken, events_note, Event.called?, Event.taken?] }
    exact between.answer_of_none (.flush thread) he (if_pos empty)
      (by simp [Calls.called, events_note, Event.called?])
      (by simp [Call.thread, results_note, pending])
      (fun t (other : t ≠ thread) => by simp [results_note, Ne.symm other])
      (by simp [records, empty, Call.record?])
      (by simp [appended, events_note, Event.appended?, Call.record?]) h.capacity_eq outcome
  | drain _ _ some records =>
    have held : InHands capacity hs ⟨thread, hs.flush, c.batch.records⟩ _ := { next with
      callStacks := by simp [setStack, stack, calls]
      pending := fun t => by simp [pending_note, pending, eq_comm]
      taken := by simp [Calls.called, Calls.taken, events_note, Event.called?, Event.taken?, called] }
    exact held.answer (.flush thread) he (if_neg some) rfl
      (by simp [Calls.called, events_note, Event.called?]) (fun t => by simp [results_note]) records
      (by simp [appended, events_note, Event.appended?, Call.record?]) h.capacity_eq outcome

/-- **A call does what it does whatever its handler comes to**, and has the reply that its handler has
for it. -/
theorem Between.answer (h : c.Between capacity hs) (call : Call α) (outcome : Outcome) :
    ∃ d, c.answer? call outcome = some d ∧ d.Between capacity hs ∧
      Answered capacity hs call outcome c d := by
  cases call with
  | push thread record => exact h.push thread record outcome
  | flush thread => exact h.flush thread outcome

/-! ## Other outcomes -/

theorem Alike.refl (c : Calls α H) : c.Alike c := ⟨rfl, rfl, rfl⟩

/-- What does not depend on replies happened in the same way. -/
theorem Alike.events_eq {β : Type} (h : c.Alike d) {f : Event α H → Option β}
    (blind : ∀ x : Event α H, f x.unjudged = f x) : d.events f = c.events f := by
  have seen : ∀ x : Calls α H, x.events f = (x.history.map Event.unjudged).reverse.filterMap f := by
    intro x
    simp [events, ← List.map_reverse, List.filterMap_map, blind]
  rw [seen, seen, h.history]

theorem Alike.called (h : c.Alike d) : d.called = c.called :=
  h.events_eq fun x => by cases x <;> rfl

theorem Alike.note (h : c.Alike d) {x y : Event α H} (same : y.unjudged = x.unjudged) :
    (c.note x).Alike (d.note y) where
  batch := h.batch
  callStacks := h.callStacks
  history := by simp [Calls.note, same, h.history]

theorem Alike.setStack (h : c.Alike d) (thread : Nat) (frames : List (Frame α H)) :
    (c.setStack thread frames).Alike (d.setStack thread frames) where
  batch := h.batch
  callStacks := by simp [Calls.setStack, h.callStacks]
  history := h.history

theorem Alike.withBatch (h : c.Alike d) (b : Batch α H) :
    ({ c with batch := b } : Calls α H).Alike { d with batch := b } where
  batch := rfl
  callStacks := h.callStacks
  history := h.history

theorem Alike.stack_eq (h : c.Alike d) (thread : Nat) : d.stack thread = c.stack thread := by
  rw [stack, stack, h.callStacks]

theorem Alike.mayCall_eq (h : c.Alike d) (thread : Nat) : d.mayCall thread = c.mayCall thread := by
  simp only [mayCall, h.stack_eq]

theorem Alike.settle (h : c.Alike d) (thread : Nat) (effect : Effect α H) :
    (c.settle thread effect).Alike (d.settle thread effect) := by
  cases effect with
  | refused | kept => exact h.note rfl
  | taken handler group =>
    simp only [Calls.settle, h.stack_eq]
    exact (h.setStack thread _).note rfl

/-- **With another outcome a move does the same.** -/
theorem Alike.next (h : c.Alike d) (recast : m.Recast m') (hm : c.move? m = some e) :
    ∃ f, d.move? m' = some f ∧ e.Alike f := by
  cases recast with
  | leave thread outcome other =>
    simp only [move?, h.stack_eq] at hm ⊢
    split at hm
    · cases hm
      exact ⟨_, rfl, (h.setStack thread _).note rfl⟩
    · cases hm
  | refl =>
    cases m with
    | push thread record =>
      simp only [move?, h.mayCall_eq, h.batch] at hm ⊢
      split at hm
      · next free =>
        cases hm
        refine ⟨_, if_pos free, Alike.settle ?_ thread _⟩
        split
        · exact h.withBatch _
        · exact (h.withBatch _).note rfl
      · cases hm
    | flush thread =>
      simp only [move?, h.mayCall_eq, h.batch] at hm ⊢
      split at hm
      · next free =>
        cases hm
        exact ⟨_, if_pos free, (h.withBatch _).settle thread _⟩
      · cases hm
    | enter thread =>
      simp only [move?, h.stack_eq] at hm ⊢
      split at hm
      · cases hm
        exact ⟨_, rfl, (h.setStack thread _).note rfl⟩
      · cases hm
    | leave thread outcome =>
      simp only [move?, h.stack_eq] at hm ⊢
      split at hm
      · cases hm
        exact ⟨_, rfl, (h.setStack thread _).note rfl⟩
      · cases hm
    | init capacity handlers =>
      simp only [move?] at hm ⊢
      split at hm
      · next idle =>
        cases hm
        refine ⟨_, if_pos (h.callStacks ▸ idle), ?_⟩
        rw [h.batch]
        exact h.withBatch _
      · cases hm

/-- **With other outcomes a run goes the same way**, however the calls of several threads
interleave. -/
theorem Alike.run {moves moves' : List (Move α H)} (h : c.Alike d)
    (recast : List.Forall₂ Move.Recast moves moves') (hr : c.run? moves = some e) :
    ∃ f, d.run? moves' = some f ∧ e.Alike f := by
  induction recast generalizing c d with
  | nil =>
    cases hr
    exact ⟨d, rfl, h⟩
  | cons first _ ih =>
    simp only [run?] at hr
    split at hr
    · next c' hc =>
      obtain ⟨d', hd, alike⟩ := h.next first hc
      obtain ⟨f, hf, alike⟩ := ih alike hr
      exact ⟨f, by rw [run?, hd]; exact hf, alike⟩
    · cases hr

theorem Alike.answer (h : c.Alike d) (other : Outcome) (ha : c.answer? call outcome = some e) :
    ∃ f, d.answer? call other = some f ∧ e.Alike f := by
  unfold answer? at ha
  split at ha
  · cases ha
  · next c' hc =>
    obtain ⟨d', hd, alike⟩ := h.next (.refl _) hc
    split at ha
    · next holding =>
      obtain ⟨f, hf, same⟩ :=
        alike.run (.cons (.refl _) (.cons (.leave _ outcome other) .nil)) ha
      exact ⟨f, by simp only [answer?, hd, alike.stack_eq, holding, hf], same⟩
    · next none =>
      cases ha
      refine ⟨d', ?_, alike⟩
      simp only [answer?, hd, alike.stack_eq]

/-- **With other outcomes the same calls do the same.** -/
theorem Alike.answerAll {calls others : List (Call α × Outcome)} (h : c.Alike d)
    (same : others.map (·.1) = calls.map (·.1)) (ha : c.answerAll? calls = some e) :
    ∃ f, d.answerAll? others = some f ∧ e.Alike f := by
  induction calls generalizing c d others with
  | nil =>
    cases ha
    exact ⟨d, by rw [List.map_eq_nil_iff.1 same]; rfl, h⟩
  | cons x rest ih =>
    obtain ⟨call, outcome⟩ := x
    obtain ⟨⟨_, other⟩, more, rfl, rfl, later⟩ := List.map_eq_cons_iff.1 same
    simp only [answerAll?] at ha
    split at ha
    · next c' hc =>
      obtain ⟨d', hd, alike⟩ := h.answer other hc
      obtain ⟨f, hf, alike⟩ := ih alike later ha
      exact ⟨f, by simp only [answerAll?, hd, hf], alike⟩
    · cases ha

/-! ## All calls -/

/-- **Any calls can be made one after another**, and each of them returns. -/
theorem Between.answerAll (h : c.Between capacity hs) (calls : List (Call α × Outcome)) :
    ∃ d, c.answerAll? calls = some d ∧ d.Between capacity hs ∧
      d.appended = c.appended ++ calls.filterMap (·.1.record?) := by
  induction calls generalizing c with
  | nil => exact ⟨c, rfl, h, by simp⟩
  | cons x rest ih =>
    obtain ⟨call, outcome⟩ := x
    obtain ⟨e, he, between, answered⟩ := h.answer call outcome
    obtain ⟨d, hd, last, appended⟩ := ih between
    refine ⟨d, by simp only [answerAll?, he, hd], last, ?_⟩
    rw [appended, answered.appended, List.append_assoc]
    cases hr : call.record? <;> simp [hr]

/-- Handlers that fail or panic do not disturb a batch of the given capacity, from the given state on.
-/
structure Undisturbed (capacity : Nat) (hs : Handlers H) (start : Calls α H)
    (calls : List (Call α × Outcome)) : Prop where
  /-- Each call returns, and hands its group to its handler. -/
  answered : ∀ before call outcome after, calls = before ++ (call, outcome) :: after →
    ∃ c d, start.answerAll? before = some c ∧ c.answer? call outcome = some d ∧
      Answered capacity hs call outcome c d
  /-- A push has the error of a handler as its reply exactly if it completed a group and the handler of
  full groups had this error on it; so for a panic, and in all other cases its reply is good. -/
  pushed : ∀ before thread record outcome after,
    calls = before ++ (.push thread record, outcome) :: after →
    ∃ c d group reply, start.answerAll? before = some c ∧
      c.answer? (.push thread record) outcome = some d ∧
      d.results thread = c.results thread ++ [(group, reply)] ∧
      (c.batch.position + 1 = capacity → group = some (c.batch.records ++ [record]) ∧
        d.called = c.called ++ [⟨thread, hs.push, c.batch.records ++ [record]⟩]) ∧
      (c.batch.position + 1 ≠ capacity → group = none ∧ d.called = c.called) ∧
      (∀ failure, reply = .failed failure ↔
        c.batch.position + 1 = capacity ∧ outcome = .failed failure) ∧
      (∀ text, reply = .panicked text ↔
        c.batch.position + 1 = capacity ∧ outcome = .panicked text) ∧
      (reply = .ok ↔ c.batch.position + 1 ≠ capacity ∨ outcome = .done)
  /-- A flush has the error of a handler as its reply exactly if something was buffered and the handler
  of flushed groups had this error on it; so for a panic, and it calls no handler if nothing was. -/
  flushed : ∀ before thread outcome after, calls = before ++ (.flush thread, outcome) :: after →
    ∃ c d group reply, start.answerAll? before = some c ∧ c.answer? (.flush thread) outcome = some d ∧
      d.results thread = c.results thread ++ [(group, reply)] ∧
      (c.batch.records ≠ [] → group = some c.batch.records ∧
        d.called = c.called ++ [⟨thread, hs.flush, c.batch.records⟩]) ∧
      (c.batch.records = [] → group = none ∧ d.called = c.called) ∧
      (∀ failure, reply = .failed failure ↔ c.batch.records ≠ [] ∧ outcome = .failed failure) ∧
      (∀ text, reply = .panicked text ↔ c.batch.records ≠ [] ∧ outcome = .panicked text) ∧
      (reply = .ok ↔ c.batch.records = [] ∨ outcome = .done)
  /-- The groups that handlers were called with, and behind them the buffer, are the records in the
  order in which they were pushed: none of them is handed out twice, and none is lost. -/
  whole : ∃ c, start.answerAll? calls = some c ∧ c.batch.position < capacity ∧
    (c.called.map (·.group)).flatten ++ c.batch.records = calls.filterMap (·.1.record?)
  /-- With other outcomes the same calls hand the same groups to the same handlers in the same order,
  and leave the same records and the same capacity after each of them. -/
  alike : ∀ others : List (Call α × Outcome), others.map (·.1) = calls.map (·.1) →
    ∀ n, ∃ c d, start.answerAll? (calls.take n) = some c ∧ start.answerAll? (others.take n) = some d ∧
      d.called = c.called ∧ d.batch = c.batch ∧ d.batch.position = c.batch.position ∧
      d.batch.capacity = c.batch.capacity
  /-- So they do when the calls of several threads interleave, and when handlers call the batch. -/
  interleaved : ∀ moves moves' c, List.Forall₂ Move.Recast moves moves' → start.run? moves = some c →
    ∃ d, start.run? moves' = some d ∧ d.called = c.called ∧ d.batch = c.batch

/-- **Handlers that fail or panic disturb no batch.** -/
theorem undisturbed (b : Batch α H) (size : Nat) (hs : Handlers H)
    (calls : List (Call α × Outcome)) :
    Undisturbed (effectiveSize size) hs { batch := b.init size hs } calls := by
  have start : Between (effectiveSize size) hs ({ batch := b.init size hs } : Calls α H) := {
    conserved_init b size hs with
    callStacks := rfl
    pending := fun _ => rfl
    called := rfl }
  have answered : ∀ before call outcome after, calls = before ++ (call, outcome) :: after →
      ∃ c d, answerAll? { batch := b.init size hs } before = some c ∧
        c.answer? call outcome = some d ∧ Answered (effectiveSize size) hs call outcome c d := by
    intro before call outcome after _
    obtain ⟨c, hc, between, -⟩ := start.answerAll before
    obtain ⟨d, hd, -, answered⟩ := between.answer call outcome
    exact ⟨c, d, hc, hd, answered⟩
  exact {
    answered := answered
    pushed := fun before thread record outcome after all => by
      obtain ⟨c, d, hc, hd, answered⟩ := answered before _ outcome after all
      have called := answered.called
      refine ⟨c, d, _, _, hc, hd, answered.result, ?_⟩
      rw [← answered.capacity.1]
      by_cases full : c.batch.position + 1 = c.batch.capacity
      · simp [called, Call.parcel?, Call.reply, full]
      · simp [called, Call.parcel?, Call.reply, full]
    flushed := fun before thread outcome after all => by
      obtain ⟨c, d, hc, hd, answered⟩ := answered before _ outcome after all
      have called := answered.called
      refine ⟨c, d, _, _, hc, hd, answered.result, ?_⟩
      by_cases empty : c.batch.records = []
      · simp [called, Call.parcel?, Call.reply, empty]
      · simp [called, Call.parcel?, Call.reply, empty]
    whole := by
      obtain ⟨c, hc, between, appended⟩ := start.answerAll calls
      refine ⟨c, hc, between.room, ?_⟩
      rw [between.called, between.records, appended]
      rfl
    alike := fun others same n => by
      obtain ⟨c, hc, -⟩ := start.answerAll (calls.take n)
      have first : (others.take n).map (·.1) = (calls.take n).map (·.1) := by
        rw [List.map_take, List.map_take, same]
      obtain ⟨d, hd, alike⟩ := (Alike.refl _).answerAll first hc
      exact ⟨c, d, hc, hd, alike.called, alike.batch, by rw [alike.batch], by rw [alike.batch]⟩
    interleaved := fun moves moves' c recast hc => by
      obtain ⟨d, hd, alike⟩ := (Alike.refl _).run recast hc
      exact ⟨d, hd, alike.called, alike.batch⟩ }

/-- Groups of two. The handler of the first one fails, and that of the second one panics. -/
example : (answerAll? { batch := ({} : Batch Nat String).init 2 { push := "full", flush := "rest" } }
    [(.push 0 10, .done), (.push 1 11, .failed (.stated "a")), (.push 0 12, .done),
      (.flush 0, .panicked none), (.flush 1, .done)]).map
    (fun c => (c.called.map (·.group), c.results 0, c.results 1)) =
      some ([[10, 11], [12]], [(none, .ok), (none, .ok), (some [12], .panicked none)],
        [(some [10, 11], .failed (.stated "a")), (none, .ok)]) :=
  rfl

end Calls

end Batch

end BatchPool
