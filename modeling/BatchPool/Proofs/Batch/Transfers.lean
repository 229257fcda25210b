import BatchPool.Proofs.Batch.Chunks
import BatchPool.Proofs.Batch.Quiet

/-!
# From a source into a batch

A source groups its items one way, and a batch groups them another way, beginning with what it has
buffered. As far as anybody can tell only the grouping of the batch matters: a transfer pushes the
items of the source one by one, up to the first that is not taken.

* `transferring_ofItems`: the grouping of the source does not matter.
* `Scene.pushes_content`, `Scene.pushes_stopped`: what the handler of full groups gets, if it takes
  all of them and if it does not.
* `Scene.regroups`: what becomes of the items, if the handlers take everything.
* `Scene.failsCleanly`: what becomes of them otherwise.
-/

namespace BatchPool

namespace Batch

section Groups

variable {α σ : Type} {m : Type → Type} [Monad m] [LawfulMonad m]

theorem pushAll_append (push : α → m Reply) (items more : List α) :
    pushAll push (items ++ more) = do
      match ← pushAll push items with
      | .ok () => pushAll push more
      | .error reply => return .error reply := by
  induction items with
  | nil => simp [pushAll]
  | cons record rest ih =>
    simp only [List.cons_append, pushAll, ih, bind_assoc]
    congr 1
    funext reply
    cases reply <;> simp

/-- A source that serves groups to be pushed has all their items pushed, up to the first refusal. -/
theorem serve_pushAll (push : α → m Reply) (size total index : Nat) (groups : List (List α)) :
    Source.serve size total (fun group _ => pushAll push group) index groups = do
      match ← pushAll push groups.flatten with
      | .ok () => return .complete
      | .error reply => return .stopped reply := by
  induction groups generalizing index with
  | nil => simp [Source.serve, pushAll]
  | cons group rest ih =>
    simp only [Source.serve, List.flatten_cons, pushAll_append, ih, bind_assoc]
    congr 1
    funext result
    cases result <;> simp

theorem pass_pushAll (push : α → m Reply) (source : Source α)
    (opened : source.finalized = false) (size : source.groupSize ≠ 0) :
    source.pass (fun group _ => pushAll push group) = do
      match ← pushAll push source.items with
      | .ok () => return .complete
      | .error reply => return .stopped reply := by
  rw [Source.pass, opened, if_neg Bool.false_ne_true, serve_pushAll, BatchPool.flatten_chunks size]

/-- What a transfer does depends on the items of its source, not on how the source groups them. -/
theorem transferring_ofItems (items : List α) (size : Nat) :
    (Code.transferring (.ofItems items size) : Code α σ Transferred) = do
      let (result, count) ← (pushAll Code.pushing items).run 0
      match result with
      | .error reply => return .stopped reply
      | .ok () =>
        match ← Code.flushing with
        | .ok => return .pushed count
        | reply => return .stopped reply := by
  have all := pass_pushAll (m := Code α σ) Code.pushing (.ofItems items size) rfl
    (Nat.ne_of_gt (effectiveSize_pos size))
  simp only [Code.transferring, transfer, all, StateT.run_bind, bind_assoc]
  congr 1
  funext p
  obtain ⟨result, count⟩ := p
  cases result <;> rfl

end Groups

variable {α H σ : Type}

namespace Scene

/-- A source is transferred by a thread, while handlers have only to do with the world. -/
def transfer (serve : H → List α → StateM σ Outcome) (thread depth : Nat) (source : Source α) :
    StateM (Scene α H σ) Transferred :=
  (Code.transferring source).run Calls.move?
    (play Calls.move? (fun handler group => .aside (serve handler group)) thread (depth + 1)) thread

/-- Records are pushed one after another up to the first that is not taken, while handlers have only
to do with the world. -/
def quietPushes (serve : H → List α → StateM σ Outcome) (thread depth : Nat) (items : List α)
    (count : Nat) : StateM (Scene α H σ) (Except Reply Unit × Nat) :=
  ((pushAll Code.pushing items).run count).run Calls.move?
    (play Calls.move? (fun handler group => .aside (serve handler group)) thread (depth + 1)) thread

variable {serve : H → List α → StateM σ Outcome} {thread depth capacity : Nat} {hs : Handlers H}
  {s t u : Scene α H σ} {reply : Reply} {result : Except Reply Unit} {count : Nat} {record : α}
  {items : List α}

/-! ## Pushes -/

theorem run_pushAll_cons (record : α) (items : List α) (count : Nat) :
    (pushAll Code.pushing (record :: items)).run count =
      (Code.push record fun reply =>
        match reply with
        | .ok => (pushAll Code.pushing items).run (count + 1)
        | reply => .ends (.error reply, count) : Code α σ (Except Reply Unit × Nat)) := by
  show Code.push record _ = _
  congr 1
  funext reply
  cases reply <;> rfl

theorem quietPushes_of_ok
    (first : quietCall serve thread depth (.push thread record) s = (.ok, t)) :
    quietPushes serve thread depth (record :: items) count s =
      quietPushes serve thread depth items (count + 1) t := by
  rw [quietPushes, run_pushAll_cons, Code.run]
  exact bind_of_run first

theorem quietPushes_of_ne
    (first : quietCall serve thread depth (.push thread record) s = (reply, t))
    (bad : reply ≠ .ok) :
    quietPushes serve thread depth (record :: items) count s = ((.error reply, count), t) := by
  rw [quietPushes, run_pushAll_cons, Code.run]
  refine (bind_of_run first).trans ?_
  cases reply with
  | ok => exact absurd rfl bad
  | _ => rfl

theorem transfer_of_error (size : Nat)
    (pushes : quietPushes serve thread depth items 0 s = ((.error reply, count), t)) :
    transfer serve thread depth (.ofItems items size) s = (.stopped reply, t) := by
  rw [transfer, transferring_ofItems, Code.run_bind]
  exact bind_of_run pushes

theorem transfer_of_ok (size : Nat)
    (pushes : quietPushes serve thread depth items 0 s = ((.ok (), count), t))
    (flush : quietCall serve thread depth (.flush thread) t = (.ok, u)) :
    transfer serve thread depth (.ofItems items size) s = (.pushed count, u) := by
  rw [transfer, transferring_ofItems, Code.run_bind]
  exact (bind_of_run pushes).trans (bind_of_run flush)

theorem transfer_of_ne (size : Nat)
    (pushes : quietPushes serve thread depth items 0 s = ((.ok (), count), t))
    (flush : quietCall serve thread depth (.flush thread) t = (reply, u)) (bad : reply ≠ .ok) :
    transfer serve thread depth (.ofItems items size) s = (.stopped reply, u) := by
  rw [transfer, transferring_ofItems, Code.run_bind]
  refine ((bind_of_run pushes).trans (bind_of_run flush)).trans ?_
  cases reply with
  | ok => exact absurd rfl bad
  | _ => rfl

/-- What the world is after a handler took some groups. -/
def served (serve : List α → StateM σ Outcome) (world : σ) (groups : List (List α)) : σ :=
  groups.foldl (fun world group => (serve group world).2) world

/-- A handler takes groups without complaint, one after another. -/
def Content (serve : List α → StateM σ Outcome) : σ → List (List α) → Prop
  | _, [] => True
  | world, group :: rest => (serve group world).1 = .done ∧ Content serve (serve group world).2 rest

theorem content_of_done {serve : List α → StateM σ Outcome}
    (done : ∀ group w, (serve group w).1 = .done) (world : σ) (groups : List (List α)) :
    Content serve world groups := by
  induction groups generalizing world with
  | nil => trivial
  | cons group rest ih => exact ⟨done group world, ih _⟩

theorem length_le_of_mem {groups : List (List α)} {rest l : List α} {group : List α}
    (mem : group ∈ groups) (whole : groups.flatten ++ rest = l) : group.length ≤ l.length := by
  rw [← whole, List.length_append]
  exact Nat.le_add_right_of_le (List.sublist_flatten_of_mem mem).length_le

theorem length_flatten_of_sizes {groups : List (List α)}
    (sizes : ∀ group ∈ groups, group.length = capacity) :
    groups.flatten.length = groups.length * capacity := by
  rw [List.length_flatten, List.map_congr_left sizes, List.map_const', List.sum_replicate_nat]

/-- **Pushes hand out the full groups in their order**, and keep what is left. -/
theorem pushes_content (serve : H → List α → StateM σ Outcome) (depth : Nat) {c : Calls α H}
    {w : σ} (h : c.Ready capacity hs thread) {full : List (List α)} {rest : List α}
    (sizes : ∀ group ∈ full, group.length = capacity) (short : rest.length < capacity)
    (whole : full.flatten ++ rest = c.batch.records ++ items)
    (content : Content (serve hs.push) w full) (count : Nat) :
    ∃ d, quietPushes serve thread depth items count ⟨c, w⟩ =
        ((.ok (), count + items.length), ⟨d, served (serve hs.push) w full⟩) ∧
      d.Ready capacity hs thread ∧ d.batch.records = rest ∧ d.appended = c.appended ++ items ∧
      d.called = c.called ++ full.map (⟨thread, hs.push, ·⟩) := by
  -- one record after another: what is buffered and still to be pushed begins with the groups that
  -- are still to come
  induction items generalizing c w full count with
  | nil =>
    rw [List.append_nil] at whole
    cases full with
    | nil => exact ⟨c, rfl, h, whole.symm, by simp, by simp⟩
    | cons group more =>
      -- a buffer has no full group
      have large := length_le_of_mem List.mem_cons_self whole
      rw [sizes group List.mem_cons_self] at large
      exact absurd h.room (Nat.not_lt.2 large)
  | cons record items ih =>
    obtain ⟨d, ready, appended, ⟨-, records, called, runs⟩ | ⟨last, records, called, runs⟩⟩ :=
      h.push serve depth record w
    · obtain ⟨e, ran, ready, left, appends, calls⟩ :=
        ih ready sizes (by rw [records, whole, List.append_cons]) content (count + 1)
      refine ⟨e, ?_, ready, left, by simp [appends, appended], by rw [calls, called]⟩
      rw [quietPushes_of_ok runs, ran, List.length_cons, Nat.add_assoc, Nat.add_comm 1]
    · -- the record completes the first of these groups
      rw [List.append_cons] at whole
      have size : (c.batch.records ++ [record]).length = capacity := by
        rw [List.length_append]
        exact last
      cases full with
      | nil =>
        have few := congrArg List.length whole
        rw [List.flatten_nil, List.nil_append, List.length_append, size] at few
        omega
      | cons group more =>
        rw [List.flatten_cons, List.append_assoc] at whole
        obtain ⟨rfl, later⟩ := List.append_inj whole (by rw [sizes group List.mem_cons_self, size])
        obtain ⟨done, content⟩ := content
        rw [done] at runs
        obtain ⟨e, ran, ready, left, appends, calls⟩ :=
          ih ready (fun g hg => sizes g (List.mem_cons_of_mem _ hg)) (by rw [records, later]; rfl)
            content (count + 1)
        refine ⟨e, ?_, ready, left, by simp [appends, appended], by simp [calls, called]⟩
        rw [quietPushes_of_ok runs, ran, List.length_cons, Nat.add_assoc, Nat.add_comm 1]
        rfl

/-- Pushes go on where others ended. -/
theorem quietPushes_append {front more : List α} {n : Nat}
    (first : quietPushes serve thread depth front count s = ((.ok (), n), t)) :
    quietPushes serve thread depth (front ++ more) count s =
      quietPushes serve thread depth more n t := by
  rw [quietPushes, pushAll_append, StateT.run_bind, Code.run_bind]
  exact bind_of_run first

/-- What is pushed to a buffer before the record that completes a group, by the groups that come of
it. -/
theorem exists_front {buffered front back later : List α}
    (room : buffered.length ≤ front.length) (whole : front ++ later = buffered ++ back) :
    ∃ pushed, back = pushed ++ later ∧ front = buffered ++ pushed := by
  obtain ⟨pushed, rfl⟩ : buffered <+: front :=
    List.prefix_of_prefix_length_le ⟨back, whole.symm⟩ ⟨later, rfl⟩ room
  refine ⟨pushed, ?_, rfl⟩
  rw [List.append_assoc] at whole
  exact (List.append_cancel_left whole).symm

/-- **Pushes end with the first group that its handler does not take.** Nothing behind the group is
pushed. -/
theorem pushes_stopped (serve : H → List α → StateM σ Outcome) (depth : Nat) {c : Calls α H}
    {w : σ} (h : c.Ready capacity hs thread) {before : List (List α)} {failing later : List α}
    (sizes : ∀ group ∈ before, group.length = capacity) (size : failing.length = capacity)
    (whole : before.flatten ++ (failing ++ later) = c.batch.records ++ items)
    (content : Content (serve hs.push) w before)
    (fails : (serve hs.push failing (served (serve hs.push) w before)).1 ≠ .done) (count : Nat) :
    ∃ d pushed n, quietPushes serve thread depth items count ⟨c, w⟩ =
        ((.error (serve hs.push failing (served (serve hs.push) w before)).1.reply, n),
          ⟨d, (serve hs.push failing (served (serve hs.push) w before)).2⟩) ∧
      d.batch.records = [] ∧ d.appended = c.appended ++ pushed ∧ items = pushed ++ later ∧
      d.called = c.called ++ (before ++ [failing]).map (⟨thread, hs.push, ·⟩) := by
  -- all pushes before the last record of the group succeed, and that one completes the group
  have pos : 0 < capacity := Nat.zero_lt_of_lt h.room
  obtain ⟨init, record, rfl⟩ : ∃ init record, failing = init ++ [record] :=
    ⟨_, _, (List.dropLast_append_getLast (List.length_pos_iff.1 (size ▸ pos))).symm⟩
  rw [List.length_append, List.length_singleton] at size
  have room := h.room
  obtain ⟨front, rfl, front_eq⟩ : ∃ front, items = front ++ record :: later ∧
      before.flatten ++ init = c.batch.records ++ front := by
    refine exists_front ?_ (by simpa using whole)
    rw [List.length_append]
    unfold position at room
    omega
  obtain ⟨d, ran, ready, left, appends, calls⟩ :=
    pushes_content serve depth h sizes (by omega) front_eq content count
  obtain ⟨e, -, appended, ⟨more, -⟩ | ⟨-, records, called, runs⟩⟩ :=
    ready.push serve depth record (served (serve hs.push) w before)
  · rw [position, left] at more
    omega
  · rw [left] at called runs
    refine ⟨e, front ++ [record], count + front.length, ?_, records, ?_, by simp,
      by simp [called, calls]⟩
    · rw [quietPushes_append ran]
      exact quietPushes_of_ne runs fun ok => fails (Outcome.reply_eq_ok.1 ok)
    · rw [appended, appends, List.append_assoc]

/-! ## Transfers -/

/-- What a transfer of items makes of a batch whose handlers take everything. -/
structure Regrouped (hs : Handlers H) (thread : Nat) (c : Calls α H) (items : List α)
    (full : List (List α)) (rest : List α) (d : Calls α H) : Prop where
  /-- The full groups and what is left make up what was buffered and the items. -/
  whole : full.flatten ++ rest = c.batch.records ++ items
  sizes : ∀ group ∈ full, group.length = c.batch.capacity
  short : rest.length < c.batch.capacity
  parts : chunks c.batch.capacity (c.batch.records ++ items) =
    full ++ if rest = [] then [] else [rest]
  /-- The one handler gets the full groups in their order, and then the other one what is left, if
  anything is. -/
  called : d.called = c.called ++ full.map (⟨thread, hs.push, ·⟩) ++
    if rest = [] then [] else [⟨thread, hs.flush, rest⟩]
  position : d.batch.position = 0

/-- **A transfer groups anew**: what handlers get depends on what was buffered and on the items, but
not on how the source groups them. -/
theorem regroups (serve : H → List α → StateM σ Outcome) (thread depth : Nat) (s : Scene α H σ)
    {hs : Handlers H} (handlers : s.calls.batch.handlers = some hs)
    (room : s.calls.batch.position < s.calls.batch.capacity)
    (free : s.calls.mayCall thread = true)
    (pushed : ∀ group w, (serve hs.push group w).1 = .done)
    (flushed : ∀ group w, (serve hs.flush group w).1 = .done) (items : List α) :
    ∃ t full rest, Regrouped hs thread s.calls items full rest t.calls ∧
      ∀ size, transfer serve thread depth (.ofItems items size) s = (.pushed items.length, t) := by
  have ready : s.calls.Ready s.calls.batch.capacity hs thread := ⟨rfl, handlers, room, free⟩
  obtain ⟨full, rest, sizes, short, whole, parts⟩ :=
    exists_parts (Nat.zero_lt_of_lt room) (s.calls.batch.records ++ items)
  obtain ⟨d, pushes, ready, left, -, calls⟩ :=
    pushes_content serve depth ready sizes short whole (content_of_done pushed s.world full) 0
  rw [Nat.zero_add] at pushes
  obtain ⟨e, -, -, empty, ⟨none, called, flush⟩ | ⟨some, called, flush⟩⟩ :=
    ready.flush serve depth (served (serve hs.push) s.world full)
  · rw [left] at none
    refine ⟨⟨e, _⟩, full, rest, ⟨whole, sizes, short, parts, ?_, by simp [position, empty]⟩,
      fun size => transfer_of_ok size pushes flush⟩
    simp [called, calls, none]
  · rw [left] at some called flush
    rw [flushed] at flush
    refine ⟨⟨e, _⟩, full, rest, ⟨whole, sizes, short, parts, ?_, by simp [position, empty]⟩,
      fun size => transfer_of_ok size pushes flush⟩
    simp [called, calls, some]

/-- Groups of three, the first of which has begun: seven items fill two groups and begin another
one, however the source groups them. -/
theorem regroups_offset :
    ∃ t : Scene Nat String (List (String × List Nat)),
      (∀ size, transfer (fun handler group log => (.done, log ++ [(handler, group)])) 0 0
        (.ofItems [2, 3, 4, 5, 6, 7, 8] size)
          ⟨{ batch := ⟨3, some ⟨"full", "rest"⟩, some [1]⟩ }, []⟩ = (.pushed 7, t)) ∧
      t.calls.called.map (·.group) = [[1, 2, 3], [4, 5, 6], [7, 8]] := by
  obtain ⟨t, full, rest, regrouped, all⟩ := regroups
    (fun handler group log => (.done, log ++ [(handler, group)])) 0 0
    (⟨{ batch := ⟨3, some ⟨"full", "rest"⟩, some [1]⟩ }, []⟩ : Scene Nat String
      (List (String × List Nat))) rfl (by decide) rfl (fun _ _ => rfl) (fun _ _ => rfl)
      [2, 3, 4, 5, 6, 7, 8]
  refine ⟨t, all, ?_⟩
  have parts : [[1, 2, 3], [4, 5, 6], [7, 8]] = full ++ if rest = [] then [] else [rest] :=
    regrouped.parts
  rw [regrouped.called, parts]
  by_cases empty : rest = [] <;> simp [empty, Calls.called, Calls.events, Function.comp_def]

/-- How a transfer fails, from the given scene on. -/
structure FailsCleanly (serve : H → List α → StateM σ Outcome) (thread depth : Nat)
    (s : Scene α H σ) : Prop where
  /-- If the handler of full groups takes the groups `before` and not the next one, its failure or its
  panic is what the transfer comes to. The handler is called with no other group, and the other
  handler not at all; the items up to this group are pushed, and those behind it are not; and the
  buffer is empty. -/
  push : ∀ (hs : Handlers H) (items : List α) (size : Nat) (before : List (List α))
    (failing later : List α), s.calls.batch.handlers = some hs →
    before.flatten ++ (failing ++ later) = s.calls.batch.records ++ items →
    (∀ group ∈ before, group.length = s.calls.batch.capacity) →
    failing.length = s.calls.batch.capacity → Content (serve hs.push) s.world before →
    (serve hs.push failing (served (serve hs.push) s.world before)).1 ≠ .done →
    ∃ t pushed reply, transfer serve thread depth (.ofItems items size) s = (.stopped reply, t) ∧
      (∀ failure, reply = .failed failure ↔
        (serve hs.push failing (served (serve hs.push) s.world before)).1 = .failed failure) ∧
      (∀ text, reply = .panicked text ↔
        (serve hs.push failing (served (serve hs.push) s.world before)).1 = .panicked text) ∧
      t.calls.called = s.calls.called ++ (before ++ [failing]).map (⟨thread, hs.push, ·⟩) ∧
      items = pushed ++ later ∧
      pushed.length = (before.length + 1) * s.calls.batch.capacity - s.calls.batch.position ∧
      t.calls.appended = s.calls.appended ++ pushed ∧ t.calls.batch.position = 0
  /-- If it takes all full groups, but the other handler does not take what is left, all items are
  pushed, the failure or the panic of this handler is what the transfer comes to, and the buffer is
  empty. -/
  flush : ∀ (hs : Handlers H) (items : List α) (size : Nat) (full : List (List α)) (rest : List α),
    s.calls.batch.handlers = some hs → full.flatten ++ rest = s.calls.batch.records ++ items →
    (∀ group ∈ full, group.length = s.calls.batch.capacity) → rest.length < s.calls.batch.capacity →
    rest ≠ [] → Content (serve hs.push) s.world full →
    (serve hs.flush rest (served (serve hs.push) s.world full)).1 ≠ .done →
    ∃ t reply, transfer serve thread depth (.ofItems items size) s = (.stopped reply, t) ∧
      (∀ failure, reply = .failed failure ↔
        (serve hs.flush rest (served (serve hs.push) s.world full)).1 = .failed failure) ∧
      (∀ text, reply = .panicked text ↔
        (serve hs.flush rest (served (serve hs.push) s.world full)).1 = .panicked text) ∧
      t.calls.called =
        s.calls.called ++ full.map (⟨thread, hs.push, ·⟩) ++ [⟨thread, hs.flush, rest⟩] ∧
      t.calls.appended = s.calls.appended ++ items ∧ t.calls.batch.position = 0
  /-- A finalized source refuses, and nothing happens. -/
  refused : ∀ (items : List α) (size : Nat),
    transfer serve thread depth (Source.ofItems items size).finalize s = (.refused, s)
  /-- A batch that was not initialised refuses, whether there are items or not, and nothing happens
  besides. -/
  uninitialized : ∀ (items : List α) (size : Nat), s.calls.batch.handlers = none →
    transfer serve thread depth (.ofItems items size) s =
      (.stopped .uninitialized,
        { s with calls := s.calls.note (.returned thread .uninitialized) })

/-- **A transfer that fails leaves nothing half done.** An initialised batch has room for a record
(`Conserved.room`). -/
theorem failsCleanly (serve : H → List α → StateM σ Outcome) (thread depth : Nat) (s : Scene α H σ)
    (room : s.calls.batch.handlers ≠ none → s.calls.batch.position < s.calls.batch.capacity)
    (free : s.calls.mayCall thread = true) : FailsCleanly serve thread depth s where
  push := by
    intro hs items size before failing later handlers whole sizes full content fails
    have ready : s.calls.Ready s.calls.batch.capacity hs thread :=
      ⟨rfl, handlers, room (by simp [handlers]), free⟩
    obtain ⟨d, pushed, n, pushes, empty, appended, all, called⟩ :=
      pushes_stopped serve depth ready sizes full whole content fails 0
    refine ⟨⟨d, _⟩, pushed, _, transfer_of_error size pushes, fun _ => Outcome.reply_eq_failed,
      fun _ => Outcome.reply_eq_panicked, called, all, ?_, appended, by simp [position, empty]⟩
    subst all
    have lengths := congrArg List.length whole
    simp only [List.length_append, length_flatten_of_sizes sizes, full] at lengths
    rw [Nat.add_mul, Nat.one_mul, position]
    omega
  flush := by
    intro hs items size full rest handlers whole sizes short some content fails
    have ready : s.calls.Ready s.calls.batch.capacity hs thread :=
      ⟨rfl, handlers, room (by simp [handlers]), free⟩
    obtain ⟨d, pushes, ready, left, appends, calls⟩ :=
      pushes_content serve depth ready sizes short whole content 0
    obtain ⟨e, -, appended, empty, ⟨none, -⟩ | ⟨-, called, flush⟩⟩ :=
      ready.flush serve depth (served (serve hs.push) s.world full)
    · exact absurd (left.symm.trans none) some
    · rw [left] at called flush
      refine ⟨⟨e, _⟩, _, transfer_of_ne size pushes flush fun ok => fails (Outcome.reply_eq_ok.1 ok),
        fun _ => Outcome.reply_eq_failed, fun _ => Outcome.reply_eq_panicked, by rw [called, calls],
        by rw [appended, appends], by simp [position, empty]⟩
  refused := fun _ _ => rfl
  uninitialized := by
    intro items size none
    have push : ∀ record, quietCall serve thread depth (.push thread record) s =
        (.uninitialized, { s with calls := s.calls.note (.returned thread .uninitialized) }) :=
      fun record => quietCall_refused free
        (by simp [Calls.move?, free, push_uninitialized none, Calls.settle])
    have flush : quietCall serve thread depth (.flush thread) s =
        (.uninitialized, { s with calls := s.calls.note (.returned thread .uninitialized) }) :=
      quietCall_refused free (by simp [Calls.move?, free, flush_uninitialized none, Calls.settle])
    cases items with
    | nil => exact transfer_of_ne size rfl flush (by simp)
    | cons record rest => exact transfer_of_error size (quietPushes_of_ne (push record) (by simp))

/-- Groups of two, the first of which has begun, and a handler that fails with the second group: in
the midst of a group of the source the transfer ends. -/
theorem failsCleanly_secondGroup :
    ∃ (t : Scene Nat String Nat) (pushed : List Nat),
      transfer
          (fun _ _ n => (if n = 1 then .failed (.stated "no") else .done, n + 1)) 0 0
          (.ofItems [2, 3, 4, 5, 6] 3) ⟨{ batch := ⟨2, some ⟨"full", "rest"⟩, some [1]⟩ }, 0⟩ =
        (.stopped (.failed (.stated "no")), t) ∧
      t.calls.called.map (·.group) = [[1, 2], [3, 4]] ∧ pushed.length = 3 ∧
      t.calls.appended = pushed ∧ t.calls.batch.position = 0 := by
  obtain ⟨t, pushed, reply, stopped, failed, -, called, -, length, appended, position⟩ :=
    (failsCleanly (fun _ _ n => (if n = 1 then .failed (.stated "no") else .done, n + 1)) 0 0
      (⟨{ batch := ⟨2, some ⟨"full", "rest"⟩, some [1]⟩ }, 0⟩ : Scene Nat String Nat)
      (by decide) rfl).push ⟨"full", "rest"⟩ [2, 3, 4, 5, 6] 3 [[1, 2]] [3, 4] [5, 6] rfl rfl
      (by decide) rfl ⟨rfl, trivial⟩ (by simp [served])
  refine ⟨t, pushed, (failed (.stated "no")).2 rfl ▸ stopped, ?_, length, appended, position⟩
  rw [called]
  rfl

end Scene

end Batch

end BatchPool
