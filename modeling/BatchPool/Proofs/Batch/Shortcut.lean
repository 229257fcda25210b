import BatchPool.Proofs.Batch.Simulation

/-!
# The shortcut for groups of one record

A batch of capacity one hands every record on as it comes, and never makes its buffer. Without this
shortcut it would put the record into the buffer and take it out again. Nobody can tell the
difference: handlers get the same groups at the same moments, and the same is seen of the batch.

* `Batch.pushBuffered`: the step of a push without the shortcut.
* `Similar`: what the two ways lead to. One buffer may be missing where the other one is empty.
* `Similar.push`, `Similar.flush`: calls keep batches similar; `shortcut_unseen`: so does everything
  that can be done.
-/

namespace BatchPool

namespace Batch

variable {α H : Type}

/-- The step of a push as if no capacity was special: every record is buffered, and the buffer is
taken out once it is full. -/
def pushBuffered (b : Batch α H) (record : α) : Effect α H × Batch α H :=
  match b.handlers with
  | none => (.refused, b)
  | some hs =>
    let items := b.records ++ [record]
    if items.length < b.capacity then (.kept, { b with buffer := some items })
    else (.taken hs.push items, { b with buffer := some [] })

/-! ## Batches -/

theorem push_of_some {b : Batch α H} {hs : Handlers H} (h : b.handlers = some hs) (record : α) :
    b.push record =
      if b.capacity = 1 then (.taken hs.push [record], b) else b.pushBuffered record := by
  rw [push, pushBuffered, h]

theorem pushBuffered_of_some {b : Batch α H} {hs : Handlers H} (h : b.handlers = some hs)
    (record : α) :
    b.pushBuffered record =
      if (b.records ++ [record]).length < b.capacity then
        (.kept, { b with buffer := some (b.records ++ [record]) })
      else (.taken hs.push (b.records ++ [record]), { b with buffer := some [] }) := by
  rw [pushBuffered, h]

theorem flush_of_some {b : Batch α H} {hs : Handlers H} (h : b.handlers = some hs) :
    b.flush =
      if b.records = [] then (.kept, b)
      else (.taken hs.flush b.records, { b with buffer := some [] }) := by
  rw [flush, h]

/-- Two batches with the same records. A buffer may be missing where another one is empty; and no
records are kept by a batch of capacity one. -/
structure Similar (b b' : Batch α H) : Prop where
  capacity : b'.capacity = b.capacity
  handlers : b'.handlers = b.handlers
  records : b'.records = b.records
  single : b.capacity = 1 → b.records = []

namespace Similar

variable {b b' : Batch α H}

theorem refl (b : Batch α H) (single : b.capacity = 1 → b.records = []) : Similar b b :=
  ⟨rfl, rfl, rfl, single⟩

theorem view (h : Similar b b') : b'.view = b.view := by
  have position : b'.position = b.position := congrArg List.length h.records
  have initialized : b'.isInitialized = b.isInitialized := congrArg Option.isSome h.handlers
  delta Batch.view debug
  rw [position, initialized, h.capacity]

/-- A push does the same with and without the shortcut. -/
theorem push (h : Similar b b') (record : α) :
    (b'.pushBuffered record).1 = (b.push record).1 ∧
      Similar (b.push record).2 (b'.pushBuffered record).2 := by
  cases handlers : b.handlers with
  | none =>
    rw [push_uninitialized handlers, pushBuffered, h.handlers, handlers]
    exact ⟨rfl, h⟩
  | some hs =>
    rw [push_of_some handlers, pushBuffered_of_some (h.handlers.trans handlers), h.records,
      h.capacity]
    by_cases one : b.capacity = 1
    · -- the one record is a full group, and no other one was buffered
      have empty := h.single one
      have full : ¬([] ++ [record]).length < b.capacity := by simp [one]
      rw [empty, if_pos one, if_neg full]
      exact ⟨rfl, rfl, h.handlers, empty.symm, h.single⟩
    · rw [if_neg one, pushBuffered_of_some handlers]
      by_cases more : (b.records ++ [record]).length < b.capacity
      · rw [if_pos more, if_pos more]
        exact ⟨rfl, rfl, h.handlers, rfl, fun eq => absurd eq one⟩
      · rw [if_neg more, if_neg more]
        exact ⟨rfl, rfl, h.handlers, rfl, fun _ => rfl⟩

theorem flush (h : Similar b b') : b'.flush.1 = b.flush.1 ∧ Similar b.flush.2 b'.flush.2 := by
  cases handlers : b.handlers with
  | none =>
    rw [flush_uninitialized handlers, flush_uninitialized (h.handlers.trans handlers)]
    exact ⟨rfl, h⟩
  | some hs =>
    rw [flush_of_some handlers, flush_of_some (h.handlers.trans handlers), h.records]
    by_cases empty : b.records = []
    · rw [if_pos empty, if_pos empty]
      exact ⟨rfl, h⟩
    · rw [if_neg empty, if_neg empty]
      exact ⟨rfl, h.capacity, h.handlers, rfl, fun _ => rfl⟩

end Similar

/-- A batch with the shortcut and one without go in step. -/
theorem inStep_similar : InStep (@Batch.push α H) pushBuffered Similar where
  view h := h.view
  push h := h.push
  flush h := h.flush
  init _ _ _ := ⟨rfl, rfl, rfl, fun _ => rfl⟩

/-- **Nobody can see the shortcut**: whatever is done, it comes to the same, the same happens
meanwhile, and the batches have the same records. -/
theorem shortcut_unseen :
    (∀ (σ β : Type) (handlers : H → List α → Code α σ Outcome) (depth : Nat)
        (actions : List (Action α H σ β)) (world : σ),
      ∃ values c d world',
        Scene.perform Calls.move? handlers depth actions ⟨{}, world⟩ = (values, ⟨c, world'⟩) ∧
        Scene.perform (Calls.moveBy? pushBuffered) handlers depth actions ⟨{}, world⟩ =
          (values, ⟨d, world'⟩) ∧
        Calls.Follows Similar [] c d) ∧
      ∀ moves : List (Calls.Move α H), Option.Rel (Calls.Follows Similar [])
        (moves.foldlM Calls.move? {}) (moves.foldlM (Calls.moveBy? pushBuffered) {}) := by
  have start : Calls.Follows Similar [] ({} : Calls α H) {} := ⟨.refl _ nofun, rfl, rfl⟩
  have simulates := (@inStep_similar α H).simulates []
  rw [Calls.moveBy?_push] at simulates
  refine ⟨?_, simulates.moves start⟩
  intro σ β handlers depth actions world
  exact simulates.perform handlers depth actions {} {} world start

end Batch

end BatchPool
