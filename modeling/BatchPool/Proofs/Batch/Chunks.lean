import BatchPool.Proofs.Batch.Results

/-!
# The groups of one thread

If one thread pushes all records of a list and then flushes, the groups are the parts of the list.

* `chunks`: the parts of a list, all of one size except for the last one; `exists_parts`: the full ones
  and what is left.
* `Calls.Moves.chunks_next`: the groups that were taken out, and the parts of what is buffered and what
  is still to be pushed, stay the same.
* `Calls.Alone`: only one thread is in calls.
-/

namespace BatchPool

namespace Batch

variable {α H : Type}

/-- The parts of a list, of the given size, except for the last one, which may be smaller. -/
def chunks (size : Nat) (l : List α) : List (List α) :=
  (List.range ((l.length + size - 1) / size)).map fun i => (l.drop (i * size)).take size

variable {size : Nat} {l group : List α}

@[simp] theorem length_chunks : (chunks size l).length = (l.length + size - 1) / size := by
  simp [chunks]

theorem chunks_nil (pos : 0 < size) : chunks size ([] : List α) = [] :=
  List.eq_nil_of_length_eq_zero (by simp [Nat.div_eq_zero_iff]; omega)

theorem chunks_append (pos : 0 < size) (full : group.length = size) (rest : List α) :
    chunks size (group ++ rest) = group :: chunks size rest := by
  have count : ((group ++ rest).length + size - 1) / size =
      (rest.length + size - 1) / size + 1 := by
    rw [List.length_append, full, ← Nat.add_div_right _ pos]
    congr 1
    omega
  have first : ((group ++ rest).drop (0 * size)).take size = group := by simp [← full]
  have later : ∀ i, (group ++ rest).drop ((i + 1) * size) = rest.drop (i * size) := by
    intro i
    rw [Nat.add_mul, Nat.one_mul, Nat.add_comm, ← List.drop_drop, ← full, List.drop_left]
  simp only [chunks, count, List.range_succ_eq_map, List.map_cons, List.map_map, first,
    Function.comp_def, Nat.succ_eq_add_one, later]

theorem chunks_of_le (some : l ≠ []) (small : l.length ≤ size) : chunks size l = [l] := by
  have pos := List.length_pos_iff.2 some
  have count : (l.length + size - 1) / size = 1 := Nat.div_eq_of_lt_le (by omega) (by omega)
  simp [chunks, count, List.take_of_length_le small]

/-- The parts of a list are its full groups, and then what is left, if anything is. -/
theorem exists_parts (pos : 0 < size) (l : List α) :
    ∃ full rest, (∀ group ∈ full, group.length = size) ∧ rest.length < size ∧
      full.flatten ++ rest = l ∧ chunks size l = full ++ if rest = [] then [] else [rest] := by
  induction h : l.length using Nat.strongRecOn generalizing l with
  | _ n ih =>
    subst h
    by_cases small : l.length < size
    · refine ⟨[], l, by simp, small, rfl, ?_⟩
      by_cases empty : l = []
      · simp [empty, chunks_nil pos]
      · simp [empty, chunks_of_le empty (Nat.le_of_lt small)]
    · have smaller : (l.drop size).length < l.length := by
        rw [List.length_drop]
        omega
      have first : (l.take size).length = size := List.length_take_of_le (by omega)
      obtain ⟨full, rest, sizes, short, whole, parts⟩ := ih _ smaller _ rfl
      refine ⟨l.take size :: full, rest, ?_, short, ?_, ?_⟩
      · simpa [first] using sizes
      · rw [List.flatten_cons, List.append_assoc, whole, List.take_append_drop]
      · rw [List.cons_append, ← parts, ← chunks_append pos first, List.take_append_drop]

/-- The parts of a list make up the list. -/
theorem flatten_chunks (pos : 0 < size) (l : List α) : (chunks size l).flatten = l := by
  obtain ⟨full, rest, -, -, whole, parts⟩ := exists_parts pos l
  rw [parts, List.flatten_append, ← whole]
  by_cases empty : rest = [] <;> simp [empty]

namespace Calls

variable {hs : Handlers H} {c d : Calls α H} {m : Move α H} {thread : Nat}

/-- **What is taken out, and the parts of what is not, stay the same**, if a flush comes when nothing
is to be pushed any more. -/
theorem Moves.chunks_next {before after : List α} (hm : Moves hs c m d)
    (full : c.batch.capacity = size) (room : c.batch.position < size)
    (pushed : m.pushed?.toList ++ after = before) (last : m.flushes = true → before = []) :
    d.taken.map (·.group) ++ chunks size (d.batch.records ++ after) =
      c.taken.map (·.group) ++ chunks size (c.batch.records ++ before) := by
  have pos : 0 < size := Nat.zero_lt_of_lt room
  subst pushed
  simp only [Calls.taken]
  cases hm with
  | keep _ _ _ records => simp [events_note, Event.taken?, records, Move.pushed?]
  | @fill _ record _ _ _ whole records =>
    have size : (c.batch.records ++ [record]).length = size := by
      rw [List.length_append, ← full]
      exact whole
    have parts := chunks_append pos size after
    simp [events_note, Event.taken?, records, Move.pushed?] at parts ⊢
    exact parts.symm
  | pass _ _ empty records =>
    simp [events_note, Event.taken?, records, empty, Move.pushed?]
  | drain _ _ some records =>
    obtain rfl : after = [] := last rfl
    have parts := chunks_of_le some (Nat.le_of_lt room)
    simp [events_note, Event.taken?, records, Move.pushed?, chunks_nil pos, parts]
  | enter | leave => simp [events_note, Event.taken?, Move.pushed?]

/-! ## One thread -/

/-- Only the given thread is in calls. -/
def Alone (thread : Nat) (c : Calls α H) : Prop := ∀ s ∈ c.callStacks, s.1 = thread

theorem Alone.next (h : c.Alone thread) (hm : Moves hs c m d) (mine : m.caller? = some thread) :
    d.Alone thread := by
  have set : ∀ (c' : Calls α H) frames, c'.callStacks = c.callStacks →
      ∀ s ∈ (c'.setStack thread frames).callStacks, s.1 = thread := by
    intro c' frames same s hs
    unfold setStack at hs
    rw [same] at hs
    dsimp only at hs
    split at hs
    · exact h s (List.mem_filter.1 hs).1
    · obtain rfl | old := List.mem_cons.1 hs
      · rfl
      · exact h s (List.mem_filter.1 old).1
  cases hm with
  | keep | pass => exact h
  | fill | drain | enter | leave =>
    cases mine
    rw [Alone, callStacks_note]
    exact set _ _ rfl

theorem Alone.stack_eq_nil {other : Nat} (h : c.Alone thread) (ne : other ≠ thread) :
    c.stack other = [] := by
  have none : c.callStacks.lookup other = none :=
    List.lookup_eq_none_iff.2 fun s hs => by simpa [h s hs] using ne
  rw [stack, none, Option.getD_none]

/-- When the thread has returned, all handlers were called. -/
theorem Alone.groups_perm (h : c.Alone thread) (delivered : c.Delivered)
    (returned : c.stack thread = []) : (c.taken.map (·.group)).Perm (c.called.map (·.group)) := by
  have none : c.holding = [] := by
    have others : (c.callStacks.filter fun s => s.1 != thread) = [] :=
      List.filter_eq_nil_iff.2 fun s hs => by simp [h s hs]
    have all := flatMap_callStacks (fun frames => frames.filterMap Frame.held?) rfl
      delivered.threads thread
    rw [show (c.callStacks.lookup thread).getD [] = [] from returned, others] at all
    exact all.eq_nil
  have groups := delivered.groups
  rwa [none, List.append_nil] at groups

end Calls

end Batch

end BatchPool
