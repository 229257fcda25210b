import BatchPool.Proofs.Batch.Conservation

/-!
# What the calls of a batch come to

A call that takes a group out comes to what the handler of the group comes to. The calls of a thread
return in turn, so that each reply belongs to the group that the thread took out last.

* `Calls.results`: the replies of a thread, each with the group that its call took out.
* `Calls.holding`: the groups whose handlers are still to be called, and `Calls.groups_perm`: the
  other groups went to their handlers.
-/

namespace BatchPool

namespace Batch

open scoped List

variable {α H : Type}

/-- The group of a call whose handler is still to be called. -/
def Frame.held? : Frame α H → Option (List α)
  | .holding _ group => some group
  | .serving _ _ => none

/-- The group that a thread took out since its last reply, by what happened, the newest first. -/
def pendingIn (thread : Nat) : List (Event α H) → Option (List α)
  | [] => none
  | .taken t _ group :: older => if t = thread then some group else pendingIn thread older
  | .returned t _ :: older => if t = thread then none else pendingIn thread older
  | _ :: older => pendingIn thread older

/-- The replies of a thread with the groups of their calls, by what happened, the newest first. -/
def resultsIn (thread : Nat) : List (Event α H) → List (Option (List α) × Reply)
  | [] => []
  | .returned t reply :: older =>
    if t = thread then (pendingIn thread older, reply) :: resultsIn thread older
    else resultsIn thread older
  | _ :: older => resultsIn thread older

namespace Calls

/-- The group that a thread took out since its last reply. -/
def pending (c : Calls α H) (thread : Nat) : Option (List α) := pendingIn thread c.history

/-- The replies of a thread, each with the group that its call took out, if it took one. -/
def results (c : Calls α H) (thread : Nat) : List (Option (List α) × Reply) :=
  (resultsIn thread c.history).reverse

/-- The groups whose handlers are still to be called. -/
def holding (c : Calls α H) : List (List α) :=
  c.callStacks.flatMap fun s => s.2.filterMap Frame.held?

variable {hs : Handlers H} {c d : Calls α H} {m : Move α H} {thread : Nat}

/-! ## Replies -/

theorem pending_note (c : Calls α H) (e : Event α H) (thread : Nat) :
    (c.note e).pending thread =
      match e with
      | .taken t _ group => if t = thread then some group else c.pending thread
      | .returned t _ => if t = thread then none else c.pending thread
      | _ => c.pending thread := by
  cases e <;> rfl

theorem results_note (c : Calls α H) (e : Event α H) (thread : Nat) :
    (c.note e).results thread =
      match e with
      | .returned t reply =>
        if t = thread then c.results thread ++ [(c.pending thread, reply)] else c.results thread
      | _ => c.results thread := by
  cases e with
  | returned t reply =>
    by_cases same : t = thread
    · simp [results, note, resultsIn, same, pending]
    · simp [results, note, resultsIn, same]
  | _ => rfl

@[simp] theorem pending_batch (c : Calls α H) (b : Batch α H) (thread : Nat) :
    { c with batch := b }.pending thread = c.pending thread := rfl

@[simp] theorem results_batch (c : Calls α H) (b : Batch α H) (thread : Nat) :
    { c with batch := b }.results thread = c.results thread := rfl

@[simp] theorem pending_setStack (c : Calls α H) (t : Nat) (frames : List (Frame α H))
    (thread : Nat) : (c.setStack t frames).pending thread = c.pending thread := rfl

@[simp] theorem results_setStack (c : Calls α H) (t : Nat) (frames : List (Frame α H))
    (thread : Nat) : (c.setStack t frames).results thread = c.results thread := rfl

/-- A move leaves the replies to the other threads as they are. -/
theorem Moves.results_frame (hm : Moves hs c m d) (other : m.caller? ≠ some thread) :
    d.pending thread = c.pending thread ∧ d.results thread = c.results thread := by
  cases hm with
  | @keep caller | @pass caller | @fill caller | @drain caller | @enter caller | @leave caller =>
    have ne : caller ≠ thread := fun h => other (h ▸ rfl)
    simp [pending_note, results_note, ne]

/-! ## Groups in hand -/

/-- The groups of the calls of all threads are those of one thread and those of the others. -/
theorem flatMap_callStacks {β : Type} (f : List (Frame α H) → List β) (nil : f [] = [])
    {l : List (Nat × List (Frame α H))} (nodup : (l.map (·.1)).Nodup) (thread : Nat) :
    l.flatMap (fun s => f s.2) ~
      f ((l.lookup thread).getD []) ++ (l.filter fun s => s.1 != thread).flatMap fun s => f s.2 := by
  induction l with
  | nil => simp [nil]
  | cons s rest ih =>
    obtain ⟨t, frames⟩ := s
    simp only [List.map_cons, List.nodup_cons] at nodup
    by_cases same : thread = t
    · subst same
      have others : (rest.filter fun s => s.1 != thread) = rest := by
        refine List.filter_eq_self.2 fun s hs => ?_
        have : s.1 ≠ thread := fun h => nodup.1 (h ▸ List.mem_map_of_mem hs)
        simpa using this
      simp [others]
    · have other : (thread == t) = false := by simpa using same
      have kept : (t != thread) = true := by simpa using Ne.symm same
      simp only [List.lookup_cons, other, List.filter_cons, kept, if_true, List.flatMap_cons]
      refine ((ih nodup.2).append_left _).trans ?_
      rw [← List.append_assoc, ← List.append_assoc]
      exact List.perm_append_comm.append_right _

theorem nodup_setStack (nodup : (c.callStacks.map (·.1)).Nodup) (frames : List (Frame α H)) :
    ((c.setStack thread frames).callStacks.map (·.1)).Nodup := by
  have others : ((c.callStacks.filter fun s => s.1 != thread).map (·.1)).Nodup :=
    nodup.sublist (List.filter_sublist.map _)
  unfold setStack
  cases frames with
  | nil => exact others
  | cons f rest =>
    simp only [List.isEmpty_cons, Bool.false_eq_true, if_false, List.map_cons, List.nodup_cons]
    exact ⟨by simp, others⟩

/-- The groups in hand after a thread's calls changed. -/
theorem holding_setStack (thread : Nat) (nodup : (c.callStacks.map (·.1)).Nodup)
    (frames : List (Frame α H)) :
    (c.setStack thread frames).holding ++ (c.stack thread).filterMap Frame.held? ~
      c.holding ++ frames.filterMap Frame.held? := by
  have before := flatMap_callStacks (fun frames => frames.filterMap Frame.held?) rfl nodup thread
  have after : (c.setStack thread frames).holding = frames.filterMap Frame.held? ++
      (c.callStacks.filter fun s => s.1 != thread).flatMap fun s => s.2.filterMap Frame.held? := by
    cases frames <;> simp [holding, setStack]
  rw [after, List.append_assoc]
  exact List.perm_append_comm.trans
    (List.Perm.append_right _ (List.perm_append_comm.trans before.symm))

/-- A thread takes a group into its hands. -/
theorem holding_take (thread : Nat) (nodup : (c.callStacks.map (·.1)).Nodup) (handler : H)
    (group : List α) :
    (c.setStack thread (.holding handler group :: c.stack thread)).holding ~
      c.holding ++ [group] := by
  have law := holding_setStack thread nodup (.holding handler group :: c.stack thread)
  rw [List.filterMap_cons, Frame.held?, List.append_cons] at law
  exact (List.perm_append_right_iff _).1 law

@[simp] theorem holding_note (c : Calls α H) (e : Event α H) : (c.note e).holding = c.holding := rfl

@[simp] theorem holding_batch (c : Calls α H) (b : Batch α H) :
    { c with batch := b }.holding = c.holding := rfl

@[simp] theorem callStacks_note (c : Calls α H) (e : Event α H) :
    (c.note e).callStacks = c.callStacks := rfl

theorem Moves.callStacks_nodup (hm : Moves hs c m d) (nodup : (c.callStacks.map (·.1)).Nodup) :
    (d.callStacks.map (·.1)).Nodup := by
  cases hm with
  | keep | pass => exact nodup
  | fill | drain | enter | leave =>
    rw [callStacks_note]
    exact nodup_setStack nodup _

/-- A group that is taken out is in hand until its handler is called. -/
theorem Moves.holding_law (hm : Moves hs c m d) (nodup : (c.callStacks.map (·.1)).Nodup) :
    ∃ taken, d.taken = c.taken ++ taken ∧
      d.holding ++ (c.entered m).map (·.group) ~ c.holding ++ taken.map (·.group) := by
  simp only [Calls.taken]
  cases hm with
  | keep | pass => exact ⟨[], by simp [events_note, Event.taken?], by simp [entered]⟩
  | @fill t record b =>
    refine ⟨[⟨t, hs.push, c.batch.records ++ [record]⟩], by simp [events_note, Event.taken?], ?_⟩
    have law := holding_take (c := { c with batch := b }.note (.appended t record)) t nodup hs.push
      (c.batch.records ++ [record])
    simpa [entered] using law
  | @drain t b =>
    refine ⟨[⟨t, hs.flush, c.batch.records⟩], by simp [events_note, Event.taken?], ?_⟩
    have law := holding_take (c := { c with batch := b }) t nodup hs.flush c.batch.records
    simpa [entered] using law
  | @enter t handler group rest holding =>
    refine ⟨[], by simp [events_note, Event.taken?], ?_⟩
    have law := holding_setStack t nodup (.serving handler group :: rest)
    simp only [holding, List.filterMap_cons, Frame.held?] at law
    rw [List.append_cons, List.perm_append_right_iff] at law
    simpa [entered, inHand, holding] using law
  | @leave t outcome handler group rest serving =>
    refine ⟨[], by simp [events_note, Event.taken?], ?_⟩
    have law := holding_setStack t nodup rest
    simp only [serving, List.filterMap_cons, Frame.held?, List.perm_append_right_iff] at law
    simpa [entered] using law

/-- Every thread is listed once, and a group that was taken out is in hand, or its handler was
called with it. -/
structure Delivered (c : Calls α H) : Prop where
  threads : (c.callStacks.map (·.1)).Nodup
  groups : c.taken.map (·.group) ~ c.called.map (·.group) ++ c.holding

theorem Delivered.next (h : c.Delivered) (hm : Moves hs c m d) : d.Delivered where
  threads := hm.callStacks_nodup h.threads
  groups := by
    obtain ⟨taken, all, law⟩ := hm.holding_law h.threads
    rw [all, hm.called_eq, List.map_append, List.map_append]
    calc c.taken.map (·.group) ++ taken.map (·.group)
      _ ~ c.called.map (·.group) ++ (c.holding ++ taken.map (·.group)) := by
          rw [← List.append_assoc]
          exact h.groups.append_right _
      _ ~ c.called.map (·.group) ++ (d.holding ++ (c.entered m).map (·.group)) :=
          law.symm.append_left _
      _ ~ c.called.map (·.group) ++ (c.entered m).map (·.group) ++ d.holding := by
          rw [List.append_assoc]
          exact List.perm_append_comm.append_left _

theorem Delivered.of_run {capacity : Nat} {moves : List (Move α H)} (h : c.Delivered)
    (conserved : c.Conserved capacity hs) (calls : ∀ m ∈ moves, m.caller? ≠ none)
    (hr : c.run? moves = some d) : d.Delivered := by
  induction moves generalizing c with
  | nil =>
    cases hr
    exact h
  | cons m rest ih =>
    simp only [run?] at hr
    split at hr
    · next e he =>
      have hm := conserved.of_move? (calls m List.mem_cons_self) he
      exact ih (h.next hm) (conserved.next hm) (fun m hm => calls m (List.mem_cons_of_mem _ hm)) hr
    · cases hr

/-! ## Flushes -/

/-- A flush begins by the move. -/
def Move.flushes : Move α H → Bool
  | .flush _ => true
  | _ => false

/-- Only a flush takes out a group that is not full. -/
theorem Moves.partial_next {capacity : Nat} (hm : Moves hs c m d)
    (full : c.batch.capacity = capacity) :
    (d.taken.filter fun x => x.group.length ≠ capacity).length ≤
      (c.taken.filter fun x => x.group.length ≠ capacity).length + m.flushes.toNat := by
  simp only [Calls.taken]
  cases hm with
  | @fill _ record _ _ _ last =>
    have size : (c.batch.records ++ [record]).length = capacity := by
      rw [List.length_append, List.length_singleton, ← full]
      exact last
    simp only [List.length_append, List.length_singleton] at size
    simp [events_note, Event.taken?, size]
  | @drain t =>
    simp only [events_note, events_setStack, events_batch, Event.taken?, Option.toList_some,
      List.filter_append, List.length_append, Move.flushes, Bool.toNat_true]
    exact Nat.add_le_add_left (List.length_filter_le _ _) _
  | _ => simp [events_note, Event.taken?]

/-- A flush leaves an empty buffer, and only a push fills it again. -/
theorem Moves.records_nil (hm : Moves hs c m d)
    (empty : m.flushes = true ∨ m.pushed? = none ∧ c.batch.records = []) :
    d.batch.records = [] := by
  cases hm with
  | keep | fill => simp [Move.flushes, Move.pushed?] at empty
  | pass _ _ _ records | drain _ _ _ records => exact records
  | enter | leave => simpa [Move.flushes, Move.pushed?] using empty

end Calls

end Batch

end BatchPool
