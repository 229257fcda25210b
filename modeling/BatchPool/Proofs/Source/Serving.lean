import BatchPool.Proofs.Batch.Chunks
import BatchPool.Source
import Mathlib.Data.List.Induction

/-!
# What sources serve

A source serves the groups of its content from the first one on, until the function that gets them
refuses one. It can be passed over again, cloned, and finalized; a finalized source serves nothing.

* `Source.numbered`: the groups of a list, each with where it stands in the whole; `Source.Cut` says how
  a list is cut into such groups (`Source.cut_numbered`).
* `Source.Takes`: a function takes groups one after another. `Source.serve_ends`: it takes all of them,
  or serving stops right behind the first one that it refuses.
* `Shelf`: a source with its clones, which are called in any order, and the world around them.
* `Shelf.Released`: a source was finalized, or it is a clone of one that was. `Shelf.Kept`: no other
  source is finalized, and all of them have the content of the first one.
* `Source.Serves`: what follows for the sources of a shelf, whatever was done with them before.
-/

namespace BatchPool

namespace Source

variable {α ε σ : Type}

/-! ## Groups -/

/-- The groups of a list, each with where it stands in the whole, the first of them being number
`index`. -/
def numberedFrom (size total index : Nat) (groups : List (List α)) : List (List α × GroupInfo) :=
  (groups.zipIdx index).map fun g => (g.1, { index := g.2, groupSize := size, total := total })

/-- The groups of a list, each with where it stands in the whole. -/
def numbered (size : Nat) (content : List α) : List (List α × GroupInfo) :=
  numberedFrom size content.length 0 (chunks size content)

/-- How a list is cut into groups of a size. -/
structure Cut (content : List α) (size : Nat) (groups : List (List α × GroupInfo)) : Prop where
  /-- They make up the list. -/
  whole : (groups.map (·.1)).flatten = content
  /-- There are as many as it takes, and none for an empty list. -/
  count : groups.length = (content.length + size - 1) / size
  empty : content = [] → groups = []
  /-- All but the last one are full, and the last one has at least one item. -/
  full : ∀ (k : Nat) (g : List α × GroupInfo), groups[k]? = some g → k + 1 < groups.length →
    g.1.length = size
  filled : ∀ g ∈ groups, 1 ≤ g.1.length ∧ g.1.length ≤ size
  /-- Each says which one it is, how large a full one is, and how many items there are. -/
  info : ∀ (k : Nat) (g : List α × GroupInfo), groups[k]? = some g →
    g.2 = { index := k, groupSize := size, total := content.length }

variable {size total index : Nat} {content : List α} {groups rest : List (List α)} {group : List α}

theorem chunks_eq (pos : 0 < size) (content : List α) :
    chunks size content = Batch.chunks size content := by
  fun_induction chunks size content with
  | case1 content h =>
    obtain rfl : content = [] := h.resolve_left (by omega)
    exact (Batch.chunks_nil pos).symm
  | case2 content h ih =>
    rw [not_or] at h
    by_cases large : size ≤ content.length
    · have first : (content.take size).length = size := List.length_take_of_le large
      rw [ih, ← Batch.chunks_append pos first, List.take_append_drop]
    · have small : content.length ≤ size := by omega
      rw [Batch.chunks_of_le h.2 small, List.take_of_length_le small, List.drop_of_length_le small,
        chunks_nil]

theorem numberedFrom_cons :
    numberedFrom size total index (group :: rest) =
      (group, { index := index, groupSize := size, total := total }) ::
        numberedFrom size total (index + 1) rest := rfl

theorem map_fst_numbered (size : Nat) (content : List α) :
    (numbered size content).map (·.1) = chunks size content := by
  simp [numbered, numberedFrom, Function.comp_def]

theorem length_numbered (size : Nat) (content : List α) :
    (numbered size content).length = (chunks size content).length := by
  rw [← map_fst_numbered, List.length_map]

theorem getElem?_numbered {k : Nat} {g : List α × GroupInfo}
    (here : (numbered size content)[k]? = some g) :
    (chunks size content)[k]? = some g.1 ∧
      g.2 = { index := k, groupSize := size, total := content.length } := by
  simp only [numbered, numberedFrom, List.getElem?_map, List.getElem?_zipIdx, Option.map_map,
    Option.map_eq_some_iff, Function.comp_apply, Nat.zero_add] at here
  obtain ⟨group, found, rfl⟩ := here
  exact ⟨found, rfl⟩

/-- **The groups of a list are cut from it.** -/
theorem cut_numbered (pos : 0 < size) (content : List α) : Cut content size (numbered size content) := by
  obtain ⟨full, rest, sizes, short, -, parts⟩ := Batch.exists_parts pos content
  rw [← chunks_eq pos] at parts
  exact {
    whole := by
      rw [map_fst_numbered, chunks_eq pos, Batch.flatten_chunks pos]
    count := by
      rw [length_numbered, chunks_eq pos, Batch.length_chunks]
    empty := by
      rintro rfl
      rw [numbered, chunks_nil]
      rfl
    full := by
      intro k g here more
      obtain ⟨found, -⟩ := getElem?_numbered here
      rw [length_numbered, parts] at more
      rw [parts] at found
      -- it stands before the last one, so it is one of the full ones
      have before : k < full.length := by
        rw [List.length_append] at more
        split at more <;> simp at more <;> omega
      rw [List.getElem?_append_left before] at found
      exact sizes _ (List.mem_of_getElem? found)
    filled := by
      intro g hg
      have found : g.1 ∈ chunks size content := by
        rw [← map_fst_numbered]
        exact List.mem_map_of_mem hg
      rw [parts, List.mem_append] at found
      rcases found with found | found
      · have := sizes _ found
        omega
      · split at found
        · cases found
        · next some =>
          obtain rfl := List.mem_singleton.1 found
          have := List.length_pos_iff.2 some
          omega
    info := fun k g here => (getElem?_numbered here).2 }

/-! ## Passes -/

/-- A function takes groups one after another, and leaves a world behind. -/
inductive Takes (f : List α → GroupInfo → StateM σ (Except ε Unit)) :
    σ → List (List α × GroupInfo) → σ → Prop where
  | nil (w : σ) : Takes f w [] w
  | cons {w w' w'' : σ} {group : List α} {info : GroupInfo} {rest : List (List α × GroupInfo)}
      (here : (f group info).run w = (.ok (), w')) (later : Takes f w' rest w'') :
    Takes f w ((group, info) :: rest) w''

/-- How a pass over groups ends: the function has taken all of them, or it has taken those before one
that it refuses. -/
def Ends (f : List α → GroupInfo → StateM σ (Except ε Unit)) (groups : List (List α × GroupInfo))
    (w : σ) (ended : Pass ε × σ) : Prop :=
  (ended.1 = .complete ∧ Takes f w groups ended.2) ∨
    ∃ before g later w' reason, groups = before ++ g :: later ∧ Takes f w before w' ∧
      (f g.1 g.2).run w' = (.error reason, ended.2) ∧ ended.1 = .stopped reason

variable {f : List α → GroupInfo → StateM σ (Except ε Unit)} {w w' : σ} {source : Source α}

theorem run_serve_cons (f : List α → GroupInfo → StateM σ (Except ε Unit)) (group : List α)
    (rest : List (List α)) (w : σ) :
    (serve size total f index (group :: rest)).run w =
      match (f group { index := index, groupSize := size, total := total }).run w with
      | (.ok (), w') => (serve size total f (index + 1) rest).run w'
      | (.error reason, w') => (.stopped reason, w') := by
  rw [serve, StateT.run_bind]
  cases (f group { index := index, groupSize := size, total := total }).run w with
  | mk result w' => cases result <;> rfl

/-- **Serving ends behind the last group, or right behind the first one that is refused.** -/
theorem serve_ends (f : List α → GroupInfo → StateM σ (Except ε Unit)) (size total index : Nat)
    (groups : List (List α)) (w : σ) :
    Ends f (numberedFrom size total index groups) w
      ((serve size total f index groups).run w) := by
  induction groups generalizing index w with
  | nil => exact .inl ⟨rfl, .nil w⟩
  | cons group rest ih =>
    rw [run_serve_cons, numberedFrom_cons]
    cases here : (f group { index := index, groupSize := size, total := total }).run w with
    | mk result w' =>
      cases result with
      | error reason => exact .inr ⟨[], _, _, w, reason, rfl, .nil w, here, rfl⟩
      | ok _ =>
        rcases ih (index + 1) w' with
          ⟨complete, taken⟩ | ⟨before, g, later, w'', reason, split, taken, bad, stopped⟩
        · exact .inl ⟨complete, .cons here taken⟩
        · refine .inr ⟨_ :: before, g, later, w'', reason, ?_, .cons here taken, bad, stopped⟩
          rw [split, List.cons_append]

end Source

/-! ## A source and its clones -/

/-- Sources, by their numbers, and the world around them. -/
structure Shelf (α σ : Type) where
  sources : List (Source α)
  world : σ

namespace Shelf

variable {α ε σ : Type}

/-- A call of one of the sources. -/
inductive Call (α ε σ : Type) where
  | pass (on : Nat) (f : List α → GroupInfo → StateM σ (Except ε Unit))
  | clone (on : Nat)
  | finalize (on : Nat)

/-- The call makes a clone. -/
def Call.clones : Call α ε σ → Bool
  | clone _ => true
  | _ => false

/-- What a call of a source comes to: how the pass ended, if it is one, and the shelf behind it. -/
def call? (s : Shelf α σ) : Call α ε σ → Option (Option (Pass ε) × Shelf α σ)
  | .pass on f => s.sources[on]?.map fun source =>
    (some ((source.pass f).run s.world).1, { s with world := ((source.pass f).run s.world).2 })
  | .clone on => s.sources[on]?.map fun source =>
    (none, { s with sources := s.sources ++ [source] })
  | .finalize on => s.sources[on]?.map fun source =>
    (none, { s with sources := s.sources.set on source.finalize })

/-- The shelf after calls of sources that are there. -/
def run? (s : Shelf α σ) (calls : List (Call α ε σ)) : Option (Shelf α σ) :=
  calls.foldlM (fun s c => (s.call? c).map (·.2)) s

variable {s t u : Shelf α σ} {calls : List (Call α ε σ)} {c : Call α ε σ}
  {ended : Option (Pass ε)} {content : List α} {size on : Nat}

/-- What holds at the start and is kept by every call holds after all calls. -/
theorem run_induction {motive : List (Call α ε σ) → Shelf α σ → Prop} (start : motive [] s)
    (next : ∀ calls t c ended u, motive calls t → t.call? c = some (ended, u) →
      motive (calls ++ [c]) u)
    (h : s.run? calls = some t) : motive calls t := by
  induction calls using List.reverseRecOn generalizing t with
  | nil =>
    cases h
    exact start
  | append_singleton calls c ih =>
    rw [run?, List.foldlM_append] at h
    obtain ⟨v, before, last⟩ := Option.bind_eq_some_iff.1 h
    rw [List.foldlM_cons] at last
    obtain ⟨u, made, same⟩ := Option.bind_eq_some_iff.1 last
    cases same
    obtain ⟨⟨ended, u⟩, called, rfl⟩ := Option.map_eq_some_iff.1 made
    exact next calls v c ended u (ih before) called

/-- **What a call does to the sources**: a pass leaves them as they are. -/
theorem sources_call (h : s.call? c = some (ended, t)) :
    (∃ i f, c = .pass i f ∧ t.sources = s.sources) ∨
      (∃ i source, c = .clone i ∧ s.sources[i]? = some source ∧
        t.sources = s.sources ++ [source]) ∨
      ∃ i source, c = .finalize i ∧ s.sources[i]? = some source ∧
        t.sources = s.sources.set i source.finalize := by
  cases c with
  | pass i f =>
    obtain ⟨source, -, same⟩ := Option.map_eq_some_iff.1 h
    cases same
    exact .inl ⟨i, f, rfl, rfl⟩
  | clone i =>
    obtain ⟨source, here, same⟩ := Option.map_eq_some_iff.1 h
    cases same
    exact .inr (.inl ⟨i, source, rfl, here, rfl⟩)
  | finalize i =>
    obtain ⟨source, here, same⟩ := Option.map_eq_some_iff.1 h
    cases same
    exact .inr (.inr ⟨i, source, rfl, here, rfl⟩)

/-- A source was finalized by these calls, or it is a clone that was made of such a source. The source
that is there at the start has number zero, and the clones come behind it. -/
inductive Released : List (Call α ε σ) → Nat → Prop where
  | finalized {calls : List (Call α ε σ)} {on : Nat} : Released (calls ++ [.finalize on]) on
  | cloned {calls : List (Call α ε σ)} {on : Nat} (before : Released calls on) :
    Released (calls ++ [.clone on]) (calls.countP Call.clones + 1)
  | later {calls : List (Call α ε σ)} {c : Call α ε σ} {on : Nat} (before : Released calls on) :
    Released (calls ++ [c]) on

theorem not_released_nil : ¬Released ([] : List (Call α ε σ)) on := by
  intro h
  generalize none : ([] : List (Call α ε σ)) = calls at h
  cases h <;> simp at none

theorem released_append_iff : Released (calls ++ [c]) on ↔
    Released calls on ∨ c = .finalize on ∨
      ∃ i, c = .clone i ∧ Released calls i ∧ on = calls.countP Call.clones + 1 := by
  constructor
  · intro h
    generalize all : calls ++ [c] = both at h
    cases h with
    | finalized =>
      obtain ⟨-, last⟩ := List.append_inj' all rfl
      exact .inr (.inl (List.cons.inj last).1)
    | @cloned _ i before =>
      obtain ⟨rfl, last⟩ := List.append_inj' all rfl
      exact .inr (.inr ⟨i, (List.cons.inj last).1, before, rfl⟩)
    | later before =>
      obtain ⟨rfl, -⟩ := List.append_inj' all rfl
      exact .inl before
  · rintro (before | rfl | ⟨i, rfl, before, rfl⟩)
    · exact .later before
    · exact .finalized
    · exact .cloned before

/-- The sources of a shelf, after calls of the first one and its clones. -/
structure Kept (content : List α) (size : Nat) (calls : List (Call α ε σ)) (s : Shelf α σ) : Prop where
  count : s.sources.length = calls.countP Call.clones + 1
  same : ∀ (on : Nat) (source : Source α), s.sources[on]? = some source →
    source.items = content ∧ source.groupSize = size ∧ (source.finalized = true ↔ Released calls on)
  there : ∀ on, Released calls on → on < s.sources.length

theorem kept_start {start : Source α} (items : start.items = content) (groupSize : start.groupSize = size)
    (open_ : start.finalized = false) (w : σ) :
    Kept content size ([] : List (Call α ε σ)) { sources := [start], world := w } where
  count := rfl
  same := by
    intro on source here
    obtain rfl : source = start := List.mem_singleton.1 (List.mem_of_getElem? here)
    exact ⟨items, groupSize, by simp [open_, not_released_nil]⟩
  there := fun on h => absurd h not_released_nil

/-- A clone is like its source, released if that one is. -/
theorem Kept.clone {i : Nat} {source : Source α} (h : Kept content size calls s)
    (here : s.sources[i]? = some source) (sources : t.sources = s.sources ++ [source]) :
    Kept content size (calls ++ [.clone i]) t := by
  have released : ∀ on, Released (calls ++ [.clone i]) on ↔
      Released calls on ∨ Released calls i ∧ on = s.sources.length := by
    intro on
    simp [released_append_iff, h.count]
  refine ⟨by simp [sources, Call.clones, h.count], ?_, ?_⟩
  · intro on other found
    rw [sources] at found
    rw [released]
    by_cases old : on < s.sources.length
    · rw [List.getElem?_append_left old] at found
      obtain ⟨items, groupSize, finalized⟩ := h.same on other found
      refine ⟨items, groupSize, finalized.trans ?_⟩
      simp [Nat.ne_of_lt old]
    · -- this is the clone
      have new : on = s.sources.length := by
        have := (List.getElem?_eq_some_iff.1 found).1
        simp only [List.length_append, List.length_singleton] at this
        omega
      subst new
      rw [List.getElem?_concat_length, Option.some.injEq] at found
      subst found
      obtain ⟨items, groupSize, finalized⟩ := h.same i _ here
      refine ⟨items, groupSize, finalized.trans ?_⟩
      have unknown : ¬Released calls s.sources.length := fun before =>
        absurd (h.there _ before) (Nat.lt_irrefl _)
      simp [unknown]
  · intro on before
    rw [sources, List.length_append, List.length_singleton]
    rcases (released on).1 before with before | ⟨-, rfl⟩
    · have := h.there on before
      omega
    · omega

/-- A source that is finalized is released, and the others are as they were. -/
theorem Kept.finalize {i : Nat} {source : Source α} (h : Kept content size calls s)
    (here : s.sources[i]? = some source) (sources : t.sources = s.sources.set i source.finalize) :
    Kept content size (calls ++ [.finalize i]) t := by
  have bound : i < s.sources.length := (List.getElem?_eq_some_iff.1 here).1
  have released : ∀ on, Released (calls ++ [.finalize i]) on ↔ Released calls on ∨ i = on := by
    intro on
    simp [released_append_iff]
  refine ⟨by simpa [sources, Call.clones] using h.count, ?_, ?_⟩
  · intro on other found
    rw [sources] at found
    rw [released]
    by_cases same : i = on
    · subst same
      rw [List.getElem?_set_self bound, Option.some.injEq] at found
      subst found
      obtain ⟨items, groupSize, -⟩ := h.same i _ here
      exact ⟨items, groupSize, by simp [Source.finalize]⟩
    · rw [List.getElem?_set_ne same] at found
      obtain ⟨items, groupSize, finalized⟩ := h.same on other found
      exact ⟨items, groupSize, finalized.trans (by simp [same])⟩
  · intro on before
    rw [sources, List.length_set]
    rcases (released on).1 before with before | rfl
    · exact h.there on before
    · exact bound

theorem Kept.next (h : Kept content size calls s) (made : s.call? c = some (ended, t)) :
    Kept content size (calls ++ [c]) t := by
  rcases sources_call made with ⟨i, f, rfl, sources⟩ | ⟨i, source, rfl, here, sources⟩ |
    ⟨i, source, rfl, here, sources⟩
  · have released : ∀ on, Released (calls ++ [.pass i f]) on ↔ Released calls on := by
      intro on
      simp [released_append_iff]
    refine ⟨?_, ?_, ?_⟩
    · simpa [sources, Call.clones] using h.count
    · simpa only [sources, released] using h.same
    · simpa only [sources, released] using h.there
  · exact h.clone here sources
  · exact h.finalize here sources

end Shelf

namespace Source

variable {α ε σ : Type}

/-- A source that was just made, with its content and the size of its groups. A size of zero stands for
the default where the content is items, and for one where it is bytes. -/
inductive Made : {α : Type} → Source α → List α → Nat → Prop where
  | ofItems {α : Type} (items : List α) (size : Nat) :
    Made (.ofItems items size) items (if size = 0 then defaultBatchSize else size)
  | ofBytes (bytes : Bytes) (size : Nat) :
    Made (.ofBytes bytes size) bytes (if size = 0 then 1 else size)

/-- How sources serve their content, after calls of the first one and its clones. -/
structure Serves (content : List α) (size : Nat) (calls : List (Shelf.Call α ε σ))
    (shelf : Shelf α σ) : Prop where
  /-- The groups are cut from the content. -/
  cut : Cut content size (numbered size content)
  /-- Each clone is one more source. -/
  count : shelf.sources.length = calls.countP Shelf.Call.clones + 1
  /-- A pass over a source that is not finalized serves these groups in order, up to the first one that
  the function refuses, and tells how it ended. All sources are what they were. -/
  serves : ∀ on, on < shelf.sources.length → ¬Shelf.Released calls on →
    ∀ f : List α → GroupInfo → StateM σ (Except ε Unit), ∃ ended,
      Ends f (numbered size content) shelf.world ended ∧
        shelf.call? (.pass on f) = some (some ended.1, { shelf with world := ended.2 })
  /-- A pass over a finalized source is refused. The function is not asked, and nothing happens. -/
  refuses : ∀ on, on < shelf.sources.length → Shelf.Released calls on →
    ∀ f : List α → GroupInfo → StateM σ (Except ε Unit),
      shelf.call? (.pass on f) = some (some .refused, shelf)

theorem Made.fresh {start : Source α} {content : List α} {size : Nat} (made : start.Made content size) :
    0 < size ∧ start.items = content ∧ start.groupSize = size ∧ start.finalized = false := by
  cases made with
  | ofItems items size =>
    exact ⟨effectiveSize_pos size, rfl, rfl, rfl⟩
  | ofBytes bytes size =>
    refine ⟨by split <;> omega, rfl, ?_, rfl⟩
    show max size 1 = _
    split <;> omega

/-- A function that keeps groups, and refuses one that is not full. -/
def keepFull (group : List Nat) (info : GroupInfo) : StateM (List (List Nat)) (Except Unit Unit) :=
  fun kept => if group.length = info.groupSize then (.ok (), kept ++ [group]) else (.error (), kept)

def keepFullCalls : List (Shelf.Call Nat Unit (List (List Nat))) :=
  [.pass 0 keepFull, .clone 0, .finalize 1, .clone 1, .pass 2 keepFull, .pass 0 keepFull]

/-- **Sources serve their content, again and again.** -/
theorem servesAgain {start : Source α} {content : List α} {size : Nat}
    (made : start.Made content size) {calls : List (Shelf.Call α ε σ)} {w : σ} {shelf : Shelf α σ}
    (hs : Shelf.run? { sources := [start], world := w } calls = some shelf) :
    Serves content size calls shelf := by
  obtain ⟨pos, items, groupSize, unfinalized⟩ := made.fresh
  have kept : shelf.Kept content size calls :=
    Shelf.run_induction (motive := fun calls shelf => shelf.Kept content size calls)
      (Shelf.kept_start items groupSize unfinalized w)
      (fun _ _ _ _ _ before made => before.next made) hs
  refine ⟨cut_numbered pos content, kept.count, ?_, ?_⟩
  · intro on there working f
    obtain ⟨items, groupSize, finalized⟩ := kept.same on _ (List.getElem?_eq_getElem there)
    have unfinalized : shelf.sources[on].finalized = false :=
      Bool.eq_false_iff.2 fun h => working (finalized.1 h)
    refine ⟨_, serve_ends f size content.length 0 (chunks size content) shelf.world, ?_⟩
    rw [Shelf.call?, List.getElem?_eq_getElem there, Option.map_some, pass, unfinalized, items,
      groupSize]
    rfl
  · intro on there released f
    obtain ⟨-, -, finalized⟩ := kept.same on _ (List.getElem?_eq_getElem there)
    rw [Shelf.call?, List.getElem?_eq_getElem there, Option.map_some, pass, finalized.2 released]
    rfl

/-- The groups are taken once more behind a pass that was stopped. The third source is a clone of the
second one, which was finalized before. -/
theorem servesAgain_keepFull :
    ∃ shelf, Shelf.run? { sources := [ofItems [1, 2, 3, 4, 5] 2], world := [] } keepFullCalls =
        some shelf ∧
      shelf.world = [[1, 2], [3, 4], [1, 2], [3, 4]] ∧
      Serves [1, 2, 3, 4, 5] 2 keepFullCalls shelf := by
  have run : Shelf.run? { sources := [ofItems [1, 2, 3, 4, 5] 2], world := [] } keepFullCalls =
      some {
        sources := [ofItems [1, 2, 3, 4, 5] 2, (ofItems [1, 2, 3, 4, 5] 2).finalize,
          (ofItems [1, 2, 3, 4, 5] 2).finalize]
        world := [[1, 2], [3, 4], [1, 2], [3, 4]] } := by
    with_unfolding_all rfl
  exact ⟨_, run, rfl, servesAgain (.ofItems [1, 2, 3, 4, 5] 2) run⟩

end Source

end BatchPool
