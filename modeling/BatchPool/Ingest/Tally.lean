/-!
# Counting names

* `Tally`: names in order, each with how often it was counted.
* `Tally.add`, `Tally.ofNames`: counts one name, and all names of a list.
* `Tally.count`: how often a name was counted. Counting a list counts each name as often as it is
  there (`count_ofNames`), and the counts add up to its length (`total_ofNames`).
* `Tally.Ordered`: every name is there once, in order. So it is after counting (`ordered_ofNames`), and
  the entries are then the names that were counted (`mem_ofNames`).
-/

namespace BatchPool

/-- Names in order, each with how often it was counted. -/
abbrev Tally := List (String × Nat)

namespace Tally

/-- Counts a name once more. -/
def add (name : String) : Tally → Tally
  | [] => [(name, 1)]
  | (key, n) :: rest =>
    if name < key then (name, 1) :: (key, n) :: rest
    else if name = key then (key, n + 1) :: rest
    else (key, n) :: add name rest

/-- Counts every name of a list. -/
def ofNames (names : List String) : Tally := names.foldl (fun t name => add name t) []

/-- How often a name was counted. -/
def count (name : String) : Tally → Nat
  | [] => 0
  | (key, n) :: rest => (if key = name then n else 0) + count name rest

/-- How often anything was counted. -/
def total : Tally → Nat
  | [] => 0
  | (_, n) :: rest => n + total rest

theorem count_add (name other : String) (t : Tally) :
    (add name t).count other = t.count other + if name = other then 1 else 0 := by
  induction t with
  | nil => simp [add, count]
  | cons e rest ih =>
    obtain ⟨key, n⟩ := e
    simp only [add]
    split
    · simp only [count]
      omega
    · split
      · next h =>
        subst h
        simp only [count]
        split <;> omega
      · simp only [count, ih]
        omega

theorem total_add (name : String) (t : Tally) : (add name t).total = t.total + 1 := by
  induction t with
  | nil => simp [add, total]
  | cons e rest ih =>
    obtain ⟨key, n⟩ := e
    simp only [add]
    split
    · simp only [total]
      omega
    · split
      · simp only [total]
        omega
      · simp only [total, ih]
        omega

theorem count_foldl (names : List String) (t : Tally) (name : String) :
    (names.foldl (fun t n => add n t) t).count name = t.count name + names.count name := by
  induction names generalizing t with
  | nil => simp
  | cons n rest ih =>
    simp only [List.foldl_cons, ih, count_add, List.count_cons, beq_iff_eq]
    omega

theorem total_foldl (names : List String) (t : Tally) :
    (names.foldl (fun t n => add n t) t).total = t.total + names.length := by
  induction names generalizing t with
  | nil => simp
  | cons n rest ih =>
    simp only [List.foldl_cons, ih, total_add, List.length_cons]
    omega

/-- Each name is counted as often as it is there. -/
@[simp] theorem count_ofNames (names : List String) (name : String) :
    (ofNames names).count name = names.count name := by
  rw [ofNames, count_foldl]
  simp [count]

/-- The counts add up to the number of names. -/
@[simp] theorem total_ofNames (names : List String) : (ofNames names).total = names.length := by
  rw [ofNames, total_foldl]
  simp [total]

/-- No name was counted more often than all of them. -/
theorem le_total {e : String × Nat} {t : Tally} (h : e ∈ t) : e.2 ≤ t.total := by
  induction t with
  | nil => cases h
  | cons d rest ih =>
    rw [total]
    obtain rfl | later := List.mem_cons.1 h
    · exact Nat.le_add_right ..
    · exact Nat.le_trans (ih later) (Nat.le_add_left ..)

/-! ## Order -/

/-- The names are in order, each of them once, and was counted. -/
structure Ordered (t : Tally) : Prop where
  sorted : t.Pairwise fun a b => a.1 < b.1
  counted : ∀ e ∈ t, 0 < e.2

theorem Ordered.tail {e : String × Nat} {t : Tally} (h : Ordered (e :: t)) : Ordered t :=
  ⟨(List.pairwise_cons.1 h.sorted).2, fun _ he => h.counted _ (List.mem_cons_of_mem _ he)⟩

/-- Only one name is new. -/
theorem mem_add {name : String} {t : Tally} {e : String × Nat} (h : e ∈ add name t) :
    e.1 = name ∨ ∃ old ∈ t, old.1 = e.1 := by
  induction t with
  | nil => exact .inl (by rw [List.mem_singleton.1 h])
  | cons d rest ih =>
    obtain ⟨key, n⟩ := d
    simp only [add] at h
    split at h
    · obtain rfl | old := List.mem_cons.1 h
      · exact .inl rfl
      · exact .inr ⟨e, old, rfl⟩
    · split at h
      · obtain rfl | old := List.mem_cons.1 h
        · exact .inr ⟨_, List.mem_cons_self, rfl⟩
        · exact .inr ⟨e, List.mem_cons_of_mem _ old, rfl⟩
      · obtain rfl | old := List.mem_cons.1 h
        · exact .inr ⟨_, List.mem_cons_self, rfl⟩
        · exact (ih old).imp_right fun ⟨d, hd, same⟩ => ⟨d, List.mem_cons_of_mem _ hd, same⟩

theorem Ordered.add {t : Tally} (h : Ordered t) (name : String) : Ordered (add name t) := by
  induction t with
  | nil => exact ⟨List.pairwise_singleton .., by simp [Tally.add]⟩
  | cons d rest ih =>
    obtain ⟨key, n⟩ := d
    obtain ⟨later, sorted⟩ := List.pairwise_cons.1 h.sorted
    simp only [Tally.add]
    split
    · next less =>
      refine ⟨List.pairwise_cons.2 ⟨fun e he => ?_, h.sorted⟩, fun e he => ?_⟩
      · obtain rfl | old := List.mem_cons.1 he
        · exact less
        · exact String.lt_trans less (later e old)
      · obtain rfl | old := List.mem_cons.1 he
        · exact Nat.one_pos
        · exact h.counted e old
    · next notLess =>
      split
      · refine ⟨List.pairwise_cons.2 ⟨later, sorted⟩, fun e he => ?_⟩
        obtain rfl | old := List.mem_cons.1 he
        · exact Nat.succ_pos n
        · exact h.counted e (List.mem_cons_of_mem _ old)
      · next other =>
        have less : key < name := Std.lt_of_le_of_ne (String.not_lt.1 notLess) (Ne.symm other)
        have ih := ih h.tail
        refine ⟨List.pairwise_cons.2 ⟨fun e he => ?_, ih.sorted⟩, fun e he => ?_⟩
        · obtain mine | ⟨old, hold, same⟩ := mem_add he
          · exact mine ▸ less
          · exact same ▸ later old hold
        · obtain rfl | old := List.mem_cons.1 he
          · exact h.counted _ List.mem_cons_self
          · exact ih.counted e old

theorem ordered_ofNames (names : List String) : Ordered (ofNames names) := by
  have all : ∀ t, Ordered t → Ordered (names.foldl (fun t name => Tally.add name t) t) := by
    induction names with
    | nil => exact fun t h => h
    | cons name rest ih => exact fun t h => ih _ (h.add name)
  exact all [] ⟨.nil, by simp⟩

theorem count_eq_zero {name : String} {t : Tally} (absent : ∀ e ∈ t, e.1 ≠ name) :
    t.count name = 0 := by
  induction t with
  | nil => rfl
  | cons e rest ih =>
    have here : e.1 ≠ name := absent e List.mem_cons_self
    rw [count, if_neg here, ih fun e he => absent e (List.mem_cons_of_mem _ he)]

/-- The entries say how often each name was counted. -/
theorem Ordered.mem_iff {t : Tally} (h : Ordered t) {name : String} {n : Nat} :
    (name, n) ∈ t ↔ 0 < n ∧ n = t.count name := by
  induction t with
  | nil => simp [count]; omega
  | cons e rest ih =>
    obtain ⟨key, m⟩ := e
    have later := (List.pairwise_cons.1 h.sorted).1
    have ih := ih h.tail
    by_cases here : key = name
    · subst here
      have absent : ∀ e ∈ rest, e.1 ≠ key := fun e he same =>
        String.lt_irrefl key (same ▸ later e he)
      have pos : 0 < m := h.counted _ List.mem_cons_self
      rw [List.mem_cons, ih, count, count_eq_zero absent, if_pos rfl]
      simp only [Prod.mk.injEq, true_and]
      omega
    · rw [List.mem_cons, ih, count, if_neg here]
      simp [Ne.symm here]

/-- The entries of a list are its names, each with how often it is there. -/
theorem mem_ofNames {names : List String} {name : String} {n : Nat} :
    (name, n) ∈ ofNames names ↔ 0 < n ∧ n = names.count name := by
  rw [(ordered_ofNames names).mem_iff, count_ofNames]

end Tally

end BatchPool
