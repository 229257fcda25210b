import BatchPool.Proofs.Ingest.Buffered
import BatchPool.Proofs.Ingest.Summary
import BatchPool.Proofs.Ingest.Tokens

/-!
# How lines are spelled

A line is a JSON object without blanks, and lines that stand one under the other are read back as what
they say.

* `Ingest.Line.spelled`: the text of a line, written out. `Ingest.Line.text_eq_spelled`: so it is
  written.
* `Ingest.Line.value`: what a line says, as a JSON value.
* `Ingest.Line.Legible`: the numbers of a line have 64 bits, and its types stand in order.
* `Ingest.yields_lines`: what is read back.
* `Ingest.Summary.yields`: so it is for the lines of a summary.
-/

namespace BatchPool

namespace Ingest

/-- The text of a type with its count. -/
def spelledCount (count : String × Nat) : String :=
  String.ofList (Json.quoted count.1) ++ ":" ++ toString count.2

/-- The text of a line. -/
def Line.spelled : Line → String
  | .group number size types =>
    "\x7b\"group\":" ++ toString number ++ ",\"size\":" ++ toString size ++ ",\"types\":\x7b" ++
      ",".intercalate (types.map spelledCount) ++ "\x7d\x7d"
  | .totals groups records =>
    "\x7b\"groups\":" ++ toString groups ++ ",\"records\":" ++ toString records ++ "\x7d"

/-- What a line says. -/
def Line.value : Line → Json
  | .group number size types => .obj [("group", .int number), ("size", .int size),
      ("types", .obj (types.map fun count => (count.1, .int count.2)))]
  | .totals groups records => .obj [("groups", .int groups), ("records", .int records)]

theorem Line.text_eq_compact (line : Line) : line.text = line.value.compact := by
  cases line <;> rfl

/-! ## The text -/

theorem repr_natCast (n : Nat) : (n : Int).repr = n.repr := rfl

/-- The names of the members of a line have nothing to be escaped. -/
theorem quoted_names : Json.quoted "group" = "\"group\"".toList ∧
    Json.quoted "size" = "\"size\"".toList ∧ Json.quoted "types" = "\"types\"".toList ∧
      Json.quoted "groups" = "\"groups\"".toList ∧
        Json.quoted "records" = "\"records\"".toList := by
  decide

/-- The counts of an object stand one behind the other, with commas in between. -/
theorem renderMembers_counts (types : Tally) :
    Json.renderMembers (types.map fun count => (count.1, .int count.2)) =
      (",".intercalate (types.map spelledCount)).toList ++ ['}'] := by
  induction types with
  | nil => rfl
  | cons count rest ih =>
    cases rest with
    | nil => simp [Json.renderMembers, Json.render, repr_natCast, spelledCount]
    | cons next rest =>
      simp only [List.map_cons] at ih ⊢
      rw [Json.renderMembers, ih, String.intercalate_cons_cons]
      · simp [Json.render, repr_natCast, spelledCount]
      · simp

/-- **A line is written as it is spelled.** -/
theorem Line.text_eq_spelled (line : Line) : line.text = line.spelled := by
  rw [text_eq_compact, Json.compact, ← String.toList_inj, String.toList_ofList]
  obtain ⟨group, size, types, groups, records⟩ := quoted_names
  cases line with
  | group =>
    simp [Line.value, Line.spelled, Json.render, Json.renderMembers, renderMembers_counts,
      repr_natCast, group, size, types]
  | totals =>
    simp [Line.value, Line.spelled, Json.render, Json.renderMembers, repr_natCast, groups, records]

/-! ## What is read back -/

/-- The numbers of a line have 64 bits, and its types stand in order, each of them once. -/
inductive Line.Legible : Line → Prop where
  | group {number size : Nat} {types : Tally} (number_le : number ≤ Json.wordLimit)
      (size_le : size ≤ Json.wordLimit) (counts_le : ∀ count ∈ types, count.2 ≤ Json.wordLimit)
      (sorted : types.Pairwise fun a b => a.1 < b.1) : Legible (.group number size types)
  | totals {groups records : Nat} (groups_le : groups ≤ Json.wordLimit)
      (records_le : records ≤ Json.wordLimit) : Legible (.totals groups records)

theorem writable_natCast {n : Nat} (h : n ≤ Json.wordLimit) (depth : Nat) :
    (Json.int n).Writable depth :=
  .int depth (by omega) (Int.ofNat_le.2 h)

variable {line : Line} {lines : List Line}

theorem Line.Legible.writable (h : line.Legible) : line.value.Writable Json.depthLimit := by
  cases h with
  | group number_le size_le counts_le =>
    refine .obj ?_
    simp only [List.forall_mem_cons]
    refine ⟨writable_natCast number_le _, writable_natCast size_le _, .obj ?_, by simp⟩
    exact List.forall_mem_map.2 fun count hcount => writable_natCast (counts_le count hcount) _
  | totals groups_le records_le =>
    refine .obj ?_
    simp only [List.forall_mem_cons]
    exact ⟨writable_natCast groups_le _, writable_natCast records_le _, by simp⟩

theorem Line.Legible.inOrder (h : line.Legible) : line.value.InOrder := by
  cases h with
  | group _ _ _ sorted =>
    have keys : ["group", "size", "types"].Pairwise (· < ·) := by decide
    refine .obj (List.pairwise_map (f := Prod.fst) |>.1 keys) ?_
    simp only [List.forall_mem_cons]
    refine ⟨.int _, .int _, .obj (List.pairwise_map.2 sorted) ?_, by simp⟩
    exact List.forall_mem_map.2 fun count _ => .int _
  | totals =>
    have keys : ["groups", "records"].Pairwise (· < ·) := by decide
    refine .obj (List.pairwise_map (f := Prod.fst) |>.1 keys) ?_
    simp only [List.forall_mem_cons]
    exact ⟨.int _, .int _, by simp⟩

/-- A line, with the line feed behind it. -/
def Line.piece (line : Line) : Piece := { value := line.value, blanks := [0x0A] }

theorem framed_lines (lines : List Line) :
    framed (lines.map Line.piece) [] = Buffer.lineBytes (lines.map Line.spelled) := by
  rw [framed, Buffer.lineBytes, List.flatMap_map, List.flatMap_map, List.append_nil]
  refine List.flatMap_congr fun line _ => ?_
  rw [← Line.text_eq_spelled, Line.text_eq_compact]
  rfl

theorem framed_of_legible (legible : ∀ line ∈ lines, line.Legible) :
    Framed .closed [] (lines.map Line.piece) := by
  induction lines with
  | nil => exact .nil
  | cons line rest ih =>
    obtain ⟨here, later⟩ := List.forall_mem_cons.1 legible
    have blank : ∀ b ∈ ([0x0A] : Bytes), Json.isBlank b = true :=
      List.forall_mem_singleton.2 (by decide)
    exact .cons here.writable blank (fun none => by cases none) (ih later)

/-- **Lines that stand one under the other are read back as what they say.** -/
theorem yields_lines (legible : ∀ line ∈ lines, line.Legible) :
    Json.Stream.Yields
      { rest := Buffer.lineBytes (lines.map Line.spelled), ending := .closed }
      (lines.map Line.value) := by
  have read := (framed_of_legible legible).yields
  have same : (lines.map Line.piece).map (fun p => p.value.sorted) = lines.map Line.value := by
    rw [List.map_map]
    exact List.map_congr_left fun line hline => (legible line hline).inOrder.sorted_eq
  rwa [framed_lines, same] at read

/-! ## Summaries -/

variable {size : Nat} {records : List Record} {groups : List (Nat × Nat × Tally)}

/-- There are no more groups than records. -/
theorem Summary.length_le (h : Summary size records groups lines) :
    groups.length ≤ records.length := by
  rw [h.length_eq]
  obtain rfl | pos := Nat.eq_zero_or_pos size
  · simp
  · have wide : records.length ≤ records.length * size := Nat.le_mul_of_pos_right _ pos
    refine Nat.le_of_lt_succ ((Nat.div_lt_iff_lt_mul pos).2 ?_)
    rw [Nat.succ_mul]
    omega

/-- No group has more records than there are. -/
theorem Summary.size_le (h : Summary size records groups lines) :
    ∀ g ∈ groups, g.2.1 ≤ records.length := by
  intro g hg
  have mem := h.parts.mem_iff.1 (List.mem_map_of_mem (f := (·.2)) hg)
  obtain ⟨part, hpart, same⟩ := List.mem_map.1 mem
  obtain ⟨i, -, rfl⟩ := List.mem_map.1 hpart
  simp only [← same, List.length_take, List.length_drop]
  omega

/-- **If the records can be counted with 64 bits, the lines of a summary are legible.** -/
theorem Summary.legible (h : Summary size records groups lines)
    (fits : records.length ≤ Json.wordLimit) : ∀ line ∈ lines, line.Legible := by
  rw [h.lines_eq]
  intro line hline
  obtain group | totals := List.mem_append.1 hline
  · obtain ⟨g, hg, rfl⟩ := List.mem_map.1 group
    have number : g.1 < groups.length :=
      List.mem_range.1 (h.numbers.mem_iff.1 (List.mem_map_of_mem hg))
    have few := h.length_le
    have small := h.size_le g hg
    refine .group (by omega) (by omega) (fun count hcount => ?_) (h.ordered g hg).sorted
    have part := Tally.le_total hcount
    have all := h.sizes g hg
    omega
  · obtain rfl := List.mem_singleton.1 totals
    exact .totals (h.length_le.trans fits) fits

/-- What the first lines of a summary say is read back. -/
theorem Summary.yields {more : List Line} (h : Summary size records groups (lines ++ more))
    (fits : records.length ≤ Json.wordLimit) :
    Json.Stream.Yields
      { rest := Buffer.lineBytes (lines.map Line.spelled), ending := .closed }
      (lines.map Line.value) :=
  yields_lines fun line hline => h.legible fits line (List.mem_append_left _ hline)

end Ingest

end BatchPool
