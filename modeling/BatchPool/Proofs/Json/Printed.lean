import BatchPool.Proofs.Json.Values
import BatchPool.Proofs.Json.Written

/-!
# Values as they are printed

The compact text of a value is read as the value, with the members of its objects in the order of their
keys.

* `Json.Writable`: a value that can be printed and read again.
* `Json.sorted`: a value with its members in order. The order is kept where there was one
  (`InOrder.sorted_eq`), and the members are the same (`get?_sorted`).
* `Json.Writable.fronts`: the printed bytes of a value are a front of inputs that is one value.
-/

namespace BatchPool

namespace Json

/-- A value that can be printed and read again: its integers have 64 bits, with or without a sign, it
has no doubles, and at most `depth` arrays and objects are nested. -/
inductive Writable : Nat → Json → Prop where
  | null (depth : Nat) : Writable depth .null
  | bool (depth : Nat) (b : Bool) : Writable depth (.bool b)
  | int {n : Int} (depth : Nat) (low : -(Nat.pow 2 63 : Nat) ≤ n) (high : n ≤ wordLimit) :
    Writable depth (.int n)
  | str (depth : Nat) (s : String) : Writable depth (.str s)
  | arr {depth : Nat} {items : List Json} (each : ∀ v ∈ items, Writable depth v) :
    Writable (depth + 1) (.arr items)
  | obj {depth : Nat} {members : List (String × Json)} (each : ∀ m ∈ members, Writable depth m.2) :
    Writable (depth + 1) (.obj members)

/-- The value is a text, an array or an object: its last byte ends it. -/
def encloses : Json → Bool
  | .str _ | .arr _ | .obj _ => true
  | _ => false

/-! ## Members in order -/

mutual
/-- The value with the members of each object in the order of their keys. -/
def sorted : Json → Json
  | .arr items => .arr (sortedItems items)
  | .obj members => ofMembers (sortedMembers members)
  | v => v

/-- The items of an array, each sorted. -/
def sortedItems : List Json → List Json
  | [] => []
  | v :: rest => v.sorted :: sortedItems rest

/-- The members of an object, each with its value sorted. -/
def sortedMembers : List (String × Json) → List (String × Json)
  | [] => []
  | m :: rest => (m.1, m.2.sorted) :: sortedMembers rest
end

@[simp] theorem sorted_arr (items : List Json) : (arr items).sorted = .arr (items.map sorted) := by
  have each : sortedItems items = items.map sorted := by
    induction items with
    | nil => rfl
    | cons v rest ih => rw [sortedItems, ih, List.map_cons]
  rw [sorted, each]

@[simp] theorem sorted_obj (members : List (String × Json)) :
    (obj members).sorted = ofMembers (members.map fun m => (m.1, m.2.sorted)) := by
  have each : sortedMembers members = members.map fun m => (m.1, m.2.sorted) := by
    induction members with
    | nil => rfl
    | cons m rest ih => rw [sortedMembers, ih, List.map_cons]
  rw [sorted, each]

/-- The members of all objects stand in the order of their keys, each key once. -/
inductive InOrder : Json → Prop where
  | null : InOrder .null
  | bool (b : Bool) : InOrder (.bool b)
  | int (n : Int) : InOrder (.int n)
  | float (x : Float) : InOrder (.float x)
  | str (s : String) : InOrder (.str s)
  | arr {items : List Json} (each : ∀ v ∈ items, InOrder v) : InOrder (.arr items)
  | obj {members : List (String × Json)} (keys : members.Pairwise fun a b => a.1 < b.1)
    (each : ∀ m ∈ members, InOrder m.2) : InOrder (.obj members)

/-- A key behind all others is inserted at the end. -/
theorem insert_of_lt {key : String} {value : Json} {members : List (String × Json)}
    (last : ∀ m ∈ members, m.1 < key) : insert key value members = members ++ [(key, value)] := by
  induction members with
  | nil => rfl
  | cons m rest ih =>
    obtain ⟨less, later⟩ := List.forall_mem_cons.1 last
    have other : key ≠ m.1 := fun same => String.lt_irrefl _ (same ▸ less)
    rw [insert, if_neg (String.lt_asymm less), if_neg other, ih later, List.cons_append]

/-- Members in order are inserted one behind the other. -/
theorem foldl_insert_of_pairwise {read members : List (String × Json)}
    (keys : (read ++ members).Pairwise fun a b => a.1 < b.1) :
    members.foldl (fun acc m => insert m.1 m.2 acc) read = read ++ members := by
  induction members generalizing read with
  | nil => exact (List.append_nil read).symm
  | cons m rest ih =>
    have here : ∀ a ∈ read, a.1 < m.1 := fun a ha =>
      (List.pairwise_append.1 keys).2.2 a ha m List.mem_cons_self
    rw [List.append_cons] at keys
    rw [List.foldl_cons, insert_of_lt here, ih keys, List.append_assoc, List.singleton_append]

/-- **A value whose members are in order is already sorted.** -/
theorem InOrder.sorted_eq {v : Json} (h : v.InOrder) : v.sorted = v := by
  induction h with
  | arr each ih => rw [sorted_arr, List.map_congr_left ih, List.map_id']
  | @obj members keys each ih =>
    have same : (members.map fun m => (m.1, m.2.sorted)) = members := by
      rw [List.map_congr_left fun m hm => by rw [ih m hm], List.map_id']
    have all := foldl_insert_of_pairwise (show ([] ++ members).Pairwise _ from keys)
    rw [sorted_obj, same, ofMembers, all, List.nil_append]
  | _ => rfl

theorem lookup_cons (key k : String) (value : Json) (rest : List (String × Json)) :
    ((k, value) :: rest).lookup key = if key = k then some value else rest.lookup key := by
  by_cases same : key = k
  · rw [if_pos same, same, List.lookup_cons_self]
  · rw [if_neg same, List.lookup_cons, beq_false_of_ne same]

variable {depth : Nat} {e : Ending} {first : UInt8} {rest tail : Bytes} {v : Json}

/-- A scalar that is read from a front of inputs is that front. -/
theorem Fronts.of_scalar
    (read : ∀ e rest, Behind first e rest → scalar e first (tail ++ rest) = .ok (v, rest)) :
    Fronts depth first (first :: tail) v := by
  -- No scalar starts with a blank or with a bracket or a brace.
  have alone := read .closed [] (.inr rfl)
  have noBracket : first ≠ 0x5B := by rintro rfl; cases alone
  have noBrace : first ≠ 0x7B := by rintro rfl; cases alone
  have noClose : first ≠ 0x5D := by rintro rfl; cases alone
  have unblank : isBlank first = false := by
    rw [Bool.eq_false_iff]
    intro blank
    simp only [isBlank, Bool.or_eq_true, beq_iff_eq] at blank
    obtain ((rfl | rfl) | rfl) | rfl := blank <;> cases alone
  have found : ∀ rest, skipBlanks (first :: tail ++ rest) = first :: (tail ++ rest) := fun rest => by
    simp [skipBlanks, unblank]
  refine ⟨fun rest => ⟨_, found rest⟩, noClose, fun e rest behind => ?_⟩
  rw [valueOf_eq, found]
  simp only [bodyOf, if_neg noBracket, if_neg noBrace]
  exact read e rest behind

theorem fronts_literal {word : Bytes} (same : ∀ e input, scalar e first input =
    (literal e word input).map (v, ·)) : Fronts depth first (first :: word) v :=
  .of_scalar fun e _ _ => (same e _).trans (map_literal_append ..)

theorem utf8_quoted (s : String) :
    utf8 (quoted s) = 0x22 :: (utf8 (s.toList.flatMap escape) ++ [0x22]) := by
  rw [quoted, utf8_cons, utf8_append]
  rfl

theorem fronts_text (s : String) : Fronts depth 0x22 (utf8 (quoted s)) (.str s) := by
  rw [utf8_quoted]
  refine .of_scalar fun e rest _ => ?_
  have read : scalar e 0x22 (utf8 (s.toList.flatMap escape) ++ 0x22 :: rest) =
      (text e (utf8 (s.toList.flatMap escape) ++ 0x22 :: rest)).map fun p => (Json.str p.1, p.2) :=
    rfl
  rw [List.append_assoc, List.singleton_append, read, text_written]
  rfl

/-- A number starts with its first digit. -/
theorem scalar_of_isDigit (digit : isDigit first = true) :
    scalar e first rest = number e false (first :: rest) := by
  have other : ∀ b, isDigit b = false → first ≠ b := by
    rintro b none rfl
    rw [digit] at none
    cases none
  rw [scalar, if_neg (other _ rfl), if_neg (other _ rfl), if_neg (other _ rfl),
    if_neg (other _ rfl), if_pos digit]

/-- Digits with or without a sign. -/
theorem toString_int_toList (n : Int) :
    (toString n).toList = (if n < 0 then ['-'] else []) ++ Nat.toDigits 10 n.natAbs := by
  cases n with
  | ofNat m =>
    rw [if_neg (by simp)]
    exact String.toList_ofList
  | negSucc m =>
    rw [if_pos (Int.negSucc_lt_zero m)]
    show ("-" ++ (m + 1).repr).toList = _
    rw [Nat.repr_eq_ofList_toDigits, ← String.ofList_toList (s := "-"), ← String.ofList_append,
      String.toList_ofList]
    rfl

theorem fronts_int {n : Int} (low : -(Nat.pow 2 63 : Nat) ≤ n) (high : n ≤ wordLimit) :
    ∃ first, Stream.endsItself first = false ∧
      Fronts depth first (utf8 (toString n).toList) (.int n) := by
  have less : Nat.pow 2 63 ≤ wordLimit := by decide
  have fits : n.natAbs ≤ wordLimit := by omega
  rw [toString_int_toList]
  by_cases negative : n < 0
  · have bytes : utf8 (['-'] ++ Nat.toDigits 10 n.natAbs) = 0x2D :: digitBytes n.natAbs := by
      rw [utf8_append]
      rfl
    have value : ofInteger true n.natAbs = .int n := by
      rw [ofInteger, if_pos rfl, if_neg (by omega)]
      exact congrArg Json.int (by omega)
    rw [if_pos negative, bytes]
    refine ⟨0x2D, by decide, .of_scalar fun e rest behind => ?_⟩
    have parted := behind.resolve_left (by decide)
    have read : scalar e 0x2D (digitBytes n.natAbs ++ rest) =
        number e true (digitBytes n.natAbs ++ rest) := rfl
    rw [read, number_written fits parted, value]
  · have value : ofInteger false n.natAbs = .int n := by
      rw [ofInteger, if_neg Bool.false_ne_true]
      exact congrArg Json.int (by omega)
    rw [if_neg negative, List.nil_append, ← digitBytes]
    have all := digits_digitBytes n.natAbs
    cases ds : digitBytes n.natAbs with
    | nil => exact absurd ds all.nonempty
    | cons first tail =>
      have digit : isDigit first = true := all.digits first (by simp [ds])
      have lasts := not_endsItself_of_isDigit digit
      refine ⟨first, Bool.eq_false_iff.2 lasts, .of_scalar fun e rest behind => ?_⟩
      rw [scalar_of_isDigit digit, ← List.cons_append, ← ds,
        number_written fits (behind.resolve_left lasts), value]

/-! ## Arrays and objects -/

theorem utf8_ascii {c : Char} {b : UInt8} (single : String.utf8EncodeChar c = [b]) (cs : List Char) :
    utf8 (c :: cs) = b :: utf8 cs := by
  rw [utf8_cons, single, List.singleton_append]

theorem afterItem_bracket : afterItem e (0x5D :: rest) = .ok (.close, rest) := rfl

theorem afterItem_comma (begun : Begun rest) : afterItem e (0x2C :: rest) = .ok (.next, rest) := by
  obtain ⟨b, tail, found, opens⟩ := begun
  have comma : skipBlanks (0x2C :: rest) = 0x2C :: rest := rfl
  rw [afterItem, comma]
  simp [found, opens]

theorem afterMember_brace : afterMember e (0x7D :: rest) = .ok (.close, rest) := rfl

theorem afterMember_comma : afterMember e (0x2C :: 0x22 :: rest) = .ok (.next, rest) := rfl

theorem parted_of_delimiter {b : UInt8} (delimiter : Stream.isDelimiter b = true) :
    Parted e (b :: rest) :=
  parted_iff.2 (.inr ⟨b, rest, rfl, delimiter⟩)

/-- Items are read that can be read one by one. -/
theorem itemsOf_printed {items : List Json} (some : items ≠ [])
    (each : ∀ v ∈ items, ∃ first, Fronts depth first (utf8 v.render) v.sorted) :
    (∀ rest, Begun (utf8 (renderItems items) ++ rest)) ∧ ∀ e rest read,
      itemsOf e depth read (utf8 (renderItems items) ++ rest) =
        .ok (read.reverse ++ items.map sorted, rest) := by
  induction items with
  | nil => exact absurd rfl some
  | cons v items ih =>
    obtain ⟨⟨first, here⟩, others⟩ := List.forall_mem_cons.1 each
    cases items with
    | nil =>
      have bytes : ∀ rest, utf8 (renderItems [v]) ++ rest = utf8 v.render ++ 0x5D :: rest :=
        fun rest => by
          rw [renderItems, utf8_append, List.append_assoc]
          rfl
      refine ⟨fun rest => bytes rest ▸ here.begun _, fun e rest read => ?_⟩
      rw [bytes, itemsOf_eq, here.value e _ (.inr (parted_of_delimiter rfl))]
      simp [afterItem_bracket]
    | cons w items =>
      obtain ⟨begun, later⟩ := ih (by simp) others
      have bytes : ∀ rest, utf8 (renderItems (v :: w :: items)) ++ rest =
          utf8 v.render ++ 0x2C :: (utf8 (renderItems (w :: items)) ++ rest) := fun rest => by
        rw [renderItems, utf8_append, utf8_ascii rfl, List.append_assoc, List.cons_append]
        · rfl
        · simp
      refine ⟨fun rest => bytes rest ▸ here.begun _, fun e rest read => ?_⟩
      rw [bytes, itemsOf_eq, here.value e _ (.inr (parted_of_delimiter rfl))]
      simp only [afterItem_comma (begun rest), later]
      simp

theorem key_written (k : String) :
    key e (utf8 (k.toList.flatMap escape) ++ 0x22 :: 0x3A :: rest) = .ok (k, rest) := by
  rw [key, text_written]
  rfl

/-- The last member is read whose value is a front of inputs. -/
theorem membersOf_last {k : String} {bytes : Bytes} (here : Fronts depth first bytes v)
    (read : List (String × Json)) :
    membersOf e depth read
        (utf8 (k.toList.flatMap escape) ++ 0x22 :: 0x3A :: (bytes ++ 0x7D :: rest)) =
      .ok (insert k v read, rest) := by
  have value : valueOf e depth (bytes ++ 0x7D :: rest) = .ok (v, 0x7D :: rest) :=
    here.value e _ (.inr (parted_of_delimiter rfl))
  rw [membersOf_eq, key_written]
  simp only [value, afterMember_brace]

/-- So is one with another behind it. -/
theorem membersOf_more {k : String} {bytes : Bytes} (here : Fronts depth first bytes v)
    (read : List (String × Json)) :
    membersOf e depth read
        (utf8 (k.toList.flatMap escape) ++ 0x22 :: 0x3A :: (bytes ++ 0x2C :: 0x22 :: rest)) =
      membersOf e depth (insert k v read) rest := by
  have value : valueOf e depth (bytes ++ 0x2C :: 0x22 :: rest) = .ok (v, 0x2C :: 0x22 :: rest) :=
    here.value e _ (.inr (parted_of_delimiter rfl))
  rw [membersOf_eq, key_written]
  simp only [value, afterMember_comma]

/-- Members are read that can be read one by one, behind the opening quote of the first key. -/
theorem membersOf_printed {members : List (String × Json)} (some : members ≠ [])
    (each : ∀ m ∈ members, ∃ first, Fronts depth first (utf8 m.2.render) m.2.sorted) :
    ∃ tail, utf8 (renderMembers members) = 0x22 :: tail ∧ ∀ e rest read,
      membersOf e depth read (tail ++ rest) =
        .ok (members.foldl (fun acc m => insert m.1 m.2.sorted acc) read, rest) := by
  induction members with
  | nil => exact absurd rfl some
  | cons m members ih =>
    obtain ⟨k, v⟩ := m
    obtain ⟨⟨first, here⟩, others⟩ := List.forall_mem_cons.1 each
    cases members with
    | nil =>
      refine ⟨utf8 (k.toList.flatMap escape) ++ 0x22 :: 0x3A :: (utf8 v.render ++ [0x7D]), ?_,
        fun e rest read => ?_⟩
      · rw [renderMembers, utf8_append, utf8_quoted, utf8_ascii rfl, utf8_append, utf8_ascii rfl]
        simp
      · simp only [List.append_assoc, List.cons_append, List.nil_append]
        exact membersOf_last here read
    | cons next members =>
      obtain ⟨tail, bytes, later⟩ := ih (by simp) others
      refine ⟨utf8 (k.toList.flatMap escape) ++ 0x22 :: 0x3A :: (utf8 v.render ++ 0x2C :: 0x22 :: tail),
        ?_, fun e rest read => ?_⟩
      · rw [renderMembers, utf8_append, utf8_quoted, utf8_ascii rfl, utf8_append, utf8_ascii rfl,
          bytes]
        · simp
        · simp
      · simp only [List.append_assoc, List.cons_append]
        rw [membersOf_more here, later]
        rfl

/-- An array is read whose items can be read. -/
theorem fronts_arr {items : List Json}
    (each : ∀ v ∈ items, ∃ first, Fronts depth first (utf8 v.render) v.sorted) :
    Fronts (depth + 1) 0x5B (utf8 (Json.arr items).render) (Json.arr items).sorted := by
  have bytes : utf8 (Json.arr items).render = 0x5B :: utf8 (renderItems items) :=
    utf8_ascii rfl _
  rw [bytes, sorted_arr]
  refine ⟨fun rest => ⟨_, rfl⟩, by decide, fun e rest _ => ?_⟩
  have found : skipBlanks (0x5B :: utf8 (renderItems items) ++ rest) =
    0x5B :: (utf8 (renderItems items) ++ rest) := rfl
  rw [valueOf_eq, found]
  by_cases empty : items = []
  · subst empty
    rfl
  · obtain ⟨begun, read⟩ := itemsOf_printed empty each
    obtain ⟨b, tail, second, opens⟩ := begun rest
    simp only [bodyOf, if_true, arrayOf, second, if_neg opens, read]
    rfl

/-- An object is read the values of whose members can be read. -/
theorem fronts_obj {members : List (String × Json)}
    (each : ∀ m ∈ members, ∃ first, Fronts depth first (utf8 m.2.render) m.2.sorted) :
    Fronts (depth + 1) 0x7B (utf8 (Json.obj members).render) (Json.obj members).sorted := by
  have bytes : utf8 (Json.obj members).render = 0x7B :: utf8 (renderMembers members) :=
    utf8_ascii rfl _
  rw [bytes, sorted_obj]
  refine ⟨fun rest => ⟨_, rfl⟩, by decide, fun e rest _ => ?_⟩
  have found : skipBlanks (0x7B :: utf8 (renderMembers members) ++ rest) =
    0x7B :: (utf8 (renderMembers members) ++ rest) := rfl
  rw [valueOf_eq, found]
  by_cases empty : members = []
  · subst empty
    rfl
  · obtain ⟨tail, quote, read⟩ := membersOf_printed empty each
    have second : firstMember e (utf8 (renderMembers members) ++ rest) =
        .ok (.next, tail ++ rest) := by
      rw [quote]
      rfl
    have noBracket : (0x7B : UInt8) ≠ 0x5B := by decide
    simp only [bodyOf, if_neg noBracket, if_true, objectOf, second, read, ofMembers, List.foldl_map]
    rfl

/-- **The printed bytes of a value are a front of inputs that is this value, sorted.** -/
theorem Writable.fronts (h : Writable depth v) : ∃ first, Stream.endsItself first = v.encloses ∧
    Fronts depth first (utf8 v.render) v.sorted := by
  induction h with
  | null depth => exact ⟨0x6E, rfl, fronts_literal fun _ _ => rfl⟩
  | bool depth b =>
    cases b with
    | true => exact ⟨0x74, rfl, fronts_literal fun _ _ => rfl⟩
    | false => exact ⟨0x66, rfl, fronts_literal fun _ _ => rfl⟩
  | int depth low high => exact fronts_int low high
  | str depth s => exact ⟨0x22, rfl, fronts_text s⟩
  | arr _ ih => exact ⟨0x5B, rfl, fronts_arr fun v hv => (ih v hv).imp fun _ => And.right⟩
  | obj _ ih => exact ⟨0x7B, rfl, fronts_obj fun m hm => (ih m hm).imp fun _ => And.right⟩

end Json

end BatchPool
