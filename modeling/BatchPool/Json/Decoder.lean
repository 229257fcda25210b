import BatchPool.Json.Skip

/-!
# Reading values of a wanted shape

* `Json.Decoder`: how a value of a type is read, from text and from a value that was read before.
* `Json.integer`, `Json.words`, `Json.anything`: integers of a range, texts, and values of any
  shape.
* `Json.Form`: a structure with named fields, read from an object by name or from an array in the
  order of the fields. Unknown keys are passed over, and a repeated one is refused; whether a field
  may be missing is the form's own affair.
* `Json.optional`, `Json.listOf`, `Json.mapOf`: further shapes, from a value only.
* `Json.Decoder.parse`: a whole document of the wanted shape.
-/

namespace BatchPool

namespace Json

/-- How a value of a type is read. -/
structure Decoder (α : Type) where
  ofText : (depth : Nat) → (input : Bytes) → Except Fault (α × Rest input)
  ofJson : Json → Except Fault α

/-- The fault for a value of another shape, which is a fault of the value itself if it has one.
Arrays and objects are not looked into. -/
def misshapen (wanted : String) (first : UInt8) (input : Bytes) : Fault :=
  if first = 0x5B then .mismatched (.wrongType .list wanted)
  else if first = 0x7B then .mismatched (.wrongType .object wanted)
  else
    match scalar .closed first input with
    | .error f => f
    | .ok (v, _) => .mismatched (.wrongType (found v) wanted)

/-! ## Plain shapes -/

/-- An integer of a range, from a value. -/
def integerOf (name : String) (low high : Int) : Json → Except Fault Int
  | .int n => if low ≤ n ∧ n ≤ high then .ok n else .error (.mismatched (.outOfRange n name))
  | v => .error (.mismatched (.wrongType (found v) name))

/-- Integers of a range. -/
def integer (name : String) (low high : Int) : Decoder Int where
  ofText _ input :=
    match _h : skipBlanks input with
    | [] => .error (.ended .value)
    | b :: rest =>
      if b = 0x2D ∨ isDigit b then
        match _hs : scalar .closed b rest with
        | .error f => .error f
        | .ok (v, after) =>
          (integerOf name low high v).map fun n =>
            (n, ⟨after, Nat.lt_of_le_of_lt (length_scalar_le _hs) (length_of_skipBlanks_eq _h)⟩)
      else .error (misshapen name b rest)
  ofJson := integerOf name low high

/-- A decoder followed by a function. -/
def Decoder.map {α β : Type} (f : α → β) (d : Decoder α) : Decoder β where
  ofText depth input := (d.ofText depth input).map fun p => (f p.1, p.2)
  ofJson v := (d.ofJson v).map f

/-- Sizes: natural numbers of 64 bits. -/
def size : Decoder Nat := (integer "usize" 0 wordLimit).map Int.toNat

/-- Text. -/
def words : Decoder String where
  ofText _ input :=
    match _h : skipBlanks input with
    | [] => .error (.ended .value)
    | b :: rest =>
      if b = 0x22 then
        match _ht : text .closed rest with
        | .error f => .error f
        | .ok (s, after) =>
          .ok (s, ⟨after, Nat.lt_trans (length_text_lt _ht) (length_of_skipBlanks_eq _h)⟩)
      else .error (misshapen "a string" b rest)
  ofJson
    | .str s => .ok s
    | v => .error (.mismatched (.wrongType (found v) "a string"))

/-- Values of any shape. -/
def anything : Decoder Json where
  ofText depth input := value .closed depth input
  ofJson v := .ok v

/-! ## Forms -/

/-- A field of a form that is being filled in. -/
structure Field (σ : Type) where
  name : String
  filled : σ → Bool
  ofText : (depth : Nat) → (input : Bytes) → σ → Except Fault (σ × Rest input)
  ofJson : Json → σ → Except Fault σ

/-- A field whose values a decoder reads. -/
def Field.of {σ α : Type} (name : String) (get : σ → Option α) (put : α → σ → σ)
    (d : Decoder α) : Field σ where
  name := name
  filled s := (get s).isSome
  ofText depth input s := (d.ofText depth input).map fun p => (put p.1 s, p.2)
  ofJson v s := (d.ofJson v).map fun a => put a s

/-- A structure with named fields. `complete` makes the structure of what was filled in, or names
the first field that must not be missing. -/
structure Form (σ α : Type) where
  name : String
  fields : List (Field σ)
  blank : σ
  complete : σ → Except String α

namespace Form

variable {σ α : Type}

/-- A form in an array has too few items. -/
def tooShort (form : Form σ α) (s : σ) : Fault :=
  .mismatched (.wrongLength (form.fields.filter fun f => f.filled s).length
    (form.name ++ " with " ++ toString form.fields.length ++
      if form.fields.length = 1 then " element" else " elements"))

/-- The structure of what was filled in from an array. -/
def completeItems (form : Form σ α) (s : σ) : Except Fault α :=
  match form.complete s with
  | .ok a => .ok a
  | .error _ => .error (form.tooShort s)

/-- The structure of what was filled in from an object. -/
def completeMembers (form : Form σ α) (s : σ) : Except Fault α :=
  match form.complete s with
  | .ok a => .ok a
  | .error name => .error (.mismatched (.missingField name))

/-- The bracket behind the item for the last field. -/
def closingBracket (input : Bytes) : Except Fault (Rest input) :=
  match _h : skipBlanks input with
  | [] => .error (.ended .list)
  | b :: rest =>
    if b = 0x5D then .ok ⟨rest, length_of_skipBlanks_eq _h⟩
    else if b = 0x2C then
      match skipBlanks rest with
      | c :: _ => .error (.malformed (if c = 0x5D then .trailingComma else .trailingCharacters))
      | [] => .error (.malformed .trailingCharacters)
    else .error (.malformed .trailingCharacters)

/-- Fills in the fields in order from the items of an array, behind an item. -/
def laterItems (form : Form σ α) (depth : Nat) (s : σ) :
    List (Field σ) → (input : Bytes) → Except Fault (α × Rest input)
  | [], input =>
    match form.completeItems s with
    | .error f => .error f
    | .ok a => (closingBracket input).map (a, ·)
  | field :: fields, input =>
    match _h : afterItem .closed input with
    | .error f => .error f
    | .ok (.close, after) =>
      (form.completeItems s).map fun a => (a, ⟨after, length_afterItem_lt _h⟩)
    | .ok (.next, after) =>
      match field.ofText depth after s with
      | .error f => .error f
      | .ok (s, rest) =>
        (laterItems form depth s fields rest.1).map fun p =>
          (p.1, ⟨p.2.1, Nat.lt_trans p.2.2 (Nat.lt_trans rest.2 (length_afterItem_lt _h))⟩)

/-- Fills in the fields in order from the items of an array, behind its opening bracket. -/
def ofItems (form : Form σ α) (depth : Nat) (input : Bytes) : Except Fault (α × Rest input) :=
  match _h : skipBlanks input with
  | [] => .error (.ended .list)
  | b :: after =>
    if b = 0x5D then
      (form.completeItems form.blank).map fun a => (a, ⟨after, length_of_skipBlanks_eq _h⟩)
    else
      match form.fields with
      | [] =>
        match form.completeItems form.blank with
        | .error f => .error f
        | .ok a => (closingBracket input).map (a, ·)
      | field :: fields =>
        match field.ofText depth input form.blank with
        | .error f => .error f
        | .ok (s, rest) =>
          (form.laterItems depth s fields rest.1).map fun p =>
            (p.1, ⟨p.2.1, Nat.lt_trans p.2.2 rest.2⟩)

/-- Reads the value of a key, behind the key: into the field of that name, if there is one. -/
def member (form : Form σ α) (depth : Nat) (s : σ) (k : String) (input : Bytes) :
    Except Fault (σ × Rest input) :=
  match form.fields.find? fun f => f.name == k with
  | some field =>
    if field.filled s then .error (.mismatched (.duplicateField k))
    else
      match _h : colon .closed input with
      | .error f => .error f
      | .ok rest =>
        (field.ofText depth rest s).map fun p =>
          (p.1, ⟨p.2.1, Nat.lt_trans p.2.2 (length_colon_lt _h)⟩)
  | none =>
    match _h : colon .closed input with
    | .error f => .error f
    | .ok rest =>
      (skip rest).map fun out => (s, ⟨out.1, Nat.lt_trans out.2 (length_colon_lt _h)⟩)

/-- Fills in the fields from the members of an object, from the next key on, whose quote is
open. -/
def ofMembers (form : Form σ α) (depth : Nat) (s : σ) (input : Bytes) :
    Except Fault (α × Rest input) :=
  match _hk : text .closed input with
  | .error f => .error f
  | .ok (k, rest) =>
    match form.member depth s k rest with
    | .error f => .error f
    | .ok (s, out) =>
      have ho := Nat.lt_trans out.2 (length_text_lt _hk)
      match _h : afterMember .closed out.1 with
      | .error f => .error f
      | .ok (.close, after) =>
        (form.completeMembers s).map fun a =>
          (a, ⟨after, Nat.lt_trans (length_afterMember_lt _h) ho⟩)
      | .ok (.next, after) =>
        have ha := length_afterMember_lt _h
        (ofMembers form depth s after).map fun p =>
          (p.1, ⟨p.2.1, Nat.lt_trans (Nat.lt_trans p.2.2 ha) ho⟩)
termination_by input.length

/-- Reads a structure from text. -/
def ofText (form : Form σ α) (depth : Nat) (input : Bytes) : Except Fault (α × Rest input) :=
  match _h : skipBlanks input with
  | [] => .error (.ended .value)
  | b :: rest =>
    have hb := length_of_skipBlanks_eq _h
    if b = 0x5B then
      match depth with
      | 0 => .error (.malformed .tooDeep)
      | depth + 1 => (form.ofItems depth rest).map fun p => (p.1, ⟨p.2.1, Nat.lt_trans p.2.2 hb⟩)
    else if b = 0x7B then
      match depth with
      | 0 => .error (.malformed .tooDeep)
      | depth + 1 =>
        match _hm : firstMember .closed rest with
        | .error f => .error f
        | .ok (.close, after) =>
          (form.completeMembers form.blank).map fun a =>
            (a, ⟨after, Nat.lt_trans (length_firstMember_lt _hm) hb⟩)
        | .ok (.next, after) =>
          (form.ofMembers depth form.blank after).map fun p =>
            (p.1, ⟨p.2.1, Nat.lt_trans p.2.2 (Nat.lt_trans (length_firstMember_lt _hm) hb)⟩)
    else .error (misshapen form.name b rest)

/-- Fills in the fields in order from the items of an array. -/
def fillItems (s : σ) : List (Field σ) → List Json → Except Fault (σ × List Json)
  | [], rest => .ok (s, rest)
  | _ :: _, [] => .ok (s, [])
  | field :: fields, v :: rest =>
    match field.ofJson v s with
    | .error f => .error f
    | .ok s => fillItems s fields rest

/-- Fills in the fields from the members of an object. -/
def fillMembers (form : Form σ α) (s : σ) : List (String × Json) → Except Fault σ
  | [] => .ok s
  | (k, v) :: rest =>
    match form.fields.find? fun f => f.name == k with
    | none => fillMembers form s rest
    | some field =>
      match field.ofJson v s with
      | .error f => .error f
      | .ok s => fillMembers form s rest

/-- Reads a structure from a value. -/
def ofJson (form : Form σ α) : Json → Except Fault α
  | .arr items =>
    match fillItems form.blank form.fields items with
    | .error f => .error f
    | .ok (s, rest) =>
      match form.completeItems s with
      | .error f => .error f
      | .ok a =>
        if rest.isEmpty then .ok a
        else .error (.mismatched (.wrongLength items.length "fewer elements in array"))
  | .obj members =>
    match form.fillMembers form.blank members with
    | .error f => .error f
    | .ok s => form.completeMembers s
  | v => .error (.mismatched (.wrongType (found v) form.name))

/-- How a structure is read. -/
def decoder (form : Form σ α) : Decoder α where
  ofText := form.ofText
  ofJson := form.ofJson

end Form

/-! ## Shapes of values -/

/-- Null, or a value of a shape. -/
def optional {α : Type} (f : Json → Except Fault α) : Json → Except Fault (Option α)
  | .null => .ok none
  | v => (f v).map some

/-- An array of values of a shape. -/
def listOf {α : Type} (f : Json → Except Fault α) : Json → Except Fault (List α)
  | .arr items => items.mapM f
  | v => .error (.mismatched (.wrongType (found v) "a sequence"))

/-- An object of values of a shape. -/
def mapOf {α : Type} (f : Json → Except Fault α) : Json → Except Fault (List (String × α))
  | .obj members => members.mapM fun m => (f m.2).map (m.1, ·)
  | v => .error (.mismatched (.wrongType (found v) "a map"))

/-- A truth value. -/
def truth : Json → Except Fault Bool
  | .bool b => .ok b
  | v => .error (.mismatched (.wrongType (found v) "a boolean"))

/-! ## Documents -/

/-- Reads a text that holds one value of the wanted shape. -/
def Decoder.parse {α : Type} (d : Decoder α) (s : String) : Except Fault α :=
  match d.ofText depthLimit (bytesOf s) with
  | .error f => .error f
  | .ok (a, rest) => (nothingFollows rest.1).map fun _ => a

end Json

end BatchPool
