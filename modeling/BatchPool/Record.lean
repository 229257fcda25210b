import BatchPool.Json.Decoder

/-!
# Records

* `Record`: a value with the name of its type.
* `Record.ofToken`: the records that a token stands for: one for each item of an array, and one for
  any other value.
* `Record.decoder`, `Record.text`: a record's own written form.
-/

namespace BatchPool

/-- A value with the name of its type. -/
structure Record where
  typeName : String
  data : Json
  deriving BEq, Inhabited

namespace Record

/-- The record of a value: its type is what the member `type` says, if that is a text, and `value`
otherwise. -/
def ofValue (v : Json) : Record :=
  { typeName := ((v.get? "type").bind Json.asText?).getD "value", data := v }

/-- The records that a token stands for. -/
def ofToken : Json → List Record
  | .arr items => items.map ofValue
  | v => [ofValue v]

/-! ## Written form -/

/-- A record that is being filled in. -/
structure Draft where
  typeName : Option String := none
  data : Option Json := none

/-- The written form of a record: both fields have to be there. -/
def form : Json.Form Draft Record where
  name := "struct Record"
  fields := [
    .of "type_name" (·.typeName) (fun a d => { d with typeName := some a }) Json.words,
    .of "data" (·.data) (fun a d => { d with data := some a }) Json.anything]
  blank := {}
  complete d :=
    match d.typeName, d.data with
    | some typeName, some data => .ok { typeName, data }
    | none, _ => .error "type_name"
    | some _, none => .error "data"

/-- How a record is read. -/
def decoder : Json.Decoder Record := form.decoder

/-- The members of a record in their written order. -/
def members (r : Record) : List (String × Json) := [("type_name", .str r.typeName), ("data", r.data)]

/-- A record as JSON text, its fields in order. -/
def text (r : Record) : String := (Json.obj r.members).compact

end Record

end BatchPool
