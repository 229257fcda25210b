/-!
# JSON values

The values that tokens, records and configurations are made of.

* `Json`: null, truth values, integers, doubles, text, arrays and objects. An integer and a double
  are different values even when they denote the same number.
* `Json.insert`: the members of an object stand in the order of their keys, each key once; a later
  value for a key replaces the earlier one.
* `Json.get?`: the value of a member.
-/

namespace BatchPool

/-- A JSON value. -/
inductive Json where
  | null
  | bool (b : Bool)
  | int (n : Int)
  | float (x : Float)
  | str (s : String)
  | arr (items : List Json)
  | obj (members : List (String × Json))
  deriving Inhabited, Repr

namespace Json

/-! ## Members of an object -/

/-- The members with `value` for `key`, in the order of the keys. -/
def insert (key : String) (value : Json) : List (String × Json) → List (String × Json)
  | [] => [(key, value)]
  | (k, v) :: rest =>
    if key < k then (key, value) :: (k, v) :: rest
    else if key = k then (key, value) :: rest
    else (k, v) :: insert key value rest

/-- The value of the member `key`; `none` where there is none and for values that are no objects. -/
def get? (key : String) : Json → Option Json
  | .obj members => members.lookup key
  | _ => none

/-- The text of a text value. -/
def asText? : Json → Option String
  | .str s => some s
  | _ => none

/-- An object from its members in any order. -/
def ofMembers (members : List (String × Json)) : Json :=
  .obj (members.foldl (fun acc m => insert m.1 m.2 acc) [])

/-! ## Equality -/

mutual
/-- Equality of values: integers by value, doubles by floating-point comparison, and never an
integer with a double. -/
def same : Json → Json → Bool
  | .null, .null => true
  | .bool a, .bool b => a == b
  | .int a, .int b => a == b
  | .float a, .float b => a == b
  | .str a, .str b => a == b
  | .arr as, .arr bs => sameItems as bs
  | .obj as, .obj bs => sameMembers as bs
  | _, _ => false

/-- Equality of arrays, item by item. -/
def sameItems : List Json → List Json → Bool
  | [], [] => true
  | a :: as, b :: bs => same a b && sameItems as bs
  | _, _ => false

/-- Equality of objects, member by member. -/
def sameMembers : List (String × Json) → List (String × Json) → Bool
  | [], [] => true
  | (k, a) :: as, (l, b) :: bs => k == l && same a b && sameMembers as bs
  | _, _ => false
end

instance : BEq Json := ⟨same⟩

/-! ## Small facts -/

end Json

end BatchPool
