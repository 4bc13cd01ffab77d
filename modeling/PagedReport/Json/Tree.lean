import PagedReport.Binary64

/-! # JSON values

A value as it was read or is to be written. Whole numbers of at most sixty-four bits are kept as
such, and every other number is a binary floating-point number. An object keeps its members in
order, repeated keys included.
-/

namespace PagedReport

/-- A number of a JSON document. -/
inductive Json.Number where
  | integer (n : Int)
  | float (x : Binary64)
deriving DecidableEq, Repr

/-- A JSON value. -/
inductive Json where
  | null
  | bool (b : Bool)
  | number (n : Json.Number)
  | string (s : String)
  | array (items : List Json)
  | object (members : List (String × Json))
deriving Repr, Inhabited

namespace Json

/-- A whole number as a value. -/
def int (n : Int) : Json := .number (.integer n)

/-- A natural number as a value. -/
def nat (n : Nat) : Json := int n

/-- A member put in its place among members with ascending keys, instead of an earlier one with the
same key. -/
def insertMember (key : String) (value : Json) : List (String × Json) → List (String × Json)
  | [] => [(key, value)]
  | (k, v) :: rest =>
    if key < k then (key, value) :: (k, v) :: rest
    else if key = k then (key, value) :: rest
    else (k, v) :: insertMember key value rest

/-- Members with ascending keys, of which the last one with each key is kept. -/
def sortMembers (members : List (String × Json)) : List (String × Json) :=
  members.foldl (fun sorted (key, value) => insertMember key value sorted) []

mutual

/-- The value with the members of every object sorted by key and freed of repeated keys. -/
def sorted : Json → Json
  | .array items => .array (sortedItems items)
  | .object members => .object (sortMembers (sortedMembers members))
  | value => value

/-- Each of the items sorted. -/
def sortedItems : List Json → List Json
  | [] => []
  | item :: rest => sorted item :: sortedItems rest

/-- Each of the member values sorted. -/
def sortedMembers : List (String × Json) → List (String × Json)
  | [] => []
  | (key, value) :: rest => (key, sorted value) :: sortedMembers rest

end

/-- The last member of an object with this key. -/
def member? (key : String) : Json → Option Json
  | .object members => (members.reverse.find? (·.1 == key)).map (·.2)
  | _ => none

end Json

end PagedReport
