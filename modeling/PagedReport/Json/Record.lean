import PagedReport.Json.Reader

/-! # Reading records

A record is read from an object by the keys of its fields, or from an array that lists the values of
its fields in order. Reading starts from a record of defaults and stores one field after the other;
fields that may be absent keep their default. A key must not come twice. An unknown key is passed
over, or refused where the record is strict.
-/

namespace PagedReport.Json

/-- A field of a record `σ`: its key, whether it must be present, and how its value is read into
the record. -/
structure RecordField (σ : Type) where
  key : String
  required : Bool
  read : σ → Reader σ

namespace RecordField

/-- A field that reads a value and stores it. -/
def storing {σ α : Type} (required : Bool) (key : String) (read : Reader α) (store : σ → α → σ) :
    RecordField σ :=
  ⟨key, required, fun record input => do
    let (value, rest) ← read input
    .ok (store record value, rest)⟩

/-- A field that must be present. -/
def mandatory {σ α : Type} (key : String) (read : Reader α) (store : σ → α → σ) : RecordField σ :=
  storing true key read store

/-- A field that keeps its default when absent. -/
def optional {σ α : Type} (key : String) (read : Reader α) (store : σ → α → σ) : RecordField σ :=
  storing false key read store

end RecordField

variable {σ : Type}

/-- The fields of an object from a given place on. `seen` holds the keys that have been read. -/
def readFields (fields : List (RecordField σ)) (strict : Bool) :
    (fuel : Nat) → (first : Bool) → (seen : List String) → σ → Reader σ
  | 0, _, _, _, _ => .error .endOfText
  | fuel + 1, first, seen, record, input => do
    match ← nextKey first input with
    | .inr rest =>
      if fields.all fun field => !field.required || seen.contains field.key then
        .ok (record, rest)
      else .error .mismatch
    | .inl (key, rest) =>
      match fields.find? (·.key == key) with
      | some field =>
        if seen.contains key then .error .mismatch
        else do
          let rest ← readColon rest
          let (record, rest) ← field.read record rest
          readFields fields strict fuel false (key :: seen) record rest
      | none =>
        if strict then .error .mismatch
        else do
          let rest ← readColon rest
          let rest ← skipValue rest
          readFields fields strict fuel false seen record rest

/-- The fields of an array from a given place on, in order. -/
def readValues : List (RecordField σ) → (first : Bool) → σ → Reader σ
  | [], _, record, input =>
    match skipBlanks input with
    | [] => .error .endOfText
    | .char ']' :: rest => .ok (record, rest)
    | _ => .error .malformed
  | field :: fields, first, record, input => do
    match ← nextItem ']' first input with
    | .inr rest =>
      if (field :: fields).any RecordField.required then .error .mismatch else .ok (record, rest)
    | .inl input => do
      let (record, rest) ← field.read record input
      readValues fields false record rest

/-- A record, from the defaults it starts with. -/
def readRecord (fields : List (RecordField σ)) (strict : Bool) (start : σ) : Reader σ := fun input =>
  match skipBlanks input with
  | .char '\x7b' :: rest => readFields fields strict (rest.length + 1) true [] start rest
  | .char '[' :: rest => readValues fields true start rest
  | input => .error (wrongType input)

end PagedReport.Json
