import PagedReport.ResultSet.File

/-! # Folders in memory

A folder of named texts and folders stands for the directory in which the command is run, and tells
what comes of opening a path in it.
-/

namespace PagedReport

/-- The entries of a folder by their paths; an entry without text is a folder. -/
structure Folder where
  entries : List (String × Option String)
deriving DecidableEq, Repr

namespace Folder

/-- What stands at a place. -/
inductive Item where
  | text (content : String)
  | folder
  | nothing
deriving DecidableEq, Repr

/-- The names on a path, without empty ones and those of the place itself. -/
def names (path : String) : List String :=
  (path.splitOn "/").filter fun name => name ≠ "" && name ≠ "."

/-- What stands at the place that the names lead to, innermost name first. Outside of the folder
there are folders above it and nothing else. -/
def item (folder : Folder) (place : List String) : Item :=
  if place = [] then .folder
  else
    match folder.entries.find? fun (path, _) => names path = place.reverse with
    | some (_, some content) => .text content
    | some (_, none) => .folder
    | none =>
      if folder.entries.any fun (path, _) => (place.reverse).isPrefixOf (names path) then .folder
      else .nothing

/-- The greatest number of bytes in a name. -/
def nameLimit : Nat := 255

/-- The greatest number of bytes in a path. -/
def pathLimit : Nat := 4095

/-- Follows names from a place, innermost name first. `above` counts the levels outside of the folder,
where no name leads anywhere. A name beyond the limit is refused before it is looked up. -/
def follow (folder : Folder) : (above : Nat) → (place : List String) → List String →
    Except FileError Item
  | 0, place, [] => .ok (folder.item place)
  | _ + 1, _, [] => .ok .folder
  | 0, place, ".." :: rest =>
    match place with
    | [] => follow folder 1 [] rest
    | _ :: outer => follow folder 0 outer rest
  | above + 1, place, ".." :: rest => follow folder (above + 2) place rest
  | 0, place, name :: rest =>
    if nameLimit < name.utf8ByteSize then .error .nameTooLong
    else match folder.item (name :: place) with
      | .nothing => .error .notFound
      | .folder => follow folder 0 (name :: place) rest
      | .text content => if rest = [] then .ok (.text content) else .error .notADirectory
  | _ + 1, _, name :: _ =>
    if nameLimit < name.utf8ByteSize then .error .nameTooLong else .error .notFound

/-- Whether a path says by its end that it leads to a folder. -/
def namesFolder (path : String) : Bool := path.endsWith "/" || path.endsWith "/."

/-- What comes of opening a path. -/
def openPath (folder : Folder) (path : String) : FileContent :=
  if path.toList.contains '\x00' then .unopened .containsNul
  else if path.isEmpty then .unopened .notFound
  else if pathLimit < path.utf8ByteSize then .unopened .nameTooLong
  else
    match follow folder (if path.startsWith "/" then 1 else 0) [] (names path) with
    | .error error => .unopened error
    | .ok .nothing => .unopened .notFound
    | .ok .folder => .unreadable .isADirectory
    | .ok (.text content) =>
      if namesFolder path then .unopened .notADirectory
      else .content (Text.Symbol.ofString content)

end Folder

end PagedReport
