import PagedReport.Json.Printer
import PagedReport.Json.Scanner

/-! # Drafts of documents

A JSON value can be written without blanks or spread over lines, and the two forms differ only in
the blanks between their parts. A `Style` says which blanks these are, and a `Draft` is a text that
is still open to a style and a level of nesting. Each form of a value is its draft in a style, so
what is proved of drafts holds of both forms. Drafts also write what is no JSON value, such as a
number with more digits than floating point has.
-/

namespace PagedReport.Json

/-- The blanks between the parts of a document. -/
structure Style where
  /-- What stands where a line may begin, by the level of nesting. -/
  gap : (level : Nat) → List Char
  /-- What stands between a colon and a value. -/
  space : List Char
  gap_blank : ∀ level, ∀ c ∈ gap level, isBlank c = true
  space_blank : ∀ c ∈ space, isBlank c = true

namespace Style

/-- No blanks at all. -/
def compact : Style where
  gap _ := []
  space := []
  gap_blank _ _ member := absurd member List.not_mem_nil
  space_blank _ member := absurd member List.not_mem_nil

/-- Every item and member on a line of its own. -/
def indented : Style where
  gap := newLine
  space := [' ']
  gap_blank level c member := by
    rcases List.mem_cons.mp member with rfl | blank
    · rfl
    · rw [List.eq_of_mem_replicate blank]
      rfl
  space_blank c member := by
    rw [List.mem_singleton.mp member]
    rfl

/-- Texts with commas between them and a closing bracket behind them. `first` tells that no text
stands before them in the brackets. -/
def contents (style : Style) (level : Nat) (closing : Char) : (first : Bool) → List (List Char) → List Char
  | true, [] => [closing]
  | false, [] => style.gap level ++ [closing]
  | first, text :: rest =>
    (if first then [] else [',']) ++
      (style.gap (level + 1) ++ (text ++ style.contents level closing false rest))

/-- Behind other texts a comma stands before the first text. -/
theorem contents_cons (style : Style) (level : Nat) (closing : Char) (text : List Char)
    (rest : List (List Char)) :
    style.contents level closing false (text :: rest) =
      ',' :: style.contents level closing true (text :: rest) := rfl

/-- There is a comma or a bracket behind each text. -/
theorem length_le_contents (style : Style) (level : Nat) (closing : Char) (first : Bool)
    (texts : List (List Char)) : texts.length ≤ (style.contents level closing first texts).length := by
  have behind (texts : List (List Char)) :
      texts.length + 1 ≤ (style.contents level closing false texts).length := by
    induction texts with
    | nil => simp [contents]
    | cons text rest ih =>
      rw [contents_cons, List.length_cons, List.length_cons, contents]
      simp only [↓reduceIte, List.nil_append, List.length_append]
      omega
  cases first with
  | false => exact Nat.le_of_succ_le (behind texts)
  | true =>
    cases texts with
    | nil => exact Nat.zero_le _
    | cons text rest =>
      have others := behind rest
      simp only [contents, ↓reduceIte, List.nil_append, List.length_append, List.length_cons]
      omega

end Style

/-- A text that is still open to a style and a level of nesting. -/
abbrev Draft := Style → (level : Nat) → List Char

namespace Draft

/-- A text without blanks between its parts. -/
def token (text : List Char) : Draft := fun _ _ => text

/-- A list of drafts in brackets. -/
def array (items : List Draft) : Draft := fun style level =>
  '[' :: style.contents level ']' true (items.map fun item => item style (level + 1))

/-- A draft behind its key. -/
def member (key : String) (value : Draft) : Draft := fun style level =>
  quotedChars key ++ ':' :: (style.space ++ value style level)

/-- Drafts with keys and the brace behind them. -/
def memberContents (style : Style) (level : Nat) (first : Bool) (members : List (String × Draft)) :
    List Char :=
  style.contents level '\x7d' first
    (members.map fun entry => member entry.1 entry.2 style (level + 1))

/-- A list of drafts with keys in braces. -/
def object (members : List (String × Draft)) : Draft := fun style level =>
  '\x7b' :: memberContents style level true members

end Draft

mutual

/-- A JSON value as a draft. -/
def draft : Json → Draft
  | .null => .token ['n', 'u', 'l', 'l']
  | .bool true => .token ['t', 'r', 'u', 'e']
  | .bool false => .token ['f', 'a', 'l', 's', 'e']
  | .number n => .token n.chars
  | .string s => .token (quotedChars s)
  | .array items => .array (draftItems items)
  | .object members => .object (draftMembers members)

/-- The items of an array as drafts. -/
def draftItems : List Json → List Draft
  | [] => []
  | item :: rest => draft item :: draftItems rest

/-- The members of an object as drafts. -/
def draftMembers : List (String × Json) → List (String × Draft)
  | [] => []
  | (key, value) :: rest => (key, draft value) :: draftMembers rest

end

theorem draft_array (items : List Json) : draft (.array items) = .array (items.map draft) := by
  have each : draftItems items = items.map draft := by
    induction items with
    | nil => rfl
    | cons item rest ih => rw [draftItems, ih, List.map_cons]
  rw [draft, each]

theorem draft_object (members : List (String × Json)) :
    draft (.object members) = .object (members.map fun entry => (entry.1, draft entry.2)) := by
  have each : draftMembers members = members.map fun entry => (entry.1, draft entry.2) := by
    induction members with
    | nil => rfl
    | cons entry rest ih => rw [draftMembers, ih, List.map_cons]
  rw [draft, each]

/-- Texts that are joined by commas and blanks are the contents of brackets. -/
private theorem contents_of_join {α : Type} (style : Style) (level : Nat) (closing : Char)
    (join : List α → List Char) (text : α → List Char) (single : ∀ a, join [a] = text a)
    (more : ∀ a next rest, join (a :: next :: rest) =
      text a ++ ',' :: (style.gap (level + 1) ++ join (next :: rest))) (a : α) (rest : List α) :
    style.gap (level + 1) ++ (join (a :: rest) ++ (style.gap level ++ [closing])) =
      style.contents level closing true ((a :: rest).map text) := by
  -- On the texts behind the first: a join puts the comma behind a text, the contents before the next.
  induction rest generalizing a with
  | nil =>
    rw [single]
    rfl
  | cons next rest ih =>
    rw [more, List.map_cons, List.append_assoc, List.cons_append, List.append_assoc, ih next]
    rfl

/-- What holds of a value as soon as it holds of its parts holds of every value. -/
theorem byParts {motive : Json → Prop} (null : motive .null) (bool : ∀ b, motive (.bool b))
    (number : ∀ n, motive (.number n)) (string : ∀ s, motive (.string s))
    (array : ∀ items, (∀ item ∈ items, motive item) → motive (.array items))
    (object : ∀ members, (∀ entry ∈ members, motive entry.2) → motive (.object members)) :
    ∀ value, motive value
  | .null => null
  | .bool b => bool b
  | .number n => number n
  | .string s => string s
  | .array items => array items fun item _ => byParts null bool number string array object item
  | .object members => object members fun entry _ =>
    byParts null bool number string array object entry.2
termination_by value => sizeOf value
decreasing_by
  · have inside := List.sizeOf_lt_of_mem ‹item ∈ items›
    simp only [Json.array.sizeOf_spec]
    omega
  · have inside := List.sizeOf_lt_of_mem ‹entry ∈ members›
    have part : sizeOf entry = 1 + sizeOf entry.1 + sizeOf entry.2 := by
      cases entry
      rfl
    simp only [Json.object.sizeOf_spec]
    omega

/-- A value without blanks is its draft in the style that has none. -/
theorem compactChars_eq_draft (value : Json) (level : Nat) :
    compactChars value = value.draft .compact level := by
  induction value using byParts generalizing level with
  | null | number | string => rfl
  | bool b => cases b <;> rfl
  | array items ih =>
    cases items with
    | nil => rfl
    | cons item rest =>
      have joined := contents_of_join .compact level ']' compactItems compactChars
        (fun _ => by simp only [compactItems])
        (fun _ _ _ => by simp [compactItems, Style.compact]) item rest
      rw [List.map_congr_left fun other member => ih other member (level + 1)] at joined
      rw [draft_array, Draft.array, List.map_map, compactChars]
      exact congrArg ('[' :: ·) joined
  | object members ih =>
    cases members with
    | nil => rfl
    | cons entry rest =>
      have joined := contents_of_join .compact level '\x7d' compactMembers
        (fun other => quotedChars other.1 ++ ':' :: compactChars other.2)
        (fun _ => by simp only [compactMembers])
        (fun _ _ _ => by simp [compactMembers, Style.compact]) entry rest
      rw [List.map_congr_left fun other member => congrArg (quotedChars other.1 ++ ':' :: ·)
        (ih other member (level + 1))] at joined
      rw [draft_object, Draft.object, Draft.memberContents, List.map_map, compactChars]
      exact congrArg ('\x7b' :: ·) joined

/-- A value spread over lines is its draft in the style of lines. -/
theorem indentedChars_eq_draft (value : Json) (level : Nat) :
    indentedChars level value = value.draft .indented level := by
  induction value using byParts generalizing level with
  | null | number | string => rfl
  | bool b => cases b <;> rfl
  | array items ih =>
    cases items with
    | nil => rfl
    | cons item rest =>
      have joined := contents_of_join .indented level ']' (indentedItems (level + 1))
        (indentedChars (level + 1)) (fun _ => by simp only [indentedItems])
        (fun _ _ _ => by simp [indentedItems, Style.indented]) item rest
      rw [List.map_congr_left fun other member => ih other member (level + 1)] at joined
      rw [draft_array, Draft.array, List.map_map, indentedChars, List.append_assoc, List.append_assoc]
      exact congrArg ('[' :: ·) joined
  | object members ih =>
    cases members with
    | nil => rfl
    | cons entry rest =>
      have joined := contents_of_join .indented level '\x7d' (indentedMembers (level + 1))
        (fun other => quotedChars other.1 ++ ':' :: ' ' :: indentedChars (level + 1) other.2)
        (fun _ => by simp only [indentedMembers])
        (fun _ _ _ => by simp [indentedMembers, Style.indented]) entry rest
      rw [List.map_congr_left fun other member => congrArg (quotedChars other.1 ++ ':' :: ' ' :: ·)
        (ih other member (level + 1))] at joined
      rw [draft_object, Draft.object, Draft.memberContents, List.map_map, indentedChars, List.append_assoc,
        List.append_assoc]
      exact congrArg ('\x7b' :: ·) joined

theorem compact_eq_draft (value : Json) : value.compact = String.ofList (value.draft .compact 0) :=
  congrArg String.ofList (compactChars_eq_draft value 0)

theorem indented_eq_draft (value : Json) : value.indented = String.ofList (value.draft .indented 0) :=
  congrArg String.ofList (indentedChars_eq_draft value 0)

end PagedReport.Json
