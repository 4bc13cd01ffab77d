import PagedReport.Proofs.Json.ReadBack

/-! # Documents that are written

A value is read back as a tree if its numbers are whole and of sixty-four bits, it nests no deeper than
the reader goes, and none of its objects looks like one that stands for a document of its own. The whole
document is then parsed from each of its written forms.
-/

namespace PagedReport.Json

open Draft (memberContents)
open Text (Symbol)

/-- A value that is read as it is written, with at most `levels` containers open inside each other. -/
inductive Readable : (levels : Nat) → Json → Prop
  | null {levels : Nat} : Readable levels .null
  | bool {levels : Nat} (b : Bool) : Readable levels (.bool b)
  | string {levels : Nat} (s : String) : Readable levels (.string s)
  | int {levels : Nat} {n : Int} (word : IsWord n) : Readable levels (int n)
  | array {levels : Nat} {items : List Json} (all : ∀ item ∈ items, Readable levels item) :
    Readable (levels + 1) (.array items)
  | object {levels : Nat} {members : List (String × Json)}
      (plain : ∀ entry ∈ members, entry.1 ≠ embeddedKey)
      (all : ∀ entry ∈ members, Readable levels entry.2) :
    Readable (levels + 1) (.object members)

section Members

variable {α : Type} {read : Reader α} {members : List (String × Draft)} {values : List (String × α)}

/-- The members of an object are read one by one. -/
theorem readMembers_contents
    (all : List.Forall₂ (fun entry value => entry.1 = value.1 ∧ Reads read entry.2 value.2) members values)
    (style : Style) (level fuel : Nat) (enough : members.length < fuel) (first : Bool) (rest : Input) :
    readMembers read fuel first (Symbol.ofChars (memberContents style level first members) ++ rest) =
      .ok (values, rest) := by
  induction all generalizing fuel first with
  | nil =>
    obtain ⟨fuel, rfl⟩ := Nat.exists_eq_succ_of_ne_zero (Nat.ne_zero_of_lt enough)
    rw [readMembers, nextKey_nil, ok_bind]
  | @cons entry value members values head _ ih =>
    obtain ⟨fuel, rfl⟩ := Nat.exists_eq_succ_of_ne_zero (Nat.ne_zero_of_lt enough)
    obtain ⟨key, draft⟩ := entry
    obtain ⟨name, value⟩ := value
    obtain ⟨rfl, reads⟩ : key = name ∧ Reads read draft value := head
    rw [readMembers, nextKey_cons, ok_bind]
    simp only [readColon_afterKey, ok_bind, reads.read_afterColon,
      ih fuel (Nat.lt_of_succ_lt_succ enough)]

end Members

/-- An object stands for a document of its own only by the reserved key. -/
private theorem afterEmbeddedKey?_eq_none {members : List (String × Draft)}
    (plain : ∀ entry ∈ members, entry.1 ≠ embeddedKey) (style : Style) (level : Nat) (rest : Input) :
    afterEmbeddedKey? (Symbol.ofChars (memberContents style level true members) ++ rest) = none := by
  cases members with
  | nil => rw [afterEmbeddedKey?, nextKey_nil]
  | cons entry members =>
    obtain ⟨key, value⟩ := entry
    have other : key ≠ embeddedKey := plain (key, value) List.mem_cons_self
    rw [afterEmbeddedKey?, nextKey_cons]
    simp only [other, ↓reduceIte]

section Trees

variable {embedded? : Option (Input → Except Fault Json)} {levels : Nat} {input rest : Input}

private theorem readTree_string (here : skipBlanks input = .char '"' :: rest) :
    readTree embedded? levels input =
      (quotedString rest >>= fun (text, rest) => .ok (.string text, rest)) := by
  rw [readTree, here]
  rfl

private theorem readTree_number {c : Char} (head : c = '-' ∨ c.isDigit = true)
    (here : skipBlanks input = .char c :: rest) :
    readTree embedded? levels input =
      (readNumber (.char c :: rest) >>= fun (n, rest) => .ok (.number n, rest)) := by
  rw [readTree, here]
  -- Every other kind of value starts with a mark of its own, which is no digit.
  split
  case h_8 found =>
    cases found
    rw [if_pos head]
  all_goals
    next found =>
      cases found
      try exact absurd head (by decide)

private theorem readTree_array (here : skipBlanks input = .char '[' :: rest) :
    readTree embedded? (levels + 1) input =
      (readItems (readTree embedded? levels) (rest.length + 1) true rest >>= fun (items, rest) =>
        .ok (.array items, rest)) := by
  rw [readTree, here]
  rfl

private theorem readTree_object (here : skipBlanks input = .char '\x7b' :: rest)
    (plain : afterEmbeddedKey? rest = none) :
    readTree embedded? (levels + 1) input =
      (readMembers (readTree embedded? levels) (rest.length + 1) true rest >>= fun (members, rest) =>
        .ok (.object members, rest)) := by
  rw [readTree, here]
  cases embedded? with
  | none => rfl
  | some parse => simp [plain]

end Trees

/-- A value is read as a tree. -/
theorem Readable.reads {levels : Nat} {value : Json} (readable : Readable levels value)
    (embedded? : Option (Input → Except Fault Json)) :
    Reads (readTree embedded? levels) value.draft value := by
  induction readable with
  | null =>
    refine ⟨⟨'n', fun _ _ => ⟨_, rfl⟩, rfl, by decide⟩, fun style level input rest here _ => ?_⟩
    rw [readTree, here]
    rfl
  | bool b =>
    refine ⟨(reads_bool b).opens, fun style level input rest here _ => ?_⟩
    rw [readTree, here]
    cases b <;> rfl
  | string s =>
    refine ⟨(reads_string s).opens, fun style level input rest here _ => ?_⟩
    rw [draft, Draft.token, quotedChars, Symbol.ofChars_cons, List.cons_append] at here
    rw [readTree_string here, quotedString_chars, ok_bind]
  | @int levels n word =>
    have number := reads_integerIn (Int.le_refl n) (Int.le_refl n) word
    refine ⟨number.opens, fun style level input rest here ends => ?_⟩
    obtain ⟨c, tail, text, head⟩ := Numeral.exists_chars_eq ⟨n, 0⟩
    have read := readNumber_intChars word ends
    have written : draft (.int n) style level = intChars n := rfl
    rw [written] at here
    rw [intChars_eq, text, Symbol.ofChars_cons, List.cons_append] at here read
    rw [readTree_number head here, read, ok_bind]
    rfl
  | @array levels items _ ih =>
    rw [draft_array]
    refine ⟨⟨'[', fun _ _ => ⟨_, rfl⟩, rfl, by decide⟩, fun style level input rest here _ => ?_⟩
    have all : List.Forall₂ (Reads (readTree embedded? levels)) (items.map draft) items :=
      List.forall₂_map_left_iff.mpr (List.forall₂_same.mpr ih)
    rw [Draft.array, Symbol.ofChars_cons, List.cons_append] at here
    rw [readTree_array here, readItems_contents all, ok_bind]
    exact length_lt_contents style level ']' _ _ rest
  | @object levels members plain _ ih =>
    rw [draft_object]
    refine ⟨⟨'\x7b', fun _ _ => ⟨_, rfl⟩, rfl, by decide⟩, fun style level input rest here _ => ?_⟩
    have all : List.Forall₂ (fun entry value => entry.1 = value.1 ∧
          Reads (readTree embedded? levels) entry.2 value.2)
        (members.map fun entry => (entry.1, draft entry.2)) members :=
      List.forall₂_map_left_iff.mpr (List.forall₂_same.mpr fun entry member => ⟨rfl, ih entry member⟩)
    have unreserved : ∀ entry ∈ members.map fun entry => (entry.1, draft entry.2),
        entry.1 ≠ embeddedKey := by
      intro entry member
      obtain ⟨other, known, rfl⟩ := List.mem_map.mp member
      exact plain other known
    rw [Draft.object, Symbol.ofChars_cons, List.cons_append] at here
    rw [readTree_object here (afterEmbeddedKey?_eq_none unreserved style level rest)]
    rw [readMembers_contents all, ok_bind]
    exact length_lt_memberContents style level rest _

/-- A document is parsed from each of its written forms, with blanks behind it. -/
theorem Readable.parse_append {value : Json} (readable : Readable depthLimit value) (style : Style)
    {blanks : List Char} (all : ∀ c ∈ blanks, isBlank c = true) :
    parse (Symbol.ofChars (value.draft style 0 ++ blanks)) = .ok value := by
  rw [Json.parse, parseWithin]
  exact (readable.reads _).readDocument_append style 0 all

/-- A document is parsed from each of its written forms. -/
theorem Readable.parse {value : Json} (readable : Readable depthLimit value) (style : Style) :
    parse (Symbol.ofChars (value.draft style 0)) = .ok value := by
  rw [Json.parse, parseWithin]
  exact (readable.reads _).readDocument style 0

end PagedReport.Json
