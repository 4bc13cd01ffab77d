import PagedReport.Json.Record
import PagedReport.Proofs.Json.Drafts
import PagedReport.Proofs.Json.WrittenStrings

/-! # Readers of what is written

A reader reads a draft if it takes the draft for a value in every style, at every level and whatever
stands behind, as long as that does not go on with a number. Scalars are read by what the scanner does
with their characters. Arrays and records are read as soon as their items and fields are, so the reader
of a record is checked field by field.
-/

namespace PagedReport.Json

open Text (Symbol)

variable {α σ : Type}

/-- The first character of a draft, in every style. -/
def Draft.Starts (draft : Draft) (c : Char) : Prop := ∀ style level, ∃ tail, draft style level = c :: tail

/-- A reader takes a draft for a value. -/
structure Reads (read : Reader α) (draft : Draft) (a : α) : Prop where
  opens : ∃ c, draft.Starts c ∧ isBlank c = false ∧ c ≠ ']'
  reads : ∀ (style : Style) (level : Nat) (input rest : Input),
    skipBlanks input = Symbol.ofChars (draft style level) ++ rest → EndsNumber rest →
      read input = .ok (a, rest)

section Blanks

theorem skipBlanks_of_solid {c : Char} (solid : isBlank c = false) (rest : Input) :
    skipBlanks (.char c :: rest) = .char c :: rest := by
  simp [skipBlanks, solid]

theorem skipBlanks_append {blanks : List Char} (all : ∀ c ∈ blanks, isBlank c = true) (rest : Input) :
    skipBlanks (Symbol.ofChars blanks ++ rest) = skipBlanks rest := by
  induction blanks with
  | nil => rfl
  | cons c blanks ih =>
    have others := ih fun other member => all other (List.mem_cons_of_mem _ member)
    simp [skipBlanks, all c List.mem_cons_self, others]

/-- A draft is found behind blanks. -/
theorem Reads.skipBlanks_append {read : Reader α} {draft : Draft} {a : α} (value : Reads read draft a)
    {blanks : List Char} (all : ∀ c ∈ blanks, isBlank c = true) (style : Style) (level : Nat)
    (rest : Input) :
    skipBlanks (Symbol.ofChars blanks ++ (Symbol.ofChars (draft style level) ++ rest)) =
      Symbol.ofChars (draft style level) ++ rest := by
  obtain ⟨c, starts, solid, _⟩ := value.opens
  obtain ⟨tail, text⟩ := starts style level
  rw [Json.skipBlanks_append all, text, Symbol.ofChars_cons, List.cons_append, skipBlanks_of_solid solid]

/-- A reader reads a draft that nothing stands before. -/
theorem Reads.read_append {read : Reader α} {draft : Draft} {a : α} (value : Reads read draft a)
    (style : Style) (level : Nat) {rest : Input} (ends : EndsNumber rest) :
    read (Symbol.ofChars (draft style level) ++ rest) = .ok (a, rest) :=
  value.reads style level _ rest (value.skipBlanks_append (fun _ none => absurd none List.not_mem_nil)
    style level rest) ends

/-- A blank does not go on with a number. -/
theorem endsNumber_of_blank {c : Char} (blank : isBlank c = true) (rest : Input) :
    EndsNumber (.char c :: rest) := by
  have known : ((c = ' ' ∨ c = '\t') ∨ c = '\n') ∨ c = '\r' := by simpa [isBlank] using blank
  obtain ((rfl | rfl) | rfl) | rfl := known
  all_goals exact endsNumber_cons (by decide) (by decide) (by decide) rest

end Blanks

section Strings

/-- A string starts with a quote. -/
private theorem starts_quoted (s : String) : (Draft.token (quotedChars s)).Starts '"' := fun _ _ => ⟨_, rfl⟩

theorem reads_string (s : String) : Reads readString (.token (quotedChars s)) s where
  opens := ⟨'"', starts_quoted s, rfl, by decide⟩
  reads style level input rest here _ := by
    rw [Draft.token, quotedChars, Symbol.ofChars_cons, List.cons_append] at here
    rw [readString, here]
    exact quotedString_chars s rest

/-- A name of a table is read as what it stands for. -/
theorem reads_name {table : List (String × α)} {name : String} {a : α}
    (known : lookupName table name = .ok a) : Reads (readName table) (.token (quotedChars name)) a where
  opens := ⟨'"', starts_quoted name, rfl, by decide⟩
  reads style level input rest here _ := by
    rw [Draft.token, quotedChars, Symbol.ofChars_cons, List.cons_append] at here
    rw [readName, here]
    simp only [quotedString_chars, ok_bind, known, pure_eq_ok]

end Strings

section Scalars

theorem reads_bool (b : Bool) : Reads readBool (draft (.bool b)) b where
  opens := by
    cases b with
    | true => exact ⟨'t', fun _ _ => ⟨_, rfl⟩, rfl, by decide⟩
    | false => exact ⟨'f', fun _ _ => ⟨_, rfl⟩, rfl, by decide⟩
  reads style level input rest here _ := by
    rw [readBool, here]
    cases b <;> rfl

/-- What a numeral begins with. -/
theorem opens_numeral (n : Numeral) :
    ∃ c, (Draft.token n.chars).Starts c ∧ isBlank c = false ∧ c ≠ ']' := by
  obtain ⟨c, tail, text, head⟩ := n.exists_chars_eq
  refine ⟨c, fun _ _ => ⟨tail, text⟩, isBlank_of_head head, ?_⟩
  rintro rfl
  exact absurd head (by decide)

/-- A whole number between two bounds is read, if sixty-four bits hold it. -/
theorem reads_integerIn {least greatest n : Int} (lower : least ≤ n) (upper : n ≤ greatest)
    (word : IsWord n) : Reads (readIntegerIn least greatest) (.token (intChars n)) n where
  opens := by
    rw [intChars_eq]
    exact opens_numeral ⟨n, 0⟩
  reads style level input rest here ends := by
    obtain ⟨c, tail, text, head⟩ := Numeral.exists_chars_eq ⟨n, 0⟩
    have number := readNumber_intChars word ends
    rw [Draft.token] at here
    rw [intChars_eq, text, Symbol.ofChars_cons, List.cons_append] at here number
    rw [readIntegerIn, here]
    simp only [head, ↓reduceIte, number, ok_bind, lower, upper, and_self]

/-- A whole number that thirty-two bits hold with sign. -/
def IsLength (n : Int) : Prop := -2147483648 ≤ n ∧ n ≤ 2147483647

instance (n : Int) : Decidable (IsLength n) := inferInstanceAs (Decidable (_ ∧ _))

theorem IsLength.isWord {n : Int} (range : IsLength n) : IsWord n := by
  obtain ⟨lower, upper⟩ := range
  unfold IsWord Literal.negativeLimit Literal.significandLimit
  omega

theorem reads_length {n : Int} (range : IsLength n) : Reads readLength (draft (int n)) n :=
  reads_integerIn range.1 range.2 range.isWord

theorem isWord_natCast {n : Nat} (small : n ≤ Literal.significandLimit) : IsWord n := by
  unfold IsWord
  omega

/-- A natural number that is read as a whole number. -/
theorem reads_toNat {greatest n : Nat} (upper : n ≤ greatest) (word : greatest ≤ Literal.significandLimit) :
    Reads (fun input => do
      let (n, rest) ← readIntegerIn 0 greatest input
      .ok (n.toNat, rest)) (draft (nat n)) n := by
  have number := reads_integerIn (Int.natCast_nonneg n) (Int.ofNat_le.mpr upper)
    (isWord_natCast (Nat.le_trans upper word))
  refine ⟨number.opens, fun style level input rest here ends => ?_⟩
  rw [number.reads style level input rest here ends]
  rfl

/-- A natural number that thirty-two bits hold without sign. -/
def IsCount (n : Nat) : Prop := n ≤ 4294967295

instance (n : Nat) : Decidable (IsCount n) := inferInstanceAs (Decidable (_ ≤ _))

theorem IsCount.isWord {n : Nat} (range : IsCount n) : IsWord n :=
  isWord_natCast (Nat.le_trans range (by decide))

theorem reads_count {n : Nat} (range : IsCount n) : Reads readCount (draft (nat n)) n :=
  reads_toNat range (by decide)

/-- A value that is not null is read where null may stand. -/
theorem Reads.nullable {read : Reader α} {draft : Draft} {a : α} (value : Reads read draft a) {c : Char}
    (starts : draft.Starts c) (given : c ≠ 'n') :
    Reads (readNullable read) draft (some a) where
  opens := value.opens
  reads style level input rest here ends := by
    have read := value.read_append style level ends
    obtain ⟨tail, text⟩ := starts style level
    rw [text, Symbol.ofChars_cons, List.cons_append] at here read
    unfold readNullable
    rw [here]
    -- The first character already tells the value from a null.
    split
    · next found => exact absurd (by simpa using found : c = 'n' ∧ _).1 given
    · rw [read, ok_bind]

end Scalars

section Containers

/-- A bracket that closes a container. -/
def IsClosing (c : Char) : Prop := c = ']' ∨ c = '\x7d'

variable {closing : Char}

theorem isBlank_of_isClosing (bracket : IsClosing closing) : isBlank closing = false := by
  obtain rfl | rfl := bracket <;> rfl

/-- What stands behind a text in brackets does not go on with a number. -/
theorem endsNumber_contents (style : Style) (level : Nat) (bracket : IsClosing closing)
    (texts : List (List Char)) (rest : Input) :
    EndsNumber (Symbol.ofChars (style.contents level closing false texts) ++ rest) := by
  cases texts with
  | nil =>
    cases gap : style.gap level with
    | nil =>
      rw [Style.contents, gap]
      obtain rfl | rfl := bracket
      all_goals exact endsNumber_cons (by decide) (by decide) (by decide) rest
    | cons c blanks =>
      rw [Style.contents, gap]
      apply endsNumber_of_blank
      apply style.gap_blank level
      rw [gap]
      exact List.mem_cons_self
  | cons text texts =>
    rw [Style.contents_cons]
    exact endsNumber_cons (by decide) (by decide) (by decide) _

/-- Behind the last text the container ends. -/
theorem nextItem_contents_nil (style : Style) (level : Nat) (bracket : IsClosing closing) (first : Bool)
    (rest : Input) :
    nextItem closing first (Symbol.ofChars (style.contents level closing first []) ++ rest) =
      .ok (.inr rest) := by
  have solid := isBlank_of_isClosing bracket
  have here : skipBlanks (Symbol.ofChars (style.contents level closing first []) ++ rest) =
      .char closing :: rest := by
    cases first with
    | true => exact skipBlanks_of_solid solid rest
    | false =>
      rw [Style.contents, Symbol.ofChars_append, List.append_assoc,
        skipBlanks_append (style.gap_blank level)]
      exact skipBlanks_of_solid solid rest
  rw [nextItem, here]
  simp only [↓reduceIte]

/-- Any other text is the next item. -/
theorem nextItem_contents_cons (style : Style) (level : Nat) (bracket : IsClosing closing) (first : Bool)
    {c : Char} (solid : isBlank c = false) (apart : c ≠ closing) (tail : List Char)
    (texts : List (List Char)) (rest : Input) :
    nextItem closing first (Symbol.ofChars (style.contents level closing first ((c :: tail) :: texts)) ++
        rest) =
      .ok (.inl (Symbol.ofChars (c :: tail) ++
        (Symbol.ofChars (style.contents level closing false texts) ++ rest))) := by
  have here : skipBlanks (Symbol.ofChars (style.contents level closing true ((c :: tail) :: texts)) ++ rest) =
      .char c :: (Symbol.ofChars tail ++
        (Symbol.ofChars (style.contents level closing false texts) ++ rest)) := by
    simp only [Style.contents, ↓reduceIte, List.nil_append, Symbol.ofChars_append, List.append_assoc]
    rw [skipBlanks_append (style.gap_blank (level + 1)), Symbol.ofChars_cons, List.cons_append,
      skipBlanks_of_solid solid]
  -- Behind its comma a later item stands as the first one does.
  cases first with
  | true =>
    rw [nextItem, here]
    simp only [apart, ↓reduceIte]
    rfl
  | false =>
    have comma : ',' ≠ closing := by obtain rfl | rfl := bracket <;> decide
    rw [Style.contents_cons, Symbol.ofChars_cons, List.cons_append, nextItem,
      skipBlanks_of_solid (by decide)]
    simp only [comma, ↓reduceIte, here, Bool.false_eq_true, Symbol.char.injEq, apart]
    rfl

/-- The text of a container is long enough to bound the number of its items. -/
theorem length_lt_contents {β : Type} (style : Style) (level : Nat) (closing : Char) (text : β → List Char)
    (items : List β) (rest : Input) :
    items.length < (Symbol.ofChars (style.contents level closing true (items.map text)) ++ rest).length + 1 := by
  have long := style.length_le_contents level closing true (items.map text)
  rw [List.length_map] at long
  rw [List.length_append, Symbol.length_ofChars]
  omega

/-- The items of an array are read one by one. -/
theorem readItems_contents {read : Reader α} {items : List Draft} {values : List α}
    (all : List.Forall₂ (Reads read) items values) (style : Style) (level fuel : Nat)
    (enough : items.length < fuel) (first : Bool) (rest : Input) :
    readItems read fuel first (Symbol.ofChars (style.contents level ']' first
        (items.map fun item => item style (level + 1))) ++ rest) = .ok (values, rest) := by
  have bracket : IsClosing ']' := .inl rfl
  -- On the items: each takes one unit of fuel, and a comma is due before all but the first.
  induction all generalizing fuel first with
  | nil =>
    obtain ⟨fuel, rfl⟩ := Nat.exists_eq_succ_of_ne_zero (Nat.ne_zero_of_lt enough)
    rw [readItems, List.map_nil, nextItem_contents_nil style level bracket first rest]
    rfl
  | @cons item value items values reads _ ih =>
    obtain ⟨fuel, rfl⟩ := Nat.exists_eq_succ_of_ne_zero (Nat.ne_zero_of_lt enough)
    obtain ⟨c, starts, solid, apart⟩ := reads.opens
    obtain ⟨tail, text⟩ := starts style (level + 1)
    have here := reads.read_append style (level + 1) (endsNumber_contents style level bracket
      (items.map fun item => item style (level + 1)) rest)
    rw [text] at here
    rw [readItems, List.map_cons, text, nextItem_contents_cons style level bracket first solid apart, ok_bind]
    simp only [here, ok_bind, ih fuel (Nat.lt_of_succ_lt_succ enough)]

/-- An array is read item by item. -/
theorem reads_array {read : Reader α} {items : List Draft} {values : List α}
    (all : List.Forall₂ (Reads read) items values) : Reads (readArray read) (.array items) values where
  opens := ⟨'[', fun _ _ => ⟨_, rfl⟩, rfl, by decide⟩
  reads style level input rest here _ := by
    rw [Draft.array, Symbol.ofChars_cons, List.cons_append] at here
    rw [readArray, here]
    apply readItems_contents all
    exact length_lt_contents style level ']' _ items rest

end Containers

section Records

open Draft (memberContents)

variable (style : Style) (level : Nat) (first : Bool) (rest : Input)

theorem nextKey_nil :
    nextKey first (Symbol.ofChars (memberContents style level first []) ++ rest) = .ok (.inr rest) := by
  rw [nextKey, memberContents, List.map_nil, nextItem_contents_nil style level (.inr rfl) first rest]
  rfl

/-- The text behind the key of a member: the colon, the value and the other members. -/
def afterKey (value : Draft) (members : List (String × Draft)) : Input :=
  .char ':' :: (Symbol.ofChars style.space ++ (Symbol.ofChars (value style (level + 1)) ++
    (Symbol.ofChars (memberContents style level false members) ++ rest)))

theorem nextKey_cons (key : String) (value : Draft) (members : List (String × Draft)) :
    nextKey first (Symbol.ofChars (memberContents style level first ((key, value) :: members)) ++ rest) =
      .ok (.inl (key, afterKey style level rest value members)) := by
  rw [nextKey, memberContents, List.map_cons, Draft.member, quotedChars, List.cons_append,
    nextItem_contents_cons style level (.inr rfl) first (by decide) (by decide), ok_bind]
  simp only [Symbol.ofChars_cons, List.cons_append]
  have read := quotedString_chars key (afterKey style level rest value members)
  simp only [afterKey, memberContents, Symbol.ofChars_append, Symbol.ofChars_cons, List.append_assoc,
    List.cons_append] at read ⊢
  rw [read]
  rfl

/-- A member is read behind its colon. -/
theorem readColon_afterKey (value : Draft) (members : List (String × Draft)) :
    readColon (afterKey style level rest value members) =
      .ok (Symbol.ofChars style.space ++ (Symbol.ofChars (value style (level + 1)) ++
        (Symbol.ofChars (memberContents style level false members) ++ rest))) := by
  rw [readColon, afterKey, skipBlanks_of_solid (by decide)]
  rfl

/-- The value of a member is read up to the other members. -/
theorem Reads.read_afterColon {read : Reader α} {value : Draft} {a : α} (reads : Reads read value a)
    (members : List (String × Draft)) :
    read (Symbol.ofChars style.space ++ (Symbol.ofChars (value style (level + 1)) ++
      (Symbol.ofChars (memberContents style level false members) ++ rest))) =
      .ok (a, Symbol.ofChars (memberContents style level false members) ++ rest) :=
  reads.reads style (level + 1) _ _ (reads.skipBlanks_append style.space_blank style (level + 1) _)
    (endsNumber_contents style level (.inr rfl) _ rest)

theorem length_lt_memberContents (members : List (String × Draft)) :
    members.length < (Symbol.ofChars (memberContents style level true members) ++ rest).length + 1 :=
  length_lt_contents style level '\x7d' _ members rest

/-- Members that fill a record: the fields come in order, and those that are left out may be absent. -/
inductive Fills : List (RecordField σ) → List (String × Draft) → σ → σ → Prop
  | nil (record : σ) : Fills [] [] record record
  | given {field : RecordField σ} {fields : List (RecordField σ)} {value : Draft}
      {members : List (String × Draft)} {record next last : σ}
      (reads : Reads (field.read record) value next) (others : Fills fields members next last) :
    Fills (field :: fields) ((field.key, value) :: members) record last
  | absent {field : RecordField σ} {fields : List (RecordField σ)} {members : List (String × Draft)}
      {record last : σ} (optional : field.required = false) (others : Fills fields members record last) :
    Fills (field :: fields) members record last

/-- Each of the fields with distinct keys is found by its key. -/
private theorem find?_key {fields : List (RecordField σ)} (distinct : (fields.map RecordField.key).Nodup)
    {field : RecordField σ} (member : field ∈ fields) :
    fields.find? (·.key == field.key) = some field := by
  induction fields with
  | nil => cases member
  | cons head fields ih =>
    obtain ⟨apart, distinct⟩ := List.nodup_cons.mp distinct
    rcases List.mem_cons.mp member with rfl | member
    · simp
    · have other : head.key ≠ field.key := fun same => apart (same ▸ List.mem_map_of_mem member)
      rw [List.find?_cons_of_neg (by simpa using other), ih distinct member]

/-- A reader of a record with the fields `known` has seen some keys and has these fields left. -/
structure FieldsLeft (known : List (RecordField σ)) (seen : List String) (fields : List (RecordField σ)) :
    Prop where
  distinct : (fields.map RecordField.key).Nodup
  found : ∀ field ∈ fields, known.find? (·.key == field.key) = some field
  fresh : ∀ field ∈ fields, field.key ∉ seen
  complete : ∀ field ∈ known, field.required = true → field.key ∈ seen ∨ field ∈ fields

namespace FieldsLeft

variable {known fields : List (RecordField σ)} {seen : List String} {field : RecordField σ}

theorem start (distinct : (known.map RecordField.key).Nodup) : FieldsLeft known [] known where
  distinct := distinct
  found _ member := find?_key distinct member
  fresh _ _ := List.not_mem_nil
  complete _ member _ := .inr member

theorem given (left : FieldsLeft known seen (field :: fields)) :
    FieldsLeft known (field.key :: seen) fields := by
  obtain ⟨apart, distinct⟩ := List.nodup_cons.mp left.distinct
  refine ⟨distinct, ?_, ?_, ?_⟩
  · intro other member
    exact left.found other (List.mem_cons_of_mem _ member)
  · intro other member again
    rcases List.mem_cons.mp again with same | again
    · exact apart (same ▸ List.mem_map_of_mem member)
    · exact left.fresh other (List.mem_cons_of_mem _ member) again
  · intro other member required
    rcases left.complete other member required with seen | later
    · exact .inl (List.mem_cons_of_mem _ seen)
    · rcases List.mem_cons.mp later with rfl | later
      · exact .inl List.mem_cons_self
      · exact .inr later

theorem absent (left : FieldsLeft known seen (field :: fields)) (optional : field.required = false) :
    FieldsLeft known seen fields := by
  refine ⟨(List.nodup_cons.mp left.distinct).2, ?_, ?_, ?_⟩
  · intro other member
    exact left.found other (List.mem_cons_of_mem _ member)
  · intro other member
    exact left.fresh other (List.mem_cons_of_mem _ member)
  · intro other member required
    rcases left.complete other member required with seen | later
    · exact .inl seen
    · rcases List.mem_cons.mp later with rfl | later
      · rw [optional] at required
        cases required
      · exact .inr later

/-- When no field is left, all that must be present have been seen. -/
theorem all_seen (left : FieldsLeft known seen []) :
    (known.all fun field => !field.required || seen.contains field.key) = true := by
  rw [List.all_eq_true]
  intro field member
  cases required : field.required with
  | false => rfl
  | true => simpa using left.complete field member required

end FieldsLeft

/-- Members are read into the fields that they fill, one after the other. -/
private theorem readFields_contents {known fields : List (RecordField σ)} {members : List (String × Draft)}
    {record last : σ} (fills : Fills fields members record last) (strict : Bool) {seen : List String}
    (left : FieldsLeft known seen fields) (fuel : Nat) (enough : members.length < fuel) :
    readFields known strict fuel first seen record
        (Symbol.ofChars (memberContents style level first members) ++ rest) = .ok (last, rest) := by
  -- On how the fields are filled: one that is left out takes no member, so no fuel either.
  induction fills generalizing fuel first seen with
  | nil record =>
    obtain ⟨fuel, rfl⟩ := Nat.exists_eq_succ_of_ne_zero (Nat.ne_zero_of_lt enough)
    rw [readFields, nextKey_nil, ok_bind]
    simp only [left.all_seen, ↓reduceIte]
  | @given field fields value members record next last reads _ ih =>
    obtain ⟨fuel, rfl⟩ := Nat.exists_eq_succ_of_ne_zero (Nat.ne_zero_of_lt enough)
    have here := left.found field List.mem_cons_self
    have new : seen.contains field.key = false := by simpa using left.fresh field List.mem_cons_self
    rw [readFields, nextKey_cons, ok_bind]
    simp only [here, new, Bool.false_eq_true, ↓reduceIte, readColon_afterKey, ok_bind,
      reads.read_afterColon, ih false left.given fuel (Nat.lt_of_succ_lt_succ enough)]
  | absent optional _ ih => exact ih first (left.absent optional) fuel enough

/-- A record is read from members that fill it. -/
theorem reads_record {fields : List (RecordField σ)} {members : List (String × Draft)} {start last : σ}
    (distinct : (fields.map RecordField.key).Nodup) (fills : Fills fields members start last)
    (strict : Bool) : Reads (readRecord fields strict start) (.object members) last where
  opens := ⟨'\x7b', fun _ _ => ⟨_, rfl⟩, rfl, by decide⟩
  reads style level input rest here _ := by
    rw [Draft.object, Symbol.ofChars_cons, List.cons_append] at here
    rw [readRecord, here]
    apply readFields_contents style level true rest fills strict (.start distinct)
    exact length_lt_memberContents style level rest members

/-- A field that stores what it reads. -/
theorem Reads.storing {read : Reader α} {value : Draft} {a : α} (reads : Reads read value a)
    {required : Bool} {key : String} {store : σ → α → σ} {record : σ} :
    Reads ((RecordField.storing required key read store).read record) value (store record a) where
  opens := reads.opens
  reads style level input rest here ends := by
    rw [RecordField.storing]
    dsimp only
    rw [reads.reads style level input rest here ends, ok_bind]

end Records

/-- A document is read if its value is, with blanks behind it. -/
theorem Reads.readDocument_append {read : Reader α} {draft : Draft} {a : α} (value : Reads read draft a)
    (style : Style) (level : Nat) {blanks : List Char} (all : ∀ c ∈ blanks, isBlank c = true) :
    readDocument read (Symbol.ofChars (draft style level ++ blanks)) = .ok a := by
  have ends : EndsNumber (Symbol.ofChars blanks) := by
    cases blanks with
    | nil => exact endsNumber_nil
    | cons c blanks => exact endsNumber_of_blank (all c List.mem_cons_self) _
  have behind : skipBlanks (Symbol.ofChars blanks) = [] := by
    have skipped := Json.skipBlanks_append all []
    rwa [List.append_nil] at skipped
  rw [Json.readDocument, Symbol.ofChars_append, value.read_append style level ends, ok_bind]
  simp only [behind]

/-- A document is read if its value is. -/
theorem Reads.readDocument {read : Reader α} {draft : Draft} {a : α} (value : Reads read draft a)
    (style : Style) (level : Nat) : readDocument read (Symbol.ofChars (draft style level)) = .ok a := by
  have nothing : ∀ c ∈ ([] : List Char), isBlank c = true := fun _ none => absurd none List.not_mem_nil
  have read := value.readDocument_append style level nothing
  rwa [List.append_nil] at read

end PagedReport.Json
