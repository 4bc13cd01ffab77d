import PagedReport.Proofs.CursorMoves

/-! # Looking ahead

A look ahead moves a cursor to the next row, reads it and moves back. It finds exactly the row that the
next move comes to. It leaves the cursor where it was, and no later call tells that it took place, if
the cursor is not already behind the last row. A cursor that is there comes back to the last row.
-/

namespace PagedReport

/-- What a cursor can be called for. -/
inductive CursorCall where
  | move (move : CursorMove)
  | peekNext
  | currentIndex
  | isFirst
  | value (column : Nat)
  | display (column : Nat)
  | row
deriving DecidableEq, Repr

/-- What a cursor replies. -/
inductive CursorReply where
  | moved
  | truth (holds : Bool)
  | index (found : Option Nat)
  | value (result : Except ReportError Value)
  | text (result : Except ReportError (Option String))
  | row (result : Except ReportError Row)
  | ahead (result : Except ReportError (Option Row))

namespace Cursor

/-- The reply to a call, and the cursor after it. -/
def call (cursor : Cursor) : CursorCall → CursorReply × Cursor
  | .move .rewind => (.moved, RowCursor.rewind cursor)
  | .move .advance => (.truth (RowCursor.advance cursor).1, (RowCursor.advance cursor).2)
  | .move .retreat => (.truth (RowCursor.retreat cursor).1, (RowCursor.retreat cursor).2)
  | .peekNext => (.ahead (RowCursor.peekNext cursor).1, (RowCursor.peekNext cursor).2)
  | .currentIndex => (.index cursor.currentIndex?, cursor)
  | .isFirst => (.truth (RowCursor.isFirst cursor), cursor)
  | .value column => (.value (RowCursor.value cursor column), cursor)
  | .display column => (.text (RowCursor.display? cursor column), cursor)
  | .row => (.row (RowCursor.row cursor), cursor)

/-- The cursor after some calls. -/
def afterCalls (cursor : Cursor) (calls : List CursorCall) : Cursor :=
  calls.foldl (fun cursor call => (cursor.call call).2) cursor

/-- The replies to some calls, one after the other. -/
def replies (cursor : Cursor) : List CursorCall → List CursorReply
  | [] => []
  | call :: rest => (cursor.call call).1 :: (cursor.call call).2.replies rest

namespace StandsAt

variable {set : ResultSet} {place : Int} {cursor : Cursor}

/-- The row at the place of a cursor can be read as a whole. -/
theorem row_eq {index : Nat} (stands : cursor.StandsAt set index) (valid : index < set.rows.length) :
    RowCursor.row cursor = .ok set.rows[index] := by
  have onRow : cursor.currentIndex? = some index :=
    stands.currentIndex?_eq_some_iff.mpr ⟨rfl, by omega⟩
  have place : cursor = behind set (index + 1) := by
    obtain ⟨other, position⟩ := cursor
    obtain rfl : other = set := stands.set_eq
    cases position with
    | onRow row => exact congrArg _ (congrArg _ (Option.some.inj onRow))
    | _ => cases onRow
  rw [place, row_behind valid]

/-- A move up comes to the row of the next place, if there is one. -/
theorem advance_reads (stands : cursor.StandsAt set place) :
    (RowCursor.advance cursor).1 = set.rows[(place + 1).toNat]?.isSome ∧
      ∀ row ∈ set.rows[(place + 1).toNat]?, RowCursor.row (RowCursor.advance cursor).2 = .ok row := by
  have bounds := stands.bounds
  obtain ⟨index, above⟩ : ∃ index : Nat, place + 1 = index := Int.eq_ofNat_of_zero_le (by omega)
  have next : (RowCursor.advance cursor).2.StandsAt set (min index set.rows.length) :=
    above ▸ stands.move .advance
  have onRow : (RowCursor.advance cursor).1 = true ↔ _ := next.isOnRow_iff
  rw [above, Int.toNat_natCast]
  constructor
  · rw [Bool.eq_iff_iff, onRow, isSome_getElem?]
    omega
  · intro row found
    obtain ⟨valid, rfl⟩ := List.getElem?_eq_some_iff.mp found
    rw [Int.min_eq_left (by omega)] at next
    exact next.row_eq valid

/-- A look ahead finds the row of the next place, if there is one, and goes on to the place below that. -/
theorem peekNext_eq (stands : cursor.StandsAt set place) :
    RowCursor.peekNext cursor =
      (.ok set.rows[(place + 1).toNat]?, (RowCursor.retreat (RowCursor.advance cursor).2).2) := by
  obtain ⟨onRow, read⟩ := stands.advance_reads
  rw [RowCursor.peekNext]
  cases found : set.rows[(place + 1).toNat]? with
  | none => simp only [onRow, found, Option.isSome_none, Bool.false_eq_true, ↓reduceIte]
  | some row => simp only [onRow, read row found, found, Option.isSome_some, ↓reduceIte]

/-- A look ahead comes back to every place but the one behind the rows. -/
theorem peekNext_snd (stands : cursor.StandsAt set place) (inside : cursor.position ≠ .afterLast) :
    (RowCursor.peekNext cursor).2 = cursor := by
  obtain ⟨rfl, among, rfl⟩ := stands
  rw [peekNext_eq ⟨rfl, among, rfl⟩]
  exact congrArg (Cursor.mk cursor.set) (Position.previous_next among inside)

/-- Every call leaves the cursor at a place of its result set. -/
theorem call (stands : cursor.StandsAt set place) (call : CursorCall) :
    ∃ next, (cursor.call call).2.StandsAt set next := by
  cases call with
  | move move =>
    cases move with
    | rewind => exact ⟨_, stands.move .rewind⟩
    | advance => exact ⟨_, stands.move .advance⟩
    | retreat => exact ⟨_, stands.move .retreat⟩
  | peekNext =>
    rw [Cursor.call, stands.peekNext_eq]
    exact ⟨_, (stands.move .advance).move .retreat⟩
  | _ => exact ⟨place, stands⟩

theorem afterCalls (stands : cursor.StandsAt set place) (calls : List CursorCall) :
    ∃ next, (cursor.afterCalls calls).StandsAt set next := by
  induction calls generalizing cursor place with
  | nil => exact ⟨place, stands⟩
  | cons call rest ih =>
    obtain ⟨next, after⟩ := stands.call call
    exact ih after

/-- Over no rows no cursor stands on a row. -/
private theorem isOnRow_of_no_rows (stands : cursor.StandsAt set place) (none : set.rows = []) :
    cursor.isOnRow = false := by
  rw [← Bool.not_eq_true, stands.isOnRow_iff, none, List.length_nil]
  omega

/-- Over no rows the reply to a call does not tell where the cursor stands. -/
private theorem reply_of_no_rows (stands : cursor.StandsAt set place) (none : set.rows = [])
    (call : CursorCall) : (cursor.call call).1 = ((Cursor.ofSet set).call call).1 := by
  have start := StandsAt.ofSet set
  have moved (move : CursorMove) : (cursor.move move).isOnRow = ((Cursor.ofSet set).move move).isOnRow :=
    ((stands.move move).isOnRow_of_no_rows none).trans
      ((start.move move).isOnRow_of_no_rows none).symm
  cases call with
  | move move =>
    cases move with
    | rewind => rfl
    | advance => exact congrArg CursorReply.truth (moved .advance)
    | retreat => exact congrArg CursorReply.truth (moved .retreat)
  | peekNext => simp only [Cursor.call, stands.peekNext_eq, start.peekNext_eq, none, List.getElem?_nil]
  | _ =>
    obtain ⟨other, position⟩ := cursor
    obtain rfl : other = set := stands.set_eq
    cases position with
    | beforeFirst => rfl
    | onRow index => cases stands.isOnRow_of_no_rows none
    | afterLast => rfl

/-- Over no rows no later calls tell where a cursor stands. -/
theorem replies_of_no_rows (stands : cursor.StandsAt set place) (none : set.rows = [])
    (later : List CursorCall) : cursor.replies later = (Cursor.ofSet set).replies later := by
  induction later generalizing cursor place with
  | nil => rfl
  | cons call rest ih =>
    obtain ⟨_, after⟩ := stands.call call
    obtain ⟨_, fresh⟩ := (StandsAt.ofSet set).call call
    rw [replies, replies, stands.reply_of_no_rows none, ih after, ih fresh]

end StandsAt

/-- After any calls, a look ahead finds the row to which the next move comes, and none if that move
comes to none. Unless the cursor is behind the last row, it stays at its position, and all later
replies are as if there had been no look ahead. Over no rows they are so in any case. -/
theorem peekNext_unseen (set : ResultSet) (calls : List CursorCall) :
    let cursor := (ofSet set).afterCalls calls
    (∃ found, (RowCursor.peekNext cursor).1 = .ok found ∧
      found.isSome = (RowCursor.advance cursor).1 ∧
      ∀ row ∈ found, RowCursor.row (RowCursor.advance cursor).2 = .ok row) ∧
    (cursor.position ≠ .afterLast → (RowCursor.peekNext cursor).2.position = cursor.position) ∧
    (cursor.position ≠ .afterLast ∨ set.rows = [] →
      ∀ later, (RowCursor.peekNext cursor).2.replies later = cursor.replies later) := by
  intro cursor
  obtain ⟨place, stands⟩ := (StandsAt.ofSet set).afterCalls calls
  have stands : cursor.StandsAt set place := stands
  refine ⟨?_, ?_, ?_⟩
  · obtain ⟨onRow, read⟩ := stands.advance_reads
    rw [stands.peekNext_eq]
    exact ⟨_, rfl, onRow.symm, read⟩
  · intro inside
    rw [stands.peekNext_snd inside]
  · rintro (inside | none) later
    · rw [stands.peekNext_snd inside]
    · obtain ⟨_, after⟩ := stands.call .peekNext
      exact (after.replies_of_no_rows none later).trans (stands.replies_of_no_rows none later).symm

/-- Two rows of one column. -/
def twoCities : ResultSet where
  columns := ["City"]
  rows := [[.text "x"], [.text "y"]]
  rectangular := by decide

/-- From the first of two rows a look ahead finds the second one, and the cursor stays. -/
theorem peekNext_unseen_twoCities :
    let cursor := (ofSet twoCities).afterCalls [.move .advance]
    cursor.position ≠ .afterLast ∧ (RowCursor.peekNext cursor).1 = .ok (some [.text "y"]) ∧
      RowCursor.row (RowCursor.advance cursor).2 = .ok [.text "y"] ∧
      (RowCursor.peekNext cursor).2.position = .onRow 0 ∧
      ∀ later, (RowCursor.peekNext cursor).2.replies later = cursor.replies later := by
  intro cursor
  obtain ⟨⟨found, ahead, _, read⟩, stays, unseen⟩ := peekNext_unseen twoCities [.move .advance]
  have inside : cursor.position ≠ .afterLast := by decide
  obtain rfl : found = some [.text "y"] := Except.ok.inj ahead.symm
  exact ⟨inside, ahead, read _ rfl, stays inside, unseen (.inl inside)⟩

/-- Behind the last of two rows a look ahead finds none, as it should, but it takes the cursor back to
that row, and then the cursor tells another index. -/
theorem peekNext_seen_behind_rows :
    let cursor := (ofSet twoCities).afterCalls [.move .advance, .move .advance, .move .advance]
    cursor.position = .afterLast ∧ (RowCursor.advance cursor).1 = false ∧
      (RowCursor.peekNext cursor).1 = .ok none ∧
      (RowCursor.peekNext cursor).2.position = .onRow 1 ∧
      (RowCursor.peekNext cursor).2.replies [.currentIndex] ≠ cursor.replies [.currentIndex] := by
  refine ⟨rfl, rfl, rfl, rfl, ?_⟩
  intro same
  cases same

end Cursor

end PagedReport
