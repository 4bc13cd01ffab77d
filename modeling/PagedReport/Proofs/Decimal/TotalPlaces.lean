import Mathlib.Algebra.BigOperators.Group.List.Lemmas
import PagedReport.Proofs.Json.WrittenNumbers
import PagedReport.Proofs.Thousands

/-! # The decimals of a total

A total in range is the sum of its amounts in whatever order they are added. The number of decimals
with which it is written depends on the order: an amount added to zero replaces it, its decimals
included, a zero added to a sum leaves it as it is, and every other sum has the decimals of its longer
operand. So a total has as many decimals as the longest amount since the running sum was last zero.
-/

namespace PagedReport.Decimal

/-- The amounts since the running sum was last zero. -/
def sinceZero (amounts : List Decimal) : List Decimal :=
  amounts.foldl (fun run amount => if exactSum run = 0 then [amount] else run ++ [amount]) []

/-- The places of the first amount of a run or of the longest one after it that is not zero. -/
def runPlaces : List Decimal → Nat
  | [] => 0
  | first :: rest => largestPlaces (first :: rest.filter fun amount => !amount.isZero)

/-- The places of the total of amounts. -/
def totalPlaces (amounts : List Decimal) : Nat := runPlaces (sinceZero amounts)

theorem largestPlaces_concat (amounts : List Decimal) (amount : Decimal) :
    largestPlaces (amounts ++ [amount]) = max (largestPlaces amounts) amount.places := by
  induction amounts with
  | nil => simp [largestPlaces]
  | cons first rest ih =>
    change max first.places (largestPlaces (rest ++ [amount])) =
      max (max first.places (largestPlaces rest)) amount.places
    rw [ih, Nat.max_assoc]

theorem sinceZero_concat (amounts : List Decimal) (amount : Decimal) :
    sinceZero (amounts ++ [amount]) =
      if exactSum (sinceZero amounts) = 0 then [amount] else sinceZero amounts ++ [amount] := by
  rw [sinceZero, List.foldl_append]
  rfl

/-- What was left out adds up to zero. -/
theorem exactSum_sinceZero (amounts : List Decimal) : exactSum (sinceZero amounts) = exactSum amounts := by
  induction amounts using List.reverseRecOn with
  | nil => rfl
  | append_singleton amounts amount ih =>
    rw [sinceZero_concat, exactSum_concat, ih]
    split
    · next null =>
      rw [null, zero_add]
      exact List.sum_singleton
    · rw [exactSum_concat, ih]

private theorem runPlaces_concat {run : List Decimal} (filled : run ≠ []) (amount : Decimal) :
    runPlaces (run ++ [amount]) =
      if amount.isZero then runPlaces run else max (runPlaces run) amount.places := by
  obtain ⟨first, rest, rfl⟩ := List.exists_cons_of_ne_nil filled
  cases null : amount.isZero with
  | true => simp [runPlaces, null]
  | false =>
    have parts : first :: (rest ++ [amount]).filter (fun amount => !amount.isZero) =
        (first :: rest.filter fun amount => !amount.isZero) ++ [amount] := by simp [null]
    rw [List.cons_append, runPlaces, parts, largestPlaces_concat]
    rfl

/-- A sum has the places that the next total has. -/
theorem sumPlaces_eq_totalPlaces {amounts : List Decimal} {sum : Decimal}
    (value : sum.toRat = exactSum amounts) (places : sum.places = totalPlaces amounts) (amount : Decimal) :
    sumPlaces sum amount = totalPlaces (amounts ++ [amount]) := by
  rw [totalPlaces, sinceZero_concat, exactSum_sinceZero, ← value, sumPlaces]
  -- A sum of zero lets the amount begin a new run, any other sum goes on with its run.
  by_cases null : sum.toRat = 0
  · rw [if_pos (isZero_iff.mpr null), if_pos null]
    simp [runPlaces, largestPlaces]
  · have filled : sinceZero amounts ≠ [] := by
      intro empty
      have nothing := exactSum_sinceZero amounts
      rw [empty, exactSum_nil] at nothing
      exact null (value.trans nothing.symm)
    rw [if_neg (mt isZero_iff.mp null), if_neg null, runPlaces_concat filled, places, totalPlaces]

/-- A total in range has the places that the order of its amounts gives it. -/
theorem InRange.places_total? {places : Nat} {amounts : List Decimal} (range : InRange places amounts)
    {total : Decimal} (made : total? amounts = some total) : total.places = totalPlaces amounts := by
  induction amounts using List.reverseRecOn generalizing total with
  | nil =>
    obtain rfl := Option.some.inj made
    rfl
  | append_singleton amounts amount ih =>
    have start := range.sublist (List.sublist_append_left amounts [amount])
    obtain ⟨sum, before, value, short, low⟩ := start.total?_exact
    have second := range.short amount (List.mem_append_right _ List.mem_cons_self)
    have room := range.add_magnitude_le
    obtain ⟨exact', added, _, placed, _⟩ := add?_exact short second (by omega)
    rw [total?_concat, before, Option.bind_some, added] at made
    obtain rfl := Option.some.inj made
    exact placed.trans (sumPlaces_eq_totalPlaces value (ih start before) amount)

example :
    let two : Decimal := ⟨⟨2, 0⟩, by decide, by decide⟩
    let credit : Decimal := ⟨⟨150, 2⟩, by decide, by decide⟩
    let debit : Decimal := ⟨⟨-15, 1⟩, by decide, by decide⟩
    totalPlaces [two, credit, debit] = 2 ∧ totalPlaces [credit, debit, two] = 0 := by
  decide +kernel

/-- Decimals with one value are the same if they have equally many places. -/
theorem eq_of_toRat {d e : Decimal} (value : d.toRat = e.toRat) (places : d.places = e.places) : d = e := by
  have coefficient : d.coefficient = e.coefficient := by
    have same : (d.coefficient : ℚ) = e.coefficient := by
      rw [← toRat_mul_places, ← toRat_mul_places, value, places]
    exact_mod_cast same
  obtain ⟨⟨_, _⟩, _, _⟩ := d
  obtain ⟨⟨_, _⟩, _, _⟩ := e
  cases coefficient
  cases places
  rfl

/-- A decimal is written with its places. -/
theorem length_decimalsOf_text (d : Decimal) :
    (NumberFormat.decimalsOf d.text.toList).length = d.places := by
  have plain : d.toNumeral.IsWrittenAs d.text.toList := .inl String.toList_ofList
  rw [plain.decimals_eq.1, Numeral.length_fractionDigits]

/-- Amounts in range have one total, in whatever order they are added, with the places that the order
gives it. It is written alike if the orders give it equally many places. -/
theorem InRange.total?_perm {places : Nat} {amounts amounts' : List Decimal}
    (range : InRange places amounts) (perm : amounts'.Perm amounts) :
    ∃ total total', total? amounts = some total ∧ total? amounts' = some total' ∧
      total.toRat = exactSum amounts ∧ total'.toRat = total.toRat ∧
      (NumberFormat.decimalsOf total.text.toList).length = totalPlaces amounts ∧
      (NumberFormat.decimalsOf total'.text.toList).length = totalPlaces amounts' ∧
      (total'.text = total.text ↔ totalPlaces amounts' = totalPlaces amounts) := by
  have range' : InRange places amounts' := by
    refine ⟨fun amount member => range.short amount (perm.mem_iff.mp member), ?_⟩
    rw [(perm.map (magnitude places)).sum_eq]
    exact range.sum_le
  obtain ⟨total, made, value⟩ := range.total?_eq
  obtain ⟨total', made', value'⟩ := range'.total?_eq
  have same : total'.toRat = total.toRat := by
    rw [value, value']
    exact (perm.map fun amount => amount.toRat).sum_eq
  have written : (NumberFormat.decimalsOf total.text.toList).length = totalPlaces amounts :=
    (length_decimalsOf_text total).trans (range.places_total? made)
  have written' : (NumberFormat.decimalsOf total'.text.toList).length = totalPlaces amounts' :=
    (length_decimalsOf_text total').trans (range'.places_total? made')
  refine ⟨total, total', made, made', value, same, written, written', ?_⟩
  rw [← written, ← written', length_decimalsOf_text, length_decimalsOf_text, text_inj]
  exact ⟨fun eq => congrArg (·.places) eq, fun places => eq_of_toRat same places⟩

/-- Some amount has the largest number of places. -/
private theorem exists_places_eq_largestPlaces {amounts : List Decimal} (filled : amounts ≠ []) :
    ∃ amount ∈ amounts, amount.places = largestPlaces amounts := by
  induction amounts with
  | nil => exact absurd rfl filled
  | cons first rest ih =>
    by_cases alone : rest = []
    · subst alone
      exact ⟨first, List.mem_cons_self, by simp [largestPlaces]⟩
    · obtain ⟨longest, member, same⟩ := ih alone
      rcases max_choice first.places (largestPlaces rest) with here | behind
      · exact ⟨first, List.mem_cons_self, here.symm⟩
      · exact ⟨longest, List.mem_cons_of_mem _ member, same.trans behind.symm⟩

private theorem mem_of_mem_sinceZero {amounts : List Decimal} {amount : Decimal}
    (member : amount ∈ sinceZero amounts) : amount ∈ amounts := by
  induction amounts using List.reverseRecOn with
  | nil => cases member
  | append_singleton amounts last ih =>
    rw [sinceZero_concat] at member
    split at member
    · exact List.mem_append_right _ member
    · rcases List.mem_append.mp member with earlier | here
      · exact List.mem_append_left _ (ih earlier)
      · exact List.mem_append_right _ here

private theorem sinceZero_ne_nil {amounts : List Decimal} (filled : amounts ≠ []) :
    sinceZero amounts ≠ [] := by
  induction amounts using List.reverseRecOn with
  | nil => exact absurd rfl filled
  | append_singleton amounts last _ =>
    rw [sinceZero_concat]
    split <;> simp

/-- Amounts with equally many places have a total with as many, if there are any. -/
theorem totalPlaces_of_forall {places : Nat} {amounts : List Decimal} (filled : amounts ≠ [])
    (equal : ∀ amount ∈ amounts, amount.places = places) : totalPlaces amounts = places := by
  obtain ⟨first, rest, run⟩ := List.exists_cons_of_ne_nil (sinceZero_ne_nil filled)
  obtain ⟨amount, member, same⟩ := exists_places_eq_largestPlaces
    (List.cons_ne_nil first (rest.filter fun amount => !amount.isZero))
  have kept : amount ∈ sinceZero amounts := by
    rw [run]
    exact (List.filter_sublist.cons_cons first).subset member
  rw [totalPlaces, run, runPlaces, ← same]
  exact equal amount (mem_of_mem_sinceZero kept)

/-- The order of amounts with equally many places does not matter. -/
theorem totalPlaces_of_perm {places : Nat} {amounts amounts' : List Decimal}
    (perm : amounts'.Perm amounts) (equal : ∀ amount ∈ amounts, amount.places = places) :
    totalPlaces amounts' = totalPlaces amounts := by
  by_cases filled : amounts = []
  · subst filled
    rw [perm.eq_nil]
  · have filled' : amounts' ≠ [] := by
      rintro rfl
      exact filled perm.nil_eq.symm
    have equal' : ∀ amount ∈ amounts', amount.places = places :=
      fun amount member => equal amount (perm.mem_iff.mp member)
    rw [totalPlaces_of_forall filled equal, totalPlaces_of_forall filled' equal']

end PagedReport.Decimal
