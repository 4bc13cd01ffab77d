import Mathlib.Data.List.Forall2

/-! # Results and errors side by side

The computations of a layout either fail with an error or give a result. This module has the laws
of their composition, the predicate `Ends` that tells which results and which errors a computation
can have, and the relation `Lockstep` of two computations that fail alike and whose results
correspond.
-/

namespace PagedReport

universe u

section Pairs

variable {ι α β : Type u}

/-- Every item on the right is paired with one on the left. -/
theorem exists_of_mem_right {R : α → β → Prop} {as : List α} {bs : List β}
    (pairs : List.Forall₂ R as bs) {b : β} (member : b ∈ bs) : ∃ a ∈ as, R a b := by
  induction pairs with
  | nil => cases member
  | @cons a head as tail first _ ih =>
    rcases List.mem_cons.mp member with rfl | member
    · exact ⟨a, List.mem_cons_self, first⟩
    · obtain ⟨other, included, related⟩ := ih member
      exact ⟨other, List.mem_cons_of_mem _ included, related⟩

/-- Every item on the left is paired with one on the right. -/
theorem exists_of_mem_left {R : α → β → Prop} {as : List α} {bs : List β}
    (pairs : List.Forall₂ R as bs) {a : α} (member : a ∈ as) : ∃ b ∈ bs, R a b :=
  exists_of_mem_right pairs.flip member

/-- What two lists have to do with a third one, item by item, relates them. -/
theorem forall₂_of_common {R : ι → α → Prop} {S : ι → β → Prop} {T : α → β → Prop}
    (step : ∀ item a b, R item a → S item b → T a b) {items : List ι} {as : List α} {bs : List β}
    (left : List.Forall₂ R items as) (right : List.Forall₂ S items bs) : List.Forall₂ T as bs := by
  induction left generalizing bs with
  | nil => cases right; exact .nil
  | cons first _ ih =>
    cases right with
    | cons second others => exact .cons (step _ _ _ first second) (ih others)

end Pairs

section Laws

variable {ε α β γ : Type u}

@[simp] theorem ok_bind (a : α) (f : α → Except ε β) : (Except.ok a >>= f) = f a := rfl

@[simp] theorem error_bind (error : ε) (f : α → Except ε β) :
    (Except.error error >>= f) = .error error := rfl

@[simp] theorem bind_ok (x : Except ε α) : (x >>= Except.ok) = x := by
  cases x <;> rfl

@[simp] theorem pure_eq_ok (a : α) : (pure a : Except ε α) = .ok a := rfl

@[simp] theorem map_ok (f : α → β) (a : α) : (Except.ok a : Except ε α).map f = .ok (f a) := rfl

@[simp] theorem map_error (f : α → β) (error : ε) :
    (Except.error error : Except ε α).map f = .error error := rfl

theorem bind_eq_ok_iff {x : Except ε α} {f : α → Except ε β} {b : β} :
    x >>= f = .ok b ↔ ∃ a, x = .ok a ∧ f a = .ok b := by
  cases x <;> simp

theorem map_eq_ok_iff {x : Except ε α} {f : α → β} {b : β} :
    x.map f = .ok b ↔ ∃ a, x = .ok a ∧ f a = b := by
  cases x <;> simp

/-- A test that a computation passes tells that it succeeds. -/
theorem exists_ok_of_any {x : Except ε α} {p : α → Bool} (holds : x.toOption.any p = true) :
    ∃ a, x = .ok a ∧ p a = true := by
  cases x with
  | error error => cases holds
  | ok a => exact ⟨a, rfl, holds⟩

/-- A test for a single item that a computation of a list passes gives that item. -/
theorem exists_singleton_of_any {x : Except ε (List α)} {p : α → Prop} [DecidablePred p]
    (holds : (x.toOption.any fun items => decide (items.length = 1 ∧ ∀ item ∈ items, p item)) = true) :
    ∃ item, x = .ok [item] ∧ p item := by
  obtain ⟨items, result, facts⟩ := exists_ok_of_any holds
  obtain ⟨one, each⟩ := of_decide_eq_true facts
  obtain ⟨item, rfl⟩ := List.length_eq_one_iff.mp one
  exact ⟨item, result, each item List.mem_cons_self⟩

/-- A step on every result of a list of computations is a step on the list of results. -/
theorem mapM_map_result (f : α → Except ε β) (g : β → γ) (items : List α) :
    (items.mapM fun item => (f item).map g) = (items.mapM f).map (List.map g) := by
  induction items with
  | nil => rfl
  | cons item rest ih =>
    rw [List.mapM_cons, List.mapM_cons, ih]
    cases f item with
    | error error => rfl
    | ok head => cases rest.mapM f <;> rfl

/-- A list of computations succeeds with a list of results exactly if each of them succeeds. -/
theorem mapM_eq_ok_iff {f : α → Except ε β} {items : List α} {results : List β} :
    items.mapM f = .ok results ↔
      List.Forall₂ (fun item result => f item = .ok result) items results := by
  induction items generalizing results with
  | nil => simp [List.mapM_nil, List.forall₂_nil_left_iff, eq_comm]
  | cons item rest ih =>
    rw [List.mapM_cons, bind_eq_ok_iff, List.forall₂_cons_left_iff]
    constructor
    · rintro ⟨head, first, others⟩
      obtain ⟨tail, run, same⟩ := bind_eq_ok_iff.mp others
      exact ⟨head, tail, first, ih.mp run, (Except.ok.inj same).symm⟩
    · rintro ⟨head, tail, first, others, rfl⟩
      exact ⟨head, first, bind_eq_ok_iff.mpr ⟨tail, ih.mpr others, rfl⟩⟩

/-- Every result of a list of computations comes from one of them. -/
theorem exists_of_mem_mapM {f : α → Except ε β} {items : List α} {results : List β}
    (run : items.mapM f = .ok results) {result : β} (member : result ∈ results) :
    ∃ item ∈ items, f item = .ok result :=
  exists_of_mem_right (mapM_eq_ok_iff.mp run) member

/-- A second step on every item of a list of computations that succeeds is a step on their results. -/
theorem mapM_bind_of_ok {f : α → Except ε β} {g : β → Except ε γ} {items : List α} {results : List β}
    (run : items.mapM f = .ok results) : (items.mapM fun item => f item >>= g) = results.mapM g := by
  have each := mapM_eq_ok_iff.mp run
  clear run
  induction each with
  | nil => rfl
  | cons first _ ih => rw [List.mapM_cons, List.mapM_cons, first, ok_bind, ih]

/-- Computations of two steps succeed only if their first steps do. -/
theorem exists_ok_of_mapM_bind {f : α → Except ε β} {g : β → Except ε γ} {items : List α}
    {finals : List γ} (run : (items.mapM fun item => f item >>= g) = .ok finals) :
    ∃ results, items.mapM f = .ok results := by
  have each := mapM_eq_ok_iff.mp run
  clear run
  induction each with
  | nil => exact ⟨[], rfl⟩
  | cons both _ ih =>
    obtain ⟨first, here, _⟩ := bind_eq_ok_iff.mp both
    obtain ⟨others, rest⟩ := ih
    exact ⟨first :: others, by rw [List.mapM_cons, here, rest]; rfl⟩

/-- The error of a computation that fails. -/
def errorOf? : Except ε α → Option ε
  | .ok _ => none
  | .error error => some error

@[simp] theorem errorOf?_ok (a : α) : errorOf? (.ok a : Except ε α) = none := rfl

@[simp] theorem errorOf?_error (error : ε) : errorOf? (.error error : Except ε α) = some error := rfl

theorem errorOf?_eq_some_iff {x : Except ε α} {error : ε} :
    errorOf? x = some error ↔ x = .error error := by
  cases x <;> simp

theorem errorOf?_eq_none_iff {x : Except ε α} : errorOf? x = none ↔ ∃ a, x = .ok a := by
  cases x <;> simp

@[simp] theorem errorOf?_map (f : α → β) (x : Except ε α) : errorOf? (x.map f) = errorOf? x := by
  cases x <;> rfl

/-- If the error of the second of two steps does not depend on the first, it comes after that of the
first. -/
theorem errorOf?_bind {x : Except ε α} {f : α → Except ε β} {later : Option ε}
    (same : ∀ a, x = .ok a → errorOf? (f a) = later) : errorOf? (x >>= f) = (errorOf? x).or later := by
  cases x with
  | error error => rfl
  | ok a => exact same a rfl

/-- The error of a list of computations is that of the first one that fails. -/
theorem errorOf?_mapM (f : α → Except ε β) (items : List α) :
    errorOf? (items.mapM f) = items.findSome? fun item => errorOf? (f item) := by
  induction items with
  | nil => rfl
  | cons item rest ih =>
    have tail (head : β) : errorOf? (do let tail ← rest.mapM f; pure (head :: tail)) =
        errorOf? (rest.mapM f) := by
      cases rest.mapM f <;> rfl
    rw [List.mapM_cons, errorOf?_bind fun head _ => tail head, ih, List.findSome?_cons]
    cases errorOf? (f item) <;> rfl

end Laws

/-- A computation ends with a result that satisfies `P` or with an error that satisfies `E`. -/
def Ends {ε α : Type u} (P : α → Prop) (E : ε → Prop) : Except ε α → Prop
  | .ok a => P a
  | .error error => E error

namespace Ends

variable {ε α β : Type u} {P : α → Prop} {Q : β → Prop} {E : ε → Prop} {x : Except ε α}

theorem of_ok (ends : Ends P E x) {a : α} (run : x = .ok a) : P a := by
  rw [run] at ends
  exact ends

theorem of_error (ends : Ends P E x) {error : ε} (run : x = .error error) : E error := by
  rw [run] at ends
  exact ends

theorem bind (start : Ends P E x) {f : α → Except ε β} (step : ∀ a, P a → Ends Q E (f a)) :
    Ends Q E (x >>= f) := by
  cases x with
  | ok a => exact step a start
  | error error => exact start

/-- What every step of a fold preserves holds of its result. -/
theorem foldlM {ι : Type u} {f : α → ι → Except ε α} {items : List ι} {init : α} (start : P init)
    (step : ∀ item ∈ items, ∀ a, P a → Ends P E (f a item)) : Ends P E (items.foldlM f init) := by
  induction items generalizing init with
  | nil => exact start
  | cons item rest ih =>
    rw [List.foldlM_cons]
    refine (step item List.mem_cons_self init start).bind fun a kept => ih kept ?_
    exact fun other member => step other (List.mem_cons_of_mem _ member)

/-- A list of computations fails with the error of one of them. -/
theorem mapM {ι : Type u} {f : ι → Except ε α} {items : List ι}
    (each : ∀ item ∈ items, Ends (fun _ => True) E (f item)) :
    Ends (fun _ => True) E (items.mapM f) := by
  induction items with
  | nil => trivial
  | cons item rest ih =>
    rw [List.mapM_cons]
    refine (each item List.mem_cons_self).bind fun a _ => ?_
    refine (ih fun other member => each other (List.mem_cons_of_mem _ member)).bind fun as _ => ?_
    trivial

end Ends

/-- Two computations that fail with the same error or succeed with results that correspond. -/
inductive Lockstep {ε α β : Type u} (R : α → β → Prop) : Except ε α → Except ε β → Prop where
  | ok {a : α} {b : β} (related : R a b) : Lockstep R (.ok a) (.ok b)
  | error (error : ε) : Lockstep R (.error error) (.error error)

namespace Lockstep

variable {ε α β γ δ : Type u} {R : α → β → Prop} {S : γ → δ → Prop}
variable {x : Except ε α} {y : Except ε β}

theorem bind (start : Lockstep R x y) {f : α → Except ε γ} {g : β → Except ε δ}
    (step : ∀ a b, R a b → Lockstep S (f a) (g b)) : Lockstep S (x >>= f) (y >>= g) := by
  cases start with
  | ok related => exact step _ _ related
  | error error => exact .error error

theorem map (start : Lockstep R x y) {f : α → γ} {g : β → δ}
    (step : ∀ a b, R a b → S (f a) (g b)) : Lockstep S (x.map f) (y.map g) := by
  cases start with
  | ok related => exact .ok (step _ _ related)
  | error error => exact .error error

theorem mono (start : Lockstep R x y) {R' : α → β → Prop} (weaker : ∀ a b, R a b → R' a b) :
    Lockstep R' x y := by
  cases start with
  | ok related => exact .ok (weaker _ _ related)
  | error error => exact .error error

/-- What is known of the results when both computations succeed can be used about them. -/
theorem mono_of_ok (start : Lockstep R x y) {R' : α → β → Prop}
    (results : ∀ a b, R a b → x = .ok a → y = .ok b → R' a b) : Lockstep R' x y := by
  cases start with
  | ok related => exact .ok (results _ _ related rfl rfl)
  | error error => exact .error error

theorem error_of_error {error : ε} (run : Lockstep R x (.error error : Except ε β)) :
    x = .error error := by
  cases run
  rfl

theorem exists_ok {b : β} (run : Lockstep R x (.ok b : Except ε β)) : ∃ a, x = .ok a ∧ R a b := by
  cases run with
  | ok related => exact ⟨_, rfl, related⟩

/-- Two computations for each item of a list, in lockstep for each, give lists in lockstep. -/
theorem mapM {ι : Type u} {f : ι → Except ε α} {g : ι → Except ε β} (items : List ι)
    (each : ∀ item ∈ items, Lockstep R (f item) (g item)) :
    Lockstep (List.Forall₂ R) (items.mapM f) (items.mapM g) := by
  induction items with
  | nil => exact .ok .nil
  | cons item rest ih =>
    rw [List.mapM_cons, List.mapM_cons]
    apply (each item (List.mem_cons_self ..)).bind
    intro a b first
    refine (ih fun other member => each other (List.mem_cons_of_mem _ member)).bind
      fun as bs others => ?_
    exact .ok (.cons first others)

/-- If the second result is a function of the first one, so is the second computation. -/
theorem eq_map {f : α → β} (run : Lockstep (fun a b => f a = b) x y) : y = x.map f := by
  cases run with
  | ok related => rw [map_ok, related]
  | error error => rfl

end Lockstep

end PagedReport
