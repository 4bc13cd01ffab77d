import PagedReport.Column
import PagedReport.Error
import PagedReport.Options

/-! # Totals

Sums are kept at three levels: the whole report, the open section, and the open run of every group
column. A column that does not accumulate has no sum at any time. A row either adds to every level
or, if anything is wrong with it, to none.
-/

namespace PagedReport

/-- The sums of the columns; a column that does not accumulate has none. -/
abbrev Sums := List (Option Decimal)

namespace Sums

/-- Zero for the columns that accumulate. -/
def start (accumulates : List Bool) : Sums :=
  accumulates.map fun active => if active then some .zero else none

/-- The sum of a column, if it accumulates. -/
def sum? (sums : Sums) (column : Nat) : Option Decimal := (sums[column]?).join

/-- Whether any column accumulates. -/
def hasTotals (sums : Sums) : Bool := sums.any Option.isSome

/-- The sums with an amount added in one column, unless that sum would be out of range. A column
that does not accumulate takes no amount. -/
def add? (sums : Sums) (column : Nat) (amount : Decimal) : Option Sums :=
  match sums.sum? column with
  | none => some sums
  | some sum => (sum.add? amount).map fun total => sums.set column (some total)

/-- The same columns with all sums at zero. -/
def reset (sums : Sums) : Sums := sums.map fun sum => sum.map fun _ => .zero

end Sums

/-- A line of totals that is due. -/
structure TotalsLine where
  /-- What the label says after its lead. -/
  label : String
  /-- The column under which the label starts. -/
  anchor : Nat
  sums : Sums
deriving DecidableEq, Repr

/-- What a row adds in one column. -/
structure Amount where
  column : Nat
  value : Decimal
deriving DecidableEq, Repr

/-- What a row adds to the whole report and to its section and groups. -/
structure RowAmounts where
  grand : List Amount
  subtotal : List Amount
deriving DecidableEq, Repr

/-- The running totals of a layout. -/
structure TotalsTracker where
  columns : List Column
  nullSubtotals : NullSubtotals
  grandSums : Sums
  sectionSums : Sums
  /-- The sums of each group column, by ascending index. -/
  groupSums : List (Nat × Sums)
deriving DecidableEq, Repr

namespace TotalsTracker

/-- All totals of these columns at zero. Numeric columns accumulate in grand totals, subtotal
columns in those of sections and groups. -/
def start (columns : List Column) (nullSubtotals : NullSubtotals) : TotalsTracker :=
  let subtotals := Sums.start (columns.map Column.subtotal)
  { columns, nullSubtotals
    grandSums := Sums.start (columns.map Column.isNumeric)
    sectionSums := subtotals
    groupSums := (columns.zipIdx.filter fun (column, _) => column.isGroup).map fun (_, index) =>
      (index, subtotals) }

/-- The number that a value adds in a column; a null has none. -/
def amountOf (column : Column) (value : Value) : Except ReportError (Option Decimal) :=
  if value.isNull then .ok none
  else match value.toDecimal? with
    | some amount => .ok (some amount)
    | none => .error (.notNumeric column.name value)

/-- What one value adds in the column with this index. A null counts as zero in grand totals, and
follows the policy elsewhere. -/
def amountsOf (policy : NullSubtotals) (number : Nat) (column : Column) (index : Nat) (value : Value) :
    Except ReportError RowAmounts :=
  if !column.isNumeric && !column.subtotal then .ok ⟨[], []⟩
  else do
    let amount ← amountOf column value
    let grand := if column.isNumeric then [⟨index, amount.getD .zero⟩] else []
    if !column.subtotal then .ok ⟨grand, []⟩
    else match amount, policy with
      | some amount, _ => .ok ⟨grand, [⟨index, amount⟩]⟩
      | none, .skip => .ok ⟨grand, []⟩
      | none, .reject => .error (.nullSubtotal column.name number)

/-- What the values of a row add, from column `index` on. -/
def rowAmounts (policy : NullSubtotals) (number : Nat) :
    List Column → (index : Nat) → Row → Except ReportError RowAmounts
  | column :: columns, index, value :: row => do
    let here ← amountsOf policy number column index value
    let rest ← rowAmounts policy number columns (index + 1) row
    return ⟨here.grand ++ rest.grand, here.subtotal ++ rest.subtotal⟩
  | _, _, _ => return ⟨[], []⟩

/-- The name of a column. -/
def columnName (tracker : TotalsTracker) (index : Nat) : String :=
  ((tracker.columns[index]?).map Column.name).getD ""

/-- Sums with an amount added, or the overflow that it causes. -/
def addAmount (tracker : TotalsTracker) (number : Nat) (sums : Sums) (amount : Amount) :
    Except ReportError Sums :=
  match sums.add? amount.column amount.value with
  | some sums => .ok sums
  | none => .error (.totalOverflow (tracker.columnName amount.column) number)

/-- The totals with the amount of one column added to the section and every group. -/
def addSubtotal (number : Nat) (tracker : TotalsTracker) (amount : Amount) :
    Except ReportError TotalsTracker := do
  let sectionSums ← tracker.addAmount number tracker.sectionSums amount
  let groupSums ← tracker.groupSums.mapM fun (index, sums) => do
    return (index, ← tracker.addAmount number sums amount)
  return { tracker with sectionSums, groupSums }

/-- The totals with a row added, the row with this number. -/
def accumulate (tracker : TotalsTracker) (number : Nat) (row : Row) :
    Except ReportError TotalsTracker := do
  let amounts ← rowAmounts tracker.nullSubtotals number tracker.columns 0 row
  let grandSums ← amounts.grand.foldlM (tracker.addAmount number) tracker.grandSums
  amounts.subtotal.foldlM (addSubtotal number) { tracker with grandSums }

/-- The group columns, the innermost first. -/
def groupColumns (tracker : TotalsTracker) : List Nat := (tracker.groupSums.map (·.1)).reverse

/-- The totals line of the section, and the totals with a new section begun. -/
def flushSection (tracker : TotalsTracker) (label : String) : TotalsLine × TotalsTracker :=
  (⟨label, 0, tracker.sectionSums⟩, { tracker with sectionSums := tracker.sectionSums.reset })

/-- The totals line of a group column, and the totals with a new run of that column begun. -/
def flushGroup (tracker : TotalsTracker) (column : Nat) (label : String) :
    Option (TotalsLine × TotalsTracker) :=
  (tracker.groupSums.lookup column).map fun sums =>
    let groupSums := tracker.groupSums.map fun (index, sums) =>
      (index, if index = column then sums.reset else sums)
    (⟨label, column, sums⟩, { tracker with groupSums })

/-- The totals line of the whole report. -/
def flushGrand (tracker : TotalsTracker) : TotalsLine := ⟨"", 0, tracker.grandSums⟩

end TotalsTracker

end PagedReport
