/-
Lagotto.Work.Dates — dates in parts (`app/models/work.rb`,
`app/models/concerns/dateable.rb`).

A date that is not known to the day is a list of one or two numbers. The lists
are made by dropping what is missing from year, month and day, so a number's
place in the list depends on the numbers before it.
-/
import Lagotto.Source.Wikipedia

namespace Lagotto

/-- `{ "date-parts" => [parts] }` -/
def datePartsHash (parts : List Int) : Value :=
  .hash [(.str "date-parts", .arr [.arr (parts.map Value.int)])]

/-- `issued["date-parts"].first` -/
def partsOf (issued : Value) : List Value :=
  match issued.fetch (.str "date-parts") .nil with
  | .arr (.arr parts :: _) => parts
  | _ => []

@[simp] theorem partsOf_datePartsHash (parts : List Int) :
    partsOf (datePartsHash parts) = parts.map Value.int := rfl

/-- `get_date_parts`. The key of the hash for nil is spelled differently. -/
def getDateParts : Option String → Value
  | none => .hash [(.str "date_parts", .arr [.arr []])]
  | some time => datePartsHash (Wikipedia.dateParts (some time))

/-- `get_date_parts_from_parts` -/
def getDatePartsFromParts (year : Value) (month : Value := .nil) (day : Value := .nil) : Value :=
  datePartsHash ([year.toI, month.toI, day.toI].filter (· ≠ 0))

namespace Work

/-- `[year, month, day].reject(&:blank?)` -/
def dateParts (w : Work) : List Int := [w.year, w.month, w.day].filterMap (fun part => part)

/-- `issued` -/
def issued (w : Work) : Value := datePartsHash w.dateParts

end Work

end Lagotto
