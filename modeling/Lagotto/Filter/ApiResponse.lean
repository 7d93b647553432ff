/-
Lagotto.Filter.ApiResponse — the rows of `api_responses` and the scopes that
select them (`app/models/api_response.rb`).

A scope is a condition on a row. A comparison with NULL selects nothing, and
so does a division by zero. Decimal columns and the numbers they are compared
with are rationals.
-/
import Mathlib.Algebra.Order.Field.Rat
import Lagotto.Model.Schema

namespace Lagotto

open Relational

structure ApiResponse where
  id : Nat := 0
  workId : Option Nat := none
  sourceId : Option Nat := none
  retrievalStatusId : Option Nat := none
  total : Int := 0
  previousTotal : Option Int := none
  /-- In milliseconds. -/
  duration : Option ℚ := none
  createdAt : Time := Time.epoch
  updateInterval : Option Int := none
  unresolved : Bool := true
  skipped : Bool := false
  html : Int := 0
  pdf : Int := 0
  deriving DecidableEq

instance : Row ApiResponse := ⟨(·.id), fun n r => { r with id := n }, fun _ _ => rfl, fun _ => rfl⟩

namespace ApiResponse

/-- `filter(id)` -/
def filter (id : Nat) (r : ApiResponse) : Bool := r.unresolved && r.id ≤ id

/-- `where(source_id: source_ids)` -/
def ofSources (sourceIds : List Nat) (r : ApiResponse) : Bool := r.sourceId.any sourceIds.contains

def decreasing (sourceIds : List Nat) (r : ApiResponse) : Bool :=
  r.previousTotal.any (fun previousTotal => r.total < previousTotal) && !r.skipped &&
    r.ofSources sourceIds

def increasing (number : ℚ) (sourceIds : List Nat) (r : ApiResponse) : Bool :=
  r.updateInterval.any (fun interval => interval ≠ 0 && r.previousTotal.any (fun previousTotal =>
    number ≤ ((r.total - previousTotal : Int) : ℚ) / interval)) && r.ofSources sourceIds

def slow (number : ℚ) (r : ApiResponse) : Bool :=
  r.duration.any (fun duration => number * 1000 ≤ duration) && !r.skipped

/-- `if(pdf, html / pdf, 0) >= number` -/
def ratio (number : ℚ) (r : ApiResponse) : Bool :=
  number ≤ (if r.pdf ≠ 0 then (r.html : ℚ) / r.pdf else 0) && !r.skipped

def workNotUpdated (number : ℚ) (r : ApiResponse) : Bool :=
  r.skipped && r.updateInterval.any (fun interval => number ≤ interval)

def citationMilestone (number : ℚ) (sourceIds : List Nat) (r : ApiResponse) : Bool :=
  number ≠ 0 && r.previousTotal.any (fun previousTotal =>
    ((previousTotal : ℚ) / number).floor < ((r.total : ℚ) / number).floor) &&
      r.ofSources sourceIds

end ApiResponse

end Lagotto
