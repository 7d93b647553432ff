/-
Lagotto.Jobs.DeleteEventJob — removing everything a source has contributed
(`app/jobs/delete_event_job.rb`).

The job is a sequence of statements without a transaction, so what it has
deleted before an exception stays deleted. It selects the works to destroy
by grouping the relations of this source by their two works and keeping the
groups of one row; the rows of other sources are not among those it groups.
It then calls `source.relations`. `Source` declares no such association, so
`perform` ends there (`perform_eq`), with the works destroyed and nothing
reset.
-/
import Lagotto.Model.Schema

namespace Lagotto

open Relational

/-- The `has_many` associations of `Source`, by name. -/
def Source.associations : List String :=
  ["retrieval_statuses", "months", "days", "works", "publishers", "publisher_options", "alerts",
   "api_responses", "reference_relations", "version_relations"]

namespace DeleteEventJob

/-- Rows of the group of this work and related work. -/
def groupCount (rows : List Relation) (workId relatedWorkId : Nat) : Nat :=
  rows.countP (fun r => r.workId == workId && r.relatedWorkId == relatedWorkId)

/-- `Relation.where(source_id: source.id).group(:work_id, :related_work_id)
.having("count(*) = 1").pluck(:work_id)`. -/
def workIds (s : Source) (db : Db) : List Nat :=
  let rows := db.relations.rows.filter (fun r => r.sourceId == some s.id)
  (rows.filter (fun r => groupCount rows r.workId r.relatedWorkId == 1)).map (·.workId)

/-- What stands after `source.relations.destroy_all`. `write_cache` writes no
table. -/
def resetMetrics (s : Source) (db : Db) : Db :=
  { db with
    retrievalStatuses := db.retrievalStatuses.updateAll (fun r => r.sourceId == s.id)
      (fun r => { r with metrics := {} })
    months := db.months.deleteAll (fun m => m.sourceId == s.id)
    days := db.days.deleteAll (fun d => d.sourceId == s.id) }

/-- `perform`. -/
def perform (s : Source) (db : Db) : Except Raised Unit × Db :=
  let ids := workIds s db
  let db := db.destroyWorks (fun w => ids.contains w.id)
  if Source.associations.contains "relations" then
    let db := { db with relations := db.relations.deleteAll (fun r => r.sourceId == some s.id) }
    (.ok (), resetMetrics s db)
  else
    (.error ⟨"NoMethodError", "undefined method `relations'"⟩, db)

/-- **The job does not get past the works.** -/
theorem perform_eq (s : Source) (db : Db) :
    perform s db = (.error ⟨"NoMethodError", "undefined method `relations'"⟩,
      db.destroyWorks (fun w => (workIds s db).contains w.id)) := by
  have h : Source.associations.contains "relations" = false := by decide
  simp only [perform, h, Bool.false_eq_true, if_false]

/-- What the job is for: a work goes only if all its relations come from the
source and no other source has counted anything for it while tracked; the
source keeps no relation, month or day and no count; the rows of other
sources stay; and the job runs to its end. -/
structure DeletesCleanly (s : Source) (db : Db) : Prop where
  completes : (perform s db).1 = .ok ()
  onlyOwn : ∀ w ∈ db.works.rows, w ∉ (perform s db).2.works.rows →
    ∀ r ∈ db.relations.rows, r.workId = w.id → r.sourceId = some s.id
  keepsCounted : ∀ w ∈ db.works.rows, w.tracked = true →
    (∃ r ∈ db.retrievalStatuses.rows, r.workId = w.id ∧ r.sourceId ≠ s.id ∧ r.metrics ≠ {}) →
      w ∈ (perform s db).2.works.rows
  noRelations : ∀ r ∈ (perform s db).2.relations.rows, r.sourceId ≠ some s.id
  noMonths : ∀ m ∈ (perform s db).2.months.rows, m.sourceId ≠ s.id
  noDays : ∀ d ∈ (perform s db).2.days.rows, d.sourceId ≠ s.id
  noCounts : ∀ r ∈ (perform s db).2.retrievalStatuses.rows, r.sourceId = s.id → r.metrics = {}
  keepsRelations : ∀ r ∈ db.relations.rows, r.sourceId ≠ some s.id →
    r ∈ (perform s db).2.relations.rows
  keepsMonths : ∀ m ∈ db.months.rows, m.sourceId ≠ s.id → m ∈ (perform s db).2.months.rows
  keepsDays : ∀ d ∈ db.days.rows, d.sourceId ≠ s.id → d ∈ (perform s db).2.days.rows
  keepsStatuses : ∀ r ∈ db.retrievalStatuses.rows, r.sourceId ≠ s.id →
    r ∈ (perform s db).2.retrievalStatuses.rows

/-- **No run of the job does what it is for.** Every run raises, in every
database and for every source. -/
theorem never_deletes_cleanly (s : Source) (db : Db) : ¬ DeletesCleanly s db := by
  intro h
  have hdone := h.completes
  rw [perform_eq] at hdone
  cases hdone

/-- CiteULike, source 1. -/
def citeulike : Source := { id := 1, type := .citeulike, name := "citeulike", title := "CiteULike" }

/-- CiteULike and another source both say that work 1 discusses work 2. -/
def linkedTwice : Db :=
  { works := (Table.empty.insert {}).insert {}
    relations := (Table.empty.insert
        { workId := 1, relatedWorkId := 2, sourceId := some 1, relationTypeId := 1
          level := 1 }).insert
        { workId := 1, relatedWorkId := 2, sourceId := some 2, relationTypeId := 1, level := 1 } }

/-- Deleting the events of CiteULike raises, after work 1 has gone together
with the relation the other source contributed. -/
theorem perform_destroys_work_linked_elsewhere :
    ¬ DeletesCleanly citeulike linkedTwice ∧
      (perform citeulike linkedTwice).2.works.rows.map Work.id = [2] ∧
      (perform citeulike linkedTwice).2.relations.rows = [] := by
  rw [perform_eq]
  refine ⟨fun h => ?_, by decide, by decide⟩
  -- the relation of source 2 should have survived
  have hkept := h.keepsRelations
    { id := 2, workId := 1, relatedWorkId := 2, sourceId := some 2, relationTypeId := 1
      level := 1 }
    (by decide) (by decide)
  rw [perform_eq] at hkept
  exact absurd hkept (by decide)

end DeleteEventJob

end Lagotto
