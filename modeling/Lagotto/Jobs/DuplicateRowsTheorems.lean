/-
Lagotto.Jobs.DuplicateRowsTheorems — rows that jobs create side by side.

`update_months`, `update_days` and `update_relations` are loops over
`first_or_create`, which is a SELECT and an INSERT. None of the three tables
has a unique index on the columns that are looked up, so the database does
not notice when two jobs insert the same row. A job alone does what the
functions of the model do (`RowCall.alone`). For jobs side by side,
`rows_unique_of_unhurried` says when no row is doubled: no job looks a row up
that another job has not found and is about to insert.
-/
import Mathlib.Data.List.Nodup
import Lagotto.StateMachine.CheckThenAct
import Lagotto.Retrieval.Periods
import Lagotto.Work.RelationsTheorems

namespace Lagotto

open Relational StateMachine

/-! ## Rows that are looked up and created -/

/-- One `first_or_create`. -/
inductive RowOp where
  | month (rs : RetrievalStatus) (item : MonthItem)
  | day (rs : RetrievalStatus) (item : DayItem)
  | relation (row : Relation)

/-- What the rows are looked up by. -/
inductive RowKey where
  | month (retrievalStatusId : Nat) (year month : Int)
  | day (retrievalStatusId : Nat) (year month day : Int)
  | relation (workId relatedWorkId : Nat) (sourceId : Option Nat)
  deriving DecidableEq, Repr

def Month.rowKey (row : Month) : RowKey := .month row.retrievalStatusId row.year row.month

def Day.rowKey (row : Day) : RowKey := .day row.retrievalStatusId row.year row.month row.day

def Relation.rowKey (row : Relation) : RowKey :=
  .relation row.workId row.relatedWorkId row.sourceId

namespace RowOp

def key : RowOp → RowKey
  | .month rs item => (item.row rs).rowKey
  | .day rs item => (item.row rs).rowKey
  | .relation row => row.rowKey

/-- The SELECT. -/
def found : RowOp → Db → Bool
  | .month rs item, db => (db.months.first (item.selects rs)).isSome
  | .day rs item, db => (db.days.first (item.selects rs)).isSome
  | .relation row, db => (db.relations.first row.sameLink).isSome

/-- The INSERT. -/
def create : RowOp → Db → Db
  | .month rs item, db => { db with months := db.months.insert (item.row rs) }
  | .day rs item, db => { db with days := db.days.insert (item.row rs) }
  | .relation row, db => { db with relations := db.relations.insert row }

end RowOp

/-- The keys of all rows of the three tables. -/
def Db.rowKeys (db : Db) : List RowKey :=
  db.months.rows.map Month.rowKey ++ (db.days.rows.map Day.rowKey ++
    db.relations.rows.map Relation.rowKey)

theorem MonthItem.selects_iff {rs : RetrievalStatus} {item : MonthItem} {row : Month} :
    item.selects rs row = true ↔ row.rowKey = (item.row rs).rowKey := by
  simp only [MonthItem.selects, Month.rowKey, MonthItem.row, Bool.and_eq_true, beq_iff_eq,
    RowKey.month.injEq]
  tauto

theorem DayItem.selects_iff {rs : RetrievalStatus} {item : DayItem} {row : Day} :
    item.selects rs row = true ↔ row.rowKey = (item.row rs).rowKey := by
  simp only [DayItem.selects, Day.rowKey, DayItem.row, Bool.and_eq_true, beq_iff_eq,
    RowKey.day.injEq]
  tauto

theorem Relation.sameLink_iff_rowKey {r other : Relation} :
    r.sameLink other = true ↔ other.rowKey = r.rowKey := by
  simp only [Relation.sameLink_iff, Relation.Links, Relation.rowKey, RowKey.relation.injEq]

/-- A SELECT by the key finds a row exactly if the key is in the table. -/
theorem isSome_first_iff {α : Type} [Row α] {t : Table α} {select : α → Bool} {rowKey : α → RowKey}
    {k : RowKey} (h : ∀ row, select row = true ↔ rowKey row = k) :
    (t.first select).isSome = true ↔ k ∈ t.rows.map rowKey := by
  rw [Table.first, List.find?_isSome, List.mem_map]
  exact exists_congr fun row => and_congr_right fun _ => h row

theorem RowOp.found_iff (op : RowOp) (db : Db) : op.found db = true ↔ op.key ∈ db.rowKeys := by
  simp only [Db.rowKeys, List.mem_append]
  cases op with
  | month rs item =>
    rw [RowOp.found, isSome_first_iff fun _ => MonthItem.selects_iff, RowOp.key]
    simp [Month.rowKey, Day.rowKey, Relation.rowKey]
  | day rs item =>
    rw [RowOp.found, isSome_first_iff fun _ => DayItem.selects_iff, RowOp.key]
    simp [Month.rowKey, Day.rowKey, Relation.rowKey]
  | relation row =>
    rw [RowOp.found, isSome_first_iff fun _ => Relation.sameLink_iff_rowKey, RowOp.key]
    simp [Month.rowKey, Day.rowKey, Relation.rowKey]

theorem map_rows_insert {α : Type} [Row α] {rowKey : α → RowKey}
    (hkey : ∀ n r, rowKey (Row.withId n r) = rowKey r) (t : Table α) (r : α) :
    (t.insert r).rows.map rowKey = t.rows.map rowKey ++ [rowKey r] := by
  rw [Table.rows_insert, List.map_append, List.map_singleton, hkey]

/-- The insert adds its key, wherever the table stands in the list. -/
theorem RowOp.rowKeys_create (op : RowOp) (db : Db) :
    (op.create db).rowKeys.Perm (op.key :: db.rowKeys) := by
  cases op with
  | month rs item =>
    simp only [RowOp.create, Db.rowKeys]
    rw [map_rows_insert fun _ _ => rfl, List.append_assoc, List.singleton_append]
    exact List.perm_middle
  | day rs item =>
    simp only [RowOp.create, Db.rowKeys]
    rw [map_rows_insert fun _ _ => rfl, List.append_assoc, List.singleton_append]
    exact (List.perm_middle.append_left _).trans List.perm_middle
  | relation row =>
    simp only [RowOp.create, Db.rowKeys]
    rw [map_rows_insert fun _ _ => rfl]
    refine (((List.perm_append_singleton _ _).append_left _).append_left _).trans ?_
    exact (List.perm_middle.append_left _).trans List.perm_middle

theorem rowOp_keyed :
    Keyed RowOp.found RowOp.create RowOp.key (fun k db => db.rowKeys.count k) where
  found_iff op db := by rw [RowOp.found_iff, List.count_pos_iff]
  count_create op db k := by
    rw [(op.rowKeys_create db).count_eq, List.count_cons]
    simp only [beq_iff_eq]

/-! ## The calls -/

/-- A call of one of the three functions. -/
inductive RowCall where
  | updateMonths (rs : RetrievalStatus) (data : List MonthItem)
  | updateDays (rs : RetrievalStatus) (data : List DayItem)
  | updateRelations (workId : Nat) (data : List RelatedWork)

namespace RowCall

/-- What the model of the function does. -/
def apply (env : Env) (db : Db) : RowCall → Db
  | .updateMonths rs data => { db with months := rs.updateMonths db.months data }
  | .updateDays rs data => { db with days := rs.updateDays db.days data }
  | .updateRelations workId data => Lagotto.updateRelations env workId data db

/-- Its `first_or_create`, in order. -/
def ops (env : Env) (db : Db) : RowCall → List RowOp
  | .updateMonths rs data => data.map (.month rs)
  | .updateDays rs data => data.map (.day rs)
  | .updateRelations workId data => (data.flatMap (relationsFor env db workId)).map .relation

end RowCall

/-- The steps on one table are its `first_or_create` in order. -/
theorem foldl_rowOps {ι α : Type} [Row α] {op : ι → RowOp} {select : ι → α → Bool} {row : ι → α}
    (put : Table α → Db)
    (hfound : ∀ item t, (op item).found (put t) = (t.first (select item)).isSome)
    (hcreate : ∀ item t, (op item).create (put t) = put (t.insert (row item)))
    (items : List ι) (t : Table α) :
    (items.map op).foldl (firstOrInsert RowOp.found RowOp.create) (put t) =
      put (t.firstOrCreateAll select row items) := by
  induction items generalizing t with
  | nil => rfl
  | cons item rest ih =>
    rw [List.map_cons, List.foldl_cons, Table.firstOrCreateAll_cons, ← ih, firstOrInsert, hfound]
    cases hfirst : t.first (select item) with
    | none => simp [Table.firstOrCreate_of_none hfirst, hcreate]
    | some found => simp [Table.firstOrCreate_of_first hfirst]

/-- A job that is not interrupted does what the function does. -/
theorem RowCall.alone (env : Env) (call : RowCall) {pool : List (Worker RowOp)} {n : Nat} (db : Db)
    (h : pool[n]? = some ⟨call.ops env db, false⟩) :
    ∃ steps, run (move RowOp.found RowOp.create) (List.replicate steps (.go n)) ⟨pool, db⟩ =
      ⟨pool.set n ⟨[], false⟩, call.apply env db⟩ := by
  obtain ⟨steps, hsteps⟩ := read_then_insert db h
  refine ⟨steps, hsteps.trans ?_⟩
  cases call with
  | updateMonths rs data =>
    exact congrArg _ (foldl_rowOps (fun months => { db with months := months })
      (fun _ _ => rfl) (fun _ _ => rfl) data db.months)
  | updateDays rs data =>
    exact congrArg _ (foldl_rowOps (fun days => { db with days := days })
      (fun _ _ => rfl) (fun _ _ => rfl) data db.days)
  | updateRelations workId data =>
    exact congrArg _ (foldl_rowOps (fun relations => { db with relations := relations })
      (fun _ _ => rfl) (fun _ _ => rfl) (data.flatMap (relationsFor env db workId)) db.relations)

/-! ## Jobs side by side -/

/-- Rows with different keys, all of one retrieval status, are of different
periods. -/
theorem nodup_periods {α β : Type} {rows : List α} {rowKey : α → RowKey} (le : α → α → Prop)
    [DecidableRel le] {own : α → Bool} {period : α → β} (keyOf : β → RowKey)
    (hkey : ∀ row, own row = true → rowKey row = keyOf (period row))
    (h : (rows.map rowKey).Nodup) : (((rows.filter own).insertionSort le).map period).Nodup := by
  refine ((List.perm_insertionSort le (rows.filter own)).map period).nodup_iff.mpr ?_
  refine List.Nodup.of_map keyOf ?_
  have hmap : ((rows.filter own).map period).map keyOf = (rows.filter own).map rowKey := by
    rw [List.map_map]
    exact List.map_congr_left fun row hrow => (hkey row (List.mem_filter.mp hrow).2).symm
  rw [hmap]
  exact h.sublist (List.filter_sublist.map rowKey)

/-- The rows of each table have different keys. -/
theorem nodup_tables {db : Db} (h : db.rowKeys.Nodup) :
    (db.months.rows.map Month.rowKey).Nodup ∧ (db.days.rows.map Day.rowKey).Nodup ∧
      (db.relations.rows.map Relation.rowKey).Nodup := by
  obtain ⟨hmonths, hrest, _⟩ := List.nodup_append.mp h
  obtain ⟨hdays, hrelations, _⟩ := List.nodup_append.mp hrest
  exact ⟨hmonths, hdays, hrelations⟩

/-- Jobs in any order, none of which looks a row up that another is about to
insert: every month, day and link has one row, and a retrieval status sees
each of its months and days once. -/
theorem rows_unique_of_unhurried (db : Db) (hdb : db.rowKeys.Nodup) {moves : List (Move RowOp)}
    (hmoves : Along (move RowOp.found RowOp.create) (Unhurried RowOp.key) moves ⟨[], db⟩) :
    let db' := (run (move RowOp.found RowOp.create) moves ⟨[], db⟩).state
    (db'.months.rows.map Month.rowKey).Nodup ∧ (db'.days.rows.map Day.rowKey).Nodup ∧
      (db'.relations.rows.map Relation.rowKey).Nodup ∧
      ∀ rs : RetrievalStatus,
        ((rs.months db'.months).map fun row => (row.year, row.month)).Nodup ∧
          ((rs.days db'.days).map fun row => (row.year, row.month, row.day)).Nodup := by
  intro db'
  have hstart : Unique RowOp.key (fun k db => db.rowKeys.count k) ⟨[], db⟩ :=
    fun k => List.nodup_iff_count_le_one.mp hdb k
  have hunique : db'.rowKeys.Nodup :=
    List.nodup_iff_count_le_one.mpr (unique_along rowOp_keyed hstart hmoves)
  obtain ⟨hmonths, hdays, hrelations⟩ := nodup_tables hunique
  refine ⟨hmonths, hdays, hrelations, fun rs => ⟨?_, ?_⟩⟩
  · refine nodup_periods _ (fun period => .month rs.id period.1 period.2) (fun row hrow => ?_)
      hmonths
    rw [Month.rowKey, beq_iff_eq.mp hrow]
  · refine nodup_periods _ (fun period => .day rs.id period.1 period.2.1 period.2.2)
      (fun row hrow => ?_) hdays
    rw [Day.rowKey, beq_iff_eq.mp hrow]

/-- A retrieval status and its total for May. -/
def totalForMay : RowOp :=
  .month { id := 7, workId := 1, sourceId := 1 } { year := 2015, month := 5, counts := {} }

/-- One job looks the month up when the other has inserted it. -/
theorem rows_unique_one_after_the_other :
    ((run (move RowOp.found RowOp.create)
      [.start [totalForMay], .start [totalForMay], .go 0, .go 0, .go 1]
      ⟨[], {}⟩).state.months.rows.map Month.rowKey).Nodup :=
  (rows_unique_of_unhurried {} (by decide) (by decide)).1

/-- Both jobs look the month up before one of them inserts it. -/
theorem month_doubled :
    (run (move RowOp.found RowOp.create)
      [.start [totalForMay], .start [totalForMay], .go 0, .go 1, .go 0, .go 1]
      ⟨[], {}⟩).state.months.rows.map Month.rowKey =
        [.month 7 2015 5, .month 7 2015 5] := by
  decide

end Lagotto
