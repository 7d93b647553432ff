/-
Lagotto.Work.FindOrCreate — `Work.find_or_create` and `update_relations`
(`app/models/work.rb`).

`find_or_create` tries `create!` first and reads the message of the
exception when that fails. Four texts are looked for, in order; each stands
for a conflict and names the column by which the existing work is then
looked up. For a conflict of pids that column is `canonical_url`, which need
not be the column the pid was built from. On success the value of the method
is that of its last expression, the array `update_relations` returns.
-/
import Mathlib.Data.List.Sort
import Lagotto.Source.Configurable
import Lagotto.Work.Validation

namespace Lagotto

open Relational
open Text

/-! ## Relations -/

/-- The two relations an item of `related_works` stands for, or none if a
record it names does not exist. -/
def relationsFor (env : Env) (db : Db) (workId : Nat) (item : RelatedWork) : List Relation :=
  let relatedWork := db.works.first (fun w => env.same (w.col .pid) (some item.relatedWork))
  let source := db.sources.first (fun s => env.same (some s.name) (some item.source))
  let relationName := item.relationType.getD "cited"
  match db.relationTypes.first (fun t => env.same (some t.name) (some relationName)) with
  | none => []
  | some relationType =>
    let inverse := db.relationTypes.first
      (fun t => env.same (some t.name) relationType.inverseName)
    match relatedWork, source, inverse with
    | some relatedWork, some source, some inverse =>
      [{ workId := workId, relatedWorkId := relatedWork.id, sourceId := some source.id,
         relationTypeId := relationType.id, level := relationType.level },
       { workId := relatedWork.id, relatedWorkId := workId, sourceId := some source.id,
         relationTypeId := inverse.id, level := inverse.level }]
    | _, _, _ => []

/-- The `where` of the two `first_or_create`: the relation type is not part of
it. -/
def Relation.sameLink (r other : Relation) : Bool :=
  other.workId == r.workId && other.relatedWorkId == r.relatedWorkId && other.sourceId == r.sourceId

/-- `update_relations`. The records an item names are in tables the loop does
not write, so they can be looked up beforehand. -/
def updateRelations (env : Env) (workId : Nat) (data : List RelatedWork) (db : Db) : Db :=
  { db with
    relations := db.relations.firstOrCreateAll Relation.sameLink id
      (data.flatMap (relationsFor env db workId)) }

/-! ## `create!` and `update_attributes` -/

/-- `Source.installed`: ordered by group and title. -/
def installedSources (db : Db) : List Source :=
  (db.sources.rows.filter (fun s => s.state.installed)).insertionSort
    (fun a b => a.groupId < b.groupId ∨ (a.groupId = b.groupId ∧ a.title ≤ b.title))

/-- `create_retrievals`. A retrieval status is valid if its source is; the
work has just been validated. -/
def createRetrievals (env : Env) (workId : Nat) (db : Db) : Db :=
  { db with
    retrievalStatuses := db.retrievalStatuses.firstOrCreateAll
      (fun s r => r.workId == workId && r.sourceId == s.id)
      (fun s => { workId := workId, sourceId := s.id })
      ((installedSources db).filter (fun s => (s.errors env.validCron).isEmpty)) }

/-- Why `save!` raises for a record beside the others, if it does: the
validations come first, then the database. -/
def Work.rejection (env : Env) (others : List Work) (w : Work) : Option SaveError :=
  let errors := w.errors env others
  if errors.isEmpty then (w.row env).refusal env others
  else some (.recordInvalid (invalidMessage errors))

/-- The record `create!` builds. -/
def Params.build (p : Params) : Work := ({} : Work).assign p

/-- `create!`: the id of the new work and the database with it, or the
exception. -/
def createWork (env : Env) (p : Params) (db : Db) : Except SaveError (Nat × Db) :=
  match p.build.rejection env db.works.rows with
  | some e => .error e
  | none =>
    let created := { db with works := db.works.insert (p.build.row env) }
    .ok (db.works.nextId,
      if p.build.tracked then createRetrievals env db.works.nextId created else created)

/-- The rows a work must not collide with. -/
def Work.others (w : Work) (db : Db) : List Work :=
  db.works.rows.filter (fun other => other.id != w.id)

/-- `UPDATE works … WHERE id`. -/
def Db.writeWork (db : Db) (w : Work) : Db :=
  { db with works := db.works.put w }

/-- `update_attributes`: `none` if the record is not valid, in which case
nothing is written and nothing raised. -/
def updateAttributes (env : Env) (w : Work) (p : Params) (db : Db) : Except SaveError (Option Db) :=
  let w := w.assign p
  if (w.errors env (w.others db)).isEmpty then
    match (w.row env).refusal env (w.others db) with
    | some e => .error e
    | none => .ok (some (db.writeWork (w.row env)))
  else
    .ok none

/-! ## `find_or_create` -/

/-- The conflicts `find_or_create` tells apart. -/
inductive Conflict where
  | doi | pmid | ark | pid
  deriving DecidableEq, Repr

namespace Conflict

/-- The column of the constraint. -/
def column : Conflict → Column
  | doi => .doi
  | pmid => .pmid
  | ark => .ark
  | pid => .pid

/-- The column the existing work is looked up by, and which is left out of
the update. -/
def lookup : Conflict → Column
  | doi => .doi
  | pmid => .pmid
  | ark => .ark
  | pid => .canonicalUrl

def taken : Conflict → String
  | doi => "Doi has already been taken"
  | pmid => "Pmid has already been taken"
  | ark => "Ark has already been taken"
  | pid => "Pid has already been taken"

def key : Conflict → String
  | doi => "key 'index_works_on_doi'"
  | pmid => "key 'index_works_on_pmid'"
  | ark => "key 'index_works_on_ark'"
  | pid => "key 'index_works_on_pid'"

/-- `e.message.include?(…) || e.message.include?(…)`. -/
def isIn (message : String) (c : Conflict) : Bool :=
  includes message c.taken || includes message c.key

/-- The branch a message leads to. -/
def of? (message : String) : Option Conflict := [doi, pmid, ark, pid].find? (isIn message)

end Conflict

/-- What `find_or_create` returns: the array is what a new work gives. -/
inductive Returned where
  | nil
  | work (id : Nat)
  | array
  deriving DecidableEq, Repr

/-- `Work.where(c => params[c]).first`. -/
def findWork (env : Env) (c : Column) (p : Params) (db : Db) : Option Work :=
  db.works.first (fun w => env.same (w.col c) (p.get c))

/-- One of the four branches that look a work up. -/
def rescueConflict (env : Env) (c : Conflict) (p : Params) (db : Db) :
    Except Raised Returned × Db :=
  match findWork env c.lookup p db with
  | none => (.ok .nil, db)
  | some w =>
    if p.isTracked then
      match updateAttributes env w (p.except c.lookup) db with
      | .error e => (.error e.raised, db)
      | .ok updated =>
        (.ok (.work w.id), updateRelations env w.id p.relatedWorks (updated.getD db))
    else
      (.ok (.work w.id), updateRelations env w.id p.relatedWorks db)

/-- The last branch: an alert with the identifier that was given. -/
def alertInvalid (env : Env) (message : String) (p : Params) (db : Db) : Db :=
  let (targetUrl, message) :=
    if present (p.get .doi) then
      (some ("http://doi.org/" ++ (p.get .doi).getD ""),
        message ++ " for doi " ++ (p.get .doi).getD "" ++ ".")
    else if present (p.get .pmid) then
      (some ("http://www.ncbi.nlm.nih.gov/pubmed/" ++ (p.get .pmid).getD ""),
        message ++ " for pmid " ++ (p.get .pmid).getD "" ++ ".")
    else if present (p.get .ark) then
      (some ("http://n2t.net/" ++ (p.get .ark).getD ""),
        message ++ " for ark " ++ (p.get .ark).getD "" ++ ".")
    else
      (p.get .canonicalUrl, message ++ " for url " ++ (p.get .canonicalUrl).getD "" ++ ".")
  db.fileAlert env.collate
    { message := message, className := "ActiveRecord::RecordInvalid", targetUrl := targetUrl
      updatedAt := env.now }

/-- `Work.find_or_create`. -/
def findOrCreate (env : Env) (p : Params) (db : Db) : Except Raised Returned × Db :=
  match createWork env p db with
  | .ok (id, created) => (.ok .array, updateRelations env id p.relatedWorks created)
  | .error e =>
    if e.rescued then
      match Conflict.of? e.message with
      | some c => rescueConflict env c p db
      | none => (.ok .nil, alertInvalid env e.message p db)
    else
      (.error e.raised, db)

end Lagotto
