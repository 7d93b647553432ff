/-
Lagotto.Export.Zenodo — the state of a data export and its way to Zenodo
(`app/models/data_export.rb`, `app/models/data_exports/zenodo_data_export.rb`).

`export!` is a program over calls to the database, the disk and the server,
each of which may raise, before or after it has had its effect
(`ZenodoEnv.faults`). It rescues everything, takes its time stamps back, notes
the failure and raises again.

A deposition is kept with the export it was made for and the version it was
linked to. The endpoint of a snapshot is not a column of the export; it is
kept for the record.
-/
import Mathlib.Data.List.Sort
import Lagotto.Export.ApiSnapshot
import Lagotto.Relational.Table

namespace Lagotto.Export

open Interaction
open Relational
open Program (rescue)

/-! ## `DataExport` -/

/-- What `state` returns. -/
inductive ExportState where
  | failed
  | done
  | processing
  | pending
  deriving DecidableEq, Repr

/-- The time stamps of an export. -/
structure Stamps where
  startedExportingAt : Option Time := none
  finishedExportingAt : Option Time := none
  failedAt : Option Time := none
  deriving DecidableEq, Repr

namespace Stamps

def state (stamps : Stamps) : ExportState :=
  if stamps.failedAt.isSome then .failed
  else if stamps.finishedExportingAt.isSome then .done
  else if stamps.startedExportingAt.isSome then .processing
  else .pending

def touch (stamp : Stamp) (now : Time) (stamps : Stamps) : Stamps :=
  match stamp with
  | .startedExportingAt => { stamps with startedExportingAt := some now }
  | .finishedExportingAt => { stamps with finishedExportingAt := some now }
  | .failedAt => { stamps with failedAt := some now }

end Stamps

/-- Those of an API snapshot. -/
def ApiSnapshot.stamps (s : ApiSnapshot) : Stamps where
  startedExportingAt := s.startedExportingAt
  finishedExportingAt := s.finishedExportingAt
  failedAt := s.failedAt

/-! ## Records -/

/-- What the server tells about a deposition. -/
structure RemoteDeposition where
  id : Nat
  recordUrl : Option String
  doi : Option String
  deriving DecidableEq, Repr

/-- A row of `data_exports` of type `ZenodoDataExport`. -/
structure ZenodoRecord where
  attributes : ZenodoDataExport
  /-- The `url` of the snapshot it was created for. -/
  endpoint : Option String := none
  createdAt : Time
  url : Option String := none
  remoteDeposition : Option RemoteDeposition := none
  stamps : Stamps := {}
  deriving DecidableEq, Repr

instance : Row ZenodoRecord where
  id e := e.attributes.id
  withId n e := { e with attributes := { e.attributes with id := n } }
  id_withId _ _ := rfl
  withId_id _ := rfl

namespace ZenodoRecord

def id (e : ZenodoRecord) : Nat := e.attributes.id

/-- `finished?` -/
def finished (e : ZenodoRecord) : Bool := e.stamps.finishedExportingAt.isSome

/-- The condition of `find_previous_version_of`; the type is that of the table. -/
def isVersionOf (e x : ZenodoRecord) : Bool :=
  x.attributes.name == e.attributes.name && x.finished && x.id != e.id

end ZenodoRecord

structure RelatedIdentifier where
  relation : String
  identifier : Option String
  deriving DecidableEq, Repr

/-- `to_zenodo_deposition_attributes` -/
structure DepositionAttributes where
  uploadType : String := "dataset"
  publicationDate : String
  title : String
  description : String
  creators : List (Option String)
  keywords : List String
  accessRight : String := "open"
  license : String := "cc-zero"
  relatedIdentifiers : List RelatedIdentifier
  deriving DecidableEq, Repr

inductive ZenodoError where
  | fileNotFound (file : String)
  /-- `[]` of `nil` -/
  | noMethod
  /-- What the surroundings raise. -/
  | failure
  deriving DecidableEq, Repr

namespace ZenodoRecord

def publicationDoi : String := "10.3789/isqv25no2.2013.04"

/-- `build_related_identifiers_for_deposition_metadata` -/
def relatedIdentifiers (e : ZenodoRecord) :
    Option ZenodoRecord → Except ZenodoError (List RelatedIdentifier)
  | none =>
    .ok [⟨"isSupplementTo", some e.attributes.codeRepositoryUrl⟩,
      ⟨"isSupplementTo", some publicationDoi⟩]
  | some previousVersion =>
    match previousVersion.remoteDeposition with
    | none => .error .noMethod
    | some deposition =>
      .ok [⟨"isSupplementTo", some e.attributes.codeRepositoryUrl⟩,
        ⟨"isSupplementTo", some publicationDoi⟩, ⟨"isNewVersionOf", deposition.doi⟩]

/-- `to_zenodo_deposition_attributes` -/
def depositionAttributes (e : ZenodoRecord) (previousVersion : Option ZenodoRecord) :
    Except ZenodoError DepositionAttributes := do
  let related ← e.relatedIdentifiers previousVersion
  pure
    { publicationDate := e.attributes.publicationDate
      title := e.attributes.title
      description := e.attributes.description
      creators := e.attributes.creators
      keywords := e.attributes.keywords
      relatedIdentifiers := related }

end ZenodoRecord

/-- A deposition at Zenodo, the export it was made for, and the version that
export was linked to. -/
structure Deposition where
  attributes : DepositionAttributes
  madeFor : ZenodoRecord
  previousVersion : Option ZenodoRecord
  built : madeFor.depositionAttributes previousVersion = .ok attributes

/-! ## Calls -/

inductive ZenodoCall where
  | build
  | touch (id : Nat) (stamp : Stamp)
  | fileExists (file : String)
  | findPreviousVersionOf (e : ZenodoRecord)
  | createDeposition (deposition : Deposition)
  | createDepositionFile (id : Nat) (file : String)
  | publishDeposition (id : Nat)
  | getDeposition (id : Nat)
  | save (id : Nat) (deposition : RemoteDeposition)
  /-- `update_attributes` in the `rescue` clause -/
  | recordFailure (id : Nat)

@[reducible] def ZenodoCall.Answer : ZenodoCall → Type
  | .fileExists _ => Bool
  | .findPreviousVersionOf _ => Option ZenodoRecord
  | .createDeposition _ => Nat
  | .getDeposition _ => RemoteDeposition
  | _ => Unit

abbrev ZenodoM (α : Type) := Raising ZenodoCall ZenodoCall.Answer ZenodoError α

def zenodo (r : ZenodoCall) : ZenodoM r.Answer := Program.raising r

namespace ZenodoRecord

/-- `ensure_files_exists!` -/
def ensureFilesExists : List String → ZenodoM Unit
  | [] => pure ()
  | file :: files => do
    let found : Bool ← zenodo (.fileExists file)
    if found then ensureFilesExists files else .fail (.fileNotFound file)

def createDepositionFiles (id : Nat) : List String → ZenodoM Unit
  | [] => pure ()
  | file :: files => do
    zenodo (.createDepositionFile id file)
    createDepositionFiles id files

/-- `create_deposition` with what `to_zenodo_deposition_attributes` builds. -/
def deposit (e : ZenodoRecord) (previousVersion : Option ZenodoRecord) : ZenodoM Nat :=
  match h : e.depositionAttributes previousVersion with
  | .error ex => .fail ex
  | .ok attributes => zenodo (.createDeposition ⟨attributes, e, previousVersion, h⟩)

/-- `perform_upload` -/
def performUpload (e : ZenodoRecord) : ZenodoM Unit := do
  let previousVersion : Option ZenodoRecord ← zenodo (.findPreviousVersionOf e)
  let id ← e.deposit previousVersion
  createDepositionFiles id e.attributes.files
  zenodo (.publishDeposition id)
  let deposition : RemoteDeposition ← zenodo (.getDeposition id)
  zenodo (.save e.id deposition)

/-- `export!` inside its `rescue`, for an export that is not finished. -/
def upload (e : ZenodoRecord) : ZenodoM Unit := do
  zenodo .build
  zenodo (.touch e.id .startedExportingAt)
  ensureFilesExists e.attributes.files
  e.performUpload
  zenodo (.touch e.id .finishedExportingAt)

/-- `export!` -/
def exportNow (e : ZenodoRecord) : ZenodoM Unit :=
  if e.finished then pure ()
  else
    rescue e.upload (fun ex => do
      zenodo (.recordFailure e.id)
      .fail ex)

end ZenodoRecord

/-! ## Surroundings -/

structure ZenodoEnv where
  now : Time
  /-- The files on disk. -/
  files : String → Bool
  /-- The answers of the server. -/
  deposition : Nat → RemoteDeposition
  /-- The order in which the database comes upon rows. -/
  scan : List ZenodoRecord → List ZenodoRecord
  scan_perm : ∀ rows, (scan rows).Perm rows
  /-- The calls that raise, and whether they have had their effect. -/
  faults : ZenodoCall → Option Bool

structure Archive where
  exports : Table ZenodoRecord := .empty
  depositions : List Deposition := []
  nextDeposition : Nat := 1

namespace Archive

/-- Write to the row of an id, if there is one. -/
def update (id : Nat) (f : ZenodoRecord → ZenodoRecord) (w : Archive) : Archive :=
  { w with exports := w.exports.updateAll (fun e => Row.id e == id) f }

/-- `DataExport.find_by_id` -/
def find (w : Archive) (id : Nat) : Option ZenodoRecord :=
  w.exports.first (fun e => Row.id e == id)

/-- `find_previous_version_of`, with the order of the query. -/
def findPreviousVersionOf (env : ZenodoEnv) (w : Archive) (e : ZenodoRecord) :
    Option ZenodoRecord :=
  ((env.scan (w.exports.rows.filter e.isVersionOf)).insertionSort
    (fun x y => y.createdAt ≤ x.createdAt)).head?

end Archive

/-- What a call does when it is not disturbed. -/
def zenodoEffect (env : ZenodoEnv) :
    (r : ZenodoCall) → Archive → Except ZenodoError r.Answer × Archive
  | .build, w => (.ok (), w)
  | .touch id stamp, w =>
    (.ok (), w.update id (fun e => { e with stamps := e.stamps.touch stamp env.now }))
  | .fileExists file, w => (.ok (env.files file), w)
  | .findPreviousVersionOf e, w => (.ok (w.findPreviousVersionOf env e), w)
  | .createDeposition deposition, w =>
    (.ok w.nextDeposition,
      { w with
        depositions := w.depositions ++ [deposition]
        nextDeposition := w.nextDeposition + 1 })
  | .createDepositionFile _ _, w => (.ok (), w)
  | .publishDeposition _, w => (.ok (), w)
  | .getDeposition id, w => (.ok (env.deposition id), w)
  | .save id deposition, w =>
    (.ok (), w.update id (fun e =>
      { e with url := deposition.recordUrl, remoteDeposition := some deposition }))
  | .recordFailure id, w =>
    (.ok (), w.update id (fun e => { e with stamps := { failedAt := some env.now } }))

def zenodoHandle (env : ZenodoEnv) (r : ZenodoCall) (w : Archive) :
    Except ZenodoError r.Answer × Archive :=
  match env.faults r with
  | none => zenodoEffect env r w
  | some hadEffect => (.error .failure, if hadEffect then (zenodoEffect env r w).2 else w)

/-- `find_by_id!` and `export!`, as `DataExportJob` does; none if there is no
such export. -/
def exportAttempt (env : ZenodoEnv) (id : Nat) (w : Archive) :
    Option (Except ZenodoError Unit) × Archive :=
  match w.find id with
  | none => (none, w)
  | some e =>
    let outcome := e.exportNow.exec (zenodoHandle env) w
    (some outcome.1, outcome.2)

/-! ## Exports of snapshots -/

inductive ZenodoAction where
  /-- `export_to_zenodo` -/
  | exportToZenodo (env : Env) (s : ApiSnapshot) (path : String)
  /-- `report.rake` exports a report. -/
  | exportReport (now : Time) (attributes : ZenodoDataExport)
  /-- A `DataExportJob` for an export, for the first time or again. -/
  | exportNow (env : ZenodoEnv) (id : Nat)

def zenodoStep : ZenodoAction → Archive → Archive
  | .exportToZenodo env s path, w =>
    if blank env.githubUrl then w
    else
      { w with
        exports := w.exports.insert
          { attributes := zenodoAttributes env s path, endpoint := some s.url
            createdAt := env.now } }
  | .exportReport now attributes, w =>
    { w with
      exports := w.exports.insert
        { attributes := { attributes with name := "alm_combined_stats_report" }
          createdAt := now } }
  | .exportNow env id, w => (exportAttempt env id w).2

end Lagotto.Export
