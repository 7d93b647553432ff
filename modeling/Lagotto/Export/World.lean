/-
Lagotto.Export.World — what an API snapshot reads and writes: its record,
the web server it crawls, the disk, the job queue
(`app/models/data_exports/`, `lib/api_snapshot_utility.rb`,
`lib/lagotto_zip_utility.rb`, `lib/zip_utility.rb`).

The jobs act on all of this through the calls of `ExportCall`. `effect` says
what a call does when nothing goes wrong. `handle` lets any call fail: an
`Env` names the calls that raise, and how much of their effect is left. An
append to a file can stop after any number of characters.

A `FileWriteLog` is written to and never read here. Archives are kept apart
from the other files.
-/
import Mathlib.Logic.Function.Basic
import Lagotto.Model.Calendar
import Lagotto.Text.Paths
import Lagotto.Interaction.Raising

namespace Lagotto.Export

open Text Interaction

/-! ## Records -/

/-- `APPEND_MODE` and `CREATE_MODE`. -/
inductive Mode where
  | append
  | create
  deriving DecidableEq, Repr

/-- The `data` column of an `ApiSnapshot`, with the defaults of `initialize`. -/
structure SnapshotData where
  benchmark : Bool := false
  filenameExt : String := "jsondump"
  mode : Mode := .create
  numPages : Option Int := some 10
  pageno : Int := 0
  snapshotDir : String
  /-- As it is printed. -/
  snapshotDate : String
  startPage : Option Int := some 1
  stopPage : Option Int := none
  deriving DecidableEq, Repr

structure ApiSnapshot where
  id : Nat
  url : String
  data : SnapshotData
  /-- `created_at.to_date`, as it is printed. -/
  createdOn : String
  startedExportingAt : Option Time := none
  finishedExportingAt : Option Time := none
  failedAt : Option Time := none
  deriving DecidableEq, Repr

/-- The columns `touch` is called with. -/
inductive Stamp where
  | startedExportingAt
  | finishedExportingAt
  | failedAt
  deriving DecidableEq, Repr

structure ZenodoDataExport where
  id : Nat
  name : String
  files : List String
  publicationDate : String
  title : String
  description : String
  creators : List (Option String)
  keywords : List String
  codeRepositoryUrl : String
  deriving DecidableEq, Repr

structure FileWriteLog where
  filepath : String
  fileType : String
  deriving DecidableEq, Repr

/-- The arguments of an `ApiSnapshotJob`. -/
structure SnapshotJob where
  id : Nat
  uploadOnFinished : Bool := false
  deriving DecidableEq, Repr

namespace ApiSnapshot

def touch (stamp : Stamp) (now : Time) (s : ApiSnapshot) : ApiSnapshot :=
  match stamp with
  | .startedExportingAt => { s with startedExportingAt := some now }
  | .finishedExportingAt => { s with finishedExportingAt := some now }
  | .failedAt => { s with failedAt := some now }

def benchmarking (s : ApiSnapshot) : Bool := s.data.benchmark

def creating (s : ApiSnapshot) : Bool := s.data.mode == .create

end ApiSnapshot

/-- The file name without date and extension:
`uri.path.gsub(/^\/*/, '').gsub('/', '_')`. -/
def rewrite (path : List Char) : List Char :=
  (path.dropWhile (· == '/')).map (fun c => if c = '/' then '_' else c)

/-- `snapshot_filepath`: none where `URI.parse` raises or the address has no
path. -/
def snapshotFilepath (url : String) (data : SnapshotData) : Option String :=
  (uriPath url.toList).map fun path =>
    String.ofList (joinPath data.snapshotDir.toList (rewrite path) ++
      ('_' :: data.snapshotDate.toList) ++ ('.' :: data.filenameExt.toList))

/-- `zip_filepath`, for the path of the snapshot's file. -/
def zipFilepath (snapshotFilepath : String) : String :=
  let filename := basename snapshotFilepath.toList
  String.ofList (joinPath (dirname snapshotFilepath.toList)
    (removeFirst (extname filename) filename ++ ".zip".toList))

/-! ## The server -/

/-- A request of the crawler. `page` is the value it sets the `page` parameter
of the query to; without one the query is sent as it stands in the address. -/
structure Request where
  url : String
  page : Option Int
  deriving DecidableEq, Repr

/-- A response body: not JSON, JSON with or without `page` and `total_pages`
under `meta`, or JSON whose paging information raises when it is looked up or
compared. -/
inductive Body where
  | malformed (text : String)
  | json (text : String) (paging : Option (Int × Int))
  | unreadable (text : String)
  deriving DecidableEq, Repr

/-! ## Calls -/

inductive ExportError where
  | recordNotFound
  | recordInvalid
  | invalidURI
  | malformedResponse (message : String)
  | typeError
  | noSuchFile (path : String)
  | entryExists (path : String)
  | notRelative (path : String)
  /-- The crawler was still going when the model stopped following it. -/
  | unfinishedCrawl
  /-- What the surroundings raise. -/
  | failure
  deriving DecidableEq, Repr

inductive ExportCall where
  | createSnapshot (url : String) (data : SnapshotData)
  | findSnapshot (id : Nat)
  | touch (id : Nat) (stamp : Stamp)
  | saveData (id : Nat) (data : SnapshotData)
  | dirExists (dir : String)
  | mkdirP (dir : String)
  | fileExists (path : String)
  | rm (path : String)
  | newTempfile (name : String)
  | get (request : Request)
  | append (path text : String)
  | createFileWriteLog (log : FileWriteLog)
  | performLater (job : SnapshotJob)
  | exportLater (id : Nat)
  | addToZip (zip path name : String)
  | createZenodoDataExport (attributes : ZenodoDataExport)
  | createAlert (exception : ExportError) (details : SnapshotJob)
  deriving DecidableEq, Repr

/-- What a call returns. -/
abbrev ExportCall.answer : ExportCall → Type
  | createSnapshot _ _ => Nat
  | findSnapshot _ => ApiSnapshot
  | dirExists _ => Bool
  | fileExists _ => Bool
  | get _ => Body
  | createZenodoDataExport _ => Nat
  | _ => Unit

/-- Code that talks to the surroundings. -/
abbrev ExportM := Raising ExportCall ExportCall.answer ExportError

def call (r : ExportCall) : ExportM r.answer := Program.raising r

def findSnapshot (id : Nat) : ExportM ApiSnapshot := call (.findSnapshot id)

def dirExists (dir : String) : ExportM Bool := call (.dirExists dir)

def fileExists (path : String) : ExportM Bool := call (.fileExists path)

def get (request : Request) : ExportM Body := call (.get request)

/-! ## The surroundings -/

structure Env where
  server : Request → Body
  /-- `Time.zone.now`, and the day as it is printed. -/
  now : Time
  today : String
  /-- The line that reports how long a request took. -/
  benchmarkLine : Request → String
  /-- `ApiSnapshot.default_snapshot_dir`. -/
  defaultSnapshotDir : String
  /-- `ENV['CREATOR']`, `ENV['SITENAMELONG']`, `ENV['GITHUB_URL']`. -/
  creator : Option String
  sitenamelong : String
  githubUrl : String
  /-- `docs/readmes/api_snapshot.md`. -/
  readme : String
  /-- The calls that raise, and what they do before they raise: the number of
  characters an append writes; for any other call nothing if it is zero, and
  all of its effect otherwise. -/
  faults : ExportCall → Option Nat

structure World where
  /-- The rows of `data_exports`, by id. -/
  snapshots : Nat → Option ApiSnapshot
  zenodoDataExports : List ZenodoDataExport
  nextId : Nat
  files : String → Option String
  dirs : String → Bool
  zips : String → Option (List (String × String))
  fileWriteLogs : List FileWriteLog
  /-- The jobs that wait: `ApiSnapshotJob`, and the ids given to `DataExportJob`. -/
  queue : List SnapshotJob
  exportQueue : List Nat
  alerts : List (ExportError × SnapshotJob)
  /-- The requests the server has answered. -/
  requests : List Request

namespace World

/-- Write to the row of an id, if there is one. -/
def updateSnapshot (id : Nat) (f : ApiSnapshot → ApiSnapshot) (w : World) : World :=
  { w with snapshots := Function.update w.snapshots id ((w.snapshots id).map f) }

/-- `File.open(path, "ab")` and a write. -/
def appendTo (path text : String) (w : World) : World :=
  { w with files := Function.update w.files path (some ((w.files path).getD "" ++ text)) }

end World

/-- `str.blank?` -/
def blank (s : String) : Bool := s.toList.all Char.isWhitespace

/-- `zipfile.add`, one entry after another: a name that is taken raises. -/
def addEntries (archive : List (String × String)) :
    List (String × String) → Bool × List (String × String)
  | [] => (true, archive)
  | entry :: rest =>
    if archive.any (·.1 == entry.1) then (false, archive)
    else addEntries (archive ++ [entry]) rest

/-- What a call does when it is not disturbed. -/
def effect (env : Env) : (r : ExportCall) → World → Except ExportError r.answer × World
  | .createSnapshot url data, w =>
    if blank url then (.error .recordInvalid, w)
    else
      (.ok w.nextId,
        { w with
          snapshots := Function.update w.snapshots w.nextId
            (some { id := w.nextId, url := url, data := data, createdOn := env.today })
          nextId := w.nextId + 1 })
  | .findSnapshot id, w =>
    (match w.snapshots id with
      | some s => .ok s
      | none => .error .recordNotFound, w)
  | .touch id stamp, w => (.ok (), w.updateSnapshot id (·.touch stamp env.now))
  | .saveData id data, w => (.ok (), w.updateSnapshot id ({ · with data := data }))
  | .dirExists dir, w => (.ok (w.dirs dir), w)
  | .mkdirP dir, w => (.ok (), { w with dirs := Function.update w.dirs dir true })
  | .fileExists path, w => (.ok (w.files path).isSome, w)
  | .rm path, w =>
    match w.files path with
    | none => (.error (.noSuchFile path), w)
    | some _ => (.ok (), { w with files := Function.update w.files path none })
  | .newTempfile _, w => (.ok (), w)
  | .get request, w => (.ok (env.server request), { w with requests := w.requests ++ [request] })
  | .append path text, w => (.ok (), w.appendTo path text)
  | .createFileWriteLog log, w => (.ok (), { w with fileWriteLogs := w.fileWriteLogs ++ [log] })
  | .performLater job, w => (.ok (), { w with queue := w.queue ++ [job] })
  | .exportLater id, w => (.ok (), { w with exportQueue := w.exportQueue ++ [id] })
  | .addToZip zip path name, w =>
    match w.files path with
    | none => (.error (.noSuchFile path), w)
    | some content =>
      -- what was added before an entry is refused is written all the same
      let (added, archive) :=
        addEntries ((w.zips zip).getD []) [(name, content), ("README.md", env.readme)]
      (if added then .ok () else .error (.entryExists zip),
        { w with zips := Function.update w.zips zip (some archive) })
  | .createZenodoDataExport attributes, w =>
    -- the presence validations, of which only the last can fail here
    if blank attributes.codeRepositoryUrl then (.error .recordInvalid, w)
    else
      (.ok w.nextId,
        { w with
          zenodoDataExports := w.zenodoDataExports ++ [{ attributes with id := w.nextId }]
          nextId := w.nextId + 1 })
  | .createAlert exception details, w =>
    (.ok (), { w with alerts := w.alerts ++ [(exception, details)] })

/-- What is left of a call that raises. -/
def remains (env : Env) (written : Nat) : ExportCall → World → World
  | .append path text, w => w.appendTo path (String.ofList (text.toList.take written))
  | r, w => if written = 0 then w else (effect env r w).2

def handle (env : Env) (r : ExportCall) (w : World) : Except ExportError r.answer × World :=
  match env.faults r with
  | none => effect env r w
  | some written => (.error .failure, remains env written r w)

end Lagotto.Export
