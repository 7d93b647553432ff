/-
Lagotto.Export.ApiSnapshot — the crawler, the snapshot and the chain of jobs
that takes it (`lib/api_crawler.rb`, `app/models/data_exports/api_snapshot.rb`,
`app/jobs/api_snapshot_job.rb`, `lib/api_snapshot_utility.rb`).

One job crawls at most `num_pages` pages into a temporary file. What can be
read of it is then appended to the file of the snapshot: the temporary file is
still open, and the last of the pages may wait in its buffer. If pages are
left, the record is set to go on behind them and a job is queued for the rest.
The record is all that one job leaves to the next: `start_page`, `pageno` and
`mode`.

The crawler asks for page after page as long as the server says that there
are more, which may be forever. `fuel` is the number of requests of one job
that the model follows.
-/
import Lagotto.Text.Buffered
import Lagotto.Export.World

namespace Lagotto.Export

open Text Interaction
open Program (rescue)

/-! ## The crawler -/

/-- The buffer of an `IO`, in bytes. -/
def bufferSize : Nat := 8192

/-- What an `ApiCrawler` has got to. `output` is the temporary file. -/
structure Crawler where
  pageno : Int
  totalPages : Option Int := none
  numPagesProcessed : Nat := 0
  output : Buffered := {}
  deriving DecidableEq, Repr

/-- `x < limit`, where no limit is infinity. -/
def below (x : Int) : Option Int → Bool
  | none => true
  | some limit => x < limit

/-- `text.gsub("\n", "")` -/
def withoutNewlines (text : String) : String := String.ofList (text.toList.filter (· != '\n'))

/-- The address the crawler was given, with a scheme. -/
def crawlerUrl (url : String) : String :=
  if "http://".toList.isPrefixOf url.toList || "https://".toList.isPrefixOf url.toList then url
  else "http://" ++ url

namespace Crawler

def pagesLeftToCrawl (c : Crawler) : Bool :=
  match c.totalPages with
  | none => true
  | some total => c.pageno < total

def pagesLeft (stopPage : Option Int) (c : Crawler) : Bool :=
  match c.totalPages with
  | none => true
  | some total => c.pageno < total && below c.pageno stopPage

def continueCrawling (data : SnapshotData) (c : Crawler) : Bool :=
  c.pagesLeftToCrawl && below c.pageno data.stopPage && below c.numPagesProcessed data.numPages

/-- The part of `process_response_body_and_get_next_page_uri` that reads the
body. -/
def process (c : Crawler) : Body → Except ExportError Crawler
  | .malformed text =>
    .error (.malformedResponse ("Response body was not valid JSON in:\n " ++ text))
  | .unreadable _ => .error .typeError
  | .json text paging =>
    let c := { c with
      output := c.output.puts bufferSize (withoutNewlines text)
      numPagesProcessed := c.numPagesProcessed + 1 }
    match paging with
    | some (page, total) => .ok { c with pageno := page, totalPages := some total }
    | none =>
      -- valid JSON without paging information
      .ok { c with totalPages := some (c.totalPages.getD 1), pageno := c.totalPages.getD 1 }

end Crawler

/-- What `benchmark` writes behind a request, where there is a file for it. -/
def report (env : Env) (request : Request) : Option String → ExportM Unit
  | some path => call (.append path (env.benchmarkLine request))
  | none => pure ()

/-- The loop of `crawl`, from the next page on. -/
def crawlFrom (env : Env) (url : String) (data : SnapshotData) (benchmark : Option String) :
    Nat → Option Int → Crawler → ExportM Crawler
  | 0, _, _ => .fail .unfinishedCrawl
  | fuel + 1, page, c => do
    let body ← get { url := url, page := page }
    let c ← Program.ofExcept (c.process body)
    report env { url := url, page := page } benchmark
    if c.continueCrawling data then crawlFrom env url data benchmark fuel (some (c.pageno + 1)) c
    else pure c

/-- `ApiCrawler.new(...)` and `crawl`. -/
def crawl (env : Env) (fuel : Nat) (s : ApiSnapshot) (benchmark : Option String) :
    ExportM Crawler :=
  crawlFrom env (crawlerUrl s.url) s.data benchmark fuel s.data.startPage
    { pageno := s.data.startPage.getD 0 }

/-! ## The snapshot -/

namespace ApiSnapshot

def finished (s : ApiSnapshot) (c : Crawler) : Bool := !c.pagesLeft s.data.stopPage

def touchStarted (s : ApiSnapshot) : ExportM Unit :=
  match s.startedExportingAt with
  | none => call (.touch s.id .startedExportingAt)
  | some _ => pure ()

def makeDir (s : ApiSnapshot) : ExportM Unit := do
  if ← dirExists s.data.snapshotDir then pure () else call (.mkdirP s.data.snapshotDir)

/-- `if creating? && File.exists?(path) then FileUtils.rm path end` -/
def removeOld (s : ApiSnapshot) (path : String) : ExportM Unit :=
  if s.creating then do
    if ← fileExists path then call (.rm path) else pure ()
  else
    pure ()

def openBenchmark (s : ApiSnapshot) (path : String) : ExportM (Option String) :=
  if s.benchmarking then do
    let benchmark := path ++ ".benchmark"
    s.removeOld benchmark
    call (.append benchmark "")
    pure (some benchmark)
  else
    pure none

/-- `export!` until the temporary file is open: the file of the snapshot, and
that of the benchmark. -/
def prepare (s : ApiSnapshot) : ExportM (String × Option String) := do
  s.touchStarted
  s.makeDir
  match snapshotFilepath s.url s.data with
  | none => .fail .invalidURI
  | some path =>
    s.removeOld path
    let benchmark ← s.openBenchmark path
    call (.newTempfile (String.ofList (basename path.toList)))
    pure (path, benchmark)

/-- What follows the crawl. `File.read` sees what has left the buffer. -/
def store (s : ApiSnapshot) (path : String) (c : Crawler) : ExportM Unit := do
  call (.saveData s.id { s.data with pageno := c.pageno })
  call (.append path (puts c.output.written))
  call (.createFileWriteLog { filepath := path, fileType := "ApiSnapshot" })
  if s.finished c then call (.touch s.id .finishedExportingAt) else pure ()

/-- `export!`, which is also `snapshot!`: it leaves the path and the crawler behind. -/
def snapshot (env : Env) (fuel : Nat) (s : ApiSnapshot) : ExportM (String × Crawler) :=
  rescue
    (do
      let (path, benchmark) ← s.prepare
      let c ← crawl env fuel s benchmark
      s.store path c
      pure (path, c))
    (fun e => do
      call (.touch s.id .failedAt)
      .fail e)

end ApiSnapshot

/-! ## Upload -/

/-- `ApiSnapshotUtility.zip`. The message about the archive gives its path
relative to `Rails.root`, which a relative path does not have. -/
def zip (path : String) : ExportM Unit := do
  let zipPath := zipFilepath path
  call (.mkdirP (String.ofList (dirname zipPath.toList)))
  call (.addToZip zipPath path (String.ofList (basename path.toList)))
  call (.createFileWriteLog { filepath := zipPath, fileType := "ZipFile" })
  if zipPath.toList.head? = some '/' then pure () else .fail (.notRelative zipPath)

def zenodoKeywords : List String :=
  ["alm", "lagotto", "article-level metrics", "altmetrics", "bibliometrics", "downloads",
    "citations", "mendeley", "facebook", "twitter"]

/-- The attributes in `export_to_zenodo`; the heredoc on one line. -/
def zenodoAttributes (env : Env) (s : ApiSnapshot) (path : String) : ZenodoDataExport where
  id := 0
  name := "api_snapshot"
  files := [zipFilepath path]
  publicationDate := s.createdOn
  title := "API Snapshot of " ++ s.url ++ " on " ++ s.data.snapshotDate
  description :=
    "Article-Level Metrics (ALM) measure the reach and online engagement of scholarly works. " ++
    "This " ++ env.sitenamelong ++ " API snapshot contains the entirety of the " ++ s.url ++
    " end_point at the time it was generated on " ++ s.createdOn ++
    ". Data are generated by the Lagotto open source software. " ++
    "Go to the Lagotto forum for questions or comments. "
  creators := [env.creator]
  keywords := zenodoKeywords
  codeRepositoryUrl := env.githubUrl

/-- `ApiSnapshotUtility.export_to_zenodo`. -/
def exportToZenodo (env : Env) (s : ApiSnapshot) (path : String) : ExportM Unit := do
  let id ← call (.createZenodoDataExport (zenodoAttributes env s path))
  call (.exportLater id)

/-! ## The job -/

namespace SnapshotJob

/-- What follows `snapshot!`. The job for the remaining pages is queued with
the id alone. -/
def proceed (env : Env) (job : SnapshotJob) (s : ApiSnapshot) (path : String) (c : Crawler) :
    ExportM Unit :=
  if !s.finished c then do
    call (.saveData s.id
      { s.data with pageno := c.pageno, startPage := some (c.pageno + 1), mode := .append })
    call (.performLater { id := s.id })
  else if job.uploadOnFinished then do
    zip path
    exportToZenodo env s path
  else
    pure ()

/-- `perform` inside its `rescue`. -/
def body (env : Env) (fuel : Nat) (job : SnapshotJob) : ExportM Unit := do
  let s ← findSnapshot job.id
  let (path, c) ← s.snapshot env fuel
  job.proceed env s path c

def perform (env : Env) (fuel : Nat) (job : SnapshotJob) : ExportM Unit :=
  rescue (job.body env fuel) (fun e => call (.createAlert e job))

end SnapshotJob

/-- A worker takes the first job from the queue. -/
def work (env : Env) (fuel : Nat) (now : Time) (w : World) : World :=
  match w.queue with
  | [] => w
  | job :: rest =>
    let env := { env with now := now }
    ((job.perform env fuel).exec (handle env) { w with queue := rest }).2

/-! ## Starting snapshots -/

/-- The options of `snapshot_later`, each with the environment variable that
stands in for it. -/
structure SnapshotOptions where
  host : String
  benchmark : Bool := false
  pagesPerJob : Option Int := none
  snapshotDir : Option String := none
  startPage : Option Int := none
  stopPage : Option Int := none
  filenameExt : Option String := none
  mode : Option Mode := none
  uploadOnFinished : Bool := false
  deriving DecidableEq, Repr

namespace SnapshotOptions

/-- The address of an endpoint. -/
def url (options : SnapshotOptions) (endpoint : String) : String :=
  crawlerUrl options.host ++
    if endpoint.toList.head? = some '/' then endpoint else "/" ++ endpoint

def data (env : Env) (options : SnapshotOptions) : SnapshotData where
  benchmark := options.benchmark
  filenameExt := options.filenameExt.getD "jsondump"
  mode := options.mode.getD .create
  numPages := some (options.pagesPerJob.getD 10)
  pageno := 0
  snapshotDir := options.snapshotDir.getD env.defaultSnapshotDir
  snapshotDate := env.today
  startPage := options.startPage
  stopPage := options.stopPage

end SnapshotOptions

/-- `ApiSnapshotUtility.snapshot_later`. -/
def snapshotLater (env : Env) (options : SnapshotOptions) : List String → ExportM Unit
  | [] => pure ()
  | endpoint :: rest => do
    let id ← call (.createSnapshot (options.url endpoint) (options.data env))
    call (.performLater { id := id, uploadOnFinished := options.uploadOnFinished })
    snapshotLater env options rest

end Lagotto.Export
