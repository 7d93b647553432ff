/-
Lagotto.Export.ChainTheorems — the chain of jobs a snapshot is exported by,
without failures.

Each job hands over to the next one or ends the chain. Its crawler writes the
pages of one attempt (`crawledBy_eq_dump`), and the attempts are put together
to the range of the snapshot (`chain_ends`, by induction on the pages left).
The upload is decided by the option of the job that happens to come last, and
the option is not handed over: `uploaded_once_iff_fitsOneJob`.
-/
import Lagotto.StateMachine.Runs
import Lagotto.Export.AttemptTheorems

namespace Lagotto.Export

variable {env : Env} {path : String} {P : Progress} {job : SnapshotJob} {total : Int}
  {body : Int → String} {fuel : Nat} {w : World}

open Text Interaction Program StateMachine

/-- The outcome of a triple. -/
theorem Triple.exec {α : Type} {id : Nat} {p : ExportM α} {Q : α → Progress → Prop}
    {E : ExportError → Progress → Prop} (h : Triple env id path P p Q E)
    (hw : w.progress id path = some P) :
    ∃ P', (p.exec (handle env) w).2.progress id path = some P' ∧
      ((∃ a, (p.exec (handle env) w).1 = .ok a ∧ Q a P') ∨
        ∃ e, (p.exec (handle env) w).1 = .error e ∧ E e P') := by
  obtain ⟨hok, herror⟩ := exec_of_wp (h w hw)
  cases hresult : (p.exec (handle env) w).1 with
  | ok a =>
    obtain ⟨P', hP', hQ⟩ := hok a hresult
    exact ⟨P', hP', Or.inl ⟨a, rfl, hQ⟩⟩
  | error e =>
    obtain ⟨P', hP', hE⟩ := herror e hresult
    exact ⟨P', hP', Or.inr ⟨e, rfl, hE⟩⟩

/-! ## What is on the file -/

theorem getLast?_withoutNewlines (text : String) :
    (withoutNewlines text).toList.getLast? ≠ some '\n' := by
  intro h
  have hmem := List.mem_of_getLast? h
  rw [withoutNewlines, String.toList_ofList] at hmem
  simp at hmem

theorem crawled_output (total : Int) (body : Int → String) (data : SnapshotData) :
    (data.crawled total body).output =
      Buffered.putAll bufferSize (pageTexts body (pages data.first (data.attemptEnd total))) {} :=
  rfl

theorem contents_crawled (total : Int) (body : Int → String) (data : SnapshotData) :
    (data.crawled total body).output.contents =
      dump body (pages data.first (data.attemptEnd total)) := by
  rw [crawled_output, Buffered.contents_putAll_new, dump_eq_lines]

/-- The text an attempt starts from. -/
def Progress.base (P : Progress) : String := P.cleared.text

theorem exported_file (env : Env) (total : Int) (body : Int → String) (P : Progress) :
    (P.exported env total body).file =
      some (P.base ++ puts (P.data.crawled total body).output.written) :=
  rfl

theorem exported_finishedExportingAt_of_ends (h : P.data.Ends total) :
    (P.exported env total body).finishedExportingAt = some env.now := by
  refine if_neg ?_
  show ¬ (P.data.crawled total body).pagesLeft P.data.stopPage = true
  rw [pagesLeft_crawled_iff]
  exact not_not.mpr h

theorem exported_finishedExportingAt_of_not_ends (h : ¬ P.data.Ends total) :
    (P.exported env total body).finishedExportingAt = P.finishedExportingAt :=
  if_pos ((pagesLeft_crawled_iff P.data).mpr h)

theorem crawlRequests_append {url : String} {page : Option Int} {q r : Int}
    (hq : page.getD 1 ≤ q) (hr : q < r) :
    crawlRequests url page q ++ crawlRequests url (some (q + 1)) r = crawlRequests url page r := by
  have hnext : crawlRequests url (some (q + 1)) r =
      (pages (q + 1) r).map (fun p => { url := url, page := some p }) := by
    rw [crawlRequests, pages_cons (Int.add_one_le_of_lt hr), List.map_cons]
    rfl
  rw [hnext, crawlRequests, crawlRequests,
    pages_append (by omega : page.getD 1 + 1 ≤ q + 1) (by omega : q ≤ r), List.map_append]
  rfl

/-- The last page is the same for the next job. -/
theorem last_handOver {data : SnapshotData} (h : ¬ data.Ends total) :
    (data.handOver total).last total = data.last total :=
  lastPage_of_le (Int.le_add_one (data.first_le_attemptEnd total))
    (Int.add_one_le_of_lt (SnapshotData.attemptEnd_lt_last h))

/-! ## The chain -/

/-- The world after so many jobs, the first of them at `clock 0`. -/
def after (env : Env) (fuel : Nat) (clock : Nat → Time) (jobs : Nat) (w : World) : World :=
  run (work env fuel) ((List.range jobs).map clock) w

theorem after_succ (env : Env) (fuel : Nat) (clock : Nat → Time) (jobs : Nat) (w : World) :
    after env fuel clock (jobs + 1) w =
      after env fuel (fun j => clock (j + 1)) jobs (work env fuel (clock 0) w) := by
  rw [after, List.range_succ_eq_map, List.map_cons, List.map_map, run_cons]
  rfl

/-- What the crawler of the next job puts into its temporary file. -/
def crawledBy (env : Env) (fuel : Nat) (now : Time) (w : World) : String :=
  match w.queue with
  | [] => ""
  | job :: rest =>
    let env := { env with now := now }
    let crawl : ExportM (String × Crawler) := do
      let s ← findSnapshot job.id
      s.snapshot env fuel
    match (crawl.exec (handle env) { w with queue := rest }).1 with
    | .ok (_, c) => c.output.contents
    | .error _ => ""

/-- What the crawlers of so many jobs put into their temporary files, one file
after the other. -/
def crawledByAll (env : Env) (fuel : Nat) (clock : Nat → Time) (jobs : Nat) (w : World) : String :=
  String.join ((List.range jobs).map fun k =>
    crawledBy env fuel (clock k) (after env fuel clock k w))

theorem crawledByAll_succ (env : Env) (fuel : Nat) (clock : Nat → Time) (jobs : Nat) (w : World) :
    crawledByAll env fuel clock (jobs + 1) w =
      crawledBy env fuel (clock 0) w ++
        crawledByAll env fuel (fun j => clock (j + 1)) jobs (work env fuel (clock 0) w) := by
  rw [crawledByAll, List.range_succ_eq_map, List.map_cons, String.join_cons, List.map_map]
  refine congrArg (_ ++ String.join ·) (List.map_congr_left fun k _ => ?_)
  rw [Function.comp_apply, Nat.succ_eq_add_one, after_succ]

theorem progress_dequeued {id : Nat} (hw : w.progress id path = some P) :
    ({ w with queue := [] } : World).progress id path = some { P with queue := [] } := by
  obtain ⟨row, hrow, rfl⟩ := Option.map_eq_some_iff.mp hw
  simp [World.progress, hrow]

theorem queue_of_progress {id : Nat} (hw : w.progress id path = some P) : w.queue = P.queue := by
  obtain ⟨row, hrow, rfl⟩ := Option.map_eq_some_iff.mp hw
  rfl

/-- In a chain in which nothing fails these are the pages of the attempt. -/
theorem crawledBy_eq_dump (now : Time) (hfaults : ∀ r, env.faults r = none)
    (hw : w.progress job.id path = some P) (hqueue : P.queue = [job]) (hid : P.id = job.id)
    (hpath : snapshotFilepath P.url P.data = some path) (hserves : Serves env P.url total body)
    (hfuel : (P.data.attemptEnd total + 1 - P.data.first).toNat ≤ fuel) :
    crawledBy env fuel now w = dump body (pages P.data.first (P.data.attemptEnd total)) := by
  let env' : Env := { env with now := now }
  have hnever : ¬ env'.Faulty := fun ⟨r, hr⟩ => hr (hfaults r)
  have htriple : Triple env' job.id path { P with queue := [] }
      ((findSnapshot job.id).bind fun s => s.snapshot env' fuel)
      (fun result _ => result = (path, P.data.crawled total body)) (fun _ _ => False) := by
    refine Triple.bind (Triple.mono findSnapshot_triple (fun _ _ h => h)
      fun _ _ h => hnever h.1) ?_
    rintro s _ ⟨hs, hurl, hdata, rfl⟩
    refine Triple.mono (snapshot_triple (hs.trans hid) hurl hdata hpath hserves)
      (fun _ _ h => h.1) ?_
    rintro _ _ ⟨hwhy, -⟩
    exact hwhy.elim hnever (Nat.not_lt.mpr hfuel)
  obtain ⟨_, _, ⟨_, hok, rfl⟩ | ⟨_, _, hfalse⟩⟩ := htriple.exec (progress_dequeued hw)
  · rw [crawledBy, queue_of_progress hw, hqueue]
    simp only [bind_eq]
    rw [hok]
    exact contents_crawled total body P.data
  · exact hfalse.elim

/-- What a chain of jobs leaves that began with `job` at `P` and whose last job
ran at `finishedAt`. -/
structure ChainEnd (path : String) (total : Int) (body : Int → String) (job : SnapshotJob)
    (P P' : Progress) (finishedAt : Time) : Prop where
  queue : P'.queue = []
  requests : P'.requests =
    P.requests ++ crawlRequests (crawlerUrl P.url) P.data.startPage (P.data.last total)
  finishedExportingAt : P'.finishedExportingAt = some finishedAt
  notUploaded : ¬ P.data.Ends total ∨ job.uploadOnFinished = false →
    P'.zenodoDataExports = P.zenodoDataExports
  uploaded : P.data.Ends total → job.uploadOnFinished = true → P'.alerts = P.alerts →
    ∃ added, P'.zenodoDataExports = P.zenodoDataExports ++ [added] ∧
      added.files = [zipFilepath path] ∧ (P'.zips (zipFilepath path)).isSome = true

/-- The progress handed to the next job. -/
def Progress.handedOver (env : Env) (total : Int) (body : Int → String) (P : Progress) :
    Progress :=
  { P.exported env total body with
    data := P.data.handOver total
    queue := [{ id := P.id }] }

/-- Where no call fails, only an upload raises. -/
theorem Raised.of_no_faults {P₁ : Progress} (h : Raised env path job total body fuel P P₁)
    (hfaults : ∀ r, env.faults r = none)
    (hfuel : (P.data.attemptEnd total + 1 - P.data.first).toNat ≤ fuel) :
    P.data.Ends total ∧ job.uploadOnFinished = true ∧ Uploading (P.exported env total body) P₁ := by
  have hnever : ¬ env.Faulty := fun ⟨r, hr⟩ => hr (hfaults r)
  cases h with
  | stalled hwhy _ => exact absurd hwhy (not_or.mpr ⟨hnever, Nat.not_lt.mpr hfuel⟩)
  | saved hwhy _ _ => exact absurd hwhy hnever
  | upload hends hupload _ h => exact ⟨hends, hupload, h⟩

variable (env) in
/-- What the last attempt leaves on the file is all that is missing. -/
theorem exported_chainEnd {P' : Progress} (hends : P.data.Ends total)
    (hqueue : P'.queue = []) (hrequests : P'.requests = (P.exported env total body).requests)
    (hfinished : P'.finishedExportingAt = (P.exported env total body).finishedExportingAt)
    (hsame : job.uploadOnFinished = false → P'.zenodoDataExports = P.zenodoDataExports)
    (huploaded : job.uploadOnFinished = true → P'.alerts = P.alerts →
      ∃ added, P'.zenodoDataExports = P.zenodoDataExports ++ [added] ∧
        added.files = [zipFilepath path] ∧ (P'.zips (zipFilepath path)).isSome = true) :
    ChainEnd path total body job P P' env.now where
  queue := hqueue
  requests := by rw [hrequests, ← hends]; rfl
  finishedExportingAt := by rw [hfinished, exported_finishedExportingAt_of_ends hends]
  notUploaded := fun h => hsame (h.resolve_left (not_not.mpr hends))
  uploaded := fun _ => huploaded

/-- One job of a chain in which nothing fails. -/
theorem work_cases (now : Time) (hfaults : ∀ r, env.faults r = none)
    (hw : w.progress job.id path = some P) (hqueue : P.queue = [job]) (hid : P.id = job.id)
    (hpath : snapshotFilepath P.url P.data = some path) (hserves : Serves env P.url total body)
    (hfuel : (P.data.attemptEnd total + 1 - P.data.first).toNat ≤ fuel) :
    ∃ P', (work env fuel now w).progress job.id path = some P' ∧
      (¬ P.data.Ends total ∧ P' = P.handedOver { env with now := now } total body ∨
        P.data.Ends total ∧ ChainEnd path total body job P P' now) := by
  let env' : Env := { env with now := now }
  let P₀ : Progress := { P with queue := [] }
  have hwork : work env fuel now w =
      ((job.perform env' fuel).exec (handle env') { w with queue := [] }).2 := by
    rw [work, queue_of_progress hw, hqueue]
  rw [hwork]
  obtain ⟨P', hP', ⟨_, _, hdone⟩ | ⟨_, _, r, hr⟩⟩ :=
    (perform_triple env' fuel (P := P₀) hid hpath hserves).exec (progress_dequeued hw)
  · refine ⟨P', hP', ?_⟩
    rcases hdone with hdone | ⟨P₁, e, hraised, rfl⟩
    · cases hdone with
      | handedOver hends =>
        refine Or.inl ⟨hends, ?_⟩
        rw [← hid]
        rfl
      | finished hends hupload =>
        refine Or.inr ⟨hends, exported_chainEnd env' hends rfl rfl rfl (fun _ => rfl) ?_⟩
        rw [hupload]
        intro h
        cases h
      | uploaded hends hupload hfiles hzip =>
        refine Or.inr ⟨hends, exported_chainEnd env' hends rfl rfl rfl ?_ ?_⟩
        · rw [hupload]
          intro h
          cases h
        · exact fun _ _ => ⟨_, rfl, hfiles, hzip⟩
    · obtain ⟨hends, hupload, zips, exports, rfl⟩ :=
        hraised.of_no_faults hfaults hfuel
      refine Or.inr ⟨hends, exported_chainEnd env' hends rfl rfl rfl ?_ ?_⟩
      · rw [hupload]
        intro h
        cases h
      · -- the alert shows
        intro _ halerts
        simp [Progress.exported, Progress.stored, Progress.asked, Progress.cleared, P₀] at halerts
  · exact absurd (hfaults r) hr

/-- What follows a job that hands over is what was missing. -/
theorem ChainEnd.of_handedOver {P' : Progress} {finishedAt : Time} (hends : ¬ P.data.Ends total)
    (h : ChainEnd path total body { id := job.id } (P.handedOver env total body) P' finishedAt) :
    ChainEnd path total body job P P' finishedAt := by
  have hfirst := P.data.first_le_attemptEnd total
  have hq := SnapshotData.attemptEnd_lt_last hends
  refine ⟨h.queue, ?_, h.finishedExportingAt, fun _ => h.notUploaded (Or.inr rfl),
    fun hends' => absurd hends' hends⟩
  rw [h.requests]
  simp only [Progress.handedOver, last_handOver hends]
  show P.requests ++
    crawlRequests (crawlerUrl P.url) P.data.startPage (P.data.attemptEnd total) ++
    crawlRequests (crawlerUrl P.url) (some (P.data.attemptEnd total + 1)) (P.data.last total) = _
  rw [List.append_assoc]
  exact congrArg (P.requests ++ ·) (crawlRequests_append hfirst hq)

/-- The chain comes to its end with the pages that were missing, and before
that no job marks the snapshot as finished. -/
theorem chain_ends (hfaults : ∀ r, env.faults r = none) (clock : Nat → Time)
    (hw : w.progress job.id path = some P) (hqueue : P.queue = [job]) (hid : P.id = job.id)
    (hpath : snapshotFilepath P.url P.data = some path) (hserves : Serves env P.url total body)
    (hfuel : (P.data.last total + 1 - P.data.first).toNat ≤ fuel) :
    ∃ jobs P', (after env fuel clock (jobs + 1) w).progress job.id path = some P' ∧
      ChainEnd path total body job P P' (clock jobs) ∧
      crawledByAll env fuel clock (jobs + 1) w =
        dump body (pages P.data.first (P.data.last total)) ∧
      ∀ k ≤ jobs, ∃ Pₖ, (after env fuel clock k w).progress job.id path = some Pₖ ∧
        Pₖ.queue ≠ [] ∧ Pₖ.finishedExportingAt = P.finishedExportingAt := by
  -- on the number of pages behind the first one
  induction hn : (P.data.last total - P.data.first).toNat using Nat.strong_induction_on
    generalizing w P job clock with
  | _ n ih =>
    have hfirst := P.data.first_le_attemptEnd total
    have hlast := P.data.attemptEnd_le_last total
    have hfuel₁ : (P.data.attemptEnd total + 1 - P.data.first).toNat ≤ fuel := by omega
    have hcrawled := crawledBy_eq_dump (clock 0) hfaults hw hqueue hid hpath hserves hfuel₁
    obtain ⟨P₁, hP₁, ⟨hends, rfl⟩ | ⟨hends, hend⟩⟩ :=
      work_cases (clock 0) hfaults hw hqueue hid hpath hserves hfuel₁
    · have hq := SnapshotData.attemptEnd_lt_last hends
      have hlast' := last_handOver hends
      have hfirst' : (P.data.handOver total).first = P.data.attemptEnd total + 1 := rfl
      have hnext : (work env fuel (clock 0) w).progress ({ id := job.id } : SnapshotJob).id path =
          some (P.handedOver { env with now := clock 0 } total body) := hP₁
      obtain ⟨jobs, P', hP', hend, hrest, hbefore⟩ :=
        ih ((P.data.handOver total).last total - (P.data.handOver total).first).toNat
          (by rw [hlast', hfirst', ← hn]; omega) (fun j => clock (j + 1)) hnext
          (by rw [← hid]; rfl) hid hpath hserves (by
            show ((P.data.handOver total).last total + 1 - (P.data.handOver total).first).toNat ≤ _
            rw [hlast', hfirst']; omega) rfl
      refine ⟨jobs + 1, P', ?_, hend.of_handedOver hends, ?_, fun k hk => ?_⟩
      · rw [after_succ]
        exact hP'
      · have hpages := pages_append (p := P.data.first) (q := P.data.attemptEnd total)
          (r := P.data.last total) (by omega) hlast
        rw [crawledByAll_succ, hcrawled, hrest, hpages, dump_append]
        show _ = _ ++ dump body (pages (P.data.handOver total).first (P.data.last total))
        rw [← hlast']
        rfl
      · cases k with
        | zero => exact ⟨P, hw, by rw [hqueue]; simp, rfl⟩
        | succ k =>
          obtain ⟨Pₖ, hPₖ, hjobs, hfinished⟩ := hbefore k (Nat.le_of_succ_le_succ hk)
          refine ⟨Pₖ, ?_, hjobs, hfinished.trans ?_⟩
          · rw [after_succ]
            exact hPₖ
          · exact exported_finishedExportingAt_of_not_ends hends
    · refine ⟨0, P₁, ?_, hend, ?_, fun k hk => ?_⟩
      · rw [after_succ]
        exact hP₁
      · rw [crawledByAll_succ, hcrawled, hends]
        exact String.append_empty
      · rw [Nat.le_zero.mp hk]
        exact ⟨P, hw, by rw [hqueue]; simp, rfl⟩

/-- A snapshot, the job started for it, and a server that serves it, in a world
where no call fails. -/
structure Started (env : Env) (w : World) (job : SnapshotJob) (s : ApiSnapshot) (path : String)
    (total : Int) (body : Int → String) : Prop where
  row : w.snapshots job.id = some s
  id : s.id = job.id
  queue : w.queue = [job]
  path : snapshotFilepath s.url s.data = some path
  serves : Serves env s.url total body
  faults : ∀ r, env.faults r = none

theorem Started.chain_ends {s : ApiSnapshot} (h : Started env w job s path total body)
    (clock : Nat → Time) (hfuel : (s.data.last total + 1 - s.data.first).toNat ≤ fuel) :
    ∃ P, w.progress job.id path = some P ∧ P.data = s.data ∧ ∃ jobs P',
      (after env fuel clock (jobs + 1) w).progress job.id path = some P' ∧
      ChainEnd path total body job P P' (clock jobs) ∧
      crawledByAll env fuel clock (jobs + 1) w =
        dump body (pages P.data.first (P.data.last total)) ∧
      ∀ k ≤ jobs, ∃ Pₖ, (after env fuel clock k w).progress job.id path = some Pₖ ∧
        Pₖ.queue ≠ [] ∧ Pₖ.finishedExportingAt = P.finishedExportingAt := by
  obtain ⟨P, hw⟩ : ∃ P, w.progress job.id path = some P := by simp [World.progress, h.row]
  obtain ⟨row, hrow, rfl⟩ := Option.map_eq_some_iff.mp hw
  obtain rfl : s = row := Option.some.inj (h.row.symm.trans hrow)
  exact ⟨_, hw, rfl, Export.chain_ends h.faults clock hw h.queue h.id h.path h.serves hfuel⟩

/-- The chain of jobs comes to an end. Its crawlers have asked for every page
from `start_page` to `max(start_page, min(total_pages, stop_page))` once and in
order, whatever `num_pages` is, and the lines of these pages are what they have
written. Only the last job sets `finished_exporting_at`. -/
theorem snapshot_chain_writes_range {s : ApiSnapshot} (h : Started env w job s path total body)
    (clock : Nat → Time) (fuel : Nat) (hfuel : (s.data.last total + 1 - s.data.first).toNat ≤ fuel)
    :
    ∃ jobs,
      (after env fuel clock (jobs + 1) w).queue = [] ∧
      (after env fuel clock (jobs + 1) w).requests = w.requests ++
        crawlRequests (crawlerUrl s.url) s.data.startPage (s.data.last total) ∧
      crawledByAll env fuel clock (jobs + 1) w =
        dump body (pages s.data.first (s.data.last total)) ∧
      ((after env fuel clock (jobs + 1) w).snapshots job.id).map (·.finishedExportingAt) =
        some (some (clock jobs)) ∧
      ∀ k ≤ jobs, (after env fuel clock k w).queue ≠ [] ∧
        ((after env fuel clock k w).snapshots job.id).map (·.finishedExportingAt) =
          some s.finishedExportingAt := by
  obtain ⟨P, hw, hdata, jobs, P', hP', hend, hcrawled, hbefore⟩ := h.chain_ends clock hfuel
  obtain ⟨row, hrow, rfl⟩ := Option.map_eq_some_iff.mp hw
  obtain rfl : s = row := Option.some.inj (h.row.symm.trans hrow)
  obtain ⟨row', hrow', rfl⟩ := Option.map_eq_some_iff.mp hP'
  refine ⟨jobs, hend.queue, hend.requests, hcrawled, ?_, fun k hk => ?_⟩
  · rw [hrow', Option.map_some]
    exact congrArg some hend.finishedExportingAt
  · obtain ⟨Pₖ, hPₖ, hjobs, hfinished⟩ := hbefore k hk
    obtain ⟨rowₖ, hrowₖ, rfl⟩ := Option.map_eq_some_iff.mp hPₖ
    refine ⟨hjobs, ?_⟩
    rw [hrowₖ, Option.map_some]
    exact congrArg some hfinished

/-- A server with two pages, and nothing that fails. -/
def twoPages : Env where
  server := fun request =>
    .json ("page " ++ toString (request.page.getD 1)) (some (request.page.getD 1, 2))
  now := 0
  today := "2015-05-05"
  benchmarkLine := fun _ => ""
  defaultSnapshotDir := "/snapshots"
  creator := some "Lagotto"
  sitenamelong := "Lagotto"
  githubUrl := "https://github.com/lagotto/lagotto"
  readme := "README"
  faults := fun _ => none

/-- A new snapshot of the works, so many pages a job, to be uploaded. -/
def newSnapshot (numPages : Int) : ApiSnapshot where
  id := 1
  url := "http://alm.example.org/api/works"
  data :=
    { numPages := some numPages, snapshotDir := "/snapshots", snapshotDate := "2015-05-05" }
  createdOn := "2015-05-05"

def uploading : SnapshotJob := { id := 1, uploadOnFinished := true }

/-- The world in which its job is the first to run. -/
def worldWith (s : ApiSnapshot) (job : SnapshotJob) : World where
  snapshots := fun id => if id = s.id then some s else none
  zenodoDataExports := []
  nextId := s.id + 1
  files := fun _ => none
  dirs := fun _ => false
  zips := fun _ => none
  fileWriteLogs := []
  queue := [job]
  exportQueue := []
  alerts := []
  requests := []

def worksPath : String := "/snapshots/api_works_2015-05-05.jsondump"

theorem started_twoPages (numPages : Int) :
    Started twoPages (worldWith (newSnapshot numPages) uploading) uploading (newSnapshot numPages)
      worksPath 2 (fun p => "page " ++ toString p) where
  row := rfl
  id := rfl
  queue := rfl
  path := by
    simp only [snapshotFilepath, newSnapshot]
    decide +kernel
  serves := fun _ => rfl
  faults := fun _ => rfl

/-- One page a job: two jobs, and both pages. -/
theorem snapshot_chain_writes_two_pages :
    ∃ jobs, crawledByAll twoPages 2 (fun _ => 9) (jobs + 1)
      (worldWith (newSnapshot 1) uploading) = "page 1\npage 2\n" := by
  obtain ⟨jobs, _, _, hcrawled, _⟩ :=
    snapshot_chain_writes_range (started_twoPages 1) (fun _ => 9) 2 (by decide)
  exact ⟨jobs, hcrawled.trans (by decide +kernel)⟩

/-! ## Upload -/

/-- All pages of the range are crawled by one job. -/
def SnapshotData.FitsOneJob (total : Int) (data : SnapshotData) : Prop :=
  ∀ n, data.numPages = some n → data.last total - data.first + 1 ≤ max n 1

theorem ends_iff_fitsOneJob (total : Int) (data : SnapshotData) :
    data.Ends total ↔ data.FitsOneJob total := by
  unfold SnapshotData.Ends SnapshotData.FitsOneJob SnapshotData.attemptEnd crawlEnd
  cases data.numPages with
  | none => simp [SnapshotData.last]
  | some n =>
    simp only [Option.some.injEq, forall_eq', SnapshotData.last]
    omega

/-- For a snapshot that is to be uploaded and a chain of jobs that ends without
an alert: it is zipped and exported once exactly if it took a single job. -/
theorem uploaded_once_iff_fitsOneJob {s : ApiSnapshot} (h : Started env w job s path total body)
    (hupload : job.uploadOnFinished = true) (clock : Nat → Time) (fuel : Nat)
    (hfuel : (s.data.last total + 1 - s.data.first).toNat ≤ fuel) :
    ∃ jobs, (after env fuel clock (jobs + 1) w).queue = [] ∧
      ((after env fuel clock (jobs + 1) w).alerts = w.alerts →
        (((after env fuel clock (jobs + 1) w).zips (zipFilepath path)).isSome = true ∧
            (∃ added, (after env fuel clock (jobs + 1) w).zenodoDataExports =
              w.zenodoDataExports ++ [added] ∧ added.files = [zipFilepath path]) ↔
          s.data.FitsOneJob total)) := by
  obtain ⟨P, hw, hdata, jobs, P', hP', hend, -, -⟩ := h.chain_ends clock hfuel
  obtain ⟨row, hrow, rfl⟩ := Option.map_eq_some_iff.mp hw
  obtain ⟨row', hrow', rfl⟩ := Option.map_eq_some_iff.mp hP'
  refine ⟨jobs, hend.queue, fun halerts => ?_⟩
  rw [← hdata, ← ends_iff_fitsOneJob]
  constructor
  · rintro ⟨-, added, hadded, -⟩
    by_contra hends
    have hsame := hend.notUploaded (Or.inl hends)
    simp only at hsame
    rw [hsame] at hadded
    simp at hadded
  · intro hends
    obtain ⟨added, hadded, hfiles, hzip⟩ := hend.uploaded hends hupload halerts
    exact ⟨hzip, added, hadded, hfiles⟩

/-- Two pages in one job: the archive and its export. -/
theorem uploaded_once_of_single_job :
    ∃ jobs, (after twoPages 2 (fun _ => 9) (jobs + 1)
        (worldWith (newSnapshot 2) uploading)).queue = [] ∧
      ((after twoPages 2 (fun _ => 9) (jobs + 1)
          (worldWith (newSnapshot 2) uploading)).alerts = [] →
        ((after twoPages 2 (fun _ => 9) (jobs + 1)
            (worldWith (newSnapshot 2) uploading)).zips (zipFilepath worksPath)).isSome = true ∧
          ∃ added, (after twoPages 2 (fun _ => 9) (jobs + 1)
              (worldWith (newSnapshot 2) uploading)).zenodoDataExports = [] ++ [added] ∧
            added.files = [zipFilepath worksPath]) := by
  obtain ⟨jobs, hqueue, hiff⟩ :=
    uploaded_once_iff_fitsOneJob (started_twoPages 2) rfl (fun _ => 9) 2 (by decide)
  refine ⟨jobs, hqueue, fun halerts => (hiff halerts).mpr fun n hn => ?_⟩
  cases hn
  decide

/-- One page a job: nothing fails, and there is no archive and no export. -/
theorem not_uploaded_by_second_job :
    (after twoPages 2 (fun _ => 9) 2 (worldWith (newSnapshot 1) uploading)).queue = [] ∧
      (after twoPages 2 (fun _ => 9) 2 (worldWith (newSnapshot 1) uploading)).alerts = [] ∧
      (after twoPages 2 (fun _ => 9) 2 (worldWith (newSnapshot 1) uploading)).zips
        (zipFilepath worksPath) = none ∧
      (after twoPages 2 (fun _ => 9) 2
        (worldWith (newSnapshot 1) uploading)).zenodoDataExports = [] := by
  decide +kernel

end Lagotto.Export
