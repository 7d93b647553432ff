/-
Lagotto.Export.AttemptTheorems — one run of a snapshot job, from the first
request to the queued successor.

The crawl is followed page by page (`crawlFrom_triple`) against a server that
has `total` pages. What a run writes is the `dump` of the pages from its
first page to `attemptEnd`, the last page it is allowed to ask for. A run
that raises leaves the progress `Stalled` at one of the points listed there,
or has stored its pages and raises afterwards; `perform_triple` joins the
parts for the whole job, alert and re-raise included.
-/
import Lagotto.Export.ProgressTheorems

namespace Lagotto.Export

open Text Interaction Program

/-! ## Pages -/

/-- The pages from `p` to `q`. -/
def pages (p q : Int) : List Int :=
  (List.range (q + 1 - p).toNat).map (fun k : Nat => p + (k : Int))

theorem pages_of_lt {p q : Int} (h : q < p) : pages p q = [] := by
  have hzero : (q + 1 - p).toNat = 0 := by omega
  simp [pages, hzero]

theorem pages_cons {p q : Int} (h : p ≤ q) : pages p q = p :: pages (p + 1) q := by
  have hsucc : (q + 1 - p).toNat = (q + 1 - (p + 1)).toNat + 1 := by omega
  rw [pages, pages, hsucc, List.range_succ_eq_map, List.map_cons, List.map_map]
  refine congrArg₂ List.cons (by simp) (List.map_congr_left fun k _ => ?_)
  rw [Function.comp_apply]
  omega

theorem pages_append {p q r : Int} (hpq : p ≤ q + 1) (hqr : q ≤ r) :
    pages p r = pages p q ++ pages (q + 1) r := by
  induction hn : (q + 1 - p).toNat generalizing p with
  | zero =>
    have hp : p = q + 1 := by omega
    rw [pages_of_lt (by omega : q < p), hp, List.nil_append]
  | succ n ih =>
    rw [pages_cons (by omega : p ≤ r), pages_cons (by omega : p ≤ q), List.cons_append,
      ih (by omega) (by omega)]

/-- The lines of the given pages. -/
def dump (body : Int → String) : List Int → String
  | [] => ""
  | p :: rest => puts (withoutNewlines (body p)) ++ dump body rest

/-- What the crawler puts for the given pages. -/
def pageTexts (body : Int → String) (ps : List Int) : List String :=
  ps.map fun p => withoutNewlines (body p)

/-- The dump is the page texts, a line each. -/
theorem dump_eq_lines (body : Int → String) (ps : List Int) :
    dump body ps = lines (pageTexts body ps) := by
  induction ps with
  | nil => rfl
  | cons p rest ih =>
    rw [dump, ih]
    rfl

theorem dump_append (body : Int → String) (ps qs : List Int) :
    dump body (ps ++ qs) = dump body ps ++ dump body qs := by
  rw [dump_eq_lines, dump_eq_lines, dump_eq_lines, ← lines_append, pageTexts, List.map_append]
  rfl

/-- `max(p, min(total, stop))` -/
def lastPage (total : Int) (stop : Option Int) (p : Int) : Int :=
  max p (match stop with | none => total | some e => min total e)

/-- The last page of a crawl that goes on with page `p`, after `processed` pages. -/
def crawlEnd (total : Int) (data : SnapshotData) (processed : Nat) (p : Int) : Int :=
  match data.numPages with
  | none => lastPage total data.stopPage p
  | some n => min (lastPage total data.stopPage p) (p + max (n - processed) 1 - 1)

theorem le_lastPage (total : Int) (stop : Option Int) (p : Int) : p ≤ lastPage total stop p := by
  unfold lastPage
  omega

/-- A crawl never ends before the page it starts on. -/
theorem le_crawlEnd (total : Int) (data : SnapshotData) (processed : Nat) (p : Int) :
    p ≤ crawlEnd total data processed p := by
  have := le_lastPage total data.stopPage p
  unfold crawlEnd
  split <;> omega

/-- A crawl never passes the last page. -/
theorem crawlEnd_le (total : Int) (data : SnapshotData) (processed : Nat) (p : Int) :
    crawlEnd total data processed p ≤ lastPage total data.stopPage p := by
  unfold crawlEnd
  split <;> omega

/-- Short of the last page it is the same last page for every page. -/
theorem lastPage_of_le {total : Int} {stop : Option Int} {p q : Int} (hpq : p ≤ q)
    (hq : q ≤ lastPage total stop p) : lastPage total stop q = lastPage total stop p := by
  unfold lastPage at *
  omega

theorem lt_lastPage_iff (total : Int) (stop : Option Int) (p : Int) :
    p < lastPage total stop p ↔ p < total ∧ below p stop = true := by
  cases stop <;> simp only [lastPage, below, decide_eq_true_eq, and_true] <;> omega

/-- A crawl ends where its loop condition fails. -/
theorem crawlEnd_of_not {total : Int} {data : SnapshotData} {processed : Nat} {p : Int}
    (h : ¬ (p < lastPage total data.stopPage p ∧
      below (processed + 1 : Nat) data.numPages = true)) :
    crawlEnd total data processed p = p := by
  have := le_lastPage total data.stopPage p
  unfold crawlEnd
  cases hn : data.numPages <;> simp only [hn, below] at h ⊢
  · simp at h; omega
  · simp at h; omega

/-- While the condition holds, the crawl goes on to the next page. -/
theorem crawlEnd_succ {total : Int} {data : SnapshotData} {processed : Nat} {p : Int}
    (hp : p < lastPage total data.stopPage p)
    (hn : below (processed + 1 : Nat) data.numPages = true) :
    crawlEnd total data (processed + 1) (p + 1) = crawlEnd total data processed p := by
  have hlast : lastPage total data.stopPage (p + 1) = lastPage total data.stopPage p :=
    lastPage_of_le (by omega) (by omega)
  unfold crawlEnd
  cases hnum : data.numPages with
  | none => exact hlast
  | some n =>
    simp only [hnum, below, decide_eq_true_eq] at hn
    simp only [hlast]
    push_cast at *
    omega

/-! ## The crawl -/

/-- The server answers page `p` with `body p`, and page 1 when it is not asked
for a page, and always says that there are `total` pages. -/
def Serves (env : Env) (url : String) (total : Int) (body : Int → String) : Prop :=
  ∀ page : Option Int, env.server { url := crawlerUrl url, page := page } =
    .json (body (page.getD 1)) (some (page.getD 1, total))

/-- The requests of a crawl that begins with `page` and ends with page `q`. -/
def crawlRequests (url : String) (page : Option Int) (q : Int) : List Request :=
  { url := url, page := page } ::
    (pages (page.getD 1 + 1) q).map (fun p => { url := url, page := some p })

/-- What a crawl that begins with `page` makes of the crawler. -/
def Crawler.crawled (total : Int) (body : Int → String) (data : SnapshotData) (page : Option Int)
    (c : Crawler) : Crawler :=
  let p := page.getD 1
  let q := crawlEnd total data c.numPagesProcessed p
  { pageno := q
    totalPages := some total
    numPagesProcessed := c.numPagesProcessed + (q + 1 - p).toNat
    output := c.output.putAll bufferSize (pageTexts body (pages p q)) }

/-- Requests added to those the server has answered. -/
def Progress.asked (requests : List Request) (P : Progress) : Progress :=
  { P with requests := P.requests ++ requests }

section Crawl

variable {env : Env} {id : Nat} {path : String} {url : String} {total : Int}
  {body : Int → String} {data : SnapshotData} {benchmark : Option String}

/-- A request changes nothing of the export. -/
theorem get_triple (hserves : Serves env url total body) (page : Option Int) (P : Progress) :
    Triple env id path P (get { url := crawlerUrl url, page := page })
      (fun b P' => b = .json (body (page.getD 1)) (some (page.getD 1, total)) ∧
        P' = P.asked [{ url := crawlerUrl url, page := page }])
      (fun _ P' => env.Faulty ∧ ∃ requests, P' = { P with requests := requests }) := by
  refine Triple.mono (Triple.call (P.asked [{ url := crawlerUrl url, page := page }])
    (by simp) fun w hw => ⟨rfl, ?_⟩) ?_ ?_
  · obtain ⟨s, hs, rfl⟩ := Option.map_eq_some_iff.mp hw
    simp only [effect, World.progress, hs, Option.map_some, Progress.asked]
  · rintro b P' ⟨rfl, rfl⟩
    exact ⟨hserves page, rfl⟩
  · rintro e P' ⟨written, hf, rfl⟩
    refine ⟨⟨_, by rw [hf]; simp⟩, ?_⟩
    split
    · exact ⟨_, rfl⟩
    · exact ⟨_, rfl⟩

/-- The benchmark lines go to another file than the dump. -/
theorem report_triple (hbench : benchmark ≠ some path) (request : Request) (P : Progress) :
    Triple env id path P (report env request benchmark) (fun _ P' => P' = P)
      (fun _ P' => env.Faulty ∧ P' = P) := by
  cases benchmark with
  | none => exact Triple.done rfl
  | some other =>
    have hne : other ≠ path := fun h => hbench (congrArg some h)
    exact Triple.quiet hne fun _ => ⟨(), rfl⟩

/-- The crawler that has processed the answer to `page`. -/
def Crawler.turned (total : Int) (body : Int → String) (page : Option Int) (c : Crawler) :
    Crawler :=
  { pageno := page.getD 1
    totalPages := some total
    numPagesProcessed := c.numPagesProcessed + 1
    output := c.output.puts bufferSize (withoutNewlines (body (page.getD 1))) }

theorem Crawler.continueCrawling_turned_iff (c : Crawler) (page : Option Int) :
    (c.turned total body page).continueCrawling data = true ↔
      page.getD 1 < lastPage total data.stopPage (page.getD 1) ∧
        below (c.numPagesProcessed + 1 : Nat) data.numPages = true := by
  rw [lt_lastPage_iff, Crawler.continueCrawling, Bool.and_eq_true, Bool.and_eq_true]
  exact and_congr_left' (and_congr_left' decide_eq_true_iff)

/-- A page that is not the end, and the pages behind it. -/
theorem Crawler.crawled_turned (c : Crawler) {page : Option Int}
    (hsucc : crawlEnd total data (c.numPagesProcessed + 1) (page.getD 1 + 1) =
      crawlEnd total data c.numPagesProcessed (page.getD 1)) :
    (c.turned total body page).crawled total body data (some (page.getD 1 + 1)) =
      c.crawled total body data page := by
  have hend := le_crawlEnd total data c.numPagesProcessed (page.getD 1)
  have hcount : c.numPagesProcessed + 1 +
      (crawlEnd total data c.numPagesProcessed (page.getD 1) + 1 - (page.getD 1 + 1)).toNat =
      c.numPagesProcessed +
        (crawlEnd total data c.numPagesProcessed (page.getD 1) + 1 - page.getD 1).toNat := by
    have := le_crawlEnd total data (c.numPagesProcessed + 1) (page.getD 1 + 1)
    omega
  simp only [crawled, turned, Option.getD_some, hsucc, hcount, pages_cons hend]
  rfl

/-- The page at the end. -/
theorem Crawler.crawled_of_end {c : Crawler} {page : Option Int}
    (hend : crawlEnd total data c.numPagesProcessed (page.getD 1) = page.getD 1) :
    c.crawled total body data page = c.turned total body page := by
  have hone : (page.getD 1 + 1 - page.getD 1).toNat = 1 := by omega
  simp only [crawled, turned, hend, hone, pages_cons (Int.le_refl _),
    pages_of_lt (Int.lt_succ (page.getD 1))]
  rfl

theorem crawlRequests_succ {page : Option Int} {q : Int} (h : page.getD 1 < q) (url : String) :
    crawlRequests url page q =
      { url := url, page := page } :: crawlRequests url (some (page.getD 1 + 1)) q := by
  simp only [crawlRequests, Option.getD_some, pages_cons (Int.add_one_le_of_lt h), List.map_cons]

/-- The crawl asks for every page up to its end and puts their lines into the
temporary file. It raises only if a call does, or the model stops first. -/
theorem crawlFrom_triple (hserves : Serves env url total body) (hbench : benchmark ≠ some path)
    (fuel : Nat) (page : Option Int) (c : Crawler) (P : Progress) :
    Triple env id path P (crawlFrom env (crawlerUrl url) data benchmark fuel page c)
      (fun c' P' => c' = c.crawled total body data page ∧
        P' = P.asked (crawlRequests (crawlerUrl url) page
          (crawlEnd total data c.numPagesProcessed (page.getD 1))))
      (fun _ P' => (env.Faulty ∨ fuel <
          (crawlEnd total data c.numPagesProcessed (page.getD 1) + 1 - page.getD 1).toNat) ∧
        ∃ requests, P' = { P with requests := requests }) := by
  induction fuel generalizing page c P with
  | zero =>
    have hend := le_crawlEnd total data c.numPagesProcessed (page.getD 1)
    exact Triple.fail ⟨Or.inr (by omega), P.requests, rfl⟩
  | succ fuel ih =>
    simp only [crawlFrom, bind_eq, pure_eq]
    refine Triple.bind (Triple.mono (get_triple hserves page P) (fun _ _ h => h)
      (fun _ _ h => ⟨Or.inl h.1, h.2⟩)) ?_
    rintro _ _ ⟨rfl, rfl⟩
    show Triple env id path _ ((report env _ benchmark).bind fun _ =>
      if (c.turned total body page).continueCrawling data = true then _ else _) _ _
    refine Triple.bind (Triple.mono (report_triple hbench _ _) (fun _ _ h => h)
      (fun _ _ h => ⟨Or.inl h.1, _, h.2⟩)) ?_
    rintro _ _ rfl
    by_cases hmore : (c.turned total body page).continueCrawling data = true
    · -- the page is not the last one of this crawl
      obtain ⟨hlast, hnum⟩ := (c.continueCrawling_turned_iff page).mp hmore
      have hsucc := crawlEnd_succ hlast hnum
      have hnext := le_crawlEnd total data (c.numPagesProcessed + 1) (page.getD 1 + 1)
      rw [if_pos hmore]
      refine Triple.mono (ih (some (page.getD 1 + 1)) (c.turned total body page) _) ?_ ?_
      · rintro c' P' ⟨rfl, rfl⟩
        refine ⟨c.crawled_turned hsucc, ?_⟩
        have hmany : page.getD 1 < crawlEnd total data c.numPagesProcessed (page.getD 1) := by
          omega
        simp only [Crawler.turned, Option.getD_some, hsucc, Progress.asked, List.append_assoc,
          List.singleton_append, crawlRequests_succ hmany]
      · rintro e P' ⟨hwhy, requests, rfl⟩
        refine ⟨hwhy.imp (fun h => h) fun hfuel => ?_, requests, rfl⟩
        simp only [Crawler.turned, Option.getD_some, hsucc] at hfuel
        omega
    · have hend : crawlEnd total data c.numPagesProcessed (page.getD 1) = page.getD 1 :=
        crawlEnd_of_not fun h => hmore ((c.continueCrawling_turned_iff page).mpr h)
      rw [if_neg hmore]
      refine Triple.done ⟨(Crawler.crawled_of_end hend).symm, ?_⟩
      rw [hend, crawlRequests, pages_of_lt (Int.lt_succ (page.getD 1)), List.map_nil]

end Crawl

/-! ## The parts of `export!` -/

/-- The file at the beginning of an attempt: `create` mode removes it. -/
def Progress.cleared (P : Progress) : Progress :=
  { P with file := if P.data.mode = .create then none else P.file }

section Parts

variable {env : Env} {id : Nat} {path : String} {P : Progress} {s : ApiSnapshot}

theorem touchStarted_triple :
    Triple env id path P s.touchStarted (fun _ P' => P' = P)
      (fun _ P' => env.Faulty ∧ P' = P) := by
  unfold ApiSnapshot.touchStarted
  split
  · exact Triple.quiet (by simp [Quiet]) fun _ => ⟨(), rfl⟩
  · exact Triple.done rfl

theorem makeDir_triple :
    Triple env id path P s.makeDir (fun _ P' => P' = P) (fun _ P' => env.Faulty ∧ P' = P) := by
  refine Triple.bind (Triple.quiet trivial fun _ => ⟨_, rfl⟩) ?_
  rintro present _ rfl
  cases present with
  | true => exact Triple.done rfl
  | false => exact Triple.quiet trivial fun _ => ⟨(), rfl⟩

/-- No file is removed that has not just been seen. -/
theorem removeOld_wp {other : String} {Q : Unit → World → Prop}
    {E : ExportError → World → Prop} {w : World}
    (hkeep : s.creating = false ∨ w.files other = none → Q () w)
    (hrm : s.creating = true → Q () { w with files := Function.update w.files other none })
    (hfault : ∀ w', env.Faulty → w' = w ∨
      s.creating = true ∧ w' = { w with files := Function.update w.files other none } →
      E .failure w') :
    (s.removeOld other).wp (handle env) Q E w := by
  unfold ApiSnapshot.removeOld
  by_cases hc : s.creating = true
  · rw [if_pos hc, bind_eq, wp_bind]
    refine wp_call (r := .fileExists other) rfl ?_ fun written hf =>
      hfault _ (Env.faulty_of_eq_some hf) (Or.inl ?_)
    · cases hfile : w.files other with
      | none =>
        simp only [Option.isSome_none, Bool.false_eq_true, if_false]
        exact hkeep (Or.inr hfile)
      | some content =>
        have hgone : effect env (.rm other) w =
            (.ok (), { w with files := Function.update w.files other none }) := by
          simp only [effect, hfile]
        simp only [Option.isSome_some, if_true]
        refine wp_call (by rw [hgone]) (by rw [hgone]; exact hrm hc) fun written hf => ?_
        refine hfault _ (Env.faulty_of_eq_some hf) ?_
        simp only [remains, hgone]
        split
        · exact Or.inl rfl
        · exact Or.inr ⟨hc, rfl⟩
    · simp [remains, effect]
  · rw [if_neg hc, pure_eq, wp_done]
    exact hkeep (Or.inl (by simpa using hc))

theorem creating_iff : s.creating = true ↔ s.data.mode = .create := by
  simp [ApiSnapshot.creating]

/-- The old dump is removed in mode `create` only. -/
theorem removeOld_triple (hdata : s.data = P.data) :
    Triple env id path P (s.removeOld path) (fun _ P' => P' = P.cleared)
      (fun _ P' => env.Faulty ∧ (P' = P ∨ P' = P.cleared)) := by
  intro w hw
  obtain ⟨row, hrow, rfl⟩ := Option.map_eq_some_iff.mp hw
  simp only at hdata
  refine removeOld_wp (fun hkeep => ⟨_, hw, ?_⟩) (fun hc => ⟨_, ?_, rfl⟩) fun w' hfault hw' => ?_
  · simp only [Progress.cleared, Progress.mk.injEq, true_and, and_true]
    rcases hkeep with hc | hnone
    · rw [if_neg]
      rw [← hdata, ← creating_iff, hc]
      simp
    · rw [hnone, ite_self]
  · rw [creating_iff, hdata] at hc
    simp [World.progress, hrow, Progress.cleared, hc]
  · rcases hw' with rfl | ⟨hc, rfl⟩
    · exact ⟨_, hw, hfault, Or.inl rfl⟩
    · rw [creating_iff, hdata] at hc
      exact ⟨_, by simp [World.progress, hrow, Progress.cleared, hc], hfault, Or.inr rfl⟩

theorem removeOld_triple_of_ne {other : String} (hne : other ≠ path) :
    Triple env id path P (s.removeOld other) (fun _ P' => P' = P)
      (fun _ P' => env.Faulty ∧ P' = P) := by
  intro w hw
  have hkept : ({ w with files := Function.update w.files other none } : World).progress id path =
      some P := by
    rw [← hw]
    simp [World.progress, Function.update_of_ne (Ne.symm hne)]
  refine removeOld_wp (fun _ => ⟨P, hw, rfl⟩) (fun _ => ⟨P, hkept, rfl⟩) ?_
  rintro w' hfault (rfl | ⟨_, rfl⟩)
  · exact ⟨P, hw, hfault, rfl⟩
  · exact ⟨P, hkept, hfault, rfl⟩

theorem append_benchmark_ne (path : String) : path ++ ".benchmark" ≠ path := by
  intro h
  have hlength := congrArg String.length h
  rw [String.length_append] at hlength
  have : ".benchmark".length = 10 := by decide
  omega

/-- Opening the benchmark file leaves the dump alone. -/
theorem openBenchmark_triple :
    Triple env id path P (s.openBenchmark path) (fun benchmark P' => benchmark ≠ some path ∧ P' = P)
      (fun _ P' => env.Faulty ∧ P' = P) := by
  have hne := append_benchmark_ne path
  unfold ApiSnapshot.openBenchmark
  split
  · simp only [bind_eq, pure_eq]
    refine Triple.bind (removeOld_triple_of_ne hne) ?_
    rintro _ _ rfl
    refine Triple.bind (Triple.quiet hne fun _ => ⟨(), rfl⟩) ?_
    rintro _ _ rfl
    exact Triple.done ⟨fun h => hne (Option.some.inj h), rfl⟩
  · exact Triple.done ⟨by simp, rfl⟩

/-- The preparation empties the dump in mode `create` only. -/
theorem prepare_triple (hdata : s.data = P.data)
    (hpath : snapshotFilepath s.url s.data = some path) :
    Triple env id path P s.prepare
      (fun files P' => files.1 = path ∧ files.2 ≠ some path ∧ P' = P.cleared)
      (fun _ P' => env.Faulty ∧ (P' = P ∨ P' = P.cleared)) := by
  unfold ApiSnapshot.prepare
  simp only [hpath, bind_eq, pure_eq]
  refine Triple.bind (Triple.mono touchStarted_triple (fun _ _ h => h)
    fun _ _ h => ⟨h.1, Or.inl h.2⟩) ?_
  rintro _ _ rfl
  refine Triple.bind (Triple.mono makeDir_triple (fun _ _ h => h)
    fun _ _ h => ⟨h.1, Or.inl h.2⟩) ?_
  rintro _ _ rfl
  refine Triple.bind (removeOld_triple hdata) ?_
  rintro _ _ rfl
  refine Triple.bind (Triple.mono openBenchmark_triple (fun _ _ h => h)
    fun _ _ h => ⟨h.1, Or.inr h.2⟩) ?_
  rintro benchmark _ ⟨hbench, rfl⟩
  refine Triple.bind (Triple.mono (Triple.quiet trivial fun _ => ⟨(), rfl⟩) (fun _ _ h => h)
    fun _ _ h => ⟨h.1, Or.inr h.2⟩) ?_
  rintro _ _ rfl
  exact Triple.done ⟨rfl, hbench, rfl⟩

theorem saveData_triple (hid : s.id = id) (data : SnapshotData) :
    Triple env id path P (call (.saveData s.id data)) (fun _ P' => P' = { P with data := data })
      (fun _ P' => ∃ written, env.faults (.saveData id data) = some written ∧
        P' = if written = 0 then P else { P with data := data }) := by
  subst hid
  refine Triple.mono (Triple.call { P with data := data } (by simp) fun w hw => ⟨rfl, ?_⟩)
    (fun _ _ h => h.2) (fun _ _ h => h)
  obtain ⟨row, hrow, rfl⟩ := Option.map_eq_some_iff.mp hw
  simp [effect, World.updateSnapshot, World.progress, hrow]

theorem touchFinished_triple (hid : s.id = id) :
    Triple env id path P (call (.touch s.id .finishedExportingAt))
      (fun _ P' => P' = { P with finishedExportingAt := some env.now })
      (fun _ P' => ∃ written, env.faults (.touch id .finishedExportingAt) = some written ∧
        P' = if written = 0 then P else { P with finishedExportingAt := some env.now }) := by
  subst hid
  refine Triple.mono (Triple.call { P with finishedExportingAt := some env.now } (by simp)
    fun w hw => ⟨rfl, ?_⟩) (fun _ _ h => h.2) (fun _ _ h => h)
  obtain ⟨row, hrow, rfl⟩ := Option.map_eq_some_iff.mp hw
  simp [effect, World.updateSnapshot, World.progress, hrow, ApiSnapshot.touch]

end Parts

/-! ## Where a failure leaves the chain -/

/-- What the file says. -/
def Progress.text (P : Progress) : String := P.file.getD ""

/-- A step of `zip` or `export_to_zenodo` fails, or raises for what it finds: an
archive that has an entry of that name, a relative path, no URL of the repository. -/
inductive UploadFails (env : Env) (path : String)
    (zips : String → Option (List (String × String))) : Prop where
  | mkdirP {dir : String} (h : env.faults (.mkdirP dir) ≠ none)
  | addToZip {name : String} (h : env.faults (.addToZip (zipFilepath path) path name) ≠ none)
  | entryExists (content : String)
      (h : (addEntries ((zips (zipFilepath path)).getD [])
        [(String.ofList (basename path.toList), content), ("README.md", env.readme)]).1 = false)
  | fileWriteLog {log : FileWriteLog} (h : env.faults (.createFileWriteLog log) ≠ none)
  | relative (h : (zipFilepath path).toList.head? ≠ some '/')
  | zenodo {attributes : ZenodoDataExport}
      (h : env.faults (.createZenodoDataExport attributes) ≠ none)
  | noRepository (h : blank env.githubUrl = true)
  | exportLater {id : Nat} (h : env.faults (.exportLater id) ≠ none)

/-- A call fails when the file has been written to, and before the record
says so. -/
inductive Late (env : Env) (path : String) (job : SnapshotJob)
    (zips : String → Option (List (String × String))) : Prop where
  | append {text : String} {written : Nat} (h : env.faults (.append path text) = some (written + 1))
  | fileWriteLog {log : FileWriteLog} (h : env.faults (.createFileWriteLog log) ≠ none)
  | finished (h : env.faults (.touch job.id .finishedExportingAt) ≠ none)
  | handOver {data : SnapshotData} (hdata : data.startPage = some (data.pageno + 1))
      (h : env.faults (.saveData job.id data) = some 0)
  | upload (hupload : job.uploadOnFinished = true) (h : UploadFails env path zips)

/-- The record is as it was, and in `append` mode the file as well, unless
the failure was a late one. -/
structure Stalled (env : Env) (path : String) (job : SnapshotJob) (P P' : Progress) : Prop where
  id : P'.id = P.id
  url : P'.url = P.url
  data : ∃ pageno, P'.data = { P.data with pageno := pageno }
  file : P.data.mode = .append →
    ∃ text, P'.text = P.text ++ text ∧ (text ≠ "" → Late env path job P.zips)

/-- What a crawl leaves once it is stored. -/
def Progress.stored (env : Env) (c : Crawler) (P : Progress) : Progress :=
  { P with
    data := { P.data with pageno := c.pageno }
    finishedExportingAt :=
      if c.pagesLeft P.data.stopPage then P.finishedExportingAt else some env.now
    file := some (P.file.getD "" ++ puts c.output.written) }

section Store

variable {env : Env} {path : String} {P : Progress} {s : ApiSnapshot} {job : SnapshotJob}
  {c : Crawler}

/-- A stored crawl is in the file, and its page number in the row. -/
theorem store_triple (hid : s.id = job.id) (hdata : s.data = P.data) :
    Triple env job.id path P (s.store path c) (fun _ P' => P' = P.stored env c)
      (fun _ P' => env.Faulty ∧ Stalled env path job P P') := by
  unfold ApiSnapshot.store
  simp only [bind_eq, pure_eq]
  refine Triple.bind (Triple.mono (saveData_triple hid _) (fun _ _ h => h) ?_) ?_
  · rintro e P' ⟨written, hf, rfl⟩
    refine ⟨Env.faulty_of_eq_some hf, ?_⟩
    split
    · exact ⟨rfl, rfl, ⟨_, rfl⟩, fun _ => ⟨"", by simp, by simp⟩⟩
    · exact ⟨rfl, rfl, ⟨c.pageno, by rw [hdata]⟩, fun _ => ⟨"", by simp [Progress.text], by simp⟩⟩
  rintro _ _ rfl
  refine Triple.bind (Triple.mono (Triple.append _) (fun _ _ h => h) ?_) ?_
  · rintro e P' ⟨written, hf, rfl⟩
    refine ⟨Env.faulty_of_eq_some hf, rfl, rfl, ⟨c.pageno, by rw [← hdata]; rfl⟩,
      fun _ => ⟨_, rfl, ?_⟩⟩
    intro hsome
    cases written with
    | zero => simp at hsome
    | succ k => exact .append hf
  rintro _ _ rfl
  refine Triple.bind
    (Triple.mono (Triple.outside trivial fun _ => ⟨(), rfl⟩) (fun _ _ h => h) ?_) ?_
  · rintro e P' ⟨hf, rfl⟩
    exact ⟨⟨_, hf⟩, rfl, rfl, ⟨c.pageno, by rw [← hdata]; rfl⟩,
      fun _ => ⟨_, rfl, fun _ => .fileWriteLog hf⟩⟩
  rintro _ _ rfl
  split
  · next hfinished =>
    refine Triple.mono (touchFinished_triple hid) ?_ ?_
    · rintro _ _ rfl
      rw [ApiSnapshot.finished, hdata] at hfinished
      simp_all [Progress.stored, Progress.write]
    · rintro e P' ⟨written, hf, rfl⟩
      have hlate : Late env path job P.zips := .finished (by rw [hf]; simp)
      refine ⟨Env.faulty_of_eq_some hf, ?_⟩
      split
      · exact ⟨rfl, rfl, ⟨c.pageno, by rw [← hdata]; rfl⟩, fun _ => ⟨_, rfl, fun _ => hlate⟩⟩
      · exact ⟨rfl, rfl, ⟨c.pageno, by rw [← hdata]; rfl⟩, fun _ => ⟨_, rfl, fun _ => hlate⟩⟩
  · next hleft =>
    refine Triple.done ?_
    rw [ApiSnapshot.finished, hdata] at hleft
    simp_all [Progress.stored, Progress.write]

end Store

/-! ## `export!` -/

/-- The crawler of an attempt, at the end of its crawl. -/
def SnapshotData.crawled (total : Int) (body : Int → String) (data : SnapshotData) : Crawler :=
  Crawler.crawled total body data data.startPage { pageno := data.startPage.getD 0 }

/-- The first page, the last page of the attempt, and the last page of all. -/
def SnapshotData.first (data : SnapshotData) : Int := data.startPage.getD 1

def SnapshotData.attemptEnd (total : Int) (data : SnapshotData) : Int :=
  crawlEnd total data 0 data.first

def SnapshotData.last (total : Int) (data : SnapshotData) : Int :=
  lastPage total data.stopPage data.first

theorem SnapshotData.first_le_attemptEnd (total : Int) (data : SnapshotData) :
    data.first ≤ data.attemptEnd total := le_crawlEnd ..

theorem SnapshotData.attemptEnd_le_last (total : Int) (data : SnapshotData) :
    data.attemptEnd total ≤ data.last total := crawlEnd_le ..

/-- What `export!` leaves. -/
def Progress.exported (env : Env) (total : Int) (body : Int → String) (P : Progress) : Progress :=
  (P.cleared.asked (crawlRequests (crawlerUrl P.url) P.data.startPage
    (P.data.attemptEnd total))).stored env (P.data.crawled total body)

section Export

variable {env : Env} {path : String} {P : Progress} {s : ApiSnapshot} {job : SnapshotJob}
  {total : Int} {body : Int → String} {fuel : Nat}

theorem stalled_of_eq {P' : Progress} (h : P' = P ∨ P' = P.cleared) :
    Stalled env path job P P' := by
  rcases h with rfl | rfl
  · exact ⟨rfl, rfl, ⟨_, rfl⟩, fun _ => ⟨"", by simp, by simp⟩⟩
  · refine ⟨rfl, rfl, ⟨_, rfl⟩, fun hmode => ⟨"", ?_, by simp⟩⟩
    simp [Progress.text, Progress.cleared, hmode]

/-- Behind the crawl a failure is judged by the progress the attempt began
with: in `append` mode the file is still what it was. -/
theorem stalled_of_cleared (requests : List Request) {P' : Progress}
    (h : Stalled env path job { P.cleared with requests := requests } P') :
    Stalled env path job P P' := by
  refine ⟨h.id, h.url, h.data, fun hmode => ?_⟩
  obtain ⟨text, htext, hlate⟩ := h.file hmode
  refine ⟨text, ?_, hlate⟩
  rw [htext]
  simp [Progress.text, Progress.cleared, hmode]

/-- One snapshot appends the pages of one attempt. -/
theorem snapshot_triple (hid : s.id = job.id) (hurl : s.url = P.url) (hdata : s.data = P.data)
    (hpath : snapshotFilepath P.url P.data = some path) (hserves : Serves env P.url total body) :
    Triple env job.id path P (s.snapshot env fuel)
      (fun result P' => result = (path, P.data.crawled total body) ∧
        P' = P.exported env total body)
      (fun _ P' => (env.Faulty ∨ fuel < (P.data.attemptEnd total + 1 - P.data.first).toNat) ∧
        Stalled env path job P P') := by
  refine Triple.rescue
    (R := fun _ P' => (env.Faulty ∨ fuel < (P.data.attemptEnd total + 1 - P.data.first).toNat) ∧
      Stalled env path job P P') ?_ ?_
  · simp only [bind_eq, pure_eq]
    rw [← hurl, ← hdata] at hpath
    refine Triple.bind (Triple.mono (prepare_triple hdata hpath) (fun _ _ h => h)
      fun _ _ h => ⟨Or.inl h.1, stalled_of_eq h.2⟩) ?_
    rintro ⟨_, benchmark⟩ _ ⟨rfl, hbench, rfl⟩
    rw [crawl, hurl, hdata]
    refine Triple.bind (Triple.mono (crawlFrom_triple hserves hbench fuel _ _ _)
      (fun _ _ h => h) ?_) ?_
    · rintro e P' ⟨hwhy, requests, rfl⟩
      exact ⟨hwhy, stalled_of_cleared requests (stalled_of_eq (Or.inl rfl))⟩
    rintro _ _ ⟨rfl, rfl⟩
    refine Triple.bind (Triple.mono (store_triple hid hdata) (fun _ _ h => h)
      fun _ _ h => ⟨Or.inl h.1, stalled_of_cleared _ h.2⟩) ?_
    rintro _ _ rfl
    exact Triple.done ⟨rfl, rfl⟩
  · rintro e P' ⟨hwhy, hstalled⟩
    simp only [bind_eq]
    refine Triple.bind (Triple.mono (Triple.quiet (by simp [Quiet]) fun _ => ⟨(), rfl⟩)
      (fun _ _ h => h) ?_) ?_
    · rintro _ _ ⟨hfault, rfl⟩
      exact ⟨Or.inl hfault, hstalled⟩
    · rintro _ _ rfl
      exact Triple.fail ⟨hwhy, hstalled⟩

end Export

/-! ## Upload -/

section Upload

variable {env : Env} {id : Nat} {path : String} {P : Progress}

/-- Any call, from what it does with the progress whether or not it raises. -/
theorem Triple.any {r : ExportCall} {Q : r.answer → Progress → Prop} {E : Progress → Prop}
    (hr : ∀ other text, r ≠ .append other text) (hP : env.faults r ≠ none → E P)
    (heffect : ∀ w : World, w.progress id path = some P →
      ∃ P', (effect env r w).2.progress id path = some P' ∧ (env.faults r ≠ none → E P') ∧
        (∀ e, (effect env r w).1 = .error e → E P') ∧
        ∀ x, (effect env r w).1 = .ok x → Q x P') :
    Triple env id path P (Export.call r) Q (fun _ => E) := by
  intro w hw
  obtain ⟨P', hP', hfault, hE, hQ⟩ := heffect w hw
  refine wp_raising.mpr ?_
  unfold handle
  cases hf : env.faults r with
  | none => exact ⟨fun x hx => ⟨P', hP', hQ x hx⟩, fun e he => ⟨P', hP', hE e he⟩⟩
  | some written =>
    have hfails : env.faults r ≠ none := by
      rw [hf]
      simp
    refine ⟨fun x hx => ?_, fun _ _ => ?_⟩
    · cases hx
    · have hremains : remains env written r w =
          if written = 0 then w else (effect env r w).2 := by
        cases r with
        | append other text => exact absurd rfl (hr other text)
        | _ => rfl
      simp only [hremains]
      split
      · exact ⟨P, hw, hP hfails⟩
      · exact ⟨P', hP', hfault hfails⟩

/-- An upload touches archives and exports only. -/
def Uploading (P P' : Progress) : Prop :=
  ∃ zips exports, P' = { P with zips := zips, zenodoDataExports := exports }

/-- Zipping changes the archives only. -/
theorem addToZip_triple (hfile : P.file.isSome = true) :
    Triple env id path P
      (call (.addToZip (zipFilepath path) path (String.ofList (basename path.toList))))
      (fun _ P' => ∃ zips, P' = { P with zips := zips } ∧ (zips (zipFilepath path)).isSome = true)
      (fun _ P' => UploadFails env path P.zips ∧ Uploading P P') := by
  refine Triple.any (by simp) (fun h => ⟨.addToZip h, _, _, rfl⟩) fun w hw => ?_
  obtain ⟨row, hrow, rfl⟩ := Option.map_eq_some_iff.mp hw
  -- the file is there, so the archive is written
  obtain ⟨content, hcontent⟩ := Option.isSome_iff_exists.mp hfile
  simp only at hcontent
  let zips := Function.update w.zips (zipFilepath path)
    (some (addEntries ((w.zips (zipFilepath path)).getD [])
      [(String.ofList (basename path.toList), content), ("README.md", env.readme)]).2)
  refine ⟨_, ?_, fun h => ⟨.addToZip h, zips, _, rfl⟩, fun e he => ⟨?_, zips, _, rfl⟩,
    fun x _ => ⟨zips, rfl, by simp [zips]⟩⟩
  · simp [effect, hcontent, World.progress, hrow, zips]
  · refine .entryExists content (Bool.eq_false_iff.mpr fun hadded => ?_)
    simp [effect, hcontent, hadded] at he

theorem createZenodoDataExport_triple {attributes : ZenodoDataExport}
    (zips : String → Option (List (String × String)))
    (hurl : attributes.codeRepositoryUrl = env.githubUrl) :
    Triple env id path P (call (.createZenodoDataExport attributes))
      (fun _ P' => ∃ i, P' = { P with
        zenodoDataExports := P.zenodoDataExports ++ [{ attributes with id := i }] })
      (fun _ P' => UploadFails env path zips ∧ Uploading P P') := by
  refine Triple.any (by simp) (fun h => ⟨.zenodo h, _, _, rfl⟩) fun w hw => ?_
  cases hblank : blank attributes.codeRepositoryUrl with
  | true =>
    refine ⟨P, ?_, fun h => ⟨.zenodo h, _, _, rfl⟩,
      fun _ _ => ⟨.noRepository (by rw [← hurl, hblank]), _, _, rfl⟩, fun x hx => ?_⟩
    · simpa [effect, hblank] using hw
    · simp [effect, hblank] at hx
  | false =>
    let exports := P.zenodoDataExports ++ [{ attributes with id := w.nextId }]
    refine ⟨{ P with zenodoDataExports := exports }, ?_, fun h => ⟨.zenodo h, _, _, rfl⟩,
      fun e he => ?_, fun x _ => ⟨w.nextId, rfl⟩⟩
    · obtain ⟨row, hrow, rfl⟩ := Option.map_eq_some_iff.mp hw
      simp [effect, hblank, World.progress, hrow, exports]
    · simp [effect, hblank] at he

/-- An upload that comes to its end leaves the archive and one more export. -/
theorem upload_triple (s : ApiSnapshot) (hfile : P.file.isSome = true) :
    Triple env id path P ((zip path).bind fun _ => exportToZenodo env s path)
      (fun _ P' => ∃ zips added, P' = { P with
          zips := zips, zenodoDataExports := P.zenodoDataExports ++ [added] } ∧
        added.files = [zipFilepath path] ∧ (zips (zipFilepath path)).isSome = true)
      (fun _ P' => UploadFails env path P.zips ∧ Uploading P P') := by
  refine Triple.bind (R := fun _ P' => ∃ zips, P' = { P with zips := zips } ∧
    (zips (zipFilepath path)).isSome = true) ?_ ?_
  · unfold zip
    simp only [bind_eq, pure_eq]
    refine Triple.bind (Triple.mono (Triple.outside trivial fun _ => ⟨(), rfl⟩) (fun _ _ h => h)
      fun _ _ h => ⟨.mkdirP h.1, _, _, h.2⟩) ?_
    rintro _ _ rfl
    refine Triple.bind (addToZip_triple hfile) ?_
    rintro _ _ ⟨zips, rfl, hzip⟩
    refine Triple.bind (Triple.mono (Triple.outside trivial fun _ => ⟨(), rfl⟩) (fun _ _ h => h)
      fun _ _ h => ⟨.fileWriteLog h.1, zips, _, h.2⟩) ?_
    rintro _ _ rfl
    split
    · exact Triple.done ⟨zips, rfl, hzip⟩
    · next hrelative => exact Triple.fail ⟨.relative hrelative, zips, _, rfl⟩
  · rintro _ _ ⟨zips, rfl, hzip⟩
    unfold exportToZenodo
    simp only [bind_eq]
    refine Triple.bind
      (Triple.mono (createZenodoDataExport_triple P.zips rfl) (fun _ _ h => h) ?_) ?_
    · rintro _ _ ⟨hfails, zips', exports, rfl⟩
      exact ⟨hfails, zips', exports, rfl⟩
    rintro i _ ⟨_, rfl⟩
    refine Triple.mono (Triple.outside trivial fun _ => ⟨(), rfl⟩) ?_ ?_
    · rintro _ _ rfl
      exact ⟨zips, _, rfl, rfl, hzip⟩
    · rintro _ _ ⟨hfault, rfl⟩
      exact ⟨.exportLater hfault, zips, _, rfl⟩

end Upload

/-! ## The job -/

/-- The attempt gets to the end of the range. -/
def SnapshotData.Ends (total : Int) (data : SnapshotData) : Prop :=
  data.attemptEnd total = data.last total

theorem SnapshotData.attemptEnd_lt_last {total : Int} {data : SnapshotData}
    (h : ¬ data.Ends total) : data.attemptEnd total < data.last total :=
  Int.lt_iff_le_and_ne.mpr ⟨data.attemptEnd_le_last total, h⟩

/-- The record the next job is to find. -/
def SnapshotData.handOver (total : Int) (data : SnapshotData) : SnapshotData :=
  { data with
    pageno := data.attemptEnd total
    startPage := some (data.attemptEnd total + 1)
    mode := .append }

/-- What a job that is through leaves. -/
inductive Succeeded (env : Env) (path : String) (job : SnapshotJob) (total : Int)
    (body : Int → String) (P : Progress) : Progress → Prop where
  | handedOver (h : ¬ P.data.Ends total) :
      Succeeded env path job total body P
        { P.exported env total body with
          data := P.data.handOver total
          queue := P.queue ++ [{ id := job.id }] }
  | finished (h : P.data.Ends total) (hupload : job.uploadOnFinished = false) :
      Succeeded env path job total body P (P.exported env total body)
  | uploaded (h : P.data.Ends total) (hupload : job.uploadOnFinished = true)
      {zips : String → Option (List (String × String))} {added : ZenodoDataExport}
      (hfiles : added.files = [zipFilepath path]) (hzip : (zips (zipFilepath path)).isSome = true) :
      Succeeded env path job total body P
        { P.exported env total body with
          zips := zips
          zenodoDataExports := P.zenodoDataExports ++ [added] }

/-- Where a job that raises leaves things. -/
inductive Raised (env : Env) (path : String) (job : SnapshotJob) (total : Int)
    (body : Int → String) (fuel : Nat) (P : Progress) : Progress → Prop where
  | stalled {P' : Progress}
      (hwhy : env.Faulty ∨ fuel < (P.data.attemptEnd total + 1 - P.data.first).toNat)
      (h : Stalled env path job P P') : Raised env path job total body fuel P P'
  | saved (hwhy : env.Faulty) (h : ¬ P.data.Ends total) (queue : List SnapshotJob) :
      Raised env path job total body fuel P
        { P.exported env total body with
          data := P.data.handOver total
          queue := queue }
  | upload {P' : Progress} (h : P.data.Ends total) (hupload : job.uploadOnFinished = true)
      (hfails : UploadFails env path P.zips) (hupload' : Uploading (P.exported env total body) P') :
      Raised env path job total body fuel P P'

section Job

variable {env : Env} {path : String} {P : Progress} {s : ApiSnapshot} {job : SnapshotJob}
  {total : Int} {body : Int → String} {fuel : Nat}

/-- Pages are left unless this attempt reaches the last one. -/
theorem pagesLeft_crawled_iff (data : SnapshotData) :
    (data.crawled total body).pagesLeft data.stopPage = true ↔ ¬ data.Ends total := by
  have hlast := data.attemptEnd_le_last total
  have hleft : (data.crawled total body).pagesLeft data.stopPage = true ↔
      data.attemptEnd total < data.last total := by
    rw [SnapshotData.last, ← lastPage_of_le (data.first_le_attemptEnd total) hlast]
    refine Iff.trans ?_ (lt_lastPage_iff ..).symm
    rw [Crawler.pagesLeft, SnapshotData.crawled, Crawler.crawled, Bool.and_eq_true]
    exact and_congr_left' decide_eq_true_iff
  rw [hleft, SnapshotData.Ends]
  omega

/-- The snapshot is finished when the attempt reached the last page. -/
theorem finished_crawled_iff (hdata : s.data = P.data) :
    s.finished (P.data.crawled total body) = true ↔ P.data.Ends total := by
  rw [ApiSnapshot.finished, hdata, Bool.not_eq_true', Bool.eq_false_iff, ne_eq,
    pagesLeft_crawled_iff, not_not]

theorem findSnapshot_triple :
    Triple env job.id path P (findSnapshot job.id)
      (fun s P' => s.id = P.id ∧ s.url = P.url ∧ s.data = P.data ∧ P' = P)
      (fun _ P' => env.Faulty ∧ P' = P) := by
  intro w hw
  obtain ⟨row, hrow, rfl⟩ := Option.map_eq_some_iff.mp hw
  refine wp_call (r := .findSnapshot job.id) (x := row) ?_ ⟨_, hw, rfl, rfl, rfl, rfl⟩
    fun written hf => ⟨_, ?_, Env.faulty_of_eq_some hf, rfl⟩
  · simp [effect, hrow]
  · exact (progress_remains_of_quiet (r := .findSnapshot job.id) trivial written).trans hw

theorem performLater_triple (next : SnapshotJob) :
    Triple env job.id path P (call (.performLater next))
      (fun _ P' => P' = { P with queue := P.queue ++ [next] })
      (fun _ P' => env.Faulty ∧ ∃ queue, P' = { P with queue := queue }) := by
  refine Triple.mono (Triple.call { P with queue := P.queue ++ [next] } (by simp)
    fun w hw => ⟨rfl, ?_⟩) (fun _ _ h => h.2) ?_
  · obtain ⟨row, hrow, rfl⟩ := Option.map_eq_some_iff.mp hw
    simp [effect, World.progress, hrow]
  · rintro e P' ⟨written, hf, rfl⟩
    refine ⟨Env.faulty_of_eq_some hf, ?_⟩
    split
    · exact ⟨_, rfl⟩
    · exact ⟨_, rfl⟩

/-- The lines of an attempt are on the file and the record does not say so. -/
theorem stalled_exported {P' : Progress} (hid : P'.id = P.id) (hurl : P'.url = P.url)
    (hdata : ∃ pageno, P'.data = { P.data with pageno := pageno })
    (hfile : P'.file = (P.exported env total body).file) (hlate : Late env path job P.zips) :
    Stalled env path job P P' := by
  refine ⟨hid, hurl, hdata, fun hmode => ?_⟩
  refine ⟨puts (P.data.crawled total body).output.written, ?_, fun _ => hlate⟩
  rw [Progress.text, hfile]
  simp [Progress.exported, Progress.stored, Progress.asked, Progress.cleared, Progress.text, hmode]

/-- After the crawl the job uploads or queues its successor. -/
theorem proceed_triple (hs : s.id = job.id) (hdata : s.data = P.data) :
    Triple env job.id path (P.exported env total body)
      (job.proceed env s path (P.data.crawled total body))
      (fun _ => Succeeded env path job total body P)
      (fun _ => Raised env path job total body fuel P) := by
  unfold SnapshotJob.proceed
  by_cases hends : P.data.Ends total
  · rw [(finished_crawled_iff hdata).mpr hends]
    cases hupload : job.uploadOnFinished with
    | false => exact Triple.done (.finished hends hupload)
    | true =>
      refine Triple.mono (upload_triple s rfl) ?_ fun _ _ h => .upload hends hupload h.1 h.2
      rintro _ _ ⟨zips, added, rfl, hfiles, hzip⟩
      exact .uploaded hends hupload hfiles hzip
  · have hleft : s.finished (P.data.crawled total body) = false := by
      rw [Bool.eq_false_iff, ne_eq, finished_crawled_iff hdata]
      exact hends
    rw [hleft]
    refine Triple.bind (Triple.mono (saveData_triple hs _) (fun _ _ h => h) ?_) ?_
    · rintro e P' ⟨written, hf, rfl⟩
      split
      · next hzero =>
        rw [hzero] at hf
        refine .stalled (Or.inl (Env.faulty_of_eq_some hf)) ?_
        exact stalled_exported rfl rfl ⟨_, rfl⟩ rfl (.handOver rfl hf)
      · rw [hdata] at hf ⊢
        exact .saved (Env.faulty_of_eq_some hf) hends P.queue
    rintro _ _ rfl
    refine Triple.mono (performLater_triple _) ?_ ?_
    · rintro _ _ rfl
      rw [hs, hdata]
      exact .handedOver hends
    · rintro e P' ⟨hfault, queue, rfl⟩
      rw [hdata]
      exact .saved hfault hends queue

variable (env fuel job) in
/-- One attempt, from the row it finds to the job it queues. -/
theorem body_triple (hid : P.id = job.id) (hpath : snapshotFilepath P.url P.data = some path)
    (hserves : Serves env P.url total body) :
    Triple env job.id path P (job.body env fuel)
      (fun _ => Succeeded env path job total body P)
      (fun _ => Raised env path job total body fuel P) := by
  unfold SnapshotJob.body
  simp only [bind_eq]
  refine Triple.bind (Triple.mono findSnapshot_triple (fun _ _ h => h)
    fun _ _ h => .stalled (Or.inl h.1) (stalled_of_eq (Or.inl h.2))) ?_
  rintro s _ ⟨hs, hurl, hdata, rfl⟩
  rw [hid] at hs
  refine Triple.bind (Triple.mono (snapshot_triple hs hurl hdata hpath hserves) (fun _ _ h => h)
    fun _ _ h => .stalled h.1 h.2) ?_
  rintro ⟨_, _⟩ _ ⟨hresult, rfl⟩
  obtain ⟨rfl, rfl⟩ := Prod.mk.inj hresult
  exact proceed_triple hs hdata

/-- An alert is filed and nothing else changes. -/
theorem createAlert_triple (e : ExportError) :
    Triple env job.id path P (call (.createAlert e job))
      (fun _ P' => P' = { P with alerts := P.alerts ++ [(e, job)] })
      (fun _ P' => env.Faulty ∧ ∃ alerts, P' = { P with alerts := alerts }) := by
  refine Triple.mono (Triple.call { P with alerts := P.alerts ++ [(e, job)] } (by simp)
    fun w hw => ⟨rfl, ?_⟩) (fun _ _ h => h.2) ?_
  · obtain ⟨row, hrow, rfl⟩ := Option.map_eq_some_iff.mp hw
    simp [effect, World.progress, hrow]
  · rintro _ _ ⟨written, hf, rfl⟩
    refine ⟨Env.faulty_of_eq_some hf, ?_⟩
    split
    · exact ⟨_, rfl⟩
    · exact ⟨_, rfl⟩

variable (env fuel) in
/-- What is left of an attempt, whether it is through or has raised: the
exception is rescued into an alert, if that can be filed. -/
theorem perform_triple (hid : P.id = job.id) (hpath : snapshotFilepath P.url P.data = some path)
    (hserves : Serves env P.url total body) :
    Triple env job.id path P (job.perform env fuel)
      (fun _ P' => Succeeded env path job total body P P' ∨
        ∃ P₁ e, Raised env path job total body fuel P P₁ ∧
          P' = { P₁ with alerts := P₁.alerts ++ [(e, job)] })
      (fun _ _ => env.Faulty) := by
  refine Triple.rescue (Triple.mono (body_triple env job fuel hid hpath hserves)
    (fun _ _ h => Or.inl h) fun _ _ h => h) ?_
  intro e P₁ hraised
  exact Triple.mono (createAlert_triple e) (fun _ _ h => Or.inr ⟨P₁, e, hraised, h⟩)
    fun _ _ h => h.1

end Job

end Lagotto.Export
