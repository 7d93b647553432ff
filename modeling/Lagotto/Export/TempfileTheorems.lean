/-
Lagotto.Export.TempfileTheorems — what one `export!` appends to the file of a
snapshot, for any server.

The crawler puts every page it is served into the temporary file
(`crawlFrom_puts`), and `export!` copies what can be read of that file while
it is open. How much this is depends on the sizes of the pages
(`appended_pages_complete_iff`).
-/
import Lagotto.Export.RecoveryTheorems

namespace Lagotto.Export

open Text Interaction Program

/-- The text of a response. -/
def Body.text : Body → String
  | .malformed text => text
  | .json text _ => text
  | .unreadable text => text

/-- What the crawler puts for the responses to these requests. -/
def servedTexts (env : Env) (requests : List Request) : List String :=
  requests.map fun request => withoutNewlines (env.server request).text

/-- The requests of a crawl that has come to its end, and its output. -/
structure CrawlerPut (env : Env) (url : String) (asked : List Request) (c c' : Crawler) : Prop where
  some : asked ≠ []
  url : ∀ request ∈ asked, request.url = url
  output : c'.output = c.output.putAll bufferSize (servedTexts env asked)

section Crawl

variable {env : Env} {id : Nat} {path url : String} {data : SnapshotData}
  {benchmark : Option String} {P : Progress} {c c' c'' : Crawler}

theorem get_answer (request : Request) :
    Triple env id path P (get request)
      (fun body P' => body = env.server request ∧ P' = P.asked [request]) (fun _ _ => True) := by
  refine Triple.mono (Triple.call (P.asked [request]) (by simp) fun w hw => ⟨rfl, ?_⟩)
    (fun _ _ h => h) (fun _ _ _ => trivial)
  obtain ⟨s, hs, rfl⟩ := Option.map_eq_some_iff.mp hw
  simp only [effect, World.progress, hs, Option.map_some, Progress.asked]

/-- Whatever a page says about the paging, its text is put. -/
theorem process_output {body : Body} (h : c.process body = .ok c') :
    c'.output = c.output.puts bufferSize (withoutNewlines body.text) := by
  cases body with
  | malformed text => cases h
  | unreadable text => cases h
  | json text paging =>
    cases paging with
    | none =>
      cases h
      rfl
    | some paging =>
      cases h
      rfl

theorem CrawlerPut.single {request : Request} (hurl : request.url = url)
    (h : c.process (env.server request) = .ok c') : CrawlerPut env url [request] c c' :=
  ⟨by simp, by simpa using hurl, process_output h⟩

theorem CrawlerPut.cons {request : Request} {asked : List Request} (hurl : request.url = url)
    (h : c.process (env.server request) = .ok c') (hrest : CrawlerPut env url asked c' c'') :
    CrawlerPut env url (request :: asked) c c'' := by
  refine ⟨by simp, List.forall_mem_cons.mpr ⟨hurl, hrest.url⟩, ?_⟩
  rw [hrest.output, process_output h]
  rfl

/-- A crawl that comes to its end has put the pages it was served. -/
theorem crawlFrom_puts (hbench : benchmark ≠ some path) (fuel : Nat) (page : Option Int)
    (c : Crawler) (P : Progress) :
    Triple env id path P (crawlFrom env url data benchmark fuel page c)
      (fun c' P' => ∃ asked, CrawlerPut env url asked c c' ∧ P' = P.asked asked)
      (fun _ _ => True) := by
  induction fuel generalizing page c P with
  | zero => exact Triple.fail trivial
  | succ fuel ih =>
    simp only [crawlFrom, bind_eq, pure_eq]
    refine Triple.bind (get_answer _) ?_
    rintro _ _ ⟨rfl, rfl⟩
    cases hprocess : c.process (env.server { url := url, page := page }) with
    | error e => exact Triple.fail trivial
    | ok c' =>
      show Triple env id path _ ((report env _ benchmark).bind fun _ =>
        if c'.continueCrawling data = true then _ else _) _ _
      refine Triple.bind (Triple.mono (report_triple hbench _ _) (fun _ _ h => h)
        (fun _ _ _ => trivial)) ?_
      rintro _ _ rfl
      split
      · refine Triple.mono (ih _ c' _) ?_ (fun _ _ h => h)
        rintro c'' _ ⟨asked, hput, rfl⟩
        refine ⟨_, hput.cons rfl hprocess, ?_⟩
        simp only [Progress.asked, List.append_assoc, List.singleton_append]
      · exact Triple.done ⟨_, .single rfl hprocess, rfl⟩

end Crawl

theorem base_eq (P : Progress) :
    P.base = if P.data.mode = .create then "" else P.file.getD "" := by
  simp only [Progress.base, Progress.text, Progress.cleared]
  split <;> rfl

section Export

variable {env : Env} {path : String} {P : Progress} {s : ApiSnapshot}

/-- An `export!` that is through: the lines that could be read are behind what
was there. -/
theorem snapshot_appends (fuel : Nat) (hdata : s.data = P.data)
    (hpath : snapshotFilepath s.url s.data = some path) :
    Triple env s.id path P (s.snapshot env fuel)
      (fun _ P' => ∃ asked c', CrawlerPut env (crawlerUrl s.url) asked
          { pageno := s.data.startPage.getD 0 } c' ∧
        P'.requests = P.requests ++ asked ∧
        P'.file = some (P.base ++ puts c'.output.written))
      (fun _ _ => True) := by
  refine Triple.rescue (R := fun _ _ => True) ?_ ?_
  · simp only [bind_eq, pure_eq]
    refine Triple.bind (Triple.mono (prepare_triple hdata hpath) (fun _ _ h => h)
      (fun _ _ _ => trivial)) ?_
    rintro ⟨_, benchmark⟩ _ ⟨rfl, hbench, rfl⟩
    refine Triple.bind (crawlFrom_puts hbench fuel _ _ _) ?_
    rintro c' _ ⟨asked, hput, rfl⟩
    have hid : s.id = SnapshotJob.id { id := s.id } := rfl
    refine Triple.bind (Triple.mono (store_triple hid hdata) (fun _ _ h => h)
      (fun _ _ _ => trivial)) ?_
    rintro _ _ rfl
    exact Triple.done ⟨asked, c', hput, rfl, rfl⟩
  · rintro e P' _
    exact Triple.bind (Triple.mono (Triple.quiet (by simp [Quiet]) fun _ => ⟨(), rfl⟩)
      (fun _ _ h => h) (fun _ _ _ => trivial)) fun _ _ _ => Triple.fail trivial

end Export

/-- Of the pages that one `export!` has crawled, the file of the snapshot gains
all lines exactly if the last page, or its newline, made the buffer of the
temporary file overflow. -/
theorem appended_pages_complete_iff {env : Env} {w : World} {s : ApiSnapshot} {path : String}
    (fuel : Nat) (hrow : w.snapshots s.id = some s)
    (hpath : snapshotFilepath s.url s.data = some path)
    (hok : ((s.snapshot env fuel).exec (handle env) w).1.isOk = true) :
    ∃ asked, asked ≠ [] ∧ (∀ request ∈ asked, request.url = crawlerUrl s.url) ∧
      ((s.snapshot env fuel).exec (handle env) w).2.requests = w.requests ++ asked ∧
      (((s.snapshot env fuel).exec (handle env) w).2.files path =
          some ((if s.data.mode = .create then "" else (w.files path).getD "") ++
            lines (servedTexts env asked)) ↔
        Buffered.Filled bufferSize (servedTexts env asked)) := by
  obtain ⟨P, hw⟩ : ∃ P, w.progress s.id path = some P := by simp [World.progress, hrow]
  obtain ⟨row, hrow', rfl⟩ := Option.map_eq_some_iff.mp hw
  obtain rfl : s = row := Option.some.inj (hrow.symm.trans hrow')
  obtain ⟨P', hP', ⟨_, _, asked, c', hput, hrequests, hfile⟩ | ⟨e, herror, _⟩⟩ :=
    (snapshot_appends fuel rfl hpath).exec hw
  · obtain ⟨row', _, rfl⟩ := Option.map_eq_some_iff.mp hP'
    refine ⟨asked, hput.some, hput.url, hrequests, ?_⟩
    have hsome : servedTexts env asked ≠ [] := by simpa [servedTexts] using hput.some
    have hends : ∀ text ∈ servedTexts env asked, text.toList.getLast? ≠ some '\n' := by
      intro text htext
      obtain ⟨request, _, rfl⟩ := List.mem_map.mp htext
      exact getLast?_withoutNewlines _
    rw [← Buffered.puts_written_eq_lines_iff (by decide) hends hsome, ← hput.output]
    refine (Eq.congr_left hfile).trans ?_
    rw [Option.some.injEq, base_eq, String.append_right_inj]
  · rw [herror] at hok
    cases hok

/-- The requests for two pages. -/
def twoRequests : List Request :=
  [{ url := "http://alm.example.org/api/works", page := some 1 },
    { url := "http://alm.example.org/api/works", page := some 2 }]

/-- Two pages that do not fit into the buffer are there. -/
theorem long_pages_appended :
    (((newSnapshot 2).snapshot (serving longPage 2) 2).exec (handle (serving longPage 2))
      (worldWith (newSnapshot 2) { id := 1 })).2.files worksPath =
        some ("" ++ lines (servedTexts (serving longPage 2) twoRequests)) := by
  have hrow : (worldWith (newSnapshot 2) { id := 1 }).snapshots (newSnapshot 2).id =
      some (newSnapshot 2) := rfl
  have hpath : snapshotFilepath (newSnapshot 2).url (newSnapshot 2).data = some worksPath := by
    decide +kernel
  have hok : (((newSnapshot 2).snapshot (serving longPage 2) 2).exec
      (handle (serving longPage 2)) (worldWith (newSnapshot 2) { id := 1 })).1.isOk = true := by
    decide +kernel
  obtain ⟨asked, -, -, hrequests, hiff⟩ := appended_pages_complete_iff 2 hrow hpath hok
  have hasked : asked = twoRequests := hrequests.symm.trans (by decide +kernel)
  have hpages : pages (newSnapshot 2).data.first ((newSnapshot 2).data.attemptEnd 2) = [1, 2] := by
    decide
  have htexts : servedTexts (serving longPage 2) twoRequests = pageTexts longPage [1, 2] := rfl
  have hfilled : (newSnapshot 2).data.Filled 2 longPage := filled_longPage
  rw [SnapshotData.Filled, hpages] at hfilled
  rw [hasked, if_pos (by decide), htexts] at hiff
  rw [htexts]
  exact hiff.mpr hfilled

/-- Two short pages: nothing has left the buffer when the file is copied. -/
theorem short_pages_missing :
    (((newSnapshot 2).snapshot twoPages 2).exec (handle twoPages)
        (worldWith (newSnapshot 2) { id := 1 })).1.isOk = true ∧
      (((newSnapshot 2).snapshot twoPages 2).exec (handle twoPages)
        (worldWith (newSnapshot 2) { id := 1 })).2.files worksPath = some "\n" ∧
      servedTexts twoPages (((newSnapshot 2).snapshot twoPages 2).exec (handle twoPages)
        (worldWith (newSnapshot 2) { id := 1 })).2.requests = ["page 1", "page 2"] := by
  decide +kernel

end Lagotto.Export
