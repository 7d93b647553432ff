/-
Lagotto.Export.RecoveryTheorems — snapshots whose jobs fail and are run again.

An attempt may fail at any call. The `outlook` of a progress is the file the
chain will end with, if nothing gets lost. Every attempt before the last one
keeps it, or raises before anything is written (`attempt_sameOutlook`); so the
file of the attempt that finishes has every page once, unless an attempt was
cut off between its write and the update of the row (`Timely`), which writes
its pages again, or has left pages in the buffer of its temporary file
(`Fills`).
-/
import Lagotto.Text.Numerals
import Lagotto.Export.ChainTheorems

namespace Lagotto.Export

variable {total : Int} {body : Int → String}

open Text Interaction Program StateMachine

/-! ## Attempts -/

/-- One run of the job of a snapshot: when, with which option, and what fails. -/
structure Attempt where
  now : Time
  uploadOnFinished : Bool := false
  faults : ExportCall → Option Nat

namespace Attempt

def env (env : Env) (a : Attempt) : Env := { env with now := a.now, faults := a.faults }

def job (id : Nat) (a : Attempt) : SnapshotJob :=
  { id := id, uploadOnFinished := a.uploadOnFinished }

/-- The outcome of `perform` inside its `rescue`. -/
def outcome (env : Env) (fuel : Nat) (id : Nat) (a : Attempt) (w : World) :
    Except ExportError Unit × World :=
  ((a.job id).body (a.env env) fuel).exec (handle (a.env env)) w

end Attempt

/-- The world after an attempt. -/
def attempt (env : Env) (fuel : Nat) (id : Nat) (a : Attempt) (w : World) : World :=
  (((a.job id).perform (a.env env) fuel).exec (handle (a.env env)) w).2

/-- The attempt is through and leaves nothing to another job. -/
def Finishes (env : Env) (fuel : Nat) (id : Nat) (w : World) (a : Attempt) : Prop :=
  (a.outcome env fuel id w).1.isOk = true ∧ (attempt env fuel id a w).queue = w.queue

instance (env : Env) (fuel : Nat) (id : Nat) (w : World) (a : Attempt) :
    Decidable (Finishes env fuel id w a) :=
  inferInstanceAs (Decidable (_ ∧ _))

theorem isOk_iff (result : Except ExportError Unit) : result.isOk = true ↔ result = .ok () := by
  cases result <;> simp [Except.isOk, Except.toBool]

/-- If the record is in `append` mode, nothing fails between the append and the
moment the record says so. -/
def Timely (env : Env) (id : Nat) (path : String) (w : World) (a : Attempt) : Prop :=
  ∀ s, w.snapshots id = some s → s.data.mode = .append → ¬ Late (a.env env) path (a.job id) w.zips

/-- The pages of an attempt on this record fill the buffer of the temporary
file. -/
def SnapshotData.Filled (total : Int) (body : Int → String) (data : SnapshotData) : Prop :=
  Buffered.Filled bufferSize (pageTexts body (pages data.first (data.attemptEnd total)))

def Fills (id : Nat) (total : Int) (body : Int → String) (w : World) (_ : Attempt) : Prop :=
  ∀ s, w.snapshots id = some s → s.data.Filled total body

/-! ## What an attempt does to the outlook -/

theorem puts_written_crawled {data : SnapshotData} (h : data.Filled total body) :
    puts (data.crawled total body).output.written =
      dump body (pages data.first (data.attemptEnd total)) := by
  have hsome : pageTexts body (pages data.first (data.attemptEnd total)) ≠ [] := by
    rw [pageTexts, pages_cons (data.first_le_attemptEnd total)]
    simp
  rw [crawled_output, dump_eq_lines]
  refine (Buffered.puts_written_eq_lines_iff (by decide) ?_ hsome).mpr h
  intro text htext
  obtain ⟨p, _, rfl⟩ := List.mem_map.mp htext
  exact getLast?_withoutNewlines _

theorem withoutNewlines_eq_self {text : String} (h : '\n' ∉ text.toList) :
    withoutNewlines text = text := by
  have hfilter : text.toList.filter (· != '\n') = text.toList := by
    rw [List.filter_eq_self]
    intro c hc
    rw [bne_iff_ne]
    rintro rfl
    exact h hc
  rw [withoutNewlines, hfilter, String.ofList_toList]

/-- The last page does not fit into the buffer. -/
theorem filled_of_le {data : SnapshotData} (hbody : '\n' ∉ (body (data.attemptEnd total)).toList)
    (hsize : bufferSize ≤ (body (data.attemptEnd total)).utf8ByteSize) :
    data.Filled total body := by
  have hfirst := data.first_le_attemptEnd total
  have hlast : pages data.first (data.attemptEnd total) =
      pages data.first (data.attemptEnd total - 1) ++ [data.attemptEnd total] := by
    rw [pages_append (q := data.attemptEnd total - 1) (by omega) (by omega), Int.sub_add_cancel,
      pages_cons (Int.le_refl _), pages_of_lt (Int.lt_succ _)]
  refine Or.inl ?_
  simp only [hlast, pageTexts, List.map_append, List.map_cons, List.map_nil, List.getLast?_concat,
    Option.getD_some, withoutNewlines_eq_self hbody]
  omega

theorem exported_file_of_filled (env : Env) {P : Progress} (h : P.data.Filled total body) :
    (P.exported env total body).file =
      some (P.base ++ dump body (pages P.data.first (P.data.attemptEnd total))) := by
  rw [exported_file, puts_written_crawled h]

/-- The file once the pages that are still to come have been appended. -/
def Progress.outlook (total : Int) (body : Int → String) (P : Progress) : String :=
  P.base ++ dump body (pages P.data.first (P.data.last total))

theorem exported_file_of_ends (env : Env) {P : Progress} (hfilled : P.data.Filled total body)
    (h : P.data.Ends total) :
    (P.exported env total body).file = some (P.outlook total body) := by
  rw [exported_file_of_filled env hfilled, h, Progress.outlook]

/-- An attempt that hands over leaves the same file in prospect. -/
theorem outlook_of_handOver {P P' : Progress} (h : ¬ P.data.Ends total)
    (hdata : P'.data = P.data.handOver total) (hfile : P'.file =
      some (P.base ++ dump body (pages P.data.first (P.data.attemptEnd total)))) :
    P'.outlook total body = P.outlook total body := by
  have hfirst := P.data.first_le_attemptEnd total
  have hq := SnapshotData.attemptEnd_lt_last h
  have hbase : P'.base = P.base ++ dump body (pages P.data.first (P.data.attemptEnd total)) := by
    simp only [Progress.base, Progress.text, Progress.cleared, hdata, SnapshotData.handOver, hfile]
    rfl
  have hpages : pages P.data.first (P.data.last total) =
      pages P.data.first (P.data.attemptEnd total) ++
        pages (P.data.attemptEnd total + 1) (P.data.last total) :=
    pages_append (by omega) (Int.le_of_lt hq)
  rw [Progress.outlook, Progress.outlook, hbase, hpages, dump_append, hdata, last_handOver h,
    String.append_assoc]
  rfl

section Recovery

variable {env : Env} {path : String} {P P' : Progress} {job : SnapshotJob} {total : Int}
  {body : Int → String} {fuel : Nat} {w : World} {id : Nat} {a : Attempt}

/-- The same snapshot, with the same file in prospect. -/
structure SameOutlook (total : Int) (body : Int → String) (P P' : Progress) : Prop where
  id : P'.id = P.id
  url : P'.url = P.url
  filepath : snapshotFilepath P'.url P'.data = snapshotFilepath P.url P.data
  outlook : P'.outlook total body = P.outlook total body

theorem sameOutlook_of_handOver (hends : ¬ P.data.Ends total) (hid : P'.id = P.id)
    (hurl : P'.url = P.url) (hdata : P'.data = P.data.handOver total)
    (hfile : P'.file =
      some (P.base ++ dump body (pages P.data.first (P.data.attemptEnd total)))) :
    SameOutlook total body P P' :=
  ⟨hid, hurl, by rw [hurl, hdata]; rfl, outlook_of_handOver hends hdata hfile⟩

/-- A stalled attempt changes the outlook only by a late failure in `append`
mode. -/
theorem sameOutlook_of_stalled (h : Stalled env path job P P')
    (htimely : P.data.mode = .append → ¬ Late env path job P.zips) :
    SameOutlook total body P P' := by
  obtain ⟨pageno, hdata⟩ := h.data
  refine ⟨h.id, h.url, by rw [h.url, hdata]; rfl, ?_⟩
  have hbase : P'.base = P.base := by
    cases hmode : P.data.mode with
    | create =>
      simp [Progress.base, Progress.text, Progress.cleared, hdata, hmode]
    | append =>
      obtain ⟨text, htext, hlate⟩ := h.file hmode
      have hnone : text = "" := by
        by_contra hsome
        exact htimely hmode (hlate hsome)
      rw [hnone, String.append_empty] at htext
      simpa [Progress.base, Progress.text, Progress.cleared, hdata, hmode] using htext
  rw [Progress.outlook, Progress.outlook, hbase, hdata]
  rfl

theorem sameOutlook_of_raised (h : Raised env path job total body fuel P P')
    (hfilled : P.data.Filled total body)
    (htimely : P.data.mode = .append → ¬ Late env path job P.zips) :
    SameOutlook total body P P' := by
  cases h with
  | stalled _ hstalled => exact sameOutlook_of_stalled hstalled htimely
  | saved _ hends _ =>
    exact sameOutlook_of_handOver hends rfl rfl rfl (exported_file_of_filled env hfilled)
  | upload hends hupload hfails huploading =>
    obtain ⟨zips, exports, rfl⟩ := huploading
    exact sameOutlook_of_stalled
      (stalled_exported rfl rfl ⟨_, rfl⟩ rfl (.upload hupload hfails)) htimely

theorem Fills.progress (h : Fills id total body w a) (hw : w.progress id path = some P) :
    P.data.Filled total body := by
  obtain ⟨row, hrow, rfl⟩ := Option.map_eq_some_iff.mp hw
  exact h row hrow

/-- An attempt that is not the last leaves the same file in prospect. -/
theorem attempt_sameOutlook (hw : w.progress id path = some P) (hid : P.id = id)
    (hpath : snapshotFilepath P.url P.data = some path) (hserves : Serves env P.url total body)
    (hgoes : ¬ Finishes env fuel id w a) (htimely : Timely env id path w a)
    (hfilled : Fills id total body w a) :
    ∃ P', (attempt env fuel id a w).progress id path = some P' ∧ SameOutlook total body P P' := by
  have htimely' : P.data.mode = .append → ¬ Late (a.env env) path (a.job id) P.zips := by
    obtain ⟨row, hrow, rfl⟩ := Option.map_eq_some_iff.mp hw
    exact htimely row hrow
  have hfilled' := hfilled.progress hw
  obtain ⟨P₁, hP₁, ⟨_, hok, hdone⟩ | ⟨e, herror, hraised⟩⟩ :=
    (body_triple (a.env env) (a.job id) fuel hid hpath hserves).exec hw
  · have hsame : attempt env fuel id a w = (a.outcome env fuel id w).2 :=
      congrArg Prod.snd (exec_rescue_of_ok hok)
    refine ⟨P₁, by rw [hsame]; exact hP₁, ?_⟩
    -- an attempt that is through and not the last one has handed over
    have hqueue : P₁.queue ≠ P.queue := by
      intro hqueue
      refine hgoes ⟨(isOk_iff _).mpr hok, ?_⟩
      obtain ⟨row, _, rfl⟩ := Option.map_eq_some_iff.mp hw
      obtain ⟨row₁, _, rfl⟩ := Option.map_eq_some_iff.mp hP₁
      rw [hsame]
      exact hqueue
    cases hdone with
    | handedOver hends =>
      exact sameOutlook_of_handOver hends rfl rfl rfl (exported_file_of_filled (a.env env) hfilled')
    | finished _ _ => exact absurd rfl hqueue
    | uploaded _ _ _ _ => exact absurd rfl hqueue
  · have hsame : attempt env fuel id a w = ((call (.createAlert e (a.job id))).exec
        (handle (a.env env)) (a.outcome env fuel id w).2).2 :=
      congrArg Prod.snd (exec_rescue_of_error herror)
    rw [hsame]
    have hsameOutlook := sameOutlook_of_raised hraised hfilled' htimely'
    -- the alert is no part of the outlook
    obtain ⟨P₂, hP₂, ⟨_, _, rfl⟩ | ⟨_, _, _, alerts, rfl⟩⟩ := (createAlert_triple e).exec hP₁
    · exact ⟨_, hP₂, hsameOutlook.id, hsameOutlook.url, hsameOutlook.filepath, hsameOutlook.outlook⟩
    · exact ⟨_, hP₂, hsameOutlook.id, hsameOutlook.url, hsameOutlook.filepath, hsameOutlook.outlook⟩

/-- The last attempt leaves the file as it was in prospect. -/
theorem file_of_finishes (hw : w.progress id path = some P) (hid : P.id = id)
    (hpath : snapshotFilepath P.url P.data = some path) (hserves : Serves env P.url total body)
    (h : Finishes env fuel id w a) (hfilled : Fills id total body w a) :
    (attempt env fuel id a w).files path = some (P.outlook total body) := by
  obtain ⟨hok, hqueue⟩ := h
  rw [isOk_iff] at hok
  obtain ⟨P₁, hP₁, ⟨_, _, hdone⟩ | ⟨e, herror, _⟩⟩ :=
    (body_triple (a.env env) (a.job id) fuel hid hpath hserves).exec hw
  · have hsame : attempt env fuel id a w = (a.outcome env fuel id w).2 :=
      congrArg Prod.snd (exec_rescue_of_ok hok)
    have hqueue' : P₁.queue = P.queue := by
      obtain ⟨row, _, rfl⟩ := Option.map_eq_some_iff.mp hw
      obtain ⟨row₁, _, rfl⟩ := Option.map_eq_some_iff.mp hP₁
      rw [hsame] at hqueue
      exact hqueue
    have hfile : (attempt env fuel id a w).files path = P₁.file := by
      obtain ⟨row₁, _, rfl⟩ := Option.map_eq_some_iff.mp hP₁
      rw [hsame]
      rfl
    rw [hfile]
    cases hdone with
    | handedOver _ => simp at hqueue'
    | finished hends _ => exact exported_file_of_ends (a.env env) (hfilled.progress hw) hends
    | uploaded hends _ _ _ => exact exported_file_of_ends (a.env env) (hfilled.progress hw) hends
  · exact absurd (herror.symm.trans hok) (by simp)

end Recovery

/-- Failures at any steps of any number of attempts, each followed by running
the job again: as long as no attempt in `append` mode fails late, and the pages
of each fill the buffer they are written through, the file of the finished
snapshot has every page of the range once and in order. -/
theorem recovered_file_has_every_page_once {env : Env} {w : World} {id : Nat} {s : ApiSnapshot}
    {path : String} {fuel : Nat} {attempts : List Attempt} {last : Attempt}
    (hrow : w.snapshots id = some s) (hid : s.id = id)
    (hpath : snapshotFilepath s.url s.data = some path) (hserves : Serves env s.url total body)
    (hgoes : Along (attempt env fuel id) (fun w a => ¬ Finishes env fuel id w a) attempts w)
    (htimely : Along (attempt env fuel id) (Timely env id path) attempts w)
    (hfilled : Along (attempt env fuel id) (Fills id total body) (attempts ++ [last]) w)
    (hlast : Finishes env fuel id (run (attempt env fuel id) attempts w) last) :
    (run (attempt env fuel id) (attempts ++ [last]) w).files path =
      some ((if s.data.mode = .create then "" else (w.files path).getD "") ++
        dump body (pages s.data.first (s.data.last total))) := by
  obtain ⟨P, hw⟩ : ∃ P, w.progress id path = some P := by simp [World.progress, hrow]
  have hP : P.id = s.id ∧ P.url = s.url ∧ P.data = s.data ∧ P.file = w.files path := by
    obtain ⟨row, hrow', rfl⟩ := Option.map_eq_some_iff.mp hw
    obtain rfl : s = row := Option.some.inj (hrow.symm.trans hrow')
    exact ⟨rfl, rfl, rfl, rfl⟩
  obtain ⟨hPid, hPurl, hPdata, hPfile⟩ := hP
  obtain ⟨hfilled, hfilledLast, -⟩ := along_append.mp hfilled
  have hall : Along (attempt env fuel id) (fun w a =>
      ¬ Finishes env fuel id w a ∧ Timely env id path w a ∧ Fills id total body w a)
      attempts w := by
    rw [along_iff] at *
    exact fun before a after heq =>
      ⟨hgoes before a after heq, htimely before a after heq, hfilled before a after heq⟩
  have hinvariant : ∃ P', (run (attempt env fuel id) attempts w).progress id path = some P' ∧
      SameOutlook total body P P' := by
    refine invariant_along (P := fun w => ∃ P', w.progress id path = some P' ∧
      SameOutlook total body P P') ?_ ⟨P, hw, rfl, rfl, rfl, rfl⟩ hall
    rintro w' a ⟨P₁, hP₁, hsame⟩ ⟨hgoes, htimely, hfilled⟩
    obtain ⟨P₂, hP₂, hsame'⟩ := attempt_sameOutlook hP₁ (by rw [hsame.id, hPid, hid])
      (by rw [hsame.filepath, hPurl, hPdata, hpath])
      (by rw [hsame.url, hPurl]; exact hserves) hgoes htimely hfilled
    exact ⟨P₂, hP₂, hsame'.id.trans hsame.id, hsame'.url.trans hsame.url,
      hsame'.filepath.trans hsame.filepath, hsame'.outlook.trans hsame.outlook⟩
  obtain ⟨P₁, hP₁, hsame⟩ := hinvariant
  rw [run_append, run_cons, run_nil, file_of_finishes hP₁ (by rw [hsame.id, hPid, hid])
    (by rw [hsame.filepath, hPurl, hPdata, hpath]) (by rw [hsame.url, hPurl]; exact hserves) hlast
    hfilledLast, hsame.outlook]
  simp only [Progress.outlook, Progress.base, Progress.text, Progress.cleared, hPdata, hPfile]
  split <;> rfl

/-- A page of so many characters and its number. -/
def pageOfSize (n : Nat) (p : Int) : String := String.ofList (List.replicate n 'x') ++ toString p

theorem newline_notMem_pageOfSize (n : Nat) (p : Int) : '\n' ∉ (pageOfSize n p).toList := by
  rw [pageOfSize, String.toList_append, String.toList_ofList, List.mem_append]
  rintro (hx | hp)
  · exact absurd (List.eq_of_mem_replicate hx) (by decide)
  · rcases mem_toString_int hp with hdash | hdigit
    · exact absurd hdash (by decide)
    · exact absurd hdigit (by decide)

theorem le_size_pageOfSize (n : Nat) (p : Int) : n ≤ (pageOfSize n p).utf8ByteSize := by
  refine Nat.le_trans ?_ (length_le_utf8ByteSize _)
  rw [pageOfSize, String.length_append, String.length_ofList, List.length_replicate]
  exact Nat.le_add_right ..

/-- A page that does not fit into the buffer. -/
def longPage : Int → String := pageOfSize bufferSize

theorem filled_longPage {data : SnapshotData} : data.Filled total longPage :=
  filled_of_le (newline_notMem_pageOfSize _ _) (le_size_pageOfSize _ _)

/-- A server with so many pages, and nothing that fails. -/
def serving (body : Int → String) (total : Int) : Env :=
  { twoPages with
    server := fun request =>
      .json (body (request.page.getD 1)) (some (request.page.getD 1, total)) }

/-- The job runs and nothing fails. -/
def undisturbed : Attempt where
  now := 9
  faults := fun _ => none

/-- The request for a page fails. -/
def failsAtPage (page : Int) : Attempt where
  now := 9
  faults := fun r =>
    if r = .get { url := "http://alm.example.org/api/works", page := some page } then some 0
    else none

/-- The file has been written when the log of it fails. -/
def failsAtFileWriteLog : Attempt where
  now := 9
  faults := fun r =>
    if r = .createFileWriteLog { filepath := worksPath, fileType := "ApiSnapshot" } then some 0
    else none

/-- Both pages are requested in vain once, and the file has both. -/
theorem recovered_after_failed_requests :
    (run (attempt (serving longPage 2) 2 1)
      ([failsAtPage 1, undisturbed, failsAtPage 2] ++ [undisturbed])
      (worldWith (newSnapshot 1) { id := 1 })).files worksPath =
        some ("" ++ dump longPage [1, 2]) := by
  have hpages : pages (newSnapshot 1).data.first ((newSnapshot 1).data.last 2) = [1, 2] := by
    decide
  have htimely : ∀ (page : Int) (w : World),
      Timely (serving longPage 2) 1 worksPath w (failsAtPage page) := by
    intro page w s _ _ hlate
    cases hlate <;> simp_all [Attempt.env, Attempt.job, failsAtPage]
  have hcalm : ∀ w : World, Timely (serving longPage 2) 1 worksPath w undisturbed := by
    intro w s _ _ hlate
    cases hlate <;> simp_all [Attempt.env, Attempt.job, undisturbed]
  have hpath : snapshotFilepath (newSnapshot 1).url (newSnapshot 1).data = some worksPath := by
    decide +kernel
  have hgoes : Along (attempt (serving longPage 2) 2 1)
      (fun w a => ¬ Finishes (serving longPage 2) 2 1 w a)
      [failsAtPage 1, undisturbed, failsAtPage 2] (worldWith (newSnapshot 1) { id := 1 }) := by
    decide +kernel
  have hfilled : Along (attempt (serving longPage 2) 2 1) (Fills 1 2 longPage)
      ([failsAtPage 1, undisturbed, failsAtPage 2] ++ [undisturbed])
      (worldWith (newSnapshot 1) { id := 1 }) :=
    along_iff.mpr fun _ _ _ _ _ _ => filled_longPage
  have hlast : Finishes (serving longPage 2) 2 1 (run (attempt (serving longPage 2) 2 1)
      [failsAtPage 1, undisturbed, failsAtPage 2] (worldWith (newSnapshot 1) { id := 1 }))
      undisturbed := by
    decide +kernel
  have hrow : (worldWith (newSnapshot 1) { id := 1 }).snapshots 1 = some (newSnapshot 1) := rfl
  have hfile := recovered_file_has_every_page_once hrow rfl hpath (fun _ => rfl) hgoes
    ⟨htimely 1 _, hcalm _, htimely 2 _, trivial⟩ hfilled hlast
  rwa [hpages, if_pos (by decide)] at hfile

/-- A snapshot that is appended to a file from its first job on. -/
def appending : ApiSnapshot :=
  { newSnapshot 2 with data := { (newSnapshot 2).data with mode := .append } }

/-- What its job leaves, if the log fails. -/
theorem progress_after_failed_log (body : Int → String) :
    ∃ P, (attempt (serving body 1) 2 1 failsAtFileWriteLog
        (worldWith appending { id := 1 })).progress 1 worksPath = some P ∧
      P.id = 1 ∧ P.url = appending.url ∧ P.data = { appending.data with pageno := 1 } ∧
      P.file = some ("" ++ puts (Buffered.putAll bufferSize (pageTexts body [1]) {}).written) :=
  ⟨_, rfl, rfl, rfl, rfl, rfl⟩

/-- The job has appended its page when it fails, and is run again. -/
theorem failed_log_doubles_page :
    (run (attempt (serving longPage 1) 2 1) [failsAtFileWriteLog, undisturbed]
      (worldWith appending { id := 1 })).files worksPath = some ("" ++ dump longPage [1, 1]) ∧
      ¬ Finishes (serving longPage 1) 2 1 (worldWith appending { id := 1 }) failsAtFileWriteLog ∧
      Finishes (serving longPage 1) 2 1
        (attempt (serving longPage 1) 2 1 failsAtFileWriteLog (worldWith appending { id := 1 }))
        undisturbed := by
  have hfinishes : Finishes (serving longPage 1) 2 1
      (attempt (serving longPage 1) 2 1 failsAtFileWriteLog (worldWith appending { id := 1 }))
      undisturbed := by
    decide +kernel
  refine ⟨?_, by decide +kernel, hfinishes⟩
  obtain ⟨P, hw, hid, hurl, hdata, hfile⟩ := progress_after_failed_log longPage
  have hfilled : P.data.Filled 1 longPage := filled_longPage
  have hpages : pages P.data.first (P.data.attemptEnd 1) = [1] := by
    rw [hdata]
    decide
  have hends : P.data.attemptEnd 1 = P.data.last 1 := by
    rw [hdata]
    decide
  have hpath : snapshotFilepath P.url P.data = some worksPath := by
    rw [hurl, hdata]
    decide +kernel
  have hwritten := puts_written_crawled hfilled
  rw [crawled_output, hpages] at hwritten
  have hbase : P.base = "" ++ dump longPage [1] := by
    rw [Progress.base, Progress.text, Progress.cleared, if_neg (by rw [hdata]; decide), hfile,
      hwritten]
    rfl
  have hfills : Fills 1 1 longPage (attempt (serving longPage 1) 2 1 failsAtFileWriteLog
      (worldWith appending { id := 1 })) undisturbed := by
    intro s hs
    obtain ⟨row, hrow, rfl⟩ := Option.map_eq_some_iff.mp hw
    obtain rfl : row = s := Option.some.inj (hrow.symm.trans hs)
    exact hfilled
  rw [run_cons, run_cons, run_nil, file_of_finishes hw hid hpath (fun _ => rfl) hfinishes hfills,
    Progress.outlook, ← hends, hpages, hbase, String.append_assoc, ← dump_append]
  rfl

end Lagotto.Export
