/-
Lagotto.Export.IsolationTheorems — the snapshots of several endpoints, with
their jobs run side by side.

What the jobs of one snapshot may call is bounded by the snapshot's id, url
and paths (`MayCall`, `perform_obeys`), and nothing else is needed about
them: any interleaving of programs that keep to their bounds keeps the
invariant `BatchInv`, by the rule of `Interaction.Turns`. The bounds of two
snapshots do not overlap if their files have different names (`Apart`), which
is a condition on the paths of the urls, since the query is not part of the
name (`Separable`).
-/
import Mathlib.Data.List.Pairwise
import Lagotto.Interaction.Turns
import Lagotto.Export.ChainTheorems

namespace Lagotto.Export

open Text Interaction Program StateMachine

variable {env : Env} {id : Nat}

/-! ## Jobs that run side by side -/

/-- A worker starts the first job of the queue. -/
def takeJob (env : Env) (fuel : Nat) (w : World) : Option ((Nat × ExportM Unit) × World) :=
  match w.queue with
  | [] => none
  | job :: rest => some ((job.id, job.perform env fuel), { w with queue := rest })

/-- Jobs under way, each with the id of its snapshot, and the world. -/
abbrev Workers := Side Nat ExportCall (fun r => Except ExportError r.answer) ExportError World

def workersTurn (env : Env) (fuel : Nat) : Turn → Workers → Workers :=
  turn (handle env) (takeJob env fuel)

/-! ## What the jobs of one snapshot do -/

/-- A snapshot of a batch: what stays as it is while its jobs run. -/
structure Member where
  id : Nat
  url : String
  path : Option String
  deriving DecidableEq, Repr

/-- Text made of pages that were served for an address. They are whole, unless
some call fails. An empty line is what is copied of a temporary file whose
pages all wait in its buffer. -/
inductive OwnPages (env : Env) (url : String) : String → Prop where
  | nothing : OwnPages env url ""
  | emptyLine {text : String} (h : OwnPages env url text) : OwnPages env url (text ++ "\n")
  | page {text line : String} {page : Option Int} {paging : Option (Int × Int)}
      (h : OwnPages env url text)
      (hserved : env.server { url := crawlerUrl url, page := page } = .json line paging) :
      OwnPages env url (text ++ puts (withoutNewlines line))
  | broken {text line : String} {page : Option Int} {paging : Option (Int × Int)}
      (h : OwnPages env url text)
      (hserved : env.server { url := crawlerUrl url, page := page } = .json line paging)
      (hfault : env.Faulty) (written : Nat) :
      OwnPages env url (text ++ String.ofList ((puts (withoutNewlines line)).toList.take written))

/-- Own pages, one after the other, are own pages. -/
theorem OwnPages.append {url text more : String} (h : OwnPages env url text)
    (hmore : OwnPages env url more) : OwnPages env url (text ++ more) := by
  induction hmore with
  | nothing => rwa [String.append_empty]
  | emptyLine _ ih =>
    rw [← String.append_assoc]
    exact .emptyLine ih
  | page _ hserved ih =>
    rw [← String.append_assoc]
    exact .page ih hserved
  | broken _ hserved hfault written ih =>
    rw [← String.append_assoc]
    exact .broken ih hserved hfault written

/-- An append that stops early leaves pages too. -/
theorem OwnPages.take {url text : String} (h : OwnPages env url text) (hfault : env.Faulty)
    (written : Nat) :
    OwnPages env url (String.ofList (text.toList.take written)) := by
  induction h with
  | nothing => simpa using OwnPages.nothing
  | @emptyLine text h ih =>
    by_cases hn : written ≤ text.toList.length
    · rwa [String.toList_append, List.take_append_of_le_length hn]
    · have hline : "\n".toList.length ≤ written - text.toList.length := by
        rw [show "\n".toList = ['\n'] from rfl, List.length_singleton]
        omega
      rw [String.toList_append, List.take_append, List.take_of_length_le (by omega),
        List.take_of_length_le hline, String.ofList_append, String.ofList_toList,
        String.ofList_toList]
      exact .emptyLine h
  | @page text line _ _ h hserved ih =>
    by_cases hn : written ≤ text.toList.length
    · rwa [String.toList_append, List.take_append_of_le_length hn]
    · rw [String.toList_append, List.take_append, List.take_of_length_le (by omega),
        String.ofList_append, String.ofList_toList]
      exact .broken h hserved hfault _
  | @broken text line _ _ h hserved _ n ih =>
    by_cases hn : written ≤ text.toList.length
    · rwa [String.toList_append, List.take_append_of_le_length hn]
    · rw [String.toList_append, List.take_append, List.take_of_length_le (by omega),
        String.ofList_append, String.ofList_toList, String.toList_ofList, List.take_take]
      exact .broken h hserved hfault _

/-- A text the crawler puts when the server answers for the address. -/
def ServedText (env : Env) (url text : String) : Prop :=
  ∃ page line paging, env.server { url := crawlerUrl url, page := page } = .json line paging ∧
    withoutNewlines line = text

theorem OwnPages.lines {url : String} {texts : List String}
    (h : ∀ text ∈ texts, ServedText env url text) : OwnPages env url (Text.lines texts) := by
  induction texts with
  | nil => exact .nothing
  | cons text rest ih =>
    obtain ⟨page, line, paging, hserved, rfl⟩ := h text List.mem_cons_self
    have hfirst : OwnPages env url ("" ++ puts (withoutNewlines line)) := .page .nothing hserved
    rw [String.empty_append] at hfirst
    exact hfirst.append (ih fun t ht => h t (List.mem_cons_of_mem _ ht))

/-- The calls a job of the snapshot makes. -/
def MayCall (env : Env) (m : Member) : ExportCall → Prop
  | .createSnapshot _ _ => False
  | .findSnapshot id => id = m.id
  | .touch id _ => id = m.id
  | .saveData id data => id = m.id ∧ snapshotFilepath m.url data = m.path
  | .rm other => ∃ path, m.path = some path ∧ (other = path ∨ other = path ++ ".benchmark")
  | .append other text => ∃ path, m.path = some path ∧
      (other = path ∧ OwnPages env m.url text ∨ other = path ++ ".benchmark")
  | .performLater job => job.id = m.id
  | .addToZip zip _ _ => ∃ path, m.path = some path ∧ zip = zipFilepath path
  | _ => True

/-- A record of the snapshot. -/
structure Member.Owns (m : Member) (s : ApiSnapshot) : Prop where
  id : s.id = m.id
  url : s.url = m.url
  path : snapshotFilepath s.url s.data = m.path

theorem Member.Owns.touch {m : Member} {s : ApiSnapshot} (h : m.Owns s) (stamp : Stamp)
    (now : Time) : m.Owns (s.touch stamp now) := by
  cases stamp <;> exact ⟨h.id, h.url, h.path⟩

/-- What it relies on: its record, and what the server answers. -/
def Relies (env : Env) (m : Member) : (r : ExportCall) → Except ExportError r.answer → Prop
  | .findSnapshot _, .ok s => m.Owns s
  | .get request, .ok body => body = env.server request
  | _, _ => True

section Job

variable {m : Member} {s : ApiSnapshot}

/-- A call whose answer does not matter. -/
theorem call_obeys {r : ExportCall} (hr : MayCall env m r) :
    (call r).Obeys (Relies env m) (MayCall env m) (fun _ => True) :=
  obeys_raising hr fun _ _ => trivial

theorem touchStarted_obeys (hid : s.id = m.id) :
    s.touchStarted.Obeys (Relies env m) (MayCall env m) (fun _ => True) := by
  unfold ApiSnapshot.touchStarted
  split
  · exact call_obeys hid
  · trivial

theorem makeDir_obeys : s.makeDir.Obeys (Relies env m) (MayCall env m) (fun _ => True) := by
  refine obeys_bind (call_obeys (r := .dirExists _) trivial) fun present _ => ?_
  cases present with
  | true => trivial
  | false => exact call_obeys trivial

theorem removeOld_obeys {path : String} (h : MayCall env m (.rm path)) :
    (s.removeOld path).Obeys (Relies env m) (MayCall env m) (fun _ => True) := by
  unfold ApiSnapshot.removeOld
  split
  · refine obeys_bind (call_obeys (r := .fileExists _) trivial) fun present _ => ?_
    cases present with
    | true => exact call_obeys h
    | false => trivial
  · trivial

theorem openBenchmark_obeys {path : String} (hpath : m.path = some path) :
    (s.openBenchmark path).Obeys (Relies env m) (MayCall env m)
      (fun benchmark => ∀ other, benchmark = some other → other = path ++ ".benchmark") := by
  unfold ApiSnapshot.openBenchmark
  split
  · refine obeys_bind (removeOld_obeys ⟨path, hpath, Or.inr rfl⟩) fun _ _ => ?_
    refine obeys_bind (call_obeys ⟨path, hpath, Or.inr rfl⟩) fun _ _ => ?_
    rintro other h
    exact (Option.some.inj h).symm
  · rintro other h
    cases h

/-- The preparation touches the files of its own snapshot. -/
theorem prepare_obeys (hid : s.id = m.id) (hpath : snapshotFilepath s.url s.data = m.path) :
    s.prepare.Obeys (Relies env m) (MayCall env m)
      (fun files => m.path = some files.1 ∧
        ∀ other, files.2 = some other → other = files.1 ++ ".benchmark") := by
  refine obeys_bind (touchStarted_obeys hid) fun _ _ => ?_
  refine obeys_bind makeDir_obeys fun _ _ => ?_
  split
  · trivial
  next path hsome =>
    have hown : m.path = some path := hpath.symm.trans hsome
    refine obeys_bind (removeOld_obeys ⟨path, hown, Or.inl rfl⟩) fun _ _ => ?_
    refine obeys_bind (openBenchmark_obeys hown) fun benchmark hbenchmark => ?_
    exact obeys_bind (call_obeys trivial) fun _ _ => ⟨hown, hbenchmark⟩

/-- What a crawler has put into its temporary file: pages of the address. -/
def Crawler.Own (env : Env) (m : Member) (c : Crawler) : Prop :=
  ∃ texts, c.output = Buffered.putAll bufferSize texts {} ∧
    ∀ text ∈ texts, ServedText env m.url text

/-- A page that is processed is one of the own address. -/
theorem process_own {c c' : Crawler} {page : Option Int} (hc : c.Own env m)
    (h : c.process (env.server { url := crawlerUrl m.url, page := page }) = .ok c') :
    c'.Own env m := by
  obtain ⟨texts, houtput, htexts⟩ := hc
  unfold Crawler.process at h
  split at h
  · cases h
  · cases h
  next line paging hserved =>
    have hown : ∀ text ∈ texts ++ [withoutNewlines line], ServedText env m.url text := by
      intro text htext
      rcases List.mem_append.mp htext with hold | hnew
      · exact htexts text hold
      · rw [List.mem_singleton.mp hnew]
        exact ⟨page, line, paging, hserved, rfl⟩
    have hputs : c.output.puts bufferSize (withoutNewlines line) =
        Buffered.putAll bufferSize (texts ++ [withoutNewlines line]) {} := by
      rw [houtput, Buffered.putAll_concat]
    split at h
    · cases h
      exact ⟨_, hputs, hown⟩
    · cases h
      exact ⟨_, hputs, hown⟩

/-- What is copied of it. -/
theorem Crawler.Own.puts_written {c : Crawler} (hc : c.Own env m) :
    OwnPages env m.url (puts c.output.written) := by
  obtain ⟨texts, houtput, htexts⟩ := hc
  have hends : ∀ text ∈ texts, text.toList.getLast? ≠ some '\n' := by
    intro text htext
    obtain ⟨_, line, _, _, rfl⟩ := htexts text htext
    exact getLast?_withoutNewlines line
  rw [houtput]
  obtain ⟨whole, rest, rfl, hwhole | hnone⟩ :=
    Buffered.puts_written_cases (show 0 < bufferSize by decide) hends
  · rw [hwhole]
    exact .lines fun text htext => htexts text (List.mem_append_left _ htext)
  · rw [hnone, ← String.empty_append (s := "\n")]
    exact .emptyLine .nothing

theorem report_obeys {path : String} {benchmark : Option String} (hpath : m.path = some path)
    (hbenchmark : ∀ other, benchmark = some other → other = path ++ ".benchmark")
    (request : Request) :
    (report env request benchmark).Obeys (Relies env m) (MayCall env m) (fun _ => True) := by
  cases benchmark with
  | none => trivial
  | some other => exact call_obeys ⟨path, hpath, Or.inr (hbenchmark other rfl)⟩

/-- The crawl asks its own address only. -/
theorem crawlFrom_obeys {path : String} {benchmark : Option String} {data : SnapshotData}
    (hpath : m.path = some path)
    (hbenchmark : ∀ other, benchmark = some other → other = path ++ ".benchmark")
    (fuel : Nat) (page : Option Int) {c : Crawler} (hc : c.Own env m) :
    (crawlFrom env (crawlerUrl m.url) data benchmark fuel page c).Obeys (Relies env m)
      (MayCall env m) (fun c' => c'.Own env m) := by
  induction fuel generalizing page c with
  | zero => trivial
  | succ fuel ih =>
    unfold crawlFrom
    refine obeys_bind (R := fun body => body = env.server ⟨crawlerUrl m.url, page⟩)
      (obeys_raising trivial fun _ hbody => hbody) ?_
    rintro _ rfl
    cases hprocess : c.process (env.server ⟨crawlerUrl m.url, page⟩) with
    | error e => trivial
    | ok c' =>
      have hown := process_own hc hprocess
      refine obeys_bind (R := fun x => x = c') rfl ?_
      rintro _ rfl
      refine obeys_bind (report_obeys hpath hbenchmark _) fun _ _ => ?_
      split
      · exact ih _ hown
      · exact hown

/-- What is stored goes to the own file and record. -/
theorem store_obeys {path : String} {c : Crawler} (hid : s.id = m.id) (hurl : s.url = m.url)
    (hdata : snapshotFilepath s.url s.data = m.path) (hpath : m.path = some path)
    (hc : c.Own env m) :
    (s.store path c).Obeys (Relies env m) (MayCall env m) (fun _ => True) := by
  unfold ApiSnapshot.store
  rw [hurl] at hdata
  refine obeys_bind (call_obeys ⟨hid, hdata⟩) fun _ _ => ?_
  refine obeys_bind (call_obeys ⟨path, hpath, Or.inl ⟨rfl, hc.puts_written⟩⟩) fun _ _ => ?_
  refine obeys_bind (call_obeys trivial) fun _ _ => ?_
  split
  · exact call_obeys hid
  · trivial

/-- One snapshot keeps to its own record, file and address. -/
theorem snapshot_obeys (fuel : Nat) (hid : s.id = m.id) (hurl : s.url = m.url)
    (hdata : snapshotFilepath s.url s.data = m.path) :
    (s.snapshot env fuel).Obeys (Relies env m) (MayCall env m)
      (fun result => m.path = some result.1) := by
  refine obeys_rescue ?_ fun e => obeys_bind (call_obeys hid) fun _ _ => trivial
  refine obeys_bind (prepare_obeys hid hdata) ?_
  rintro ⟨path, benchmark⟩ ⟨hpath, hbenchmark⟩
  simp only [crawl, hurl]
  refine obeys_bind (crawlFrom_obeys hpath hbenchmark fuel _ ⟨[], rfl, by simp⟩) ?_
  intro c hc
  exact obeys_bind (store_obeys hid hurl hdata hpath hc) fun _ _ => hpath

/-- The upload reads the own file. -/
theorem upload_obeys {path : String} (hpath : m.path = some path) :
    ((zip path).bind fun _ => exportToZenodo env s path).Obeys (Relies env m) (MayCall env m)
      (fun _ => True) := by
  refine obeys_bind (R := fun _ => True) ?_ fun _ _ => ?_
  · unfold zip
    refine obeys_bind (call_obeys trivial) fun _ _ => ?_
    refine obeys_bind (call_obeys ⟨path, hpath, rfl⟩) fun _ _ => ?_
    refine obeys_bind (call_obeys trivial) fun _ _ => ?_
    generalize (zipFilepath path).toList.head? = first
    split <;> trivial
  · exact obeys_bind (call_obeys trivial) fun _ _ => call_obeys trivial

/-- A job keeps to the calls of its snapshot. -/
theorem perform_obeys (job : SnapshotJob) (fuel : Nat) (hid : job.id = m.id) :
    (job.perform env fuel).Obeys (Relies env m) (MayCall env m) (fun _ => True) := by
  refine obeys_rescue ?_ fun e => call_obeys trivial
  refine obeys_bind (R := m.Owns)
    (obeys_raising (r := ExportCall.findSnapshot job.id) hid fun _ h => h) ?_
  rintro s ⟨hs, hurl, hdata⟩
  refine obeys_bind (snapshot_obeys fuel hs hurl hdata) ?_
  rintro ⟨path, c⟩ hpath
  show (job.proceed env s path c).Obeys _ _ _
  unfold SnapshotJob.proceed
  split
  · rw [hurl] at hdata
    exact obeys_bind (call_obeys ⟨hs, hdata⟩) fun _ _ => call_obeys hs
  · split
    · exact upload_obeys hpath
    · trivial

end Job

/-! ## A batch -/

/-- The snapshots of a batch have records and files of their own. -/
structure Apart (members : List Member) : Prop where
  ids : ∀ m ∈ members, ∀ other ∈ members, other.id = m.id → other = m
  paths : ∀ m ∈ members, ∀ other ∈ members, other ≠ m → ∀ path otherPath,
    m.path = some path → other.path = some otherPath →
      path ≠ otherPath ∧ path ++ ".benchmark" ≠ otherPath

/-- The records are there, the files hold pages of their own address, and the
jobs that wait are those of the batch. -/
structure BatchInv (env : Env) (members : List Member) (w : World) : Prop where
  rows : ∀ m ∈ members, ∃ s, w.snapshots m.id = some s ∧ m.Owns s
  files : ∀ m ∈ members, ∀ path text, m.path = some path → w.files path = some text →
    OwnPages env m.url text
  queue : ∀ job ∈ w.queue, ∃ m ∈ members, m.id = job.id

section Batch

variable {members : List Member} {w : World} {m : Member} {r : ExportCall}

/-- Only `rm` and `append` change files. -/
theorem files_effect (hrm : ∀ path, r ≠ .rm path) (happend : ∀ path text, r ≠ .append path text) :
    (effect env r w).2.files = w.files := by
  cases r with
  | rm path => exact absurd rfl (hrm path)
  | append path text => exact absurd rfl (happend path text)
  | createSnapshot | addToZip | createZenodoDataExport =>
    simp only [effect]
    split <;> rfl
  | _ => rfl

/-- Only these write to the records. -/
theorem snapshots_effect (hcreate : ∀ url data, r ≠ .createSnapshot url data)
    (htouch : ∀ id stamp, r ≠ .touch id stamp) (hsave : ∀ id data, r ≠ .saveData id data) :
    (effect env r w).2.snapshots = w.snapshots := by
  cases r with
  | createSnapshot url data => exact absurd rfl (hcreate url data)
  | touch id stamp => exact absurd rfl (htouch id stamp)
  | saveData id data => exact absurd rfl (hsave id data)
  | rm | addToZip | createZenodoDataExport =>
    simp only [effect]
    split <;> rfl
  | _ => rfl

/-- Only `perform_later` changes the queue. -/
theorem queue_effect (hlater : ∀ job, r ≠ .performLater job) :
    (effect env r w).2.queue = w.queue := by
  cases r with
  | performLater job => exact absurd rfl (hlater job)
  | createSnapshot | rm | addToZip | createZenodoDataExport =>
    simp only [effect]
    split <;> rfl
  | _ => rfl

/-- The file of another snapshot is left alone. -/
theorem files_effect_of_ne (hapart : Apart members) (hm : m ∈ members)
    (hr : MayCall env m r) {other : Member} (hother : other ∈ members) (hne : other ≠ m)
    {otherPath : String} (hpath : other.path = some otherPath) :
    (effect env r w).2.files otherPath = w.files otherPath := by
  cases r with
  | rm target =>
    obtain ⟨path, hown, htarget⟩ := hr
    obtain ⟨h₁, h₂⟩ := hapart.paths m hm other hother hne path otherPath hown hpath
    have hdiff : otherPath ≠ target := by
      rcases htarget with rfl | rfl
      · exact h₁.symm
      · exact h₂.symm
    simp only [effect]
    split
    · rfl
    · exact Function.update_of_ne hdiff _ _
  | append target text =>
    obtain ⟨path, hown, htarget⟩ := hr
    obtain ⟨h₁, h₂⟩ := hapart.paths m hm other hother hne path otherPath hown hpath
    have hdiff : otherPath ≠ target := by
      rcases htarget with ⟨rfl, _⟩ | rfl
      · exact h₁.symm
      · exact h₂.symm
    exact Function.update_of_ne hdiff _ _
  | _ => rw [files_effect (by simp) (by simp)]

/-- The file of the snapshot itself gains pages of its own or goes. -/
theorem ownPages_effect (hr : MayCall env m r) {path text : String} (hpath : m.path = some path)
    (hbefore : ∀ text, w.files path = some text → OwnPages env m.url text)
    (hafter : (effect env r w).2.files path = some text) : OwnPages env m.url text := by
  cases r with
  | rm target =>
    simp only [effect] at hafter
    split at hafter
    · exact hbefore text hafter
    · by_cases htarget : path = target
      · subst htarget
        simp [Function.update_self] at hafter
      · exact hbefore text (by simpa [Function.update_of_ne htarget] using hafter)
  | append target more =>
    obtain ⟨path', hpath', htarget⟩ := hr
    obtain rfl : path = path' := Option.some.inj (hpath.symm.trans hpath')
    rcases htarget with ⟨rfl, hmore⟩ | rfl
    · have htext : text = (w.files target).getD "" ++ more := by
        simpa [effect, World.appendTo, eq_comm] using hafter
      have hold : OwnPages env m.url ((w.files target).getD "") := by
        cases hfile : w.files target with
        | none => exact .nothing
        | some old => exact hbefore old hfile
      rw [htext]
      exact hold.append hmore
    · have hne : path ≠ path ++ ".benchmark" := (append_benchmark_ne path).symm
      exact hbefore text (by simpa [effect, World.appendTo, Function.update_of_ne hne] using hafter)
  | _ =>
    rw [files_effect (by simp) (by simp)] at hafter
    exact hbefore text hafter

theorem World.snapshots_updateSnapshot {f : ApiSnapshot → ApiSnapshot} {i : Nat} {s : ApiSnapshot}
    (hs : w.snapshots i = some s) (id : Nat) :
    (w.updateSnapshot id f).snapshots i = some (if i = id then f s else s) := by
  show Function.update w.snapshots id ((w.snapshots id).map f) i = _
  by_cases h : i = id
  · subst h
    rw [if_pos rfl, Function.update_self, hs, Option.map_some]
  · rw [if_neg h, Function.update_of_ne h, hs]

/-- The records keep what their files are named after. -/
theorem rows_effect (hapart : Apart members) (hm : m ∈ members) (hr : MayCall env m r)
    {other : Member} (hother : other ∈ members) {s : ApiSnapshot}
    (hs : w.snapshots other.id = some s) (hown : other.Owns s) :
    ∃ s, (effect env r w).2.snapshots other.id = some s ∧ other.Owns s := by
  cases r with
  | createSnapshot url data => exact hr.elim
  | touch id stamp =>
    refine ⟨_, World.snapshots_updateSnapshot hs id, ?_⟩
    split
    · exact hown.touch stamp env.now
    · exact hown
  | saveData id data =>
    refine ⟨_, World.snapshots_updateSnapshot hs id, ?_⟩
    obtain ⟨rfl, hpath⟩ := hr
    split
    next hid =>
      obtain rfl := hapart.ids m hm other hother hid
      exact ⟨hown.id, hown.url, by rwa [hown.url]⟩
    · exact hown
  | _ => exact ⟨s, by rw [snapshots_effect (by simp) (by simp) (by simp), hs], hown⟩

/-- What is left of a call that fails is left by some call of the snapshot. -/
theorem handle_cases (hr : MayCall env m r) :
    (handle env r w).2 = w ∨
      ∃ r', MayCall env m r' ∧ (handle env r w).2 = (effect env r' w).2 := by
  unfold handle
  split
  · exact Or.inr ⟨r, hr, rfl⟩
  next written hfault =>
    have hfaulty : env.Faulty := ⟨r, by simp [hfault]⟩
    cases r with
    | append other text =>
      obtain ⟨path, hpath, hother⟩ := hr
      refine Or.inr ⟨.append other (String.ofList (text.toList.take written)),
        ⟨path, hpath, ?_⟩, rfl⟩
      rcases hother with ⟨rfl, hown⟩ | rfl
      · exact Or.inl ⟨rfl, hown.take hfaulty written⟩
      · exact Or.inr rfl
    | _ =>
      simp only [remains]
      split
      · exact Or.inl rfl
      · exact Or.inr ⟨_, hr, rfl⟩

/-- A call of one member keeps the batch in order. -/
theorem BatchInv.effect (hapart : Apart members) (hm : m ∈ members) (hr : MayCall env m r)
    (h : BatchInv env members w) : BatchInv env members (effect env r w).2 where
  rows := by
    intro other hother
    obtain ⟨s, hs, hown⟩ := h.rows other hother
    exact rows_effect hapart hm hr hother hs hown
  files := by
    intro other hother path text hpath htext
    by_cases hne : other = m
    · subst hne
      exact ownPages_effect hr hpath (fun text => h.files other hother path text hpath) htext
    · rw [files_effect_of_ne hapart hm hr hother hne hpath] at htext
      exact h.files other hother path text hpath htext
  queue := by
    cases r with
    | performLater job =>
      intro waiting hwaiting
      rcases List.mem_append.mp hwaiting with hwaiting | hwaiting
      · exact h.queue waiting hwaiting
      · rw [List.mem_singleton.mp hwaiting]
        exact ⟨m, hm, hr.symm⟩
    | _ =>
      rw [queue_effect (by simp)]
      exact h.queue

theorem BatchInv.handle (hapart : Apart members) (hm : m ∈ members) (hr : MayCall env m r)
    (h : BatchInv env members w) : BatchInv env members (handle env r w).2 := by
  rcases handle_cases (w := w) hr with heq | ⟨r', hr', heq⟩
  · rwa [heq]
  · rw [heq]
    exact h.effect hapart hm hr'

/-- In a batch in order every member gets the answers it relies on. -/
theorem BatchInv.relies (hm : m ∈ members) (hr : MayCall env m r)
    (h : BatchInv env members w) : Relies env m r (Export.handle env r w).1 := by
  unfold Export.handle
  split
  · cases r with
    | findSnapshot id =>
      obtain rfl : id = m.id := hr
      obtain ⟨s, hs, hown⟩ := h.rows m hm
      simp only [Export.effect, hs]
      exact hown
    | get request => exact rfl
    | _ => simp only [Relies]
  · cases r <;> exact trivial

/-- The calls of the snapshot with this id. -/
def CallOf (env : Env) (members : List Member) (id : Nat) (r : ExportCall) : Prop :=
  ∃ m ∈ members, m.id = id ∧ MayCall env m r

def ReliesAs (env : Env) (members : List Member) (id : Nat) (r : ExportCall)
    (x : Except ExportError r.answer) : Prop :=
  ∀ m ∈ members, m.id = id → Relies env m r x

variable (env) in
/-- Jobs of snapshots with files of their own do not get into each other's
way. -/
theorem discipline (hapart : Apart members) (fuel : Nat) :
    Discipline (Export.handle env) (takeJob env fuel) (BatchInv env members)
      (ReliesAs env members) (CallOf env members) where
  kept := by
    rintro id r w h ⟨m, hm, _, hr⟩
    exact h.handle hapart hm hr
  answered := by
    rintro id r w h ⟨m, hm, rfl, hr⟩ other hother hid
    rw [hapart.ids m hm other hother hid]
    exact h.relies hm hr
  started := by
    intro w process w' h htake
    unfold takeJob at htake
    split at htake
    · cases htake
    next job rest hqueue =>
      cases htake
      obtain ⟨m, hm, hid⟩ := h.queue job (hqueue ▸ List.mem_cons_self)
      refine ⟨⟨h.rows, h.files, fun other hother =>
        h.queue other (hqueue ▸ List.mem_cons_of_mem _ hother)⟩, ?_⟩
      exact obeys_mono (perform_obeys job fuel hid.symm) (fun r x hx => hx m hm hid)
        (fun r hr => ⟨m, hm, hid, hr⟩) (fun _ _ => trivial)

end Batch

/-! ## The snapshots of one call of `snapshot_later` -/

/-- The snapshots it makes, from the next id on. -/
def batch (env : Env) (options : SnapshotOptions) : Nat → List String → List Member
  | _, [] => []
  | id, endpoint :: rest =>
    { id := id, url := options.url endpoint
      path := snapshotFilepath (options.url endpoint) (options.data env) } ::
      batch env options (id + 1) rest

/-- The name of the file, without date and extension. -/
def fileName (url : String) : Option (List Char) := (uriPath url.toList).map rewrite

/-- Endpoints whose files can be told apart. -/
structure Separable (env : Env) (options : SnapshotOptions) (endpoints : List String) : Prop where
  /-- The paths, as they are rewritten to names, are pairwise different. -/
  names : (endpoints.map options.url).Pairwise fun url other =>
    (fileName url).isSome → fileName url ≠ fileName other
  /-- They are names. -/
  proper : ∀ url ∈ endpoints.map options.url, ∀ name ∈ fileName url, ProperName name
  /-- The extension is not part of them. -/
  noExt : ∀ url ∈ endpoints.map options.url, ∀ name ∈ fileName url,
    ¬ ('.' :: (options.data env).filenameExt.toList) <:+: name ++ '_' :: env.today.toList
  ext : (options.data env).filenameExt.toList ≠ []
  extPlain : ∀ c ∈ (options.data env).filenameExt.toList, c ≠ '.' ∧ c ≠ '/'
  datePlain : ∀ c ∈ env.today.toList, c ≠ '.' ∧ c ≠ '/'

section Paths

variable {options : SnapshotOptions} {endpoints : List String} {url : String}
  {name : List Char}

theorem slash_notMem_rewrite (path : List Char) : '/' ∉ rewrite path := by
  intro h
  obtain ⟨c, _, hc⟩ := List.mem_map.mp h
  split at hc
  · cases hc
  next hne => exact hne hc

/-- The file lies in the directory under a name with date and extension. -/
theorem snapshotFilepath_of_proper {data : SnapshotData} (hname : fileName url = some name)
    (hproper : ProperName name) :
    snapshotFilepath url data = some (String.ofList (trimmed data.snapshotDir.toList ++
      '/' :: (name ++ '_' :: data.snapshotDate.toList ++ '.' :: data.filenameExt.toList))) := by
  obtain ⟨path, hpath, rfl⟩ := Option.map_eq_some_iff.mp hname
  rw [snapshotFilepath, hpath, Option.map_some, joinPath_of_proper hproper]
  simp

/-- The archive of such a file lies beside it. -/
theorem zipFilepath_of_proper {dir date ext : List Char} (hslash : '/' ∉ name)
    (hext : ext ≠ []) (hextPlain : ∀ c ∈ ext, c ≠ '.' ∧ c ≠ '/')
    (hdate : ∀ c ∈ date, c ≠ '.' ∧ c ≠ '/') (hno : ¬ ('.' :: ext) <:+: name ++ '_' :: date) :
    zipFilepath (String.ofList (dir ++ '/' :: (name ++ '_' :: date ++ '.' :: ext))) =
      String.ofList (trimmed (dirname (dir ++ ['/'])) ++
        '/' :: (name ++ '_' :: date ++ ".zip".toList)) := by
  have hbase : '/' ∉ name ++ '_' :: date ++ '.' :: ext := by
    simp only [List.mem_append, List.mem_cons, not_or]
    exact ⟨⟨hslash, by decide, fun h => (hdate _ h).2 rfl⟩, by decide,
      fun h => (hextPlain _ h).2 rfl⟩
  have hdot : '.' ∉ ext := fun h => (hextPlain _ h).1 rfl
  have hproper : ProperName (name ++ '_' :: date ++ ".zip".toList) := by
    have hz : 'z' ∈ name ++ '_' :: date ++ ".zip".toList := by simp
    refine ⟨fun h => ?_, fun h => ?_, fun h => ?_⟩ <;>
    · rw [h] at hz
      revert hz
      decide
  rw [zipFilepath, String.toList_ofList, basename_append hbase,
    extname_append hext hdot ⟨'_', by simp, by decide⟩, removeFirst_append hdot hno,
    dirname_append hbase List.not_mem_nil, joinPath_of_proper hproper]

theorem Separable.path (h : Separable env options endpoints)
    (hurl : url ∈ endpoints.map options.url) {path : String}
    (hpath : snapshotFilepath url (options.data env) = some path) :
    ∃ name, fileName url = some name ∧ '/' ∉ name ∧
      path = String.ofList (trimmed (options.data env).snapshotDir.toList ++ '/' ::
        (name ++ '_' :: env.today.toList ++ '.' :: (options.data env).filenameExt.toList)) := by
  obtain ⟨uri, huri, _⟩ := Option.map_eq_some_iff.mp hpath
  have hname : fileName url = some (rewrite uri) := by rw [fileName, huri, Option.map_some]
  refine ⟨_, hname, slash_notMem_rewrite uri, ?_⟩
  rw [snapshotFilepath_of_proper hname (h.proper url hurl _ hname)] at hpath
  exact (Option.some.inj hpath).symm

/-- Where the files end alike, they differ by the names they start with. -/
theorem append_benchmark_ne_of_plain {name other date ext : List Char}
    (hdate : ∀ c ∈ date, c ≠ '.' ∧ c ≠ '/') (hext : ∀ c ∈ ext, c ≠ '.' ∧ c ≠ '/') :
    name ++ '_' :: date ++ '.' :: ext ++ ".benchmark".toList ≠
      other ++ '_' :: date ++ '.' :: ext := by
  intro heq
  have hdot : '.' ∉ ext := fun h => (hext _ h).1 rfl
  -- the extension would be `benchmark`, and the date would end in it once more
  have hbenchmark : '.' ∉ "benchmark".toList := by decide
  obtain ⟨hstem, rfl⟩ := append_dot_inj hbenchmark hdot heq
  rcases List.append_eq_append_iff.mp hstem with ⟨more, _, hmore⟩ | ⟨more, _, hmore⟩
  · have hmem : '_' ∈ '.' :: "benchmark".toList := by
      rw [hmore]
      simp
    revert hmem
    decide
  · have hmem : '.' ∈ '_' :: date := by
      rw [hmore]
      simp
    rcases List.mem_cons.mp hmem with h | h
    · cases h
    · exact (hdate _ h).1 rfl

end Paths

section SnapshotLater

variable {options : SnapshotOptions} {endpoints : List String} {m other : Member}

theorem mem_batch (hm : m ∈ batch env options id endpoints) :
    id ≤ m.id ∧ m.url ∈ endpoints.map options.url ∧
      m.path = snapshotFilepath m.url (options.data env) := by
  induction endpoints generalizing id with
  | nil => cases hm
  | cons endpoint rest ih =>
    rcases List.mem_cons.mp hm with rfl | hm
    · exact ⟨le_rfl, List.mem_cons_self, rfl⟩
    · obtain ⟨hid, hurl, hpath⟩ := ih hm
      exact ⟨by omega, List.mem_cons_of_mem _ hurl, hpath⟩

/-- Two snapshots with names and ids of their own. -/
def Differ (m other : Member) : Prop :=
  m.id ≠ other.id ∧ ((fileName m.url).isSome → fileName m.url ≠ fileName other.url)

/-- Different file names make different members. -/
theorem Separable.differ (h : (endpoints.map options.url).Pairwise fun url other =>
      (fileName url).isSome → fileName url ≠ fileName other) :
    (batch env options id endpoints).Pairwise Differ := by
  induction endpoints generalizing id with
  | nil => exact .nil
  | cons endpoint rest ih =>
    obtain ⟨hhead, htail⟩ := List.pairwise_cons.mp h
    refine .cons (fun m hm => ?_) (ih htail)
    obtain ⟨hid, hurl, _⟩ := mem_batch hm
    exact ⟨Nat.ne_of_lt hid, hhead _ hurl⟩

theorem differ_of_ne (h : Separable env options endpoints) (hm : m ∈ batch env options id endpoints)
    (hother : other ∈ batch env options id endpoints) (hne : m ≠ other) : Differ m other := by
  have : Std.Symm Differ :=
    ⟨fun _ _ h => ⟨h.1.symm, fun hsome heq => h.2 (heq ▸ hsome) heq.symm⟩⟩
  exact (Separable.differ h.names).forall hm hother hne

/-- Different snapshots have different files, benchmark files and archives. -/
theorem Separable.paths (h : Separable env options endpoints)
    (hm : m ∈ batch env options id endpoints) (hother : other ∈ batch env options id endpoints)
    (hne : m ≠ other) {path otherPath : String} (hpath : m.path = some path)
    (hotherPath : other.path = some otherPath) :
    path ≠ otherPath ∧ path ++ ".benchmark" ≠ otherPath ∧
      zipFilepath path ≠ zipFilepath otherPath := by
  obtain ⟨_, hurl, hown⟩ := mem_batch hm
  obtain ⟨_, hurl', hown'⟩ := mem_batch hother
  obtain ⟨name, hname, hslash, rfl⟩ := h.path hurl (hown ▸ hpath)
  obtain ⟨name', hname', hslash', rfl⟩ := h.path hurl' (hown' ▸ hotherPath)
  have hdiffer : name ≠ name' := by
    rintro rfl
    exact (differ_of_ne h hm hother hne).2 (by rw [hname]; rfl) (hname.trans hname'.symm)
  refine ⟨fun heq => ?_, fun heq => ?_, fun heq => ?_⟩
  · have hlist := congrArg String.toList heq
    simp only [String.toList_ofList, List.append_assoc, List.append_cancel_left_eq,
      List.cons.injEq, true_and, List.append_cancel_right_eq] at hlist
    exact hdiffer hlist
  · have hlist := congrArg String.toList heq
    simp only [String.toList_append, String.toList_ofList] at hlist
    rw [List.append_assoc, List.append_cancel_left_eq, List.cons_append, List.cons.injEq] at hlist
    exact append_benchmark_ne_of_plain h.datePlain h.extPlain hlist.2
  · rw [zipFilepath_of_proper hslash h.ext h.extPlain h.datePlain (h.noExt _ hurl _ hname),
      zipFilepath_of_proper hslash' h.ext h.extPlain h.datePlain (h.noExt _ hurl' _ hname')] at heq
    have hlist := congrArg String.toList heq
    simp only [String.toList_ofList, List.append_assoc, List.append_cancel_left_eq,
      List.cons.injEq, true_and, List.append_cancel_right_eq] at hlist
    exact hdiffer hlist

/-- The members of a separable batch are apart. -/
theorem Separable.apart (h : Separable env options endpoints) (id : Nat) :
    Apart (batch env options id endpoints) where
  ids m hm other hother hid := by
    by_contra hne
    exact (differ_of_ne h hother hm hne).1 hid
  paths m hm other hother hne path otherPath hpath hotherPath := by
    obtain ⟨h₁, h₂, _⟩ := h.paths hm hother (Ne.symm hne) hpath hotherPath
    exact ⟨h₁, h₂⟩

theorem handle_of_ok {r : ExportCall} {w : World} {x : r.answer}
    (h : (handle env r w).1 = .ok x) : handle env r w = effect env r w := by
  unfold handle at h ⊢
  split at h
  · rfl
  · cases h

/-- What a call of `snapshot_later` leaves. -/
structure Queued (env : Env) (members : List Member) (w w' : World) : Prop where
  rows : ∀ m ∈ members, ∃ s, w'.snapshots m.id = some s ∧ m.Owns s
  others : ∀ id < w.nextId, w'.snapshots id = w.snapshots id
  files : w'.files = w.files
  queue : ∀ job ∈ w'.queue, job ∈ w.queue ∨ ∃ m ∈ members, m.id = job.id

/-- `snapshot_later` queues one job for each endpoint. -/
theorem snapshotLater_queued {w w' : World}
    (h : (snapshotLater env options endpoints).exec (handle env) w = (.ok (), w')) :
    Queued env (batch env options w.nextId endpoints) w w' := by
  induction endpoints generalizing w with
  | nil =>
    cases h
    exact ⟨by simp [batch], fun _ _ => rfl, rfl, fun job hjob => Or.inl hjob⟩
  | cons endpoint rest ih =>
    obtain ⟨id, hcreate, h⟩ := exec_raising_bind h
    obtain ⟨_, hlater, h⟩ := exec_raising_bind h
    rw [handle_of_ok hlater, handle_of_ok hcreate] at h
    rw [handle_of_ok hcreate] at hcreate
    simp only [effect] at hcreate h
    split at hcreate
    · cases hcreate
    next hblank =>
      cases hcreate
      rw [if_neg hblank] at h
      have hrest := ih h
      have hfirst := (hrest.others w.nextId (Nat.lt_succ_self _)).trans (Function.update_self ..)
      refine ⟨fun m hm => ?_, fun id hid => ?_, hrest.files, fun job hjob => ?_⟩
      · rcases List.mem_cons.mp hm with rfl | hm
        · exact ⟨_, hfirst, rfl, rfl, rfl⟩
        · exact hrest.rows m hm
      · rw [hrest.others id (Nat.lt_succ_of_lt hid)]
        exact Function.update_of_ne (Nat.ne_of_lt hid) ..
      · rcases hrest.queue job hjob with hold | ⟨m, hm, hid⟩
        · rcases List.mem_append.mp hold with hold | hnew
          · exact Or.inl hold
          · rw [List.mem_singleton.mp hnew]
            exact Or.inr ⟨_, List.mem_cons_self, rfl⟩
        · exact Or.inr ⟨m, List.mem_cons_of_mem _ hm, hid⟩

/-- A batch that has been queued is in order. -/
theorem Queued.batchInv {members : List Member} {w w' : World} (h : Queued env members w w')
    (hqueue : w.queue = [])
    (hfiles : ∀ m ∈ members, ∀ path text, m.path = some path → w.files path = some text →
      OwnPages env m.url text) : BatchInv env members w' where
  rows := h.rows
  files m hm path text hpath htext := hfiles m hm path text hpath (h.files ▸ htext)
  queue job hjob := by
    rcases h.queue job hjob with hold | hnew
    · rw [hqueue] at hold
      cases hold
    · exact hnew

end SnapshotLater

/-! ## Isolation -/

/-- A turn that is not one of the snapshot's own jobs leaves its file as it is. -/
def LeavesOthers (env : Env) (fuel : Nat) (members : List Member) (side : Workers) (t : Turn) :
    Prop :=
  ∀ m ∈ members, ∀ path, m.path = some path →
    (∀ n process, t = .go n → side.processes[n]? = some process → process.1 ≠ m.id) →
    (workersTurn env fuel t side).state.files path = side.state.files path

theorem handle_files_of_ne {members : List Member} {w : World} {m other : Member} {r : ExportCall}
    (hapart : Apart members) (hm : m ∈ members) (hr : MayCall env m r) (hother : other ∈ members)
    (hne : other ≠ m) {path : String} (hpath : other.path = some path) :
    (handle env r w).2.files path = w.files path := by
  rcases handle_cases (w := w) hr with heq | ⟨r', hr', heq⟩
  · rw [heq]
  · rw [heq, files_effect_of_ne hapart hm hr' hother hne hpath]

/-- A turn of one member leaves the files of the others. -/
theorem leavesOthers_of_inOrder {members : List Member} (hapart : Apart members) (fuel : Nat)
    (side : Workers) (t : Turn)
    (h : InOrder (BatchInv env members) (ReliesAs env members) (CallOf env members) side) :
    LeavesOthers env fuel members side t := by
  intro m hm path hpath hother
  cases t with
  | start =>
    simp only [workersTurn, turn, takeJob]
    cases side.state.queue <;> rfl
  | go n =>
    simp only [workersTurn, turn]
    split
    next i r k hprocess =>
      obtain ⟨⟨acting, hacting, hid, hr⟩, _⟩ := h.processes _ (List.mem_of_getElem? hprocess)
      have hne : m ≠ acting := by
        rintro rfl
        exact hother n _ rfl hprocess hid.symm
      exact handle_files_of_ne hapart hacting hr hm hne hpath
    · rfl

/-- Snapshots whose rewritten paths can be told apart: whatever the order in
which their jobs run, and whatever fails, every file holds pages of its own
address, no job touches the file of another, and files and archives differ. -/
theorem snapshots_isolated_of_separable (env : Env) (options : SnapshotOptions)
    (endpoints : List String) (fuel : Nat) {w w' : World}
    (hsep : Separable env options endpoints) (hqueue : w.queue = [])
    (hfiles : ∀ m ∈ batch env options w.nextId endpoints, ∀ path text, m.path = some path →
      w.files path = some text → OwnPages env m.url text)
    (hlater : (snapshotLater env options endpoints).exec (handle env) w = (.ok (), w'))
    (turns : List Turn) :
    (∀ m ∈ batch env options w.nextId endpoints, ∀ path text, m.path = some path →
      (run (workersTurn env fuel) turns ⟨[], w'⟩).state.files path = some text →
      OwnPages env m.url text) ∧
    Along (workersTurn env fuel) (LeavesOthers env fuel (batch env options w.nextId endpoints))
      turns ⟨[], w'⟩ ∧
    ∀ m ∈ batch env options w.nextId endpoints, ∀ other ∈ batch env options w.nextId endpoints,
      m ≠ other → ∀ path otherPath, m.path = some path → other.path = some otherPath →
      path ≠ otherPath ∧ zipFilepath path ≠ zipFilepath otherPath := by
  have hapart := hsep.apart w.nextId
  have hstart : InOrder (BatchInv env (batch env options w.nextId endpoints))
      (ReliesAs env (batch env options w.nextId endpoints))
      (CallOf env (batch env options w.nextId endpoints)) (⟨[], w'⟩ : Workers) :=
    ⟨(snapshotLater_queued hlater).batchInv hqueue hfiles, by simp⟩
  have hd := discipline env hapart fuel
  refine ⟨(hd.run hstart turns).state.files, ?_, ?_⟩
  · exact hd.along (leavesOthers_of_inOrder hapart fuel) hstart turns
  · intro m hm other hother hne path otherPath hpath hotherPath
    obtain ⟨hfile, _, hzip⟩ := hsep.paths hm hother hne hpath hotherPath
    exact ⟨hfile, hzip⟩

/-- A server that answers with one page, the address it was asked for. -/
def echo : Env := { twoPages with server := fun request => .json request.url (some (1, 1)) }

def nothingQueued : World := { worldWith (newSnapshot 1) uploading with queue := [] }

/-- The world after `snapshot_later`. -/
def queuedFor (endpoints : List String) : World :=
  ((snapshotLater echo { host := "alm.example.org" } endpoints).exec (handle echo) nothingQueued).2

/-- Both jobs start, and then take so many turns one after the other. -/
def inSequence (n : Nat) : List Turn :=
  [.start, .start] ++ List.replicate n (.go 0) ++ List.replicate n (.go 1)

theorem plain_of_all {l : List Char} (h : l.all (fun c => c != '.' && c != '/') = true) :
    ∀ c ∈ l, c ≠ '.' ∧ c ≠ '/' := by
  intro c hc
  simpa using List.all_eq_true.mp h c hc

/-- Two snapshots with paths of their own. -/
theorem works_and_sources_isolated :
    Along (workersTurn echo 2) (LeavesOthers echo 2
      (batch echo { host := "alm.example.org" } 2 ["/api/works", "/api/sources"]))
      (inSequence 20) ⟨[], queuedFor ["/api/works", "/api/sources"]⟩ := by
  refine (snapshots_isolated_of_separable echo { host := "alm.example.org" }
    ["/api/works", "/api/sources"] 2 (w := nothingQueued) ?_ rfl ?_ ?_ (inSequence 20)).2.1
  · exact ⟨by decide +kernel, by decide +kernel, by decide +kernel, by decide +kernel,
      plain_of_all (by decide +kernel), plain_of_all (by decide +kernel)⟩
  · intro m _ path text _ htext
    cases htext
  · exact Prod.ext (by decide +kernel) rfl

/-- The turns of both jobs, up to the one in which the second finds a file to
remove. -/
def untilRemoval : List Turn :=
  [.start, .start] ++ List.replicate 20 (.go 0) ++ List.replicate 4 (.go 1)

/-- Addresses that differ in the query only: the second job deletes the file
of the first. -/
theorem query_not_told_apart :
    ["/api/works?sort=a", "/api/works?sort=b"].Pairwise
      (fun endpoint other => SnapshotOptions.url { host := "alm.example.org" } endpoint ≠
        SnapshotOptions.url { host := "alm.example.org" } other) ∧
    ¬ Along (workersTurn echo 2) (LeavesOthers echo 2
      (batch echo { host := "alm.example.org" } 2 ["/api/works?sort=a", "/api/works?sort=b"]))
      (inSequence 20) ⟨[], queuedFor ["/api/works?sort=a", "/api/works?sort=b"]⟩ ∧
    ((run (workersTurn echo 2) untilRemoval
      ⟨[], queuedFor ["/api/works?sort=a", "/api/works?sort=b"]⟩).state.files
        worksPath).isSome = true ∧
    (run (workersTurn echo 2) (untilRemoval ++ [.go 1])
      ⟨[], queuedFor ["/api/works?sort=a", "/api/works?sort=b"]⟩).state.files worksPath = none := by
  refine ⟨by decide +kernel, fun h => ?_, by decide +kernel, by decide +kernel⟩
  have hstep := along_iff.mp h untilRemoval (.go 1)
    (List.replicate 15 (.go 1)) rfl ⟨2, "http://alm.example.org/api/works?sort=a", some worksPath⟩
    (by decide +kernel) worksPath rfl ?_
  · revert hstep
    decide +kernel
  · intro n process hn hprocess
    cases hn
    have hid := congrArg (Option.map Prod.fst) hprocess
    revert hid
    cases process with
    | mk id program =>
      show _ = some id → id ≠ 2
      rintro hid rfl
      revert hid
      decide +kernel

end Lagotto.Export
