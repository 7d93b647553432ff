/-
Lagotto.Source.AdapterTheorems — which adapters hand on the errors of their
requests, and which hide them.

`perform_get_data` decides once, on what `get_data` returns, whether to skip
the update. The `get_data` most classes have asks one query and returns its
answer (`Adapter.Asks`), and so do the classes that read page by page where
the first page is an error. An error of that query is kept from doing harm
(`keeps_status_on_error`). What is lost is an error of a request before it,
made to find an identifier, or of a further page, and an error that is found
while parsing, as Web of Science has it: those come with no events, and are
written down as zeros.

Wikipedia collects hits under the names of languages, and a failed request is
to it a page without hits. While nothing answers it reports neither an error
nor a hit, and the counts of the last retrieval are overwritten with zeros.
-/
import Lagotto.Interaction.Trace
import Lagotto.Retrieval.PerformGetDataTheorems
import Lagotto.Source.Paging
import Lagotto.Source.TwitterSearch
import Lagotto.Source.Wos
import Lagotto.Work.DatesTheorems

namespace Lagotto

open Interaction
open Relational

/-! ## Classes that ask one query -/

/-- The class asks for its data with one query, and hands on a failure of it.
The query may ask for identifiers before; what is done with a good answer, such
as asking for more pages, is up to the class. -/
def Adapter.Asks (adapter : Adapter) (query : Source → Work → Fetch (Option String × Work)) :
    Prop :=
  ∀ s work, ∃ rest : Value → Work → Fetch Value,
    adapter.getData s work = Source.firstPage (query s work) rest ∧
      ∀ (f : Failure) url work, rest (f.result url) work = .done (f.result url)

/-- Reading the data reports no error that the data does not have. -/
def Adapter.ReadsQuietly (adapter : Adapter) : Prop :=
  ∀ s data work, data.carriesError = false →
    (adapter.parseData s data work).Yields (fun result => result.1.carriesError = false)

/-- `get_data` of `Source`, which all classes have but the five below. -/
theorem Source.asks_getData (query : Source → Work → Fetch (Option String))
    (parse : Source → Value → Work → Fetch (Parsed × Work)) :
    (⟨fun s work => Source.getData (query s work), parse⟩ : Adapter).Asks
      (fun s work => (query s work).bind fun url => .done (url, work)) := by
  intro s work
  refine ⟨fun result _ =>
    .done (if result.isHash then result else .hash [(.str "data", result)]), ?_, fun _ _ _ => rfl⟩
  show Source.getData (query s work) = Source.firstPage _ _
  unfold Source.firstPage Source.getData
  rw [Program.bind_assoc]
  congr 1
  funext url
  cases url <;> rfl

/-- Europe PMC, by citations and by full text. -/
theorem Pmcable.asks_getData (c : Pmcable)
    (parse : Source → Value → Work → Fetch (Parsed × Work)) :
    (⟨c.getData, parse⟩ : Adapter).Asks (fun _ work => c.getQueryUrl 1 work) :=
  fun _ _ => ⟨_, rfl, fun _ _ _ => rfl⟩

theorem NatureOpensearch.asks_getData (env : Env)
    (parse : Source → Value → Work → Fetch (Parsed × Work)) :
    (⟨NatureOpensearch.getData env, parse⟩ : Adapter).Asks
      (fun _ work => NatureOpensearch.getQueryUrl env 1 work) :=
  fun _ _ => ⟨_, rfl, fun _ _ _ => rfl⟩

/-- The one request of Web of Science. -/
def Wos.query (s : Source) (work : Work) : Fetch (Option String × Work) :=
  if !present (work.col .doi) then .done (none, work)
  else
    match (s.config.fields.find? (fun field => field.1 == "url_private")).map Prod.snd with
    | some (.str urlPrivate) => .done (some urlPrivate, work)
    | _ => .fail ⟨"URI::InvalidURIError", "bad URI(is not URI?): "⟩

theorem Wos.asks_getData : Wos.adapter.Asks Wos.query := by
  intro s work
  refine ⟨fun result _ => .done result, ?_, fun _ _ _ => rfl⟩
  show Wos.getData s work = _
  unfold Wos.getData Wos.query Source.firstPage
  split
  · rfl
  · generalize (s.config.fields.find? (fun field => field.1 == "url_private")).map Prod.snd = url
    rcases url with _ | v
    · rfl
    · cases v <;> rfl

/-- A result that is returned as it is has the error it has. -/
theorem Parsed.carriesError_ofResult {data : Value} (h : data.carriesError = false) :
    (Parsed.ofResult data).carriesError = false := by
  simp only [Value.carriesError, Value.isNotFound] at h
  unfold Parsed.carriesError Parsed.ofResult
  generalize data.get (.sym "status") = status at h ⊢
  cases status <;> simpa using h

/-- Twitter Search returns what it finds an error in as it is. -/
theorem TwitterSearch.readsQuietly (env : Env) (lib : Library) :
    (TwitterSearch.adapter env lib).ReadsQuietly := by
  intro s data work hdata
  show (TwitterSearch.parseData env lib s data work).Yields _
  unfold TwitterSearch.parseData
  split
  · exact Parsed.carriesError_ofResult hdata
  · refine Program.yields_bind (Program.yields_true _) fun found _ =>
      Program.yields_bind (Program.yields_true _) fun extra _ =>
        Program.yields_bind (Program.yields_true _) fun events _ =>
          Program.yields_bind (Program.yields_true _) fun days _ => rfl

/-- Whatever the answer says of itself, it does not say that there was an
error. -/
def Wos.AnswerOk (answer : Value) : Prop :=
  ∀ status, answer.deepFetch (Wos.fn ["rc"]) (.str "OK") = .str status → Wos.isOk status = true

theorem Wos.parseData_of_ok {s : Source} {data : Value} {work : Work}
    (hdata : data.carriesError = false) (hok : Wos.AnswerOk data) :
    (Wos.adapter.parseData s data work).Yields (fun result => result.1.carriesError = false) := by
  have hcheck : (Wos.checkErrorStatus s data work).Yields (fun message => message = none) := by
    unfold Wos.checkErrorStatus
    split
    next status hstatus =>
      rw [if_pos (hok status hstatus)]
      rfl
    next => exact trivial
  show (Wos.parseData s data work).Yields _
  unfold Wos.parseData
  split
  · exact Parsed.carriesError_ofResult hdata
  · refine Program.yields_bind hcheck ?_
    rintro _ rfl
    dsimp only
    split
    · split
      · split
        · exact Program.yields_bind (Program.yields_true _) fun _ _ => rfl
        · exact rfl
      · exact rfl
    · exact rfl

/-! ## What is kept when an error is reported -/

namespace Retrieval

variable {env : Env} {web : Web} {moment : Moment} {adapter : Adapter} {r : Retrieval} {db : Db}

/-- A request of `get_data`, `get_data` itself or `parse_data` reports an error
other than 404. -/
def ReportsError (env : Env) (web : Web) (moment : Moment) (adapter : Adapter)
    (r : Retrieval) (db : Db) : Prop :=
  (∃ v ∈ (r.fetched env web adapter db).2.results, v.carriesError = true) ∨
  (∃ data, (r.fetched env web adapter db).1 = .ok data ∧ data.carriesError = true) ∨
  (∃ parsed work, (r.parsed env web moment adapter db).1 = .ok (some (parsed, work)) ∧
    parsed.carriesError = true)

/-- The query of the class was sent and failed, other than with a 404. -/
def QueryFails (env : Env) (web : Web) (adapter : Adapter) (r : Retrieval) (db : Db) : Prop :=
  ∃ query url work s f, adapter.Asks query ∧
    (query r.source r.work).run (handle env web r.rs) { db := db } = (.ok (some url, work), s) ∧
    web s.results url = .failed f ∧ f.status ≠ 404

/-- A failure is an error to `perform_get_data`: its message is never blank. -/
theorem carriesError_result {f : Failure} (h : f.status ≠ 404) (url : String) :
    (f.result url).carriesError = true := by
  have hblank : blank (f.message url) = false := by
    refine not_blank_of_mem (c := 'f') ?_ (by decide)
    cases f with
    | notFound message => exact absurd rfl h
    | _ => simp [Failure.message]
  have herror : (f.result url).get (.sym "error") = .str (f.message url) := rfl
  have hstatus : (f.result url).get (.sym "status") = .int f.status := rfl
  simp [Value.carriesError, Value.isNotFound, Value.isBlank, herror, hstatus, hblank, h]

/-- `get_data` returns the error of its query, or raises over it. -/
theorem fetched_of_queryFails (h : r.QueryFails env web adapter db) {data : Value} {s : Session}
    (hfetched : r.fetched env web adapter db = (.ok data, s)) : data.carriesError = true := by
  obtain ⟨query, url, work, before, f, hasks, hquery, hweb, hstatus⟩ := h
  obtain ⟨rest, hget, hrest⟩ := hasks r.source r.work
  have hrun : ((Fetch.get url).bind fun result => rest result work).run (handle env web r.rs)
      before = (.ok data, s) := by
    rw [Retrieval.fetched, hget, Source.firstPage, Program.run_bind_of_ok hquery] at hfetched
    exact hfetched
  have hanswer : (Fetch.get url).run (handle env web r.rs) before =
      getResult env web r.rs url before := Program.run_call _ _
  rcases Program.run_bind_cases (handle env web r.rs) (Fetch.get url)
    (fun result => rest result work) before with ⟨e, s', _, heq⟩ | ⟨v, s', hv, heq⟩
  · rw [heq] at hrun
    cases hrun
  · obtain rfl : v = f.result url := by
      rw [hanswer, getResult, hweb] at hv
      cases f with
      | notFound message => exact absurd rfl hstatus
      | _ =>
        dsimp only at hv
        split at hv
        · cases hv
        · exact (Except.ok.inj (Prod.mk.inj hv).1).symm
    rw [heq, hrest] at hrun
    cases hrun
    exact carriesError_result hstatus url

/-- What Web of Science answers is what there is to read. -/
theorem answerOk_fetched (hweb : ∀ results url v, web results url = .body v → Wos.AnswerOk v)
    {data : Value} {s : Session} (h : r.fetched env web Wos.adapter db = (.ok data, s)) :
    Wos.AnswerOk data := by
  have hdefault : ∀ {v : Value}, v.deepFetch (Wos.fn ["rc"]) (.str "OK") = .str "OK" →
      Wos.AnswerOk v := by
    intro v hv status hstatus
    rw [hv] at hstatus
    cases hstatus
    rfl
  change (Wos.getData r.source r.work).run _ _ = _ at h
  unfold Wos.getData at h
  split at h
  · cases h
    exact hdefault rfl
  · split at h
    next url _ =>
      have hanswer : (Fetch.get url).run (handle env web r.rs) { db := db } =
        getResult env web r.rs url { db := db } := Program.run_call _ _
      rw [hanswer, getResult] at h
      split at h
      next v hv =>
        cases h
        exact hweb _ _ _ hv
      next f hf =>
        split at h
        · cases h
          exact hdefault rfl
        · split at h
          · cases h
          · cases h
            exact hdefault rfl
    next => cases h

/-- Web of Science knows twelve citations of a work. -/
def cited : Retrieval where
  rs := { id := 1, workId := 1, sourceId := 1, metrics := { total := 12 } }
  source :=
    { id := 1, type := .wos, name := "wos", title := "Web of Science", state := .working
      config := { fields := [("url_private", .str "http://ws.isiknowledge.com/cps/xrpc")] } }
  work :=
    { id := 1
      col := fun
        | .doi => some "10.1234/one"
        | .pid => some "http://doi.org/10.1234/one"
        | _ => none
      title := some "One"
      year := some 2014
      publishedOn := some ⟨2014, 1, 1, by decide⟩ }

def citedDb : Db where
  sources := Table.empty.insert cited.source
  works := Table.empty.insert cited.work
  retrievalStatuses := Table.empty.insert cited.rs

/-- The first of June 2015. -/
def juneFirst : Moment where
  now := 1433116800
  staleAt := .ok 1435708800

/-- The service is down. -/
def unavailable : Web := fun _ _ => .failed (.response 503 "Service Unavailable" "" "")

/-- The service answers that the client is not authenticated. -/
def unauthorized : Web := fun _ _ => .body (.hash [(.str "response", .hash [(.str "fn", .hash
  [(.str "rc", .str "Server.authentication"), (.str "error", .str "No matches")])])])

end Retrieval

/-! ## Wikipedia -/

namespace Wikipedia

/-- Every request fails. A conflict, over which `get_result` raises, is not
among the failures. -/
def Outage (web : Web) : Prop :=
  ∀ results url, ∃ f, web results url = .failed f ∧ f.status ≠ 409

/-! ## What an adapter gets to see -/

section Outage

variable (env : Env) (web : Web) (rs : RetrievalStatus)

/-- The code returns, with such a value, and has filed alerts at most. -/
def Returns {α : Type} (program : Fetch α) (p : α → Prop) : Prop :=
  ∀ s, ∃ a s' alerts, program.run (handle env web rs) s = (.ok a, s') ∧ p a ∧
    s'.db = { s.db with alerts := alerts }

variable {env web rs}

theorem returns_done {α : Type} {p : α → Prop} {a : α} (h : p a) :
    Returns env web rs (.done a) p :=
  fun s => ⟨a, s, s.db.alerts, rfl, h, rfl⟩

theorem Returns.bind {α β : Type} {program : Fetch α} {f : α → Fetch β} {p : α → Prop}
    {q : β → Prop} (h : Returns env web rs program p)
    (hf : ∀ a, p a → Returns env web rs (f a) q) : Returns env web rs (program.bind f) q := by
  intro s
  obtain ⟨a, s', _, hrun, ha, hdb⟩ := h s
  obtain ⟨b, s'', alerts, hrest, hb, hdb'⟩ := hf a ha s'
  exact ⟨b, s'', alerts, (Program.run_bind_of_ok hrun).trans hrest, hb, by rw [hdb', hdb]⟩

theorem returns_get (hout : Outage web) (url : String) :
    Returns env web rs (Fetch.get url) (fun v => ∃ f : Failure, v = f.result url) := by
  intro s
  obtain ⟨f, hweb, hstatus⟩ := hout s.results url
  have hrun : (Fetch.get url).run (handle env web rs) s = getResult env web rs url s :=
    Program.run_call _ _
  rw [hrun, getResult, hweb]
  cases f with
  | notFound message => exact ⟨_, _, s.db.alerts, rfl, ⟨_, rfl⟩, rfl⟩
  | _ => exact ⟨_, _, _, if_neg hstatus, ⟨_, rfl⟩, rfl⟩

theorem returns_getUrl (hout : Outage web) (work : Work) :
    Returns env web rs (work.getUrl env) (fun _ => True) := by
  unfold Work.getUrl
  split
  next => exact returns_done trivial
  next =>
    split
    next => exact returns_done trivial
    next =>
      refine (returns_get hout _).bind ?_
      rintro _ ⟨f, rfl⟩
      exact returns_done trivial

theorem returns_searchLanguage (hout : Outage web) (source : Source) (lang : String)
    (work : Work) :
    Returns env web rs (searchLanguage env source lang work) (fun found => found.1 = []) := by
  refine Returns.bind (p := fun _ => True) ((returns_getUrl hout work).bind ?_) ?_
  · rintro ⟨_ | _, work⟩ -
    · exact returns_done trivial
    · exact returns_done trivial
  · rintro ⟨_ | url, work⟩ -
    · exact returns_done rfl
    · refine (returns_get hout url).bind ?_
      rintro _ ⟨f, rfl⟩
      exact returns_done rfl

theorem setHits_nil {sum : List (String × List Hit)} (h : ∀ entry ∈ sum, entry.2 = [])
    (lang : String) : ∀ entry ∈ setHits sum lang [], entry.2 = [] := by
  intro entry hentry
  unfold setHits at hentry
  split at hentry
  next =>
    obtain ⟨old, hold, rfl⟩ := List.mem_map.mp hentry
    split
    next => rfl
    next => exact h old hold
  next =>
    rcases List.mem_append.mp hentry with hold | hnew
    · exact h entry hold
    · rw [List.mem_singleton.mp hnew]

theorem returns_searchAll (hout : Outage web) (source : Source) {langs : List String}
    {sum : List (String × List Hit)} (hsum : ∀ entry ∈ sum, entry.2 = []) (work : Work) :
    Returns env web rs (searchAll env source langs sum work)
      (fun sum => ∀ entry ∈ sum, entry.2 = []) := by
  induction langs generalizing sum work with
  | nil => exact returns_done hsum
  | cons lang langs ih =>
    refine (returns_searchLanguage hout source lang work).bind ?_
    rintro ⟨hits, work⟩ rfl
    exact ih (setHits_nil hsum lang) work

theorem returns_getData (hout : Outage web) (source : Source) (work : Work) :
    Returns env web rs (getData env source work)
      (fun data => ∃ sum, data = toData sum ∧ ∀ entry ∈ sum, entry.2 = []) := by
  unfold getData
  split
  next => exact returns_done ⟨[], rfl, by simp⟩
  next =>
    exact (returns_searchAll hout source (by simp) work).bind
      (fun sum hsum => returns_done ⟨sum, rfl, hsum⟩)

/-! ## What becomes of the counts -/

/-- Languages are strings, and no string is a symbol. -/
theorem get_toData (sum : List (String × List Hit)) (name : String) :
    (toData sum).get (.sym name) = .nil := by
  unfold toData Value.get
  dsimp only
  rw [List.find?_eq_none.mpr]
  · rfl
  · intro entry hentry
    obtain ⟨x, _, rfl⟩ := List.mem_map.mp hentry
    simp

theorem allHits_toData {sum : List (String × List Hit)} (h : ∀ entry ∈ sum, entry.2 = []) :
    allHits (toData sum) = [] := by
  unfold allHits toData
  dsimp only
  rw [List.flatMap_map, List.flatMap_eq_nil_iff]
  intro entry hentry
  rw [h entry hentry]
  rfl

/-- What `parse_data` makes of no hits. -/
def noEvents : Events where
  counts := { total := some 0 }
  extra := .arr []

theorem parseData_toData {sum : List (String × List Hit)} (h : ∀ entry ∈ sum, entry.2 = [])
    (source : Source) (work : Work) :
    parseData env source (toData sum) work = .done ({ works := [], events := noEvents }, work) := by
  unfold parseData
  rw [get_toData, allHits_toData h]
  rfl

/-- **An outage erases the counts.** With every request failed the update is not
skipped: the method returns, and the row of the retrieval status has been
retrieved now and counts nothing, whatever it counted before. -/
theorem outage_erases_counts (hout : Outage web) {r : Retrieval} {moment : Moment} {staleAt : Time}
    (hlogstash : moment.logstash = false) (hstale : moment.staleAt = .ok staleAt) {db : Db}
    (hrs : r.rs ∈ db.retrievalStatuses.rows) (hvalid : r.valid env r.work db = true) :
    ∃ summary db', r.performGetData env web moment (adapter env) db = (.ok summary, db') ∧
      summary.skipped = false ∧ summary.total = 0 ∧ summary.previousTotal = r.rs.metrics.total ∧
      ∃ row ∈ db'.retrievalStatuses.rows, row.id = r.rs.id ∧ row.retrievedAt = moment.now ∧
        row.metrics = {} := by
  have hreturns : Returns env web r.rs (getData env r.source r.work) _ :=
    returns_getData hout r.source r.work
  obtain ⟨_, s, alerts, hfetched, ⟨sum, rfl, hsum⟩, hdb⟩ := hreturns { db := db }
  have herror : (toData sum).carriesError = false := by
    simp [Value.carriesError, get_toData, Value.isBlank]
  have htoParse : r.toParse env web moment (adapter env) db = (.ok (some (toData sum)), s) := by
    have hfetched' : r.fetched env web (adapter env) db = (.ok (toData sum), s) := hfetched
    rw [Retrieval.toParse, hfetched']
    simp only [hlogstash, herror]
    rfl
  have hprepared : r.prepared env web moment (adapter env) db =
      (.ok (some ({ works := [], events := noEvents }, r.work)), s.db) := by
    have hparse : (adapter env).parseData r.source (toData sum) r.work =
        .done ({ works := [], events := noEvents }, r.work) := parseData_toData hsum r.source r.work
    rw [Retrieval.prepared, Retrieval.parsed, htoParse]
    simp only [hparse]
    rfl
  -- filing alerts leaves the work as valid as it was
  have hvalid' : r.valid env r.work s.db = true := by
    rw [hdb]
    exact hvalid
  have hwork : r.work.errors env (r.work.others db) = [] :=
    List.isEmpty_iff.mp (Bool.and_eq_true_iff.mp hvalid).1
  obtain ⟨date, -, hdate⟩ := Work.publishedOn_of_valid hwork
  have hstatus : r.rs ∈ s.db.retrievalStatuses.rows := by
    rw [hdb]
    exact hrs
  rw [Retrieval.performGetData, hprepared]
  dsimp only
  rw [Retrieval.store, hstale]
  simp only [Retrieval.dayItems, hdate, noEvents, List.isEmpty_nil, if_true]
  refine ⟨_, _, rfl, rfl, rfl, rfl, r.assigned moment staleAt noEvents, ?_, rfl, rfl, rfl⟩
  simp only [Retrieval.updateData, if_pos hvalid']
  exact Table.mem_put.mpr (.inr ⟨rfl, r.rs, hstatus, rfl⟩)

/-- A count of twelve, and a retrieval while nothing answers. -/
theorem unavailable_erases_counts :
    ∃ summary db', Retrieval.cited.performGetData plainEnv Retrieval.unavailable
        Retrieval.juneFirst (adapter plainEnv) Retrieval.citedDb = (.ok summary, db') ∧
      summary.skipped = false ∧ summary.total = 0 ∧ summary.previousTotal = 12 ∧
      ∃ row ∈ db'.retrievalStatuses.rows, row.id = 1 ∧ row.retrievedAt = 1433116800 ∧
        row.metrics = {} :=
  outage_erases_counts (fun _ _ => ⟨_, rfl, by decide⟩) rfl rfl (List.mem_singleton.mpr rfl)
    (by decide +kernel)

end Outage

end Wikipedia

end Lagotto
