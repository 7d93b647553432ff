/-
Lagotto.Source.TwitterSearchTheorems — which tweets are stored.

Whatever was stored before, `update_extra` returns the tweets of the search,
each id once (`updateExtra_yields`), and this is what `perform_get_data` stores
(`extra_performed`). So the tweets of earlier searches are kept exactly as long
as every search returns them again.
-/
import Lagotto.Interaction.Loops
import Lagotto.Jobs.SourceJob
import Lagotto.Source.TwitterSearch
import Lagotto.Source.AdapterTheorems
import Lagotto.StateMachine.Runs

namespace Lagotto.TwitterSearch

open Interaction
open Relational
open StateMachine
open Wikipedia

/-! ## Ids -/

/-- The id of an event, as text. -/
def idText (event : Value) : Option String := string? (idOf event)

theorem idOf_event (s : Status) : idOf (event s) = s.id := rfl

theorem eql_str (a b : String) : (Value.str a).eql (.str b) = (a == b) := by
  simp [Value.eql]

theorem id_of_eql_event {s t : Status} (h : (event s).eql (event t) = true) :
    s.id.eql t.id = true := by
  simp [event, Value.eql, Value.eqlEntries] at h
  exact h.1.1

/-- The events of statuses whose ids are texts. -/
def Named (found : List Status) : Prop := ∀ s ∈ found, ∃ id, s.id = .str id

theorem idText_event {s : Status} {id : String} (h : s.id = .str id) :
    idText (event s) = some id := by
  unfold idText
  rw [idOf_event, h]
  rfl

section Merged

variable {found : List Status} (hnamed : Named found)

include hnamed

/-- Among the events of a search, the same id is the same text. -/
theorem eql_idOf_iff {a b : Value} (ha : a ∈ found.map event) (hb : b ∈ found.map event) :
    (idOf a).eql (idOf b) = true ↔ idText a = idText b := by
  obtain ⟨s, hs, rfl⟩ := List.mem_map.mp ha
  obtain ⟨t, ht, rfl⟩ := List.mem_map.mp hb
  obtain ⟨i, hi⟩ := hnamed s hs
  obtain ⟨j, hj⟩ := hnamed t ht
  rw [idText_event hi, idText_event hj, idOf_event, idOf_event, hi, hj, eql_str]
  simp

theorem mem_union (k : Option String) :
    k ∈ (unionBy Value.eql [] (found.map event)).map idText ↔
      k ∈ (found.map event).map idText := by
  refine mem_keys_foldl_insertBy (l := []) ?_ k
  intro a ha b hb hsame
  obtain ⟨s, hs, rfl⟩ := List.mem_map.mp ha
  obtain ⟨t, ht, rfl⟩ := List.mem_map.mp hb
  exact (eql_idOf_iff hnamed ha hb).mp (id_of_eql_event hsame)

/-- Each id of the search is there once. -/
theorem count_firstById (id : String) :
    ((firstById (unionBy Value.eql [] (found.map event))).map idText).count (some id) = 1 ↔
      some id ∈ found.map (fun s => string? s.id) := by
  have hsub : ∀ a ∈ [] ++ unionBy Value.eql [] (found.map event), a ∈ found.map event :=
    fun a ha => mem_foldl_insertBy (l := []) ha
  have hnodup : ((firstById (unionBy Value.eql [] (found.map event))).map idText).Nodup :=
    nodup_keys_foldl_insertBy (l := [])
      (fun a ha b hb => (eql_idOf_iff hnamed (hsub a ha) (hsub b hb)).mpr) List.nodup_nil
  have hmem : some id ∈ (firstById (unionBy Value.eql [] (found.map event))).map idText ↔
      some id ∈ (found.map event).map idText := by
    rw [← mem_union hnamed]
    exact mem_keys_foldl_insertBy (l := [])
      (fun a ha b hb => (eql_idOf_iff hnamed (hsub a ha) (hsub b hb)).mp) (some id)
  have hids : (found.map event).map idText = found.map (fun s => string? s.id) := by
    rw [List.map_map]
    rfl
  rw [← hids, ← hmem]
  constructor
  · intro hone
    exact List.count_pos_iff.mp (by omega)
  · intro h
    exact List.count_eq_one_of_mem hnodup h

end Merged

/-! ## What is parsed -/

/-- The merge is with nothing. -/
theorem updateExtra_yields (work : Work) (extra : List Value) :
    (updateExtra work extra).Yields (fun kept => kept = firstById (unionBy Value.eql [] extra)) :=
  fun _ => rfl

theorem parseData_yields {env : Env} {lib : Library} {source : Source} {result : Value}
    {work : Work} (hresult : (result.get (.sym "error")).truthy = false) :
    (parseData env lib source result work).Yields (fun parsed => ∃ found,
      statuses lib result = .ok found ∧
      parsed.1.events.extra = .arr (firstById (unionBy Value.eql [] (found.map event)))) := by
  unfold parseData
  rw [hresult]
  cases hfound : statuses lib result with
  | error e => exact trivial
  | ok found =>
    refine Program.yields_bind (q := fun read => read = found) rfl ?_
    intro read hread
    subst hread
    refine Program.yields_bind (updateExtra_yields work (read.map event)) ?_
    intro extra hextra
    refine Program.yields_bind (Program.yields_true _) ?_
    intro eventsUrl _
    refine Program.yields_bind (Program.yields_true _) ?_
    intro days _
    exact ⟨read, rfl, congrArg Value.arr hextra⟩

theorem id_of_status {lib : Library} {item : Value} {s : Status}
    (h : status lib item = .ok s) : s.id = item.get (.str "id_str") := by
  unfold status at h
  cases huser : userOf item with
  | error e =>
    rw [huser] at h
    cases h
  | ok user =>
    rw [huser] at h
    cases htime : getIso8601FromTime lib (item.get (.str "created_at")) with
    | error e => simp [htime] at h
    | ok time =>
      simp only [htime, Except.ok.injEq] at h
      rw [← h]

/-- The ids of the statuses are those of the items. -/
theorem ids_of_statuses {lib : Library} {result : Value} {found : List Status}
    (h : statuses lib result = .ok found) :
    found.map (·.id) = (items result).map (fun item => item.get (.str "id_str")) := by
  have hread := mapM_eq_ok_iff.mp h
  clear h
  generalize items result = read at hread
  induction hread with
  | nil => rfl
  | cons hitem _ ih => rw [List.map_cons, List.map_cons, ih, id_of_status hitem]

/-! ## Searches -/

/-- A search: what `perform_get_data` meets, and the response to it. -/
structure Search where
  env : Env
  web : Web
  moment : Moment
  lib : Library
  result : Value

namespace Search

/-- The ids of the tweets that are returned. -/
def ids (a : Search) : List String :=
  (items a.result).filterMap (fun item => string? (item.get (.str "id_str")))

/-- The occasion on which `perform_get_data` is called. -/
def occasion (a : Search) : SourceJob.Occasion where
  env := a.env
  web := a.web
  moment := a.moment
  adapter := fun _ => adapter a.env a.lib

/-- Whether the retrieval status is saved. -/
def stores (a : Search) (r : Retrieval) (db : Db) : Bool :=
  match r.prepared a.env a.web a.moment (adapter a.env a.lib) db with
  | (.ok (some (_, work)), db') => a.moment.staleAt.isOk && r.valid a.env work db'
  | _ => false

/-- The search is successful: it returns its response, every tweet of which has
an id, and the retrieval status is saved. -/
structure Saves (a : Search) (r : Retrieval) (db : Db) : Prop where
  found : (r.fetched a.env a.web (adapter a.env a.lib) db).1 = .ok a.result
  response : (a.result.get (.sym "error")).truthy = false
  named : ∀ item ∈ items a.result, ∃ id, item.get (.str "id_str") = .str id
  stored : a.stores r db = true

theorem exists_of_stores {a : Search} {r : Retrieval} {db : Db} (h : a.stores r db = true) :
    ∃ parsed work db' staleAt,
      r.prepared a.env a.web a.moment (adapter a.env a.lib) db = (.ok (some (parsed, work)), db') ∧
        a.moment.staleAt = .ok staleAt ∧ r.valid a.env work db' = true := by
  unfold stores at h
  split at h
  next parsed work db' hprepared =>
    rw [Bool.and_eq_true] at h
    obtain ⟨hok, hvalid⟩ := h
    cases hstale : a.moment.staleAt with
    | error e =>
      rw [hstale] at hok
      cases hok
    | ok staleAt => exact ⟨parsed, work, db', staleAt, hprepared, rfl, hvalid⟩
  next => cases h

end Search

/-- `perform_get_data` of the retrieval status with the id. -/
def perform (rsId : Nat) (a : Search) (db : Db) : Db :=
  match SourceJob.lookup rsId db with
  | .error _ => db
  | .ok (rs, work) => (SourceJob.request a.occasion rs work db).2

/-- The ids in the `extra` of the retrieval status. -/
def extraIds (rsId : Nat) (db : Db) : List (Option String) :=
  match db.retrievalStatuses.first (fun rs => rs.id == rsId) with
  | none => []
  | some rs => rs.extra.toArray.map idText

def Succeeds (rsId : Nat) (db : Db) (a : Search) : Prop :=
  ∃ rs work source, SourceJob.lookup rsId db = .ok (rs, work) ∧
    db.sources.first (fun source => source.id == rs.sourceId) = some source ∧
    a.Saves ⟨rs, source, work⟩ db

/-- What a successful search writes. -/
theorem extra_performed {a : Search} {r : Retrieval} {db : Db} (h : a.Saves r db)
    (hrs : r.rs ∈ db.retrievalStatuses.rows) :
    ∃ found row, statuses a.lib a.result = .ok found ∧
      (r.performGetData a.env a.web a.moment (adapter a.env a.lib)
        db).2.retrievalStatuses.first (fun rs => rs.id == r.rs.id) = some row ∧
      row.extra = .arr (firstById (unionBy Value.eql [] (found.map event))) := by
  obtain ⟨parsed, work, db', staleAt, hprepared, hstale, hvalid⟩ := Search.exists_of_stores h.stored
  have hframe := r.prepared_frame a.env a.web a.moment (adapter a.env a.lib) db
  rw [hprepared] at hframe
  obtain ⟨-, data, s, s', hfetched, -, -, hrun, -⟩ :=
    (r.prepared_some a.env a.web a.moment (adapter a.env a.lib)).mp hprepared
  have hdata := h.found
  rw [hfetched] at hdata
  cases hdata
  obtain ⟨found, hfound, hextra⟩ := Program.of_run (parseData_yields h.response) hrun
  refine ⟨found, r.assigned a.moment staleAt parsed.events, hfound, ?_, hextra⟩
  rw [Retrieval.performGetData, hprepared]
  exact r.first_store a.env a.moment (hframe.status hrs) hstale hvalid

/-- A successful search leaves its own tweets. -/
theorem count_extraIds_perform {rsId : Nat} {db : Db} {a : Search} (h : Succeeds rsId db a)
    (id : String) : (extraIds rsId (perform rsId a db)).count (some id) = 1 ↔ id ∈ a.ids := by
  obtain ⟨rs, work, source, hlookup, hsource, hsaves⟩ := h
  obtain ⟨hrs, hid⟩ : rs ∈ db.retrievalStatuses.rows ∧ rs.id = rsId := by
    unfold SourceJob.lookup at hlookup
    cases hfirst : db.retrievalStatuses.first (fun rs => rs.id == rsId) with
    | none => simp [hfirst] at hlookup
    | some found =>
      simp only [hfirst] at hlookup
      split at hlookup
      · cases hlookup
      · cases hlookup
        exact ⟨Table.first_mem hfirst, by simpa using Table.first_prop hfirst⟩
  obtain ⟨found, row, hfound, hrow, hextra⟩ := extra_performed hsaves hrs
  have hperform : perform rsId a db =
      (Retrieval.performGetData a.env a.web a.moment (adapter a.env a.lib)
        ⟨rs, source, work⟩ db).2 := by
    simp only [perform, hlookup, SourceJob.request, hsource]
    rfl
  have hids := ids_of_statuses hfound
  have hnamed : Named found := by
    intro s hs
    have hmem : s.id ∈ found.map (·.id) := List.mem_map_of_mem hs
    rw [hids] at hmem
    obtain ⟨item, hitem, heq⟩ := List.mem_map.mp hmem
    obtain ⟨id, hid⟩ := hsaves.named item hitem
    exact ⟨id, by rw [← heq, hid]⟩
  have hextraIds : extraIds rsId (perform rsId a db) =
      (firstById (unionBy Value.eql [] (found.map event))).map idText := by
    rw [hperform]
    unfold extraIds
    rw [← hid, hrow]
    dsimp only
    rw [hextra]
    rfl
  rw [hextraIds, count_firstById hnamed]
  have hstrings : found.map (fun s => string? s.id) =
      (items a.result).map (fun item => string? (item.get (.str "id_str"))) := by
    have hmap := congrArg (List.map string?) hids
    simpa only [List.map_map, Function.comp_def] using hmap
  rw [hstrings]
  unfold Search.ids
  simp [List.mem_filterMap]

/-! ## Runs -/

/-- The tweets of all the searches are in the `extra`, each id once. -/
def Kept (rsId : Nat) (searches : List Search) (db : Db) : Prop :=
  ∀ a ∈ searches, ∀ id ∈ a.ids, (extraIds rsId db).count (some id) = 1

/-- As long as all searches are successful, the tweets of all searches so far
are kept exactly if each search returns the tweets of those before it. -/
theorem tweets_kept_iff (rsId : Nat) (searches : List Search) (db : Db) :
    (∀ before a after, searches = before ++ a :: after →
        Along (perform rsId) (Succeeds rsId) (before ++ [a]) db →
        Kept rsId (before ++ [a]) (run (perform rsId) (before ++ [a]) db)) ↔
      ∀ before a after, searches = before ++ a :: after →
        Along (perform rsId) (Succeeds rsId) (before ++ [a]) db →
        ∀ b ∈ before, ∀ id ∈ b.ids, id ∈ a.ids := by
  have hkept (before : List Search) (a : Search)
      (hsucceeds : Along (perform rsId) (Succeeds rsId) (before ++ [a]) db) :
      Kept rsId (before ++ [a]) (run (perform rsId) (before ++ [a]) db) ↔
        ∀ b ∈ before, ∀ id ∈ b.ids, id ∈ a.ids := by
    have hlast := (along_append.mp hsucceeds).2.1
    rw [run_append]
    unfold Kept
    simp only [run_cons, run_nil, count_extraIds_perform hlast, List.mem_append,
      List.mem_singleton]
    constructor
    · intro h b hb id hid
      exact h b (Or.inl hb) id hid
    · intro h b hb id hid
      rcases hb with hb | rfl
      · exact h b hb id hid
      · exact hid
  constructor
  · intro h before a after heq hsucceeds
    exact (hkept before a hsucceeds).mp (h before a after heq hsucceeds)
  · intro h before a after heq hsucceeds
    exact (hkept before a hsucceeds).mpr (h before a after heq hsucceeds)

/-! ## A tweet that is lost -/

/-- A search that returns one tweet. -/
def search (id : String) : Search :=
  let result : Value := .hash [(.str "statuses", .arr [.hash
    [(.str "id_str", .str id), (.str "text", .str "A new paper"),
     (.str "user", .hash [(.str "screen_name", .str "plos")])]])]
  { env := plainEnv
    web := fun _ _ => .body result
    moment := Retrieval.juneFirst
    lib := { isoTime := fun time => .ok time, getAuthors := fun _ => .arr [] }
    result := result }

/-- A work with its retrieval status. -/
def tweeted : Retrieval where
  rs := { id := 1, workId := 1, sourceId := 1 }
  source :=
    { id := 1, type := .twitterSearch, name := "twitter_search", title := "Twitter"
      state := .working, config := { fields := [] } }
  work :=
    { id := 1
      col := fun c =>
        if c = .doi then some "10.1234/one"
        else if c = .canonicalUrl then some "http://www.example.org/one"
        else if c = .pid then some "http://doi.org/10.1234/one"
        else none
      title := some "One"
      year := some 2014
      publishedOn := some ⟨2014, 5, 1, by decide⟩ }

def tweetedDb : Db where
  sources := Table.empty.insert tweeted.source
  works := Table.empty.insert tweeted.work
  retrievalStatuses := Table.empty.insert tweeted.rs

/-- Whether the search of a work that has a URL is sent and its result saved. -/
def Search.check (a : Search) (rsId : Nat) (db : Db) : Bool :=
  match SourceJob.lookup rsId db with
  | .error _ => false
  | .ok (rs, work) =>
    match db.sources.first (fun source => source.id == rs.sourceId) with
    | none => false
    | some source =>
      a.stores ⟨rs, source, work⟩ db && present (work.col .canonicalUrl) &&
        !blank (queryString work)

theorem fetched_search {r : Retrieval} {db : Db} {id : String}
    (hurl : present (r.work.col .canonicalUrl) = true)
    (hquery : blank (queryString r.work) = false) :
    (r.fetched (search id).env (search id).web (adapter (search id).env (search id).lib) db).1 =
      .ok (search id).result := by
  simp [Retrieval.fetched, adapter, Source.getData, getQueryUrl, getQueryString, Work.getUrl, hurl,
    hquery, presence, Program.bind, Program.run, Fetch.get, Program.call, handle, getResult, search,
    Value.isHash]

theorem succeeds_of_check {rsId : Nat} {db : Db} {id : String}
    (h : (search id).check rsId db = true) : Succeeds rsId db (search id) := by
  unfold Search.check at h
  split at h
  next => cases h
  next rs work hlookup =>
    split at h
    next => cases h
    next source hsource =>
      simp only [Bool.and_eq_true, Bool.not_eq_true'] at h
      obtain ⟨⟨hstores, hurl⟩, hquery⟩ := h
      refine ⟨rs, work, source, hlookup, hsource, fetched_search hurl hquery, rfl, ?_, hstores⟩
      intro item hitem
      rw [List.mem_singleton.mp hitem]
      exact ⟨id, rfl⟩

/-- The second search does not return the first tweet, which is gone then. -/
theorem first_tweet_lost :
    Along (perform 1) (Succeeds 1) [search "1", search "2"] tweetedDb ∧
      ¬ Kept 1 [search "1", search "2"]
        (run (perform 1) [search "1", search "2"] tweetedDb) := by
  have hfirst : Succeeds 1 tweetedDb (search "1") := succeeds_of_check (by decide +kernel)
  have hsecond : Succeeds 1 (perform 1 (search "1") tweetedDb) (search "2") :=
    succeeds_of_check (by decide +kernel)
  refine ⟨⟨hfirst, hsecond, trivial⟩, ?_⟩
  rw [run_cons, run_cons, run_nil]
  intro hkept
  have hone := hkept (search "1") List.mem_cons_self "1" (List.mem_singleton.mpr rfl)
  have hmem := (count_extraIds_perform hsecond "1").mp hone
  exact absurd hmem (by decide +kernel)

end Lagotto.TwitterSearch
