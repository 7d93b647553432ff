/-
Lagotto.Source.PagingTheorems — what is collected from the pages of a server
that holds a list of distinct records.

`walkPages_run` follows the loop: the list of the first page with the windows
of the server appended in the order they are requested. For Europe PMC the
windows are the pages 2, 3, … and the list is the server's. For Nature
OpenSearch page `n` starts at record `25 n + 1`, so the second window is the
third of the server, and records 26 to 50 are never asked for.

That `get_query_url` gives the URLs of one query throughout is the condition
`Steady`. It holds where the work has the identifiers the class looks up.
-/
import Lagotto.Interaction.Trace
import Lagotto.Source.Paging
import Lagotto.Work.FindOrCreateTheorems
import Mathlib.Tactic.IntervalCases

namespace Lagotto

open Interaction
open Relational

variable {work : Work} {s : Session} {v : Value} {outer inner : String}

/-! ## Lists in a result -/

/-- The list at `outer`, `inner`, as `get_related_works` reads it. -/
def Value.listAt (v : Value) (outer inner : String) : Value :=
  (v.fetch (.str outer) (.hash [])).fetch (.str inner) (.arr [])

/-- A hash with the given list. -/
structure Value.Lists (outer inner : String) (v : Value) (items : List Value) : Prop where
  isHash : v.isHash = true
  items : v.listAt outer inner = .arr items

theorem Value.fetch_of_get {k : Key} (default : Value) (h : v.get k ≠ .nil) :
    v.fetch k default = v.get k := by
  cases v with
  | hash entries =>
    unfold fetch get at *
    dsimp only at *
    cases hfind : entries.find? (fun e => decide (e.1 = k)) with
    | none => simp [hfind] at h
    | some e => simp
  | _ => exact absurd rfl h

theorem Value.get_of_fetch_ne {k : Key} (default : Value) (h : v.fetch k default ≠ default) :
    v.isHash = true ∧ v.get k = v.fetch k default := by
  cases v with
  | hash entries =>
    unfold fetch get at *
    dsimp only at *
    cases hfind : entries.find? (fun e => decide (e.1 = k)) with
    | none => simp [hfind] at h
    | some e => simp [isHash]
  | _ => exact absurd rfl h

/-- A list that is not empty is not the default of a `fetch`. -/
theorem Value.Lists.get {items : List Value} (h : v.Lists outer inner items) (hitems : items ≠ []) :
    (v.get (.str outer)).isHash = true ∧ (v.get (.str outer)).get (.str inner) = .arr items := by
  have hlist := h.items
  unfold Value.listAt at hlist
  have hinner := Value.get_of_fetch_ne (v := v.fetch (.str outer) (.hash [])) (k := .str inner)
    (.arr []) (by simpa [hlist] using hitems)
  have houter : v.fetch (.str outer) (.hash []) ≠ .hash [] := by
    intro hnone
    rw [hnone] at hlist
    exact hitems (by simpa [Value.fetch] using hlist.symm)
  rw [(Value.get_of_fetch_ne _ houter).2, hinner.2, hlist]
  exact ⟨hinner.1, rfl⟩

namespace Source

/-- A page is appended to the list, if nothing on it is there already. -/
theorem mergePage_lists {result paged : Value} {items more : List Value}
    (hresult : result.Lists outer inner items) (hitems : items ≠ [])
    (hpaged : paged.Lists outer inner more)
    (hdistinct : (items ++ more).Pairwise (fun a b => Value.eql a b = false)) :
    ∃ merged, mergePage outer inner result paged = .ok merged ∧
      merged.Lists outer inner (items ++ more) := by
  obtain ⟨hlist, hget⟩ := hresult.get hitems
  have hpage : (paged.fetch (.str outer) (.hash [])).fetch (.str inner) (.arr []) = .arr more :=
    hpaged.items
  let list := (result.get (.str outer)).set (.str inner) (.arr (items ++ more))
  have hinner : list.get (.str inner) = .arr (items ++ more) := Value.get_set hlist _ _
  have houter : (result.set (.str outer) list).get (.str outer) = list :=
    Value.get_set hresult.isHash _ _
  refine ⟨result.set (.str outer) list, ?_, Value.isHash_set hresult.isHash _ _, ?_⟩
  · simp [mergePage, hpaged.isHash, hlist, hpage, hget, Value.union,
      unionBy_of_pairwise hdistinct, Except.map, list]
  · obtain ⟨entries, hentries⟩ := Value.isHash_iff.mp (Value.isHash_set hlist (.str inner)
      (.arr (items ++ more)))
    have hhash : list = .hash entries := hentries
    have hfetch : (result.set (.str outer) list).fetch (.str outer) (.hash []) = list := by
      rw [Value.fetch_of_get _ (by rw [houter, hhash]; simp), houter]
    unfold Value.listAt
    rw [hfetch, Value.fetch_of_get _ (by simp [hinner]), hinner]

end Source

/-! ## Steady queries -/

/-- A request to one of the given URLs. -/
def Call.isTo (server : String → Bool) : Call → Bool
  | .get url => server url
  | _ => false

section Steady

variable {κ : Type} (env : Env) (web : Web) (rs : RetrievalStatus)
variable (query : κ → Work → Fetch (Option String × Work)) (url : κ → String)
variable (Known : Work → Session → Prop)

/-- `query` gives the URLs `url`, from all works and sessions that are `Known`;
neither its look-ups nor the pages that are read lead out of these. -/
structure Steady : Prop where
  asks : ∀ k work s, Known work s → ∃ work' s',
    (query k work).run (handle env web rs) s = (.ok (some (url k), work'), s') ∧ Known work' s'
  reads : ∀ work s v, Known work s → Known work { s with results := s.results ++ [v] }

/-- The URLs are those of a server, and the look-ups of the query ask others. -/
structure Apart (server : String → Bool) : Prop where
  own : ∀ k, server (url k) = true
  others : ∀ k work s, Known work s →
    ∀ c ∈ (query k work).trace (handle env web rs) s, c.isTo server = false

end Steady

section Pages

variable {κ : Type} {env : Env} {web : Web} {rs : RetrievalStatus}
variable {query : κ → Work → Fetch (Option String × Work)} {url : κ → String}
variable {Known : Work → Session → Prop}

theorem handle_get {u : String} (h : web s.results u = .body v) :
    handle env web rs (.get u) s = (.ok v, { s with results := s.results ++ [v] }) := by
  show getResult env web rs u s = _
  rw [getResult, h]
  rfl

theorem filter_trace_query {server : String → Bool}
    (hapart : Apart env web rs query url Known server) {k : κ} (hknown : Known work s) :
    ((query k work).trace (handle env web rs) s).filter (·.isTo server) = [] := by
  rw [List.filter_eq_nil_iff]
  intro c hc
  simp [hapart.others k work s hknown c hc]

/-- A query that looks nothing up. -/
theorem steady_of_done (hquery : ∀ k, query k work = .done (some (url k), work)) :
    Steady env web rs query url (fun w _ => w = work) where
  asks := by
    rintro k _ s rfl
    exact ⟨_, s, by rw [hquery k]; rfl, rfl⟩
  reads := fun _ _ _ h => h

theorem apart_of_done (hquery : ∀ k, query k work = .done (some (url k), work))
    {server : String → Bool} (hown : ∀ k, server (url k) = true) :
    Apart env web rs query url (fun w _ => w = work) server where
  own := hown
  others := by
    rintro k _ s rfl c hc
    rw [hquery k] at hc
    exact absurd hc List.not_mem_nil

/-- The same queries under other names. -/
theorem Steady.comap {ι : Type} (h : Steady env web rs query url Known) (f : ι → κ) :
    Steady env web rs (fun i => query (f i)) (fun i => url (f i)) Known where
  asks := fun i => h.asks (f i)
  reads := h.reads

/-- A page is asked for and read: what is done with it is done with what the
server has, from a known work. -/
theorem run_page {α : Type} (hsteady : Steady env web rs query url Known) {k : κ}
    (hknown : Known work s) {P : Value → Prop}
    (hserved : ∀ results, ∃ v, web results (url k) = .body v ∧ P v)
    (next : Option String × Work → Fetch α) (read : Work → Value → Fetch α)
    (hnext : ∀ work, next (some (url k), work) = (Fetch.get (url k)).bind (read work)) :
    ∃ v work' s', P v ∧ Known work' s' ∧
      ((query k work).bind next).run (handle env web rs) s =
        (read work' v).run (handle env web rs) s' ∧
      ∀ server, Apart env web rs query url Known server →
        (((query k work).bind next).trace (handle env web rs) s).filter (·.isTo server) =
          .get (url k) :: ((read work' v).trace (handle env web rs) s').filter (·.isTo server) := by
  obtain ⟨work', s', hquery, hknown'⟩ := hsteady.asks k work s hknown
  obtain ⟨v, hweb, hv⟩ := hserved s'.results
  have hget : handle env web rs (.get (url k)) s' =
      (.ok v, { s' with results := s'.results ++ [v] }) := handle_get hweb
  have hcall : (Fetch.get (url k)).run (handle env web rs) s' =
      (.ok v, { s' with results := s'.results ++ [v] }) := (Program.run_call _ _).trans hget
  refine ⟨v, work', _, hv, hsteady.reads work' s' v hknown', ?_, ?_⟩
  · rw [Program.run_bind_of_ok hquery, hnext, Program.run_bind_of_ok hcall]
  · intro server hapart
    have htrace : (Fetch.get (url k)).trace (handle env web rs) s' = [.get (url k)] :=
      Program.trace_call hget
    rw [Program.trace_bind_of_ok hquery, hnext, Program.trace_bind_of_ok hcall, htrace,
      List.filter_append, filter_trace_query hapart hknown]
    simp [Call.isTo, hapart.own k]

end Pages

namespace Source

variable {env : Env} {web : Web} {rs : RetrievalStatus}
variable {query : Nat → Work → Fetch (Option String × Work)} {url : Nat → String}
variable {Known : Work → Session → Prop}

/-- **The loop appends the windows of the server in the order of the pages, and
requests each of them once.** -/
theorem walkPages_run (hsteady : Steady env web rs query url Known) (source : Source)
    {content : Nat → List Value} {pages : List Nat} {items : List Value} {result : Value}
    (hknown : Known work s) (hserved : ∀ k ∈ pages, ∀ results, ∃ v, web results (url k) = .body v ∧
      v.Lists outer inner (content k)) (hresult : result.Lists outer inner items)
    (hitems : items ≠ [])
    (hdistinct : (items ++ pages.flatMap content).Pairwise (fun a b => Value.eql a b = false)) :
    ∃ result' s', (source.walkPages query outer inner pages result work).run
        (handle env web rs) s = (.ok result', s') ∧
      result'.Lists outer inner (items ++ pages.flatMap content) ∧
      ∀ server, Apart env web rs query url Known server →
        ((source.walkPages query outer inner pages result work).trace
          (handle env web rs) s).filter (·.isTo server) = pages.map (fun k => .get (url k)) := by
  -- induction on the pages left; the list so far is never empty, so `|` finds it
  induction pages generalizing items result work s with
  | nil => exact ⟨result, s, rfl, by simpa using hresult, fun _ _ => rfl⟩
  | cons page pages ih =>
    obtain ⟨v, work', s', hv, hknown', hrun, htrace⟩ := run_page hsteady hknown
      (hserved page List.mem_cons_self)
      (fun found => (source.getResult found.2 found.1).bind fun paged =>
        (Program.ofExcept (mergePage outer inner result paged)).bind fun result =>
          source.walkPages query outer inner pages result found.2)
      (fun work paged => (Program.ofExcept (mergePage outer inner result paged)).bind fun result =>
        source.walkPages query outer inner pages result work) (fun work => rfl)
    rw [List.flatMap_cons, ← List.append_assoc] at hdistinct
    obtain ⟨merged, hmerge, hmerged⟩ := mergePage_lists hresult hitems hv
      (List.pairwise_append.mp hdistinct).1
    obtain ⟨result', s'', hrest, hlists, hrequests⟩ := ih hknown'
      (fun k hk => hserved k (List.mem_cons_of_mem _ hk)) hmerged (by simp [hitems]) hdistinct
    rw [hmerge] at hrun htrace
    refine ⟨result', s'', hrun.trans hrest, ?_, fun server hapart => ?_⟩
    · rw [List.flatMap_cons, ← List.append_assoc]
      exact hlists
    · rw [List.map_cons, ← hrequests server hapart]
      exact htrace server hapart

/-- The first page, for a work there is a query for. -/
theorem firstPage_run (hsteady : Steady env web rs query url Known) {k : Nat}
    (hknown : Known work s) {P : Value → Prop}
    (hserved : ∀ results, ∃ v, web results (url k) = .body v ∧ P v)
    (rest : Value → Work → Fetch Value) :
    ∃ v work' s', P v ∧ Known work' s' ∧
      (firstPage (query k work) rest).run (handle env web rs) s =
        (rest v work').run (handle env web rs) s' ∧
      ∀ server, Apart env web rs query url Known server →
        ((firstPage (query k work) rest).trace (handle env web rs) s).filter (·.isTo server) =
          .get (url k) :: ((rest v work').trace (handle env web rs) s').filter (·.isTo server) := by
  unfold firstPage
  exact run_page hsteady hknown hserved _ (fun work v => rest v work) (fun _ => rfl)

/-- The pages from the second on are appended to the first. -/
theorem collectPages_run (hsteady : Steady env web rs query url Known) (source : Source)
    (content : Nat → List Value) (total : Nat) {items : List Value} {result : Value}
    (hknown : Known work s)
    (hserved : ∀ k, 2 ≤ k → k ≤ Relational.totalPages 25 total → ∀ results, ∃ v,
      web results (url k) = .body v ∧ v.Lists outer inner (content k))
    (hresult : result.Lists outer inner items) (hitems : 25 < total → items ≠ [])
    (hdistinct : (items ++ (List.range' 2 (Relational.totalPages 25 total - 1)).flatMap
      content).Pairwise (fun a b => Value.eql a b = false)) :
    ∃ result' s', (source.collectPages query outer inner 25 total result work).run
        (handle env web rs) s = (.ok result', s') ∧
      result'.Lists outer inner
        (items ++ (List.range' 2 (Relational.totalPages 25 total - 1)).flatMap content) ∧
      ∀ server, Apart env web rs query url Known server →
        ((source.collectPages query outer inner 25 total result work).trace
          (handle env web rs) s).filter (·.isTo server) =
            (List.range' 2 (Relational.totalPages 25 total - 1)).map (fun k => .get (url k)) := by
  by_cases hmore : 25 < total
  · have hpages : totalPages 25 (total : Int) = Relational.totalPages 25 total := by
      unfold totalPages Relational.totalPages
      rw [if_neg (by omega)]
      omega
    rw [collectPages, if_pos (by omega), hpages]
    refine walkPages_run hsteady source hknown (fun k hk => ?_) hresult (hitems hmore) hdistinct
    obtain ⟨hlow, hhigh⟩ := List.mem_range'_1.mp hk
    exact hserved k hlow (by omega)
  · have hone : Relational.totalPages 25 total = 1 := by
      rw [totalPages_eq_max (by decide)]
      omega
    rw [collectPages, if_neg (by omega), hone]
    exact ⟨result, s, rfl, by simpa using hresult, fun _ _ => rfl⟩

end Source

/-- A server with a page for each of the keys. -/
def serve (url : Nat → String) (keys : List Nat) (page : Nat → Value) : Web := fun _ requested =>
  match keys.find? (fun k => url k == requested) with
  | some k => .body (page k)
  | none => .failed (.notFound "Not Found")

theorem serve_of_mem {url : Nat → String} {keys : List Nat} {page : Nat → Value}
    (hinj : Function.Injective url) {k : Nat} (hk : k ∈ keys) (results : List Value) :
    serve url keys page results (url k) = .body (page k) := by
  have hfind : keys.find? (fun j => url j == url k) = some k := by
    cases hfound : keys.find? (fun j => url j == url k) with
    | none => exact absurd (beq_self_eq_true (url k)) (List.find?_eq_none.mp hfound k hk)
    | some j =>
      have hsame := List.find?_some hfound
      rw [hinj (beq_iff_eq.mp hsame)]
  simp [serve, hfind]

/-! ## Europe PMC -/

namespace Pmcable

/-- The server has `records`, in pages of 25, and says how many there are. -/
def Serves (c : Pmcable) (web : Web) (url : Nat → String) (records : List Value) : Prop :=
  ∀ page, 1 ≤ page → page ≤ totalPages 25 records.length → ∀ results, ∃ v,
    web results (url page) = .body v ∧
      v.Lists c.listKey c.resultKey (pageOf 25 page records) ∧ hitCount v = records.length

variable {env : Env} {web : Web} {rs : RetrievalStatus} {url : Nat → String}
variable {Known : Work → Session → Prop}

/-- **Every citation is returned once and in the order of the server, and each
page is requested once.** -/
theorem getData_returns_every_citation (c : Pmcable)
    (hsteady : Steady env web rs c.getQueryUrl url Known) (source : Source)
    {records : List Value} (hserved : c.Serves web url records)
    (hdistinct : records.Pairwise (fun a b => Value.eql a b = false)) {work : Work} {s : Session}
    (hknown : Known work s) :
    ∃ v s', (c.getData source work).run (handle env web rs) s = (.ok v, s') ∧
      v.Lists c.listKey c.resultKey records ∧
      ∀ server, Apart env web rs c.getQueryUrl url Known server →
        ((c.getData source work).trace (handle env web rs) s).filter (·.isTo server) =
          (List.range' 1 (max 1 ((records.length + 24) / 25))).map
            (fun page => .get (url page)) := by
  have hper : 0 < 25 := by decide
  have hall := pageOf_append_pages hper records
  obtain ⟨v, work', s', ⟨hlists, hcount⟩, hknown', hrun, htrace⟩ :=
    Source.firstPage_run hsteady hknown (hserved 1 le_rfl (one_le_totalPages hper _))
      (fun result work =>
      if !result.isHash then .fail ⟨"NoMethodError", "undefined method `fetch'"⟩
      else source.collectPages c.getQueryUrl c.listKey c.resultKey rows (hitCount result)
        result work)
  rw [if_neg (by simp [hlists.isHash]), hcount] at hrun
  obtain ⟨v', s'', hrest, hlists', hrequests⟩ := Source.collectPages_run hsteady source
    (fun k => pageOf 25 k records) records.length hknown' (fun k hlow hhigh results => by
      obtain ⟨v, hweb, hv, _⟩ := hserved k (by omega) hhigh results
      exact ⟨v, hweb, hv⟩) hlists (fun hmore => by
        intro hnil
        have hlen := congrArg List.length hnil
        simp only [pageOf, List.length_take, List.length_drop, List.length_nil] at hlen
        omega) (by rw [hall]; exact hdistinct)
  rw [hall] at hlists'
  refine ⟨v', s'', hrun.trans hrest, hlists', fun server hapart => ?_⟩
  have hmax : totalPages 25 records.length = max 1 ((records.length + 24) / 25) :=
    totalPages_eq_max hper _
  rw [← hmax, range'_totalPages hper, List.map_cons, ← hrequests server hapart]
  refine (htrace server hapart).trans ?_
  rw [if_neg (by simp [hlists.isHash]), hcount]
  rfl

end Pmcable

/-- A text with a number in it. -/
theorem numbered_injective (before after : String) :
    Function.Injective (fun n : Nat => before ++ toString n ++ after) := by
  intro a b h
  have hlist := congrArg String.toList h
  simp only [String.toList_append] at hlist
  have hdigits := List.append_cancel_left (List.append_cancel_right hlist)
  simp only [Nat.toString_eq_ofList_toDigits, String.toList_ofList] at hdigits
  have hnumber := congrArg (Nat.ofDigitChars 10 · 0) hdigits
  simpa [Nat.ofDigitChars_ten_toDigits] using hnumber

namespace EuropePmc

theorem urlFor_injective (pmid : String) : Function.Injective (urlFor pmid) :=
  numbered_injective _ _

/-- With all three identifiers nothing is looked up. -/
theorem getQueryUrl_of_ids (converter : String → String → String) {pmid : String}
    (hids : ∀ c ∈ [Column.doi, .pmid, .pmcid], present (work.col c) = true)
    (hpmid : work.col .pmid = some pmid) (page : Nat) :
    getQueryUrl converter page work = .done (some (urlFor pmid page), work) := by
  have hmissing : persistentIds.filter (fun id => !present (work.col id.1)) = [] := by
    simp [persistentIds, hids .doi (by simp), hids .pmid (by simp), hids .pmcid (by simp)]
  have hknown : work.getIds converter = .done (true, work) := by
    rw [Work.getIds, hmissing]
    rfl
  have hpresent : present (some pmid) = true := hpmid ▸ hids .pmid (by simp)
  rw [getQueryUrl, hknown]
  simp [Program.bind, hpmid, hpresent]

/-- A work with 26 citations. -/
def cited : Work where
  id := 1
  col := fun
    | .doi => some "10.1371/journal.pone.0000001"
    | .pmid => some "17183658"
    | .pmcid => some "1762313"
    | _ => none

def citations : List Value := (List.range 26).map (fun n => .hash [(.str "id", .int n)])

/-- The answer for a page. -/
def page (n : Nat) : Value :=
  .hash
    [(.str "hitCount", .int 26),
     (.str "citationList", .hash [(.str "citation", .arr (pageOf 25 n citations))])]

def server : Web := serve (urlFor "17183658") [1, 2] page

/-- A request to the service. -/
def isOwn (url : String) : Bool :=
  "http://www.ebi.ac.uk/europepmc/webservices/rest/MED/".toList.isPrefixOf url.toList

theorem isPrefixOf_append (base a b c d : String) :
    base.toList.isPrefixOf (base ++ a ++ b ++ c ++ d).toList = true := by
  simp only [String.toList_append, List.append_assoc]
  exact List.isPrefixOf_iff_prefix.mpr (List.prefix_append _ _)

theorem isOwn_urlFor (pmid : String) (page : Nat) : isOwn (urlFor pmid page) = true :=
  isPrefixOf_append _ _ _ _ _

theorem lists_page (n : Nat) :
    (page n).Lists "citationList" "citation" (pageOf 25 n citations) where
  isHash := rfl
  items := by simp [Value.listAt, page, Value.fetch]

/-- All 26 are returned, for two requests. -/
theorem citations_in_two_requests :
    ∃ v s', ((pmcable fun _ _ => "").getData { type := .europePmc, name := "pmc", title := "" }
        cited).run (handle plainEnv server { workId := 1, sourceId := 1 }) { db := {} } =
          (.ok v, s') ∧
      v.Lists "citationList" "citation" citations ∧
      (((pmcable fun _ _ => "").getData { type := .europePmc, name := "pmc", title := "" }
        cited).trace (handle plainEnv server { workId := 1, sourceId := 1 }) { db := {} }).filter
          (·.isTo isOwn) = [.get (urlFor "17183658" 1), .get (urlFor "17183658" 2)] := by
  have hquery : ∀ n, (pmcable fun _ _ => "").getQueryUrl n cited =
      .done (some (urlFor "17183658" n), cited) := getQueryUrl_of_ids _ (by decide) rfl
  have hsteady : Steady plainEnv server { workId := 1, sourceId := 1 }
      (pmcable fun _ _ => "").getQueryUrl (urlFor "17183658") (fun w _ => w = cited) :=
    steady_of_done hquery
  have hserved : (pmcable fun _ _ => "").Serves server (urlFor "17183658") citations := by
    intro n hlow hhigh results
    have htwo : totalPages 25 citations.length = 2 := by decide
    rw [htwo] at hhigh
    refine ⟨page n, serve_of_mem (urlFor_injective _) ?_ results, lists_page n, rfl⟩
    interval_cases n <;> decide
  obtain ⟨v, s', hrun, hlists, hrequests⟩ := Pmcable.getData_returns_every_citation _ hsteady
    { type := .europePmc, name := "pmc", title := "" } hserved (by decide) (s := { db := {} }) rfl
  exact ⟨v, s', hrun, hlists, hrequests isOwn (apart_of_done hquery (isOwn_urlFor _))⟩

end EuropePmc

/-! ## Nature OpenSearch -/

namespace NatureOpensearch

/-- The server has `records`, and answers with 25 of them from any record on. -/
def Serves (web : Web) (url : Nat → String) (records : List Value) : Prop :=
  ∀ start, 1 ≤ start → start ≤ records.length + 25 → ∀ results, ∃ v,
    web results (url start) = .body v ∧
      v.Lists "feed" "entry" ((records.drop (start - 1)).take 25) ∧
      totalResults v = records.length

variable {env : Env} {web : Web} {rs : RetrievalStatus} {url : Nat → String}
variable {Known : Work → Session → Prop} {records : List Value}

/-- The windows from the second page on begin with the third. -/
theorem flatMap_further (l : List Value) :
    (List.range' 2 (totalPages 25 l.length - 1)).flatMap
      (fun page => (l.drop (startRecord page - 1)).take 25) = l.drop 50 := by
  have hper : 0 < 25 := by decide
  have hwindows := flatMap_windows 25 50 (totalPages 25 l.length - 1) l
  have hstart : ∀ page, startRecord (2 + 1 * page) - 1 = 50 + page * 25 := by
    intro page
    simp only [startRecord]
    omega
  have henough := le_totalPages_mul hper l.length
  rw [List.range'_eq_map_range, List.flatMap_map]
  simp only [Nat.one_mul] at hstart
  simp only [hstart, hwindows]
  exact List.take_of_length_le (by rw [List.length_drop]; omega)

/-- What is returned: the first 25 records, and those from the 51st on. -/
theorem getData_run (hsteady : Steady env web rs (getQueryUrl env) url Known) (source : Source)
    (hserved : Serves web url records)
    (hdistinct : records.Pairwise (fun a b => Value.eql a b = false)) (hknown : Known work s) :
    ∃ v s', (getData env source work).run (handle env web rs) s = (.ok v, s') ∧
      v.Lists "feed" "entry" (records.take 25 ++ records.drop 50) := by
  have hper : 0 < 25 := by decide
  obtain ⟨v, work', s', ⟨hlists, hcount⟩, hknown', hrun, -⟩ :=
    Source.firstPage_run hsteady hknown (hserved 1 le_rfl (by omega)) (fun result work =>
      let result := if result.isHash then result else .hash [(.str "data", result)]
      source.collectPages (fun page => getQueryUrl env (startRecord page)) "feed" "entry" rows
        (totalResults result) result work)
  dsimp only at hrun
  rw [if_pos hlists.isHash, hcount] at hrun
  have hsublist : (records.take 25 ++ records.drop 50).Sublist records := by
    have htail : (records.drop 50).Sublist (records.drop 25) := by
      rw [show 50 = 25 + 25 from rfl, ← List.drop_drop]
      exact List.drop_sublist _ _
    have happend := htail.append_left (records.take 25)
    rwa [List.take_append_drop] at happend
  obtain ⟨v', s'', hrest, hlists', -⟩ := Source.collectPages_run (hsteady.comap startRecord) source
    (fun page => (records.drop (startRecord page - 1)).take 25) records.length hknown'
    (fun page hlow hhigh results => by
      rw [totalPages_eq_max hper] at hhigh
      obtain ⟨v, hweb, hv, _⟩ := hserved (startRecord page) (by simp [startRecord])
        (by rw [startRecord]; omega) results
      exact ⟨v, hweb, hv⟩) hlists (fun hmore hnil => by
        have hlen := congrArg List.length hnil
        simp only [List.length_take, List.length_drop, List.length_nil] at hlen
        omega) (by rw [flatMap_further]; exact hdistinct.sublist hsublist)
  rw [flatMap_further] at hlists'
  exact ⟨v', s'', hrun.trans hrest, hlists'⟩

/-- **All records are returned exactly if they fit on one page.** -/
theorem getData_complete_iff (hsteady : Steady env web rs (getQueryUrl env) url Known)
    (source : Source) (hserved : Serves web url records)
    (hdistinct : records.Pairwise (fun a b => Value.eql a b = false)) (hknown : Known work s) :
    (∃ v s' entries, (getData env source work).run (handle env web rs) s = (.ok v, s') ∧
      v.Lists "feed" "entry" entries ∧ entries.Perm records) ↔ records.length ≤ 25 := by
  obtain ⟨v, s', hrun, hlists⟩ := getData_run hsteady source hserved hdistinct hknown
  constructor
  · rintro ⟨w, t, entries, hrun', hentries, hperm⟩
    rw [hrun] at hrun'
    obtain ⟨rfl, rfl⟩ : v = w ∧ s' = t := by simpa using hrun'
    have hsame : entries = records.take 25 ++ records.drop 50 := by
      simpa using hentries.items.symm.trans hlists.items
    have hlength := hperm.length_eq
    rw [hsame, List.length_append, List.length_take, List.length_drop] at hlength
    omega
  · intro hfits
    refine ⟨v, s', _, hrun, hlists, ?_⟩
    rw [List.take_of_length_le hfits, List.drop_of_length_le (by omega), List.append_nil]

/-- With a URL nothing is looked up. -/
theorem getQueryUrl_of_url (hurl : present (work.col .canonicalUrl) = true)
    (hregistered : work.isRegistered = true) (start : Nat) :
    getQueryUrl env start work =
      .done (some (urlFor (Wikipedia.queryString work) start), work) := by
  have hknown : work.getUrl env = .done (true, work) := by simp [Work.getUrl, hurl]
  rw [getQueryUrl, hknown]
  simp [Program.bind, hregistered]

theorem urlFor_injective (search : String) : Function.Injective (urlFor search) :=
  fun _ _ h => numbered_injective _ "" (congrArg (· ++ "") h)

/-- A data set that is searched for. -/
def dataset : Work where
  id := 1
  col := fun
    | .doi => some "10.5061/dryad.1"
    | .canonicalUrl => some "http://datadryad.org/resource/doi:10.5061/dryad.1"
    | _ => none
  registrationAgency := some "datacite"

def results (n : Nat) : List Value := (List.range n).map (fun k => .hash [(.str "id", .int k)])

/-- The answer from a record on, of `n` results. -/
def page (n start : Nat) : Value :=
  .hash [(.str "feed", .hash
    [(.str "opensearch:totalResults", .int n),
     (.str "entry", .arr (((results n).drop (start - 1)).take 25))])]

def server (n : Nat) : Web :=
  serve (urlFor (Wikipedia.queryString dataset)) (List.range' 1 (n + 25)) (page n)

theorem server_serves (n : Nat) :
    Serves (server n) (urlFor (Wikipedia.queryString dataset)) (results n) := by
  have hlength : (results n).length = n := by simp [results]
  intro start hlow hhigh answers
  rw [hlength] at hhigh
  refine ⟨page n start, serve_of_mem (urlFor_injective _) ?_ answers, ⟨rfl, ?_⟩, ?_⟩
  · exact List.mem_range'_1.mpr ⟨hlow, by omega⟩
  · simp [Value.listAt, page, Value.fetch]
  · simp [totalResults, page, Value.fetch, hlength, Value.toI]

theorem dataset_steady (n : Nat) : Steady plainEnv (server n) { workId := 1, sourceId := 1 }
    (getQueryUrl plainEnv) (urlFor (Wikipedia.queryString dataset)) (fun w _ => w = dataset) :=
  steady_of_done (getQueryUrl_of_url (by decide) (by decide))

/-- Three results are all returned. -/
theorem three_results_complete :
    ∃ v s' entries, (getData plainEnv { type := .natureOpensearch, name := "nature", title := "" }
        dataset).run (handle plainEnv (server 3) { workId := 1, sourceId := 1 }) { db := {} } =
          (.ok v, s') ∧
      v.Lists "feed" "entry" entries ∧ entries.Perm (results 3) :=
  (getData_complete_iff (dataset_steady 3) _ (server_serves 3) (by decide) rfl).mpr (by decide)

/-- Of 26 results the last is not among those returned. -/
theorem last_of_26_results_missing :
    ∃ v s', (getData plainEnv { type := .natureOpensearch, name := "nature", title := "" }
        dataset).run (handle plainEnv (server 26) { workId := 1, sourceId := 1 }) { db := {} } =
          (.ok v, s') ∧
      v.Lists "feed" "entry" (results 25) ∧ (results 26).length = 26 := by
  obtain ⟨v, s', hrun, hlists⟩ := getData_run (dataset_steady 26)
    { type := .natureOpensearch, name := "nature", title := "" } (server_serves 26) (by decide)
    (s := { db := {} }) rfl
  exact ⟨v, s', hrun, hlists, by decide⟩

end NatureOpensearch

end Lagotto
