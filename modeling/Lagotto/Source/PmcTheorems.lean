/-
Lagotto.Source.PmcTheorems — when the document of a work has the last usage of
each month.

A document that has been read is written back with one entry replaced. One that
could not be read is taken for a document without entries, and if the request
for its revision and the write go through, the entry of the new month is all
that is left. `step_of_unread` and `step_of_not_unread` say what a visit can do,
`current_step_iff` when it keeps the entries of the other months, and
`views_current_iff` puts this together for every sequence of feeds.
-/
import Lagotto.Source.Pmc

namespace Lagotto.Pmc

open Documents
open StateMachine

variable {urlDb : String}

/-! ## Visits that raise -/

/-- Whether a visit ends the feed with an exception, which does not depend on
the documents. -/
def Visit.raises (v : Visit) : Bool :=
  (presence v.article.doi).isSome &&
    (v.article.usage.isNone || v.network.get.any (·.status == 409) ||
      v.network.head.any (·.status == 409))

/-- The state after a visit. -/
def step (urlDb : String) (v : Visit) (s : State) : State := (visit urlDb v s).2

/-- The entries of a work. -/
def State.views (urlDb : String) (s : State) (doi : String) : List View :=
  (s.couch.body (Couchable.documentUrl urlDb doi)).getD []

/-- A visit that saves an entry: what is in the documents afterwards. -/
structure Stored (urlDb : String) (s after : State) (doi : String) (view : View)
    (data : List View) : Prop where
  saved : ∀ d, after.saved d = if d = doi then s.saved d ++ [view] else s.saved d
  views : ∀ d, after.views urlDb d = if d = doi then data else s.views urlDb d

/-- The document has not been read and is written. -/
def Visit.Unread (v : Visit) : Prop :=
  presence v.article.doi ≠ none ∧ v.network.get ≠ none ∧ v.network.head = none ∧
    v.network.put = none

theorem stored_of_put {s : State} {doi : String} {view : View} {rev : Option Nat}
    {data : List View} {saved : Nat × Couch (List View)}
    (h : s.couch.put (Couchable.documentUrl urlDb doi) rev data = some saved) :
    Stored urlDb s
      { couch := saved.2, saved := fun d => if d = doi then s.saved d ++ [view] else s.saved d }
      doi view data := by
  refine ⟨fun d => rfl, ?_⟩
  intro d
  simp only [State.views, Store.body_put h, Couchable.documentUrl_inj]
  split <;> rfl

section Parsed

variable {v : Visit} (s : State) {doi : String} {usage : List (String × String)}
  {rev headRev : Option Nat} {data : List View} {view : View}

theorem of_not_raises (hraises : v.raises = false) (hdoi : presence v.article.doi = some doi) :
    (∃ usage, v.article.usage = some usage) ∧
      (∀ f, v.network.get = some f → f.status ≠ 409) ∧
      ∀ f, v.network.head = some f → f.status ≠ 409 := by
  simp only [Visit.raises, hdoi, Option.isSome_some, Bool.true_and, Bool.or_eq_false_iff,
    Option.any_eq_false, beq_eq_false_iff_ne, Option.isNone_eq_false_iff] at hraises
  obtain ⟨⟨husage, hget⟩, hhead⟩ := hraises
  exact ⟨Option.isSome_iff_exists.mp husage, hget, hhead⟩

/-- The request for the revision gives it, or fails. -/
theorem getLagottoRev_of_not_raises (couch : Couch (List View)) (url : String)
    (hraises : v.raises = false) (hdoi : presence v.article.doi = some doi) :
    Couchable.getLagottoRev couch url v.network.head =
      .ok (if v.network.head = none then couch.rev url else none) := by
  obtain ⟨-, -, hheadOk⟩ := of_not_raises hraises hdoi
  cases hhead : v.network.head with
  | none => rfl
  | some f => exact Couchable.getLagottoRev_of_failed (hheadOk f hhead)

variable (urlDb)

theorem parseWork_of_failed {f : Failure} (hdoi : presence v.article.doi = some doi)
    (husage : v.article.usage = some usage) (hget : v.network.get = some f)
    (hf : f.status ≠ 409) :
    parseWork urlDb s.couch v =
      .ok (some (doi, none, [⟨v.year, v.month, usage⟩], ⟨v.year, v.month, usage⟩)) := by
  simp only [parseWork, hdoi, husage, hget, Couchable.getResult_of_failed hf]

theorem parseWork_of_read (hdoi : presence v.article.doi = some doi)
    (husage : v.article.usage = some usage) (hget : v.network.get = none) :
    parseWork urlDb s.couch v =
      .ok (some (doi, s.couch.rev (Couchable.documentUrl urlDb doi),
        replace View.period ⟨v.year, v.month, usage⟩ (s.views urlDb doi),
        ⟨v.year, v.month, usage⟩)) := by
  simp only [parseWork, hdoi, husage, hget, Couchable.getResult, Store.rev, State.views,
    Store.body]
  cases s.couch (Couchable.documentUrl urlDb doi) with
  | none => rfl
  | some document => rfl

variable {urlDb s}

theorem step_of_refused
    (hparse : parseWork urlDb s.couch v = .ok (some (doi, rev, data, view)))
    (hhead : Couchable.getLagottoRev s.couch (Couchable.documentUrl urlDb doi) v.network.head =
      .ok headRev)
    (hput : v.network.put ≠ none ∨
      s.couch.put (Couchable.documentUrl urlDb doi) (rev.or headRev) data = none) :
    step urlDb v s = s := by
  obtain ⟨hash, hsave⟩ := Couchable.saveLagottoData_of_refused hhead hput
  simp only [step, visit, hparse, hsave]

/-- With the revision of the document the save succeeds. -/
theorem step_of_rev
    (hparse : parseWork urlDb s.couch v = .ok (some (doi, rev, data, view)))
    (hhead : Couchable.getLagottoRev s.couch (Couchable.documentUrl urlDb doi) v.network.head =
      .ok headRev)
    (hput : v.network.put = none)
    (hrev : rev.or headRev = s.couch.rev (Couchable.documentUrl urlDb doi)) :
    Stored urlDb s (step urlDb v s) doi view data := by
  obtain ⟨saved, hsaved⟩ := s.couch.put_rev (Couchable.documentUrl urlDb doi) data
  rw [← hrev] at hsaved
  simp only [step, visit, hparse, hput, Couchable.saveLagottoData_of_put hhead hsaved]
  exact stored_of_put hsaved

end Parsed

section Step

variable {v : Visit} (s : State) {doi : String} (hraises : v.raises = false)
  (hdoi : presence v.article.doi = some doi)

include hraises hdoi

/-- A document that has not been read is replaced if its revision is known. -/
theorem step_of_unread (hget : v.network.get ≠ none) (hhead : v.network.head = none)
    (hput : v.network.put = none) :
    ∃ view, view.period = (v.month, v.year) ∧ Stored urlDb s (step urlDb v s) doi view [view] := by
  obtain ⟨⟨usage, husage⟩, hgetOk, -⟩ := of_not_raises hraises hdoi
  obtain ⟨f, hf⟩ := Option.ne_none_iff_exists'.mp hget
  have hparse := parseWork_of_failed urlDb s hdoi husage hf (hgetOk f hf)
  have hrequest := getLagottoRev_of_not_raises s.couch (Couchable.documentUrl urlDb doi)
    hraises hdoi
  rw [if_pos hhead] at hrequest
  exact ⟨_, rfl, step_of_rev hparse hrequest hput Option.none_or⟩

/-- A document that has been read gets the new entry. -/
theorem step_of_read (hget : v.network.get = none) (hput : v.network.put = none) :
    ∃ view, Stored urlDb s (step urlDb v s) doi view
      (replace View.period view (s.views urlDb doi)) := by
  obtain ⟨⟨usage, husage⟩, -, -⟩ := of_not_raises hraises hdoi
  have hparse := parseWork_of_read urlDb s hdoi husage hget
  have hrequest := getLagottoRev_of_not_raises s.couch (Couchable.documentUrl urlDb doi)
    hraises hdoi
  refine ⟨_, step_of_rev hparse hrequest hput ?_⟩
  -- nobody has written since the document was read
  split
  · exact Option.or_self
  · exact Option.or_none

/-- Without the document and its revision only a new document is written. -/
theorem step_of_blind (hget : v.network.get ≠ none) (hhead : v.network.head ≠ none)
    (hput : v.network.put = none) :
    step urlDb v s = s ∨ ∃ view, Stored urlDb s (step urlDb v s) doi view
      (replace View.period view (s.views urlDb doi)) := by
  obtain ⟨⟨usage, husage⟩, hgetOk, -⟩ := of_not_raises hraises hdoi
  obtain ⟨f, hf⟩ := Option.ne_none_iff_exists'.mp hget
  have hparse := parseWork_of_failed urlDb s hdoi husage hf (hgetOk f hf)
  have hrequest := getLagottoRev_of_not_raises s.couch (Couchable.documentUrl urlDb doi)
    hraises hdoi
  rw [if_neg hhead] at hrequest
  cases hdocument : s.couch (Couchable.documentUrl urlDb doi) with
  | some document =>
    left
    refine step_of_refused hparse hrequest (Or.inr (Store.put_none ?_ _))
    simp [hdocument]
  | none =>
    right
    have hnew : s.couch.rev (Couchable.documentUrl urlDb doi) = none := by
      simp [Store.rev, hdocument]
    have hempty : s.views urlDb doi = [] := by
      simp [State.views, Store.body, hdocument]
    rw [hempty]
    exact ⟨_, step_of_rev hparse hrequest hput hnew.symm⟩

theorem step_of_put_failed (hput : v.network.put ≠ none) : step urlDb v s = s := by
  obtain ⟨⟨usage, husage⟩, hgetOk, -⟩ := of_not_raises hraises hdoi
  have hrequest := getLagottoRev_of_not_raises s.couch (Couchable.documentUrl urlDb doi)
    hraises hdoi
  cases hget : v.network.get with
  | none =>
    exact step_of_refused (parseWork_of_read urlDb s hdoi husage hget) hrequest (Or.inl hput)
  | some f =>
    exact step_of_refused (parseWork_of_failed urlDb s hdoi husage hget (hgetOk f hget)) hrequest
      (Or.inl hput)

end Step

/-- A visit that has read the document, or does not get to write it, saves
nothing or replaces an entry. -/
theorem step_of_not_unread {v : Visit} (s : State) (hraises : v.raises = false)
    (h : ¬ v.Unread) :
    step urlDb v s = s ∨ ∃ doi view, Stored urlDb s (step urlDb v s) doi view
      (replace View.period view (s.views urlDb doi)) := by
  cases hdoi : presence v.article.doi with
  | none =>
    left
    simp only [step, visit, parseWork, hdoi]
  | some doi =>
    by_cases hput : v.network.put = none
    · by_cases hget : v.network.get = none
      · exact Or.inr ⟨doi, step_of_read s hraises hdoi hget hput⟩
      · have hhead : v.network.head ≠ none := by
          intro hhead
          exact h ⟨by simp [hdoi], hget, hhead, hput⟩
        rcases step_of_blind s hraises hdoi hget hhead hput with hsame | hstored
        · exact Or.inl hsame
        · exact Or.inr ⟨doi, hstored⟩
    · exact Or.inl (step_of_put_failed s hraises hdoi hput)

/-! ## Runs -/

/-- Each document has the last entry that was saved for each month, and no other
ones. -/
def Current (urlDb : String) (s : State) : Prop :=
  ∀ doi, Latest View.period (s.saved doi) (s.views urlDb doi)

/-- A document that is written without having been read has no entries for
other months. -/
def Visit.Keeps (urlDb : String) (v : Visit) (s : State) : Prop :=
  v.Unread → ∀ doi, presence v.article.doi = some doi →
    ∀ view ∈ s.views urlDb doi, view.period = (v.month, v.year)

/-- The entries of one work have changed. -/
theorem current_iff_of_stored {s after : State} {doi : String} {view : View} {data : List View}
    (hs : Current urlDb s) (h : Stored urlDb s after doi view data) :
    Current urlDb after ↔ Latest View.period (s.saved doi ++ [view]) data := by
  constructor
  · intro hafter
    have hdoi := hafter doi
    rwa [h.saved, h.views, if_pos rfl, if_pos rfl] at hdoi
  · intro hdata d
    rw [h.saved, h.views]
    by_cases hd : d = doi
    · subst hd
      rwa [if_pos rfl, if_pos rfl]
    · rw [if_neg hd, if_neg hd]
      exact hs d

theorem current_step_iff {v : Visit} (hraises : v.raises = false) {s : State}
    (hs : Current urlDb s) : Current urlDb (step urlDb v s) ↔ v.Keeps urlDb s := by
  by_cases hunread : v.Unread
  · obtain ⟨hpresent, hget, hhead, hput⟩ := hunread
    obtain ⟨doi, hdoi⟩ := Option.ne_none_iff_exists'.mp hpresent
    obtain ⟨view, hperiod, hstored⟩ := step_of_unread s hraises hdoi hget hhead hput
    rw [current_iff_of_stored hs hstored, latest_singleton_iff (hs doi), hperiod]
    constructor
    · intro hviews _ d hd
      rw [hdoi] at hd
      cases hd
      exact hviews
    · intro hkeeps
      exact hkeeps ⟨hpresent, hget, hhead, hput⟩ doi hdoi
  · have hcurrent : Current urlDb (step urlDb v s) := by
      rcases step_of_not_unread s hraises hunread with hsame | ⟨doi, view, hstored⟩
      · rw [hsame]
        exact hs
      · exact (current_iff_of_stored hs hstored).mpr (latest_replace (hs doi) view)
    exact iff_of_true hcurrent (fun h => absurd h hunread)

theorem visit_of_raises (urlDb : String) {v : Visit} (hraises : v.raises = true) (s : State) :
    ∃ e, visit urlDb v s = (.error e, s) := by
  simp only [Visit.raises, Bool.and_eq_true, Bool.or_eq_true, Option.any_eq_true, beq_iff_eq,
    Option.isNone_iff_eq_none] at hraises
  obtain ⟨hpresent, hcases⟩ := hraises
  obtain ⟨doi, hdoi⟩ := Option.isSome_iff_exists.mp hpresent
  unfold visit
  cases hparse : parseWork urlDb s.couch v with
  | error e => exact ⟨e, rfl⟩
  | ok result =>
    -- the document was asked for, so it is the second request that raises
    have hhead : ∃ f, v.network.head = some f ∧ f.status = 409 := by
      rcases hcases with (husage | ⟨f, hf, hconflict⟩) | hhead
      · simp [parseWork, hdoi, husage] at hparse
      · cases husage : v.article.usage with
        | none => simp [parseWork, hdoi, husage] at hparse
        | some usage =>
          simp [parseWork, hdoi, husage, Couchable.getResult, Couchable.rescueFaradayError, hf,
            hconflict, Except.map] at hparse
      · exact hhead
    obtain ⟨f, hf, hconflict⟩ := hhead
    cases result with
    | none =>
      simp only [parseWork, hdoi] at hparse
      repeat' split at hparse
      all_goals cases hparse
    | some parsed =>
      simp only [Couchable.saveLagottoData, Couchable.getLagottoRev,
        Couchable.rescueFaradayError, hf, hconflict, if_true, Except.map]
      exact ⟨_, rfl⟩

theorem visit_of_not_raises (urlDb : String) {v : Visit} (hraises : v.raises = false)
    (s : State) : visit urlDb v s = (.ok (), step urlDb v s) := by
  have hok : (visit urlDb v s).1 = .ok () := by
    unfold visit
    cases hdoi : presence v.article.doi with
    | none => simp only [parseWork, hdoi]
    | some doi =>
      have hparse : ∃ rev data view,
          parseWork urlDb s.couch v = .ok (some (doi, rev, data, view)) := by
        obtain ⟨⟨usage, husage⟩, hgetOk, -⟩ := of_not_raises hraises hdoi
        cases hget : v.network.get with
        | none => exact ⟨_, _, _, parseWork_of_read urlDb s hdoi husage hget⟩
        | some f => exact ⟨_, _, _, parseWork_of_failed urlDb s hdoi husage hget (hgetOk f hget)⟩
      obtain ⟨rev, data, view, hparse⟩ := hparse
      have hrequest := getLagottoRev_of_not_raises s.couch (Couchable.documentUrl urlDb doi)
        hraises hdoi
      simp only [hparse, Couchable.saveLagottoData, hrequest]
      cases Couchable.putLagottoData s.couch (Couchable.documentUrl urlDb doi) (rev.or _) data
        v.network.put with
      | mk saved couch => cases saved <;> rfl
  exact Prod.ext hok rfl

/-- The visits of a feed up to the one that raises. -/
def Feed.carriedOut (feed : Feed) : List Visit := feed.visits.takeWhile (fun v => !v.raises)

theorem visits_eq_run (vs : List Visit) (s : State) :
    (visits urlDb vs s).2 = run (step urlDb) (vs.takeWhile (fun v => !v.raises)) s := by
  induction vs generalizing s with
  | nil => rfl
  | cons v rest ih =>
    cases hraises : v.raises with
    | true =>
      obtain ⟨e, he⟩ := visit_of_raises urlDb hraises s
      simp only [visits, he, List.takeWhile, hraises, Bool.not_true, run_nil]
    | false =>
      simp only [visits, visit_of_not_raises urlDb hraises, List.takeWhile, hraises, Bool.not_false,
        run_cons]
      exact ih (step urlDb v s)

/-- The feeds of a sequence, one after the other. -/
def parseFeeds (urlDb : String) (feeds : List Feed) (s : State) : State :=
  run (fun feed s => (parseFeed urlDb feed s).2) feeds s

theorem parseFeeds_eq_run (feeds : List Feed) (s : State) :
    parseFeeds urlDb feeds s = run (step urlDb) (feeds.flatMap Feed.carriedOut) s := by
  unfold parseFeeds
  induction feeds generalizing s with
  | nil => rfl
  | cons feed rest ih =>
    rw [run_cons, ih, List.flatMap_cons, run_append]
    exact congrArg (run (step urlDb) (rest.flatMap Feed.carriedOut)) (visits_eq_run feed.visits s)

theorem not_raises_of_carriedOut {feeds : List Feed} {v : Visit}
    (hv : v ∈ feeds.flatMap Feed.carriedOut) : v.raises = false := by
  obtain ⟨feed, _, hfeed⟩ := List.mem_flatMap.mp hv
  have hkept := List.mem_takeWhile_imp hfeed
  simpa using hkept

/-- A sequence of feeds is a run of visits, and every state of it has the last
entries that were saved exactly if no visit writes a document it has not read
and that has entries for other months. -/
theorem views_current_iff (urlDb : String) (feeds : List Feed) :
    parseFeeds urlDb feeds {} = run (step urlDb) (feeds.flatMap Feed.carriedOut) {} ∧
      ((∀ before after, feeds.flatMap Feed.carriedOut = before ++ after →
          Current urlDb (run (step urlDb) before {})) ↔
        Along (step urlDb) (fun s v => v.Keeps urlDb s) (feeds.flatMap Feed.carriedOut) {}) := by
  refine ⟨parseFeeds_eq_run feeds {}, invariant_iff ?_ ?_⟩
  · intro v hv s hs
    exact current_step_iff (not_raises_of_carriedOut hv) hs
  · intro doi
    exact latest_nil

/-- January is saved. In February the document is not read in time, and the
document that is saved has February only. -/
theorem january_lost :
    let doi := "10.1371/journal.pone.0008776"
    let january : Feed :=
      ⟨"1", "2015", none, [(⟨some doi, some [("full-text", "10")]⟩, {})]⟩
    let february : Feed :=
      ⟨"2", "2015", none, [(⟨some doi, some [("full-text", "20")]⟩,
        { get := some (.timeout "execution expired") })]⟩
    let s := parseFeeds "http://127.0.0.1:5984/pmc/" [january, february] {}
    s.saved doi = [⟨"2015", "1", [("full-text", "10")]⟩, ⟨"2015", "2", [("full-text", "20")]⟩] ∧
      s.views "http://127.0.0.1:5984/pmc/" doi = [⟨"2015", "2", [("full-text", "20")]⟩] ∧
      ¬ Current "http://127.0.0.1:5984/pmc/" s := by
  intro doi january february s
  have hsaved : s.saved doi =
      [⟨"2015", "1", [("full-text", "10")]⟩, ⟨"2015", "2", [("full-text", "20")]⟩] := by
    decide +kernel
  have hviews : s.views "http://127.0.0.1:5984/pmc/" doi =
      [⟨"2015", "2", [("full-text", "20")]⟩] := by
    decide +kernel
  refine ⟨hsaved, hviews, ?_⟩
  intro hcurrent
  have hlost := hcurrent doi ("1", "2015")
  rw [hsaved, hviews] at hlost
  exact absurd hlost (by decide +kernel)

end Lagotto.Pmc
