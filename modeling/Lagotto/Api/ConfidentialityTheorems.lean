/-
Lagotto.Api.ConfidentialityTheorems — what the endpoints answer depends on the
rows of public sources only, where it does.

The states agree on the rows of public sources (`SameInPublic`), so every
query that asks for rows of public sources gives the same list in both. The
works of an index are such a query as long as they are chosen and ordered by
public sources; so are the sources shown for a work, whose months and days
hang on public retrieval statuses (`filter_statusId_eq`), and the `events`
hash of v6, which is built over all sources and filtered by name afterwards
(`V6.filter_toHash`). The signposts of v5 and v3 are not filtered: they agree
only if no private source is among their names (`counts_eq`).
-/
import Lagotto.Api.Confidentiality

namespace Lagotto.Api

open Relational

variable {p : WorksParams}

section TwoStates

variable {cfg : Settings} {site : Site} {m : Measurements} (h : SameInPublic site m)

include h

/-! ## Works chosen and ordered by public sources -/

theorem statusesFor_eq {sourceId : Nat} (hpublic : site.isPrivate sourceId = false) (work : Work) :
    (site.withMeasurements m).statusesFor sourceId work = site.statusesFor sourceId work := by
  have hvisible : ∀ rs : RetrievalStatus, (rs.workId == work.id && rs.sourceId == sourceId) = true →
      (!site.isPrivate rs.sourceId) = true := by
    intro rs hrs
    rw [Bool.and_eq_true, beq_iff_eq, beq_iff_eq] at hrs
    rw [hrs.2, hpublic]
    rfl
  exact h.statuses.filter_eq (fun rs _ => hvisible rs) (fun rs _ => hvisible rs)

theorem hasEvents_eq {sourceId : Nat} (hpublic : site.isPrivate sourceId = false) (work : Work) :
    (site.withMeasurements m).hasEvents sourceId work = site.hasEvents sourceId work := by
  rw [Site.hasEvents, statusesFor_eq h hpublic, Site.hasEvents]

theorem join_eq {sourceId : Nat} (hpublic : site.isPrivate sourceId = false) (c : Collection) :
    c.join (site.withMeasurements m) sourceId = c.join site sourceId := by
  simp only [Collection.join, statusesFor_eq h hpublic]

/-- A list by a public source does not show the others. -/
theorem listed_eq {column : Column} {source : Option Source} {fallback : Collection}
    (hpublic : ∀ s ∈ source, site.isPrivate s.id = false) :
    listed cfg (site.withMeasurements m) column p source fallback =
      listed cfg site column p source fallback := by
  unfold listed
  cases p.ids with
  | some ids => rfl
  | none =>
    cases p.q with
    | some q => rfl
    | none =>
      cases source with
      | none => rfl
      | some s =>
        show (Collection.join (site.withMeasurements m) _ s.id).filter _ = _
        rw [join_eq h (hpublic s rfl)]
        rfl

/-- Nor does sorting by a public source. -/
theorem sortBySource_eq {source : Option Source} {c : Collection}
    (hpublic : source = none → ∀ name ∈ p.sort, ∀ s ∈ site.sourceNamed cfg (some name),
      site.isPrivate s.id = false) :
    sortBySource cfg (site.withMeasurements m) p source c = sortBySource cfg site p source c := by
  cases hsort : p.sort with
  | none => rw [sortBySource_unsorted hsort, sortBySource_unsorted hsort]
  | some name =>
    cases source with
    | some s => rw [sortBySource_found hsort, sortBySource_found hsort]
    | none =>
      rw [sortBySource_other hsort, sortBySource_other hsort]
      show (site.sourceNamed cfg (some name)).map _ = _
      cases hnamed : site.sourceNamed cfg (some name) with
      | none => rfl
      | some s =>
        simp only [Option.map_some, join_eq h (hpublic rfl name hsort s hnamed)]

/-- Nor does the number of entries. -/
theorem totalEntries_eq {source : Option Source} {publisher : Option Publisher}
    (hpublic : ∀ s ∈ source, site.isPrivate s.id = false) :
    totalEntries (site.withMeasurements m) p source publisher =
      totalEntries site p source publisher := by
  unfold totalEntries
  cases source with
  | none =>
    cases publisher with
    | none => rfl
    | some publisher => rfl
  | some s =>
    have hevents := funext (hasEvents_eq h (hpublic s rfl))
    cases publisher with
    | none =>
      simp only [hevents]
      rfl
    | some publisher =>
      simp only [hevents]
      rfl

/-- A public query selects the same works. -/
theorem V6.selected_eq (hquery : site.registry.PublicQuery cfg p.sourceId p.sort) :
    V6.selected cfg (site.withMeasurements m) p = V6.selected cfg site p := by
  have hids : V6.getIds cfg (site.withMeasurements m) p = V6.getIds cfg site p :=
    listed_eq h hquery.1
  have hsort : ∀ c, V6.getSort cfg (site.withMeasurements m) p c = V6.getSort cfg site p c := by
    intro c
    unfold V6.getSort
    rw [show sortBySource cfg (site.withMeasurements m) p
      ((site.withMeasurements m).sourceNamed cfg p.sourceId) c = _ from sortBySource_eq h hquery.2]
    rfl
  unfold V6.selected
  rw [hids, hsort]
  rfl

theorem V5.selected_eq (hquery : site.registry.PublicQuery cfg p.sourceId p.sort) :
    V5.selected cfg (site.withMeasurements m) p = V5.selected cfg site p := by
  have hids : V5.getIds cfg (site.withMeasurements m) p = V5.getIds cfg site p :=
    listed_eq h hquery.1
  have hsort : ∀ c, V5.getOrder cfg (site.withMeasurements m) p c = V5.getOrder cfg site p c := by
    intro c
    unfold V5.getOrder
    rw [show sortBySource cfg (site.withMeasurements m) p
      ((site.withMeasurements m).sourceNamed cfg p.sourceId) c = _ from sortBySource_eq h hquery.2]
    rfl
  unfold V5.selected
  rw [hids, hsort]
  rfl

/-! ## Retrieval statuses of public sources -/

/-- The statuses of public sources are the same. -/
theorem agree_statusesOf (work : Work) :
    Agree (fun rs => !site.isPrivate rs.sourceId) ((site.withMeasurements m).statusesOf work)
      (site.statusesOf work) :=
  h.statuses.filter _

theorem agree_signposts (work : Work) :
    Agree (fun signpost => !site.isPrivate signpost.2.sourceId)
      ((site.withMeasurements m).signposts work) (site.signposts work) := by
  refine (agree_statusesOf h work).filterMap ?_
  intro rs signpost hfound
  obtain ⟨source, -, rfl⟩ := Option.map_eq_some_iff.mp hfound
  rfl

omit h in
/-- A signpost is a retrieval status with its source. -/
theorem mem_signposts {work : Work} {signpost : Source × RetrievalStatus}
    (hmem : signpost ∈ site.signposts work) :
    signpost.2 ∈ site.retrievalStatuses.rows ∧ signpost.1 ∈ site.sources.rows ∧
      signpost.1.id = signpost.2.sourceId := by
  obtain ⟨found, hrs, hfound⟩ := List.mem_filterMap.mp hmem
  obtain ⟨s, hs, heq⟩ := Option.map_eq_some_iff.mp hfound
  subst heq
  unfold Db.findSource at hs
  have hid := Table.first_prop hs
  exact ⟨(List.mem_filter.mp hrs).1, Table.first_mem hs, beq_iff_eq.mp hid⟩

/-- The rows that hang on a public retrieval status. -/
theorem filter_statusId_eq {ρ : Type} {statusId sourceId : ρ → Nat} {rows rows' : List ρ}
    (hrows : Agree (fun row => !site.isPrivate (sourceId row)) rows' rows)
    (hsite : Belong site.retrievalStatuses statusId sourceId rows)
    (hother : Belong m.retrievalStatuses statusId sourceId rows') {rs : RetrievalStatus}
    (hrs : rs ∈ site.retrievalStatuses.rows) (hpublic : site.isPrivate rs.sourceId = false) :
    rows'.filter (fun row => statusId row == rs.id) =
      rows.filter (fun row => statusId row == rs.id) := by
  have hvisible : ∀ (statuses : Table RetrievalStatus) (rows : List ρ),
      Belong statuses statusId sourceId rows → rs ∈ statuses.rows →
      ∀ row ∈ rows, (statusId row == rs.id) = true → (!site.isPrivate (sourceId row)) = true := by
    intro statuses rows hbelong hmem row hrow hid
    obtain ⟨found, hfound, hfid, hfsource⟩ := hbelong row hrow
    have heq : found = rs :=
      statuses.eq_of_id_eq hfound hmem (hfid.trans (beq_iff_eq.mp hid))
    rw [← hfsource, heq, hpublic]
    rfl
  refine hrows.filter_eq (hvisible _ _ hother ?_) (hvisible _ _ hsite hrs)
  exact h.statuses.symm.mem hrs (by rw [hpublic]; rfl)

section Periods

variable (hsite : Consistent site) (hother : Consistent (site.withMeasurements m))
  {rs : RetrievalStatus} (hrs : rs ∈ site.retrievalStatuses.rows)
  (hpublic : site.isPrivate rs.sourceId = false)

include hsite hother hrs hpublic

theorem byDay_eq : (site.withMeasurements m).byDay rs = site.byDay rs := by
  unfold Site.byDay RetrievalStatus.days
  rw [show (site.withMeasurements m).days.rows.filter _ = _ from
    filter_statusId_eq h h.days hsite.days hother.days hrs hpublic]

theorem byMonth_eq : (site.withMeasurements m).byMonth rs = site.byMonth rs := by
  unfold Site.byMonth RetrievalStatus.months
  rw [show (site.withMeasurements m).months.rows.filter _ = _ from
    filter_statusId_eq h h.months hsite.months hother.months hrs hpublic]

theorem byYear_eq : (site.withMeasurements m).byYear rs = site.byYear rs := by
  unfold Site.byYear
  rw [byMonth_eq h hsite hother hrs hpublic]

end Periods

/-! ## Signposts -/

omit h in
/-- The loop of `event_count` finds the last retrieval status of a source with
the name. -/
theorem eventCount_eq_last (work : Work) (name : String) : site.eventCount work name =
    ((site.signposts work).filter (fun signpost => decide (signpost.1.name = name))).foldl
      (fun _ signpost => signpost.2.metrics.total) 0 := by
  rw [← foldl_overwrite]
  simp only [Site.eventCount, decide_eq_true_eq]

/-- A count by name shows no private source of another name. -/
theorem eventCount_eq {name : String} (work : Work)
    (hname : ∀ s ∈ site.sources.rows, site.isPrivate s.id = true → s.name ≠ name) :
    (site.withMeasurements m).eventCount work name = site.eventCount work name := by
  have hvisible : ∀ state : Site, state.sources = site.sources →
      ∀ signpost ∈ state.signposts work, decide (signpost.1.name = name) = true →
        (!site.isPrivate signpost.2.sourceId) = true := by
    rintro state hsources ⟨source, rs⟩ hmem heq
    obtain ⟨-, hsource, hid⟩ := mem_signposts hmem
    rw [Bool.not_eq_true', ← hid, ← Bool.not_eq_true]
    intro hprivate
    exact hname source (hsources ▸ hsource) hprivate (of_decide_eq_true heq)
  rw [eventCount_eq_last, eventCount_eq_last,
    (agree_signposts h work).filter_eq (hvisible _ rfl) (hvisible _ rfl)]

/-- The signposts of public sources are the same. -/
theorem counts_eq (hsignposts : site.registry.PublicSignposts cfg) (work : Work) :
    (site.withMeasurements m).counts cfg work = site.counts cfg work := by
  have hcount : ∀ name ∈ cfg.signpostNames,
      (site.withMeasurements m).eventCount work name = site.eventCount work name := by
    intro name hname
    refine eventCount_eq h work fun s hs hprivate heq => ?_
    exact hsignposts s hs hprivate (heq ▸ hname)
  have hcounts : ∀ names : List String, (∀ name ∈ names, name ∈ cfg.signpostNames) →
      (site.withMeasurements m).eventCounts work names = site.eventCounts work names := by
    intro names hnames
    unfold Site.eventCounts
    rw [List.map_congr_left fun name hname => hcount name (hnames name hname)]
  unfold Site.counts
  rw [hcounts cfg.viewedNames (by simp +contextual [Settings.signpostNames]),
    hcounts cfg.discussedNames (by simp +contextual [Settings.signpostNames]),
    hcounts cfg.savedNames (by simp +contextual [Settings.signpostNames]),
    hcount cfg.citedName (by simp [Settings.signpostNames])]

end TwoStates

/-! ## The hash of events -/

namespace V6

/-- One pair put into the hash. -/
def store {α : Type} (hash : List (String × α)) (pair : String × α) : List (String × α) :=
  if hash.any (fun entry => entry.1 = pair.1) then
    hash.map (fun entry => if entry.1 = pair.1 then pair else entry)
  else hash ++ [pair]

section Hash

variable {α : Type} {keep : String → Bool} {hash : List (String × α)} {pair : String × α}

theorem filter_store_of_keep (hkeep : keep pair.1 = true) :
    (store hash pair).filter (fun entry => keep entry.1) =
      store (hash.filter (fun entry => keep entry.1)) pair := by
  have hany : (hash.filter (fun entry => keep entry.1)).any (fun entry => entry.1 = pair.1) =
      hash.any (fun entry => entry.1 = pair.1) := by
    rw [List.any_filter]
    congr 1
    funext entry
    by_cases heq : entry.1 = pair.1
    · simp [heq, hkeep]
    · simp [heq]
  unfold store
  rw [hany]
  split
  · rw [List.filter_map]
    refine congrArg (List.map _) (List.filter_congr fun entry _ => ?_)
    by_cases heq : entry.1 = pair.1
    · simp [heq]
    · simp [heq]
  · rw [List.filter_append, List.filter_cons, hkeep]
    rfl

theorem filter_store_of_drop (hdrop : keep pair.1 = false) :
    (store hash pair).filter (fun entry => keep entry.1) =
      hash.filter (fun entry => keep entry.1) := by
  unfold store
  split
  · rw [List.filter_map, List.filter_congr (q := fun entry => keep entry.1)]
    · refine (List.map_congr_left fun entry hentry => ?_).trans (List.map_id _)
      rw [if_neg]
      · rfl
      · intro heq
        rw [List.mem_filter, heq, hdrop] at hentry
        exact absurd hentry.2 Bool.false_ne_true
    · intro entry _
      by_cases heq : entry.1 = pair.1
      · simp [heq]
      · simp [heq]
  · rw [List.filter_append, List.filter_cons, hdrop]
    simp

/-- What is kept of the hash by its keys can be kept of the pairs. -/
theorem filter_toHash (pairs : List (String × α)) :
    (toHash pairs).filter (fun entry => keep entry.1) =
      toHash (pairs.filter (fun entry => keep entry.1)) := by
  have hfold : ∀ (pairs hash : List (String × α)),
      (pairs.foldl store hash).filter (fun entry => keep entry.1) =
        (pairs.filter (fun entry => keep entry.1)).foldl store
          (hash.filter (fun entry => keep entry.1)) := by
    intro pairs
    induction pairs with
    | nil => intro hash; rfl
    | cons pair pairs ih =>
      intro hash
      rw [List.foldl_cons, ih, List.filter_cons]
      cases hpair : keep pair.1 with
      | true => rw [if_pos rfl, List.foldl_cons, filter_store_of_keep hpair]
      | false => rw [if_neg Bool.false_ne_true, filter_store_of_drop hpair]
  exact hfold pairs []

end Hash

end V6

/-! ## Views -/

section Views

variable {cfg : Settings} {site : Site} {m : Measurements} (h : SameInPublic site m)

include h

/-- With unique names the sources of the decorator are the public ones. -/
theorem V6.events_eq (hnames : site.registry.UniqueNames) (work : Work) :
    V6.events false (site.withMeasurements m) work = V6.events false site work := by
  let names := (site.sources.rows.filter (fun s => site.accessible false s.id)).map (·.name)
  have hpublic : ∀ s ∈ site.sources.rows, names.contains s.name = !site.isPrivate s.id := by
    intro s hs
    rw [Bool.eq_iff_iff, List.contains_iff_mem, List.mem_map]
    constructor
    · rintro ⟨s', hs', hname⟩
      obtain ⟨hmem, haccessible⟩ := List.mem_filter.mp hs'
      obtain rfl : s' = s := List.inj_on_of_nodup_map hnames hmem hs hname
      simpa [Site.accessible] using haccessible
    · intro hvisible
      exact ⟨s, List.mem_filter.mpr ⟨hs, by simpa [Site.accessible] using hvisible⟩, rfl⟩
  -- the pairs kept by their name are those of public sources
  have hkept : ∀ state : Site, state.sources = site.sources →
      ((state.signposts work).map (fun signpost =>
        (signpost.1.name, signpost.2.metrics.total))).filter (fun entry => names.contains entry.1) =
      ((state.signposts work).filter (fun signpost => !site.isPrivate signpost.2.sourceId)).map
        (fun signpost => (signpost.1.name, signpost.2.metrics.total)) := by
    intro state hsources
    rw [List.filter_map]
    refine congrArg (List.map _) (List.filter_congr fun signpost hmem => ?_)
    obtain ⟨-, hsource, hid⟩ := mem_signposts hmem
    rw [← hid]
    exact hpublic signpost.1 (hsources ▸ hsource)
  have hevents : ∀ state : Site, state.sources = site.sources → state.isPrivate = site.isPrivate →
      V6.events false state work = (V6.toHash (((state.signposts work).filter (fun signpost =>
        !site.isPrivate signpost.2.sourceId)).map (fun signpost =>
          (signpost.1.name, signpost.2.metrics.total)))).filter (fun entry => 0 < entry.2) := by
    intro state hsources hprivate
    rw [← hkept state hsources, ← V6.filter_toHash, List.filter_filter]
    unfold V6.events Site.accessible
    rw [hsources, hprivate]
    exact List.filter_congr fun entry _ => Bool.and_comm _ _
  rw [hevents (site.withMeasurements m) rfl rfl, hevents site rfl rfl, agree_signposts h work]

/-- A visitor of v6 sees the same work. -/
theorem V6.workView_eq (hnames : site.registry.UniqueNames) (work : Work) :
    V6.workView false (site.withMeasurements m) work = V6.workView false site work := by
  unfold V6.workView
  rw [V6.events_eq h hnames]
  rfl

/-- The signposts of some sources, all of them public. -/
theorem filter_signposts_eq {ids : List Nat} (hids : ∀ id ∈ ids, site.isPrivate id = false)
    (work : Work) :
    ((site.withMeasurements m).signposts work).filter (fun signpost =>
        ids.contains signpost.2.sourceId) =
      (site.signposts work).filter (fun signpost => ids.contains signpost.2.sourceId) := by
  have hvisible : ∀ signpost : Source × RetrievalStatus,
      ids.contains signpost.2.sourceId = true → (!site.isPrivate signpost.2.sourceId) = true := by
    intro signpost hmem
    rw [hids _ (List.contains_iff_mem.mp hmem)]
    rfl
  exact (agree_signposts h work).filter_eq (fun signpost _ => hvisible signpost)
    (fun signpost _ => hvisible signpost)

omit h in
theorem V5.isPrivate_sourceIds {sourceId : Option String} {id : Nat}
    (hid : id ∈ V5.sourceIds cfg false site sourceId) : site.isPrivate id = false := by
  obtain ⟨s, hs, rfl⟩ := List.mem_map.mp hid
  have haccessible := (List.mem_filter.mp (List.mem_filter.mp hs).1).2
  simpa [Site.accessible] using haccessible

/-- A visitor of v5 sees the same work. -/
theorem V5.workView_eq (hsite : Consistent site) (hother : Consistent (site.withMeasurements m))
    (hsignposts : site.registry.PublicSignposts cfg) (p : WorksParams) (work : Work) :
    V5.workView cfg false (site.withMeasurements m) p work = V5.workView cfg false site p work := by
  have hsources : (((site.withMeasurements m).signposts work).filter (fun signpost =>
        (V5.sourceIds cfg false site p.sourceId).contains signpost.2.sourceId)).map
          (fun signpost => V5.sourceView (site.withMeasurements m) p.info signpost.1 signpost.2) =
      ((site.signposts work).filter (fun signpost =>
        (V5.sourceIds cfg false site p.sourceId).contains signpost.2.sourceId)).map
          (fun signpost => V5.sourceView site p.info signpost.1 signpost.2) := by
    rw [filter_signposts_eq h fun id hid => V5.isPrivate_sourceIds hid]
    refine List.map_congr_left fun signpost hmem => ?_
    obtain ⟨hsignpost, hid⟩ := List.mem_filter.mp hmem
    have hpublic := V5.isPrivate_sourceIds (List.contains_iff_mem.mp hid)
    have hrs := (mem_signposts hsignpost).1
    unfold V5.sourceView
    rw [byDay_eq h hsite hother hrs hpublic, byMonth_eq h hsite hother hrs hpublic,
      byYear_eq h hsite hother hrs hpublic]
    rfl
  unfold V5.workView
  rw [counts_eq h hsignposts, show V5.sourceIds cfg false (site.withMeasurements m) p.sourceId =
    V5.sourceIds cfg false site p.sourceId from rfl, hsources]
  rfl

omit h in
theorem V3.isPrivate_getSourceIds {names : Option String} {id : Nat}
    (hid : id ∈ V3.getSourceIds cfg false site names) : site.isPrivate id = false := by
  obtain ⟨s, hs, rfl⟩ := List.mem_map.mp hid
  have haccessible := (List.mem_filter.mp (List.mem_filter.mp hs).1).2
  simpa using haccessible

/-- A visitor of v3 sees the same work. -/
theorem V3.workView_eq (hsignposts : site.registry.PublicSignposts cfg) {ids : List Nat}
    (hids : ∀ id ∈ ids, site.isPrivate id = false) (info : Option String) (work : Work) :
    V3.workView cfg (site.withMeasurements m) info ids work =
      V3.workView cfg site info ids work := by
  unfold V3.workView
  rw [counts_eq h hsignposts, filter_signposts_eq h hids]
  rfl

/-- The works with a public status are the same. -/
theorem V3.withStatuses_eq {ids : List Nat} (hids : ∀ id ∈ ids, site.isPrivate id = false)
    (works : List Work) :
    V3.withStatuses (site.withMeasurements m) ids works = V3.withStatuses site ids works := by
  refine List.filter_congr fun work _ => (agree_statusesOf h work).any_eq fun rs hmem => ?_
  rw [hids _ (List.contains_iff_mem.mp hmem)]
  rfl

end Views

/-! ## Endpoints -/

/-- Only what is on the page is shown. -/
theorem paginate_congr {α β : Type} {per : Nat} {param : Option Int} {total : Option Nat}
    {all : List α} {view view' : α → β} (hview : ∀ x ∈ all, view x = view' x) :
    paginate per param total all view = paginate per param total all view' := by
  have hpage : ∀ page, (pageOf per page all).map view = (pageOf per page all).map view' :=
    fun page => List.map_congr_left fun x hx =>
      hview x (List.mem_of_mem_drop (List.mem_of_mem_take hx))
  simp only [paginate, hpage]

namespace V6

theorem sortEvents_perm (site : Site) (sort : Option String) (events : List Event) :
    (sortEvents site sort events).Perm events := by
  unfold sortEvents
  split <;> exact List.perm_insertionSort _ _

/-- An event is a retrieval status with its source. -/
theorem mem_allEvents {site : Site} {e : Event} (hmem : e ∈ allEvents site) :
    e.status ∈ site.retrievalStatuses.rows ∧ e.source.id = e.status.sourceId := by
  obtain ⟨rs, hrs, he⟩ := List.mem_filterMap.mp hmem
  obtain ⟨source, hsource, he⟩ := Option.bind_eq_some_iff.mp he
  obtain ⟨work, -, rfl⟩ := Option.map_eq_some_iff.mp he
  unfold Db.findSource at hsource
  have hid := Table.first_prop hsource
  exact ⟨hrs, beq_iff_eq.mp hid⟩

end V6

section Endpoints

variable {cfg : Settings} {site : Site} {m : Measurements} (h : SameInPublic site m)

include h

theorem V6.index_eq (hnames : site.registry.UniqueNames)
    (hquery : site.registry.PublicQuery cfg p.sourceId p.sort) :
    V6.index cfg false (site.withMeasurements m) p = V6.index cfg false site p := by
  have htotal : V6.total cfg (site.withMeasurements m) p = V6.total cfg site p :=
    totalEntries_eq h hquery.1
  unfold V6.index
  rw [V6.selected_eq h hquery, htotal, funext (V6.workView_eq h hnames)]

theorem V6.showWork_eq (hnames : site.registry.UniqueNames) (id : Option String) :
    V6.showWork cfg false (site.withMeasurements m) id = V6.showWork cfg false site id := by
  unfold V6.showWork
  rw [funext (V6.workView_eq h hnames)]
  rfl

/-- The events of accessible sources, and what is shown of them. -/
theorem V6.eventsIndex_eq (hsite : Consistent site) (hother : Consistent (site.withMeasurements m))
    (p : V6.EventsParams) :
    V6.eventsIndex cfg false (site.withMeasurements m) p = V6.eventsIndex cfg false site p := by
  have hagree : Agree (fun e : V6.Event => site.accessible false e.source.id)
      (V6.allEvents (site.withMeasurements m)) (V6.allEvents site) := by
    refine h.statuses.filterMap ?_
    intro rs e he
    obtain ⟨source, hsource, he⟩ := Option.bind_eq_some_iff.mp he
    obtain ⟨work, -, rfl⟩ := Option.map_eq_some_iff.mp he
    unfold Db.findSource at hsource
    have hid := Table.first_prop hsource
    simp [Site.accessible, beq_iff_eq.mp hid]
  unfold V6.eventsIndex
  cases V6.eventsFor cfg p with
  | error e => rfl
  | ok asked =>
    show paginate _ _ _ (V6.sortEvents site p.sort
      (((V6.allEvents (site.withMeasurements m)).filter asked).filter
        (fun e => site.accessible false e.source.id))) _ = _
    rw [hagree.filter asked]
    refine paginate_congr fun e he => ?_
    obtain ⟨hmem, haccessible⟩ :=
      List.mem_filter.mp ((V6.sortEvents_perm site p.sort _).mem_iff.mp he)
    obtain ⟨hrs, hid⟩ := V6.mem_allEvents (List.mem_filter.mp hmem).1
    have hpublic : site.isPrivate e.status.sourceId = false := by
      simpa [Site.accessible, hid] using haccessible
    unfold V6.eventView
    rw [byDay_eq h hsite hother hrs hpublic, byMonth_eq h hsite hother hrs hpublic,
      byYear_eq h hsite hother hrs hpublic]
    rfl

theorem V6.monthsIndex_eq {sourceId : Option String}
    (hpublic : ∀ s ∈ site.registry.named cfg sourceId, site.isPrivate s.id = false) :
    V6.monthsIndex cfg (site.withMeasurements m) sourceId = V6.monthsIndex cfg site sourceId := by
  unfold V6.monthsIndex
  cases hnamed : site.sourceNamed cfg sourceId with
  | none =>
    rw [show (site.withMeasurements m).sourceNamed cfg sourceId = none from hnamed]
  | some s =>
    rw [show (site.withMeasurements m).sourceNamed cfg sourceId = some s from hnamed]
    have hvisible : ∀ row : Month, (row.sourceId == s.id) = true →
        (!site.isPrivate row.sourceId) = true := by
      intro row hrow
      rw [beq_iff_eq.mp hrow, hpublic s hnamed]
      rfl
    have hrows := h.months.filter_eq (fun row _ => hvisible row) (fun row _ => hvisible row)
    simp only [Site.withMeasurements, hrows]

theorem V5.index_eq (hsite : Consistent site) (hother : Consistent (site.withMeasurements m))
    (hquery : site.registry.PublicQuery cfg p.sourceId p.sort)
    (hsignposts : site.registry.PublicSignposts cfg) :
    V5.index cfg false (site.withMeasurements m) p = V5.index cfg false site p := by
  have htotal : V5.total cfg (site.withMeasurements m) p = V5.total cfg site p :=
    totalEntries_eq h hquery.1
  unfold V5.index
  rw [V5.selected_eq h hquery, htotal, funext (V5.workView_eq h hsite hother hsignposts p)]

theorem V3.index_eq (hsignposts : site.registry.PublicSignposts cfg) (p : V3.Params) :
    V3.index cfg false (site.withMeasurements m) p = V3.index cfg false site p := by
  have hids : ∀ id ∈ V3.getSourceIds cfg false site p.source, site.isPrivate id = false :=
    fun id hid => V3.isPrivate_getSourceIds hid
  unfold V3.index
  rw [show V3.getSourceIds cfg false (site.withMeasurements m) p.source =
    V3.getSourceIds cfg false site p.source from rfl]
  simp only [V3.withStatuses_eq h hids, funext (V3.workView_eq h hsignposts hids p.info)]
  rfl

theorem V3.showWork_eq (hsignposts : site.registry.PublicSignposts cfg) (id : String)
    (p : V3.Params) :
    V3.showWork cfg false (site.withMeasurements m) id p = V3.showWork cfg false site id p := by
  have hids : ∀ id ∈ V3.getSourceIds cfg false site p.source, site.isPrivate id = false :=
    fun id hid => V3.isPrivate_getSourceIds hid
  unfold V3.showWork
  rw [show V3.getSourceIds cfg false (site.withMeasurements m) p.source =
    V3.getSourceIds cfg false site p.source from rfl]
  simp only [V3.withStatuses_eq h hids, funext (V3.workView_eq h hsignposts hids p.info)]
  rfl

omit h in
/-- Without a public source v3 finds no work. -/
theorem V3.withStatuses_of_private
    (hprivate : ∀ s ∈ site.sources.rows, site.isPrivate s.id = true) (names : Option String)
    (works : List Work) :
    V3.withStatuses site (V3.getSourceIds cfg false site names) works = [] := by
  have hnone : V3.getSourceIds cfg false site names = [] := by
    refine List.eq_nil_iff_forall_not_mem.mpr fun id hid => ?_
    obtain ⟨s, hs, rfl⟩ := List.mem_map.mp hid
    have hmem := (List.mem_filter.mp (List.mem_filter.mp hs).1).1
    exact Bool.false_ne_true ((V3.isPrivate_getSourceIds hid).symm.trans (hprivate s hmem))
  rw [hnone, V3.withStatuses]
  exact List.filter_eq_nil_iff.mpr fun work _ => by simp

omit h in
/-- With private sources only, v3 has nothing to show. -/
theorem V3.index_eq_of_private (hprivate : ∀ s ∈ site.sources.rows, site.isPrivate s.id = true)
    (p : V3.Params) :
    V3.index cfg false (site.withMeasurements m) p = V3.index cfg false site p := by
  have hother : ∀ s ∈ (site.withMeasurements m).sources.rows,
      (site.withMeasurements m).isPrivate s.id = true := hprivate
  unfold V3.index
  simp only [V3.withStatuses_of_private hprivate, V3.withStatuses_of_private hother]
  rfl

omit h in
theorem V3.showWork_eq_of_private (hprivate : ∀ s ∈ site.sources.rows, site.isPrivate s.id = true)
    (id : String) (p : V3.Params) :
    V3.showWork cfg false (site.withMeasurements m) id p = V3.showWork cfg false site id p := by
  have hother : ∀ s ∈ (site.withMeasurements m).sources.rows,
      (site.withMeasurements m).isPrivate s.id = true := hprivate
  unfold V3.showWork
  simp only [V3.withStatuses_of_private hprivate, V3.withStatuses_of_private hother]
  rfl

end Endpoints

end Lagotto.Api
