/-
Lagotto.Api.LeakTheorems — what the API tells about private sources, and the
equivalence of `Confidential` and `Discreet`.

Each way out is shown with two states built over an arbitrary table of
sources. `probe` has one work with a retrieval status for every source, and a
month for one source; a private source's total is 0 in one state and 1 in the
other. The number of works with events of that source, the month and the
signposts then differ. `ranked` has two works whose totals are exchanged, which
exchanges the works in a list sorted by the source. The states satisfy what
the schema enforces (`probe_consistent`, `ranked_consistent`), so no leak
depends on a database that cannot exist.

That nothing else gets out is `confidential_of_discreet`, from the lemmas of
`ConfidentialityTheorems`.
-/
import Lagotto.Api.ConfidentialityTheorems
import Mathlib.Algebra.Order.BigOperators.Group.List

namespace Lagotto.Api

open Relational

variable {kind : Kind} {s' : Source} {named : Option String} {name : String}

/-! ## A state to probe with -/

namespace Registry

variable (registry : Registry) (sourceId : Nat) (n : Int)

/-- The retrieval status of the one work for a source. -/
def probeStatus (s : Source) : RetrievalStatus where
  id := s.id
  workId := 1
  sourceId := s.id
  metrics := { total := if s.id = sourceId then n else 1 }

def probeWork : Work where
  id := 1
  col := fun c => if c = .pmid then some "1" else none
  tracked := true

/-- The work has one event of every source, but `n` of one source. -/
def probeMeasurements : Measurements where
  retrievalStatuses :=
    { rows := registry.sources.rows.map (probeStatus sourceId n)
      nextId := registry.sources.nextId
      ordered := List.pairwise_map.mpr registry.sources.ordered
      bounded := by
        intro rs hrs
        obtain ⟨s, hs, rfl⟩ := List.mem_map.mp hrs
        exact registry.sources.bounded s hs }
  months := Table.empty.insert
    { retrievalStatusId := sourceId, workId := 1, sourceId, year := 2015, month := 1
      metrics := { total := n } }
  days := .empty

def probe : Site where
  sources := registry.sources
  isPrivate := registry.isPrivate
  works := Table.empty.insert probeWork
  retrievalStatuses := (registry.probeMeasurements sourceId n).retrievalStatuses
  months := (registry.probeMeasurements sourceId n).months
  days := (registry.probeMeasurements sourceId n).days

end Registry

section Probe

variable {cfg : Settings} {registry : Registry} {s : Source} (hs : s ∈ registry.sources.rows)

theorem probe_unique (sourceId : Nat) (n : Int) : UniqueStatuses (registry.probe sourceId n) := by
  have hids : (registry.sources.rows.map (fun s => (1, s.id))).Nodup :=
    (List.Nodup.of_map Prod.snd (by
      rw [List.map_map]
      exact registry.sources.ids_nodup))
  show ((registry.sources.rows.map _).map _).Nodup
  rw [List.map_map]
  exact hids

include hs

theorem probe_consistent (n : Int) : Consistent (registry.probe s.id n) where
  unique := probe_unique s.id n
  source := by
    intro rs hrs
    obtain ⟨s', hs', rfl⟩ := List.mem_map.mp hrs
    exact ⟨s', hs', rfl⟩
  work := by
    intro rs hrs
    obtain ⟨s', -, rfl⟩ := List.mem_map.mp hrs
    exact ⟨Registry.probeWork, List.mem_singleton.mpr rfl, rfl⟩
  months := by
    intro row hrow
    obtain rfl := List.mem_singleton.mp hrow
    exact ⟨_, List.mem_map.mpr ⟨s, hs, rfl⟩, rfl, rfl⟩
  days := by
    intro row hrow
    cases hrow

omit hs in
/-- For a private source nothing else differs. -/
theorem probe_same (hprivate : registry.isPrivate s.id = true) (n k : Int) :
    SameInPublic (registry.probe s.id n) (registry.probeMeasurements s.id k) where
  unmeasured := by
    show (registry.sources.rows.map _).map _ = (registry.sources.rows.map _).map _
    rw [List.map_map, List.map_map]
    rfl
  statuses := by
    show (registry.sources.rows.map _).filter _ = (registry.sources.rows.map _).filter _
    rw [List.filter_map, List.filter_map]
    refine List.map_congr_left fun s' hs' => ?_
    have hne : s'.id ≠ s.id := by
      intro heq
      have hvisible := (List.mem_filter.mp hs').2
      simp [Registry.probeStatus, Registry.probe, heq, hprivate] at hvisible
    simp [Registry.probeStatus, hne]
  months := by
    have hhidden : ∀ n : Int, (registry.probeMeasurements s.id n).months.rows.filter
        (fun row => !registry.isPrivate row.sourceId) = [] := by
      intro n
      refine List.filter_eq_nil_iff.mpr fun row hrow => ?_
      obtain rfl := List.mem_singleton.mp hrow
      simp [Row.withId, hprivate]
    exact (hhidden k).trans (hhidden n).symm
  days := rfl

/-- A confidential endpoint answers both probes alike. -/
theorem respond_probe (hconfidential : Confidential cfg registry kind)
    (hprivate : registry.isPrivate s.id = true) {request : Request} (hkind : request.kind = kind) :
    respond cfg false (registry.probe s.id 1) request =
      respond cfg false (registry.probe s.id 0) request :=
  hconfidential request hkind (registry.probe s.id 0) (registry.probeMeasurements s.id 1) rfl
    (probe_consistent hs 0) (probe_consistent hs 1) (probe_same hprivate 0 1)

omit hs in
theorem statusesFor_probe (hs' : s' ∈ registry.sources.rows) (sourceId : Nat) (n : Int) :
    (registry.probe sourceId n).statusesFor s'.id Registry.probeWork =
      [Registry.probeStatus sourceId n s'] := by
  have hkey : registry.sources.rows.filter (fun x => decide (x.id = s'.id)) = [s'] :=
    Table.filter_key_eq registry.sources.ids_nodup hs'
  show (registry.sources.rows.map _).filter _ = _
  rw [List.filter_map, ← List.map_singleton, ← hkey]
  refine congrArg (List.map _) (List.filter_congr fun x _ => ?_)
  rw [Bool.eq_iff_iff]
  simp [Registry.probeStatus, Registry.probeWork]

omit hs in
theorem hasEvents_probe (hs' : s' ∈ registry.sources.rows) (sourceId : Nat) (n : Int) :
    (registry.probe sourceId n).hasEvents s'.id Registry.probeWork =
      decide (0 < if s'.id = sourceId then n else 1) := by
  rw [Site.hasEvents, statusesFor_probe hs', List.any_cons, List.any_nil, Bool.or_false]
  rfl

omit hs in
theorem signposts_probe (sourceId : Nat) (n : Int) :
    (registry.probe sourceId n).signposts Registry.probeWork =
      registry.sources.rows.map (fun s => (s, Registry.probeStatus sourceId n s)) := by
  have hof : (registry.probe sourceId n).statusesOf Registry.probeWork =
      registry.sources.rows.map (Registry.probeStatus sourceId n) := by
    refine List.filter_eq_self.mpr fun rs hrs => ?_
    obtain ⟨s, -, rfl⟩ := List.mem_map.mp hrs
    rfl
  rw [Site.signposts, hof, List.filterMap_map, ← List.filterMap_eq_map]
  refine List.filterMap_congr fun s hs => ?_
  have hfound : registry.sources.first (fun r => r.id == s.id) = some s := by
    refine Table.first_eq_of_unique hs (beq_self_eq_true s.id) fun r hr hid => ?_
    exact registry.sources.eq_of_id_eq hr hs (beq_iff_eq.mp hid)
  show ((registry.sources.first (fun r => r.id == s.id)).map _) = _
  rw [hfound]
  rfl

omit hs in
/-- With unique names the count for a name is that of its source. -/
theorem eventCount_probe (hnames : registry.UniqueNames) (hs' : s' ∈ registry.sources.rows)
    (sourceId : Nat) (n : Int) :
    (registry.probe sourceId n).eventCount Registry.probeWork s'.name =
      if s'.id = sourceId then n else 1 := by
  rw [eventCount_eq_last, signposts_probe, List.filter_map]
  show ((registry.sources.rows.filter (fun x => decide (x.name = s'.name))).map _).foldl _ _ = _
  rw [Table.filter_key_eq hnames hs']
  rfl

/-! ## Signposts -/

/-- Every signpost that looks at the source differs. -/
theorem eventCounts_probe_lt (hnames : registry.UniqueNames) {names : List String}
    (hname : s.name ∈ names) :
    (registry.probe s.id 0).eventCounts Registry.probeWork names <
      (registry.probe s.id 1).eventCounts Registry.probeWork names := by
  refine List.sum_lt_sum _ _ (fun name _ => ?_) ⟨s.name, hname, ?_⟩
  · by_cases hsource : ∃ s' ∈ registry.sources.rows, s'.name = name
    · obtain ⟨s', hs', rfl⟩ := hsource
      rw [eventCount_probe hnames hs', eventCount_probe hnames hs']
      split <;> omega
    · have hzero : ∀ n, (registry.probe s.id n).eventCount Registry.probeWork name = 0 := by
        intro n
        rw [eventCount_eq_last, signposts_probe, List.filter_eq_nil_iff.mpr]
        · rfl
        · intro signpost hmem heq
          obtain ⟨s', hs', rfl⟩ := List.mem_map.mp hmem
          exact hsource ⟨s', hs', of_decide_eq_true heq⟩
      rw [hzero, hzero]
  · rw [eventCount_probe hnames hs, eventCount_probe hnames hs, if_pos rfl, if_pos rfl]
    omega

/-- The signposts tell the two probes apart. -/
theorem counts_probe_ne (hnames : registry.UniqueNames) (hname : s.name ∈ cfg.signpostNames) :
    (registry.probe s.id 1).counts cfg Registry.probeWork ≠
      (registry.probe s.id 0).counts cfg Registry.probeWork := by
  intro heq
  simp only [Settings.signpostNames, List.mem_append, List.mem_singleton] at hname
  rcases hname with ((hviewed | hdiscussed) | hsaved) | hcited
  · exact (eventCounts_probe_lt hs hnames hviewed).ne' (congrArg Signposts.views heq)
  · exact (eventCounts_probe_lt hs hnames hdiscussed).ne' (congrArg Signposts.shares heq)
  · exact (eventCounts_probe_lt hs hnames hsaved).ne' (congrArg Signposts.bookmarks heq)
  · have hcount := congrArg Signposts.citations heq
    simp only [Site.counts, ← hcited, eventCount_probe hnames hs] at hcount
    simp at hcount

end Probe

/-! ## The first page -/

theorem paginate_first {α β : Type} (per : Nat) (total : Option Nat) (all : List α) (view : α → β) :
    ∃ listing, paginate per none total all view = .ok listing ∧
      listing.total = total.getD all.length ∧ listing.results = (all.take per).map view := by
  refine ⟨_, rfl, rfl, ?_⟩
  simp [pageOf]

theorem V6.index_first {cfg : Settings} (staff : Bool) {site : Site} {p : WorksParams}
    {works : List Work} (hworks : V6.selected cfg site p = .ok works) (hpage : p.page = none)
    (hper : p.perPage = none) :
    ∃ listing, V6.index cfg staff site p = .ok listing ∧
      listing.total = (V6.total cfg site p).getD works.length ∧
      listing.results = (works.take 1000).map (V6.workView staff site) := by
  rw [V6.index, hworks, hpage, hper]
  exact paginate_first _ _ _ _

theorem V5.index_first {cfg : Settings} (staff : Bool) {site : Site} {p : WorksParams}
    {works : List Work} (hworks : V5.selected cfg site p = .ok works) (hpage : p.page = none)
    (hper : p.perPage = none) :
    ∃ listing, V5.index cfg staff site p = .ok listing ∧
      listing.total = (V5.total cfg site p).getD works.length ∧
      listing.results = (works.take 50).map (V5.workView cfg staff site p) := by
  obtain ⟨listing, hok, htotal, hresults⟩ :=
    paginate_first 50 (V5.total cfg site p) works (V5.workView cfg staff site p)
  rw [V5.index, hworks, hpage, hper]
  show ∃ result, (paginate 50 none _ _ _).map _ = .ok result ∧ _
  rw [hok]
  refine ⟨_, rfl, ?_, ?_⟩
  · rw [← htotal]
    dsimp only
    split <;> rfl
  · rw [← hresults]
    dsimp only
    split <;> rfl

/-! ## Works chosen by the source -/

theorem V5.selected_perm {cfg : Settings} {site : Site} {p : WorksParams}
    (hunique : UniqueStatuses site) (hids : p.ids = none) (hq : p.q = none)
    (hpublisher : V5.publisher site p = none) :
    ∃ works, V5.selected cfg site p = .ok works ∧ works.Perm (V6.sortable cfg site p
      ((getClassName cfg site p (V5.getIds cfg site p)).hits.map Prod.fst)) := by
  have hjoined : (site.sourceNamed cfg p.sourceId).isSome → p.sort.isSome → p.sort = p.sourceId →
      (getClassName cfg site p (V5.getIds cfg site p)).joined = true := by
    intro hsource _ _
    obtain ⟨source, hs⟩ := Option.isSome_iff_exists.mp hsource
    rw [V6.joined_getClassName, V5.getIds, hs, listed, hids, hq]
    rfl
  have hselected : ∀ sorted, V5.getOrder cfg site p
      (getClassName cfg site p (V5.getIds cfg site p)) = .ok sorted →
      V5.selected cfg site p = .ok (sorted.hits.map Prod.fst) := by
    intro sorted hok
    rw [V5.selected, hok, hpublisher]
    rfl
  rcases V6.sortBySource_perm hunique hjoined with ⟨hskip, hall⟩ | ⟨sorted, hok, hperm⟩
  · refine ⟨_, hselected _ (by rw [V5.getOrder, hskip]), ?_⟩
    exact ((List.perm_insertionSort _ _).map Prod.fst).trans (.of_eq hall.symm)
  · exact ⟨_, hselected sorted (by rw [V5.getOrder, hok]), hperm⟩

section Chosen

variable {cfg : Settings} {registry : Registry} {s : Source}

/-- A query for works, with nothing but the two names. -/
def queryFor (sourceId sort : Option String) : WorksParams := { sourceId, sort }

/-- What is selected of the probe: the work, unless it is asked for by a
source without events. -/
def probed (source : Option Source) (sourceId : Nat) (n : Int) : List Work :=
  [Registry.probeWork].filter (fun _ =>
    source.all (fun s' => decide (0 < if s'.id = sourceId then n else 1)))

/-- The probe has a retrieval status for whatever it is sorted by. -/
theorem sortable_probed (sourceId : Nat) (n : Int) (p : WorksParams) (source : Option Source) :
    V6.sortable cfg (registry.probe sourceId n) p (probed source sourceId n) =
      probed source sourceId n := by
  refine List.filter_eq_self.mpr fun w hw => ?_
  obtain rfl := List.mem_singleton.mp (List.mem_filter.mp hw).1
  cases hsort : V6.sortSource cfg (registry.probe sourceId n) p with
  | none => rfl
  | some other =>
    have hmem : other ∈ registry.sources.rows := by
      unfold V6.sortSource at hsort
      split at hsort
      · cases hsort
      · obtain ⟨name, -, hfound⟩ := Option.bind_eq_some_iff.mp hsort
        exact Table.first_mem hfound
    rw [Option.all_some, Site.hasStatusFor, statusesFor_probe hmem]
    rfl

theorem eq_probed_of_perm {source : Option Source} {sourceId : Nat} {n : Int} {works : List Work}
    (h : works.Perm (probed source sourceId n)) : works = probed source sourceId n := by
  rw [probed, List.filter_singleton] at h ⊢
  cases hcond : source.all (fun s' => decide (0 < if s'.id = sourceId then n else 1)) with
  | true =>
    rw [hcond] at h
    exact List.perm_singleton.mp h
  | false =>
    rw [hcond] at h
    exact List.perm_nil.mp h

/-- The work is chosen unless it is asked for by a source without events. -/
theorem chosen_probe (cfg : Settings) (sourceId : Nat) (n : Int) {source : Option Source}
    (hsource : ∀ s' ∈ source, s' ∈ registry.sources.rows) (column : Column) (p : WorksParams)
    (hids : p.ids = none) (hq : p.q = none) :
    (listed cfg (registry.probe sourceId n) column p source
      (.of (registry.probe sourceId n).works.rows)).hits.map Prod.fst =
        probed source sourceId n := by
  unfold listed
  rw [hids, hq]
  cases source with
  | none => rfl
  | some s' =>
    show (((Collection.of [Registry.probeWork]).join _ _).filter _).hits.map _ = _
    rw [map_fst_withEvents (probe_unique sourceId n)]
    refine List.filter_congr fun w hw => ?_
    obtain rfl := List.mem_singleton.mp hw
    rw [hasEvents_probe (hsource s' rfl), Option.all_some]

/-- What is selected is the probe, if it has events. -/
theorem V6.selected_probe (sourceId : Nat) (n : Int) (named sort : Option String) :
    V6.selected cfg (registry.probe sourceId n) (queryFor named sort) =
      .ok (probed (registry.named cfg named) sourceId n) := by
  have hordered : ¬ V6.Misordered cfg (registry.probe sourceId n) (queryFor named sort) := by
    rintro ⟨-, -, -, hgiven⟩
    simp [queryFor] at hgiven
  obtain ⟨works, hok, hperm⟩ := V6.selected_perm (probe_unique sourceId n) hordered
  have hsource : ∀ s' ∈ registry.named cfg named, s' ∈ registry.sources.rows :=
    fun s' hs' => Table.first_mem hs'
  have hchosen : V6.chosen cfg (registry.probe sourceId n) (queryFor named sort) =
      probed (registry.named cfg named) sourceId n :=
    chosen_probe cfg sourceId n hsource .pid (queryFor named sort) rfl rfl
  rw [hchosen, sortable_probed] at hperm
  rw [hok, eq_probed_of_perm hperm]

theorem V5.selected_probe (sourceId : Nat) (n : Int) (named sort : Option String) :
    V5.selected cfg (registry.probe sourceId n) (queryFor named sort) =
      .ok (probed (registry.named cfg named) sourceId n) := by
  have hunique : UniqueStatuses (registry.probe sourceId n) := probe_unique sourceId n
  have hpublisher : V5.publisher (registry.probe sourceId n) (queryFor named sort) = none := rfl
  obtain ⟨works, hok, hperm⟩ : ∃ works,
      V5.selected cfg (registry.probe sourceId n) (queryFor named sort) = .ok works ∧ _ :=
    V5.selected_perm hunique rfl rfl hpublisher
  have hsource : ∀ s' ∈ registry.named cfg named, s' ∈ registry.sources.rows :=
    fun s' hs' => Table.first_mem hs'
  have hchosen : (getClassName cfg (registry.probe sourceId n) (queryFor named sort)
      (V5.getIds cfg (registry.probe sourceId n) (queryFor named sort))).hits.map Prod.fst =
        probed (registry.named cfg named) sourceId n :=
    chosen_probe cfg sourceId n hsource .doi (queryFor named sort) rfl rfl
  rw [hchosen, sortable_probed] at hperm
  rw [hok, eq_probed_of_perm hperm]

/-- The count of works with events of the source. -/
theorem totalEntries_probe (hs' : s' ∈ registry.sources.rows) (sourceId : Nat) (n : Int)
    (named sort : Option String) :
    totalEntries (registry.probe sourceId n) (queryFor named sort) (some s') none =
      some (probed (some s') sourceId n).length := by
  show some (List.filter _ [Registry.probeWork]).length = _
  refine congrArg (fun l => some (List.length l)) (List.filter_congr fun w hw => ?_)
  obtain rfl := List.mem_singleton.mp hw
  rw [hasEvents_probe hs', Option.all_some]

end Chosen

/-! ## Works ordered by the source -/

namespace Registry

variable (registry : Registry) (sourceId : Nat) (a b : Int)

/-- Two works with retrieval statuses for one source. -/
def rankedMeasurements : Measurements where
  retrievalStatuses := (Table.empty.insert
    { workId := 1, sourceId, metrics := { total := a } }).insert
    { workId := 2, sourceId, metrics := { total := b } }
  months := .empty
  days := .empty

def rankedWork (id : Nat) (pid : String) : Work where
  id
  col := fun c => if c = .pid then some pid else none
  tracked := true

def ranked : Site where
  sources := registry.sources
  isPrivate := registry.isPrivate
  works := (Table.empty.insert (rankedWork 1 "1")).insert (rankedWork 2 "2")
  retrievalStatuses := (rankedMeasurements sourceId a b).retrievalStatuses

end Registry

section Ranked

variable {cfg : Settings} {registry : Registry} {s : Source} (hs : s ∈ registry.sources.rows)

include hs

theorem ranked_consistent (a b : Int) : Consistent (registry.ranked s.id a b) where
  unique := by
    show [(1, s.id), (2, s.id)].Nodup
    simp
  source := by
    intro rs hrs
    refine ⟨s, hs, ?_⟩
    rcases List.mem_pair.mp hrs with rfl | rfl <;> rfl
  work := by
    intro rs hrs
    rcases List.mem_pair.mp hrs with rfl | rfl
    · exact ⟨Registry.rankedWork 1 "1", List.mem_pair.mpr (.inl rfl), rfl⟩
    · exact ⟨Registry.rankedWork 2 "2", List.mem_pair.mpr (.inr rfl), rfl⟩
  months := by
    intro row hrow
    cases hrow
  days := by
    intro row hrow
    cases hrow

omit hs in
/-- Two rankings differ in what is private only. -/
theorem ranked_same (hprivate : registry.isPrivate s.id = true) (a b c d : Int) :
    SameInPublic (registry.ranked s.id a b) (Registry.rankedMeasurements s.id c d) where
  unmeasured := rfl
  statuses := by
    have hhidden : ∀ a b : Int, (Registry.rankedMeasurements s.id a b).retrievalStatuses.rows.filter
        (fun rs => !registry.isPrivate rs.sourceId) = [] := by
      intro a b
      refine List.filter_eq_nil_iff.mpr fun rs hrs => ?_
      rcases List.mem_pair.mp hrs with rfl | rfl <;> simp [Row.withId, hprivate]
    exact (hhidden c d).trans (hhidden a b).symm
  months := rfl
  days := rfl

/-- A confidential endpoint does not tell two rankings apart. -/
theorem respond_ranked (hconfidential : Confidential cfg registry kind)
    (hprivate : registry.isPrivate s.id = true) {request : Request} (hkind : request.kind = kind) :
    respond cfg false (registry.ranked s.id 1 0) request =
      respond cfg false (registry.ranked s.id 0 1) request :=
  hconfidential request hkind (registry.ranked s.id 0 1) (Registry.rankedMeasurements s.id 1 0) rfl
    (ranked_consistent hs 0 1) (ranked_consistent hs 1 0) (ranked_same hprivate 0 1 1 0)

omit hs

/-- The works in the order of the totals. -/
theorem orderByTotal_ranked (a b : Int) (sourceId : Nat) :
    (((Collection.of (registry.ranked sourceId a b).works.rows).join
      (registry.ranked sourceId a b) sourceId).orderByTotal).map (fun c => c.hits.map Prod.fst) =
        .ok (if b ≤ a then [Registry.rankedWork 1 "1", Registry.rankedWork 2 "2"]
          else [Registry.rankedWork 2 "2", Registry.rankedWork 1 "1"]) := by
  have hone : (registry.ranked sourceId a b).statusesFor sourceId (Registry.rankedWork 1 "1") =
      [{ id := 1, workId := 1, sourceId, metrics := { total := a } }] := by
    simp [Site.statusesFor, Registry.ranked, Registry.rankedMeasurements, Registry.rankedWork,
      Row.withId, Table.empty]
  have htwo : (registry.ranked sourceId a b).statusesFor sourceId (Registry.rankedWork 2 "2") =
      [{ id := 2, workId := 2, sourceId, metrics := { total := b } }] := by
    simp [Site.statusesFor, Registry.ranked, Registry.rankedMeasurements, Registry.rankedWork,
      Row.withId, Table.empty, Table.insert]
  have hrows : (registry.ranked sourceId a b).works.rows =
      [Registry.rankedWork 1 "1", Registry.rankedWork 2 "2"] := rfl
  rw [hrows]
  simp only [Collection.of, Collection.join, Collection.orderByTotal, List.map_cons, List.map_nil,
    List.flatMap_cons, List.flatMap_nil, hone, htwo, if_true, Except.map]
  by_cases hle : b ≤ a
  · simp [List.insertionSort, List.orderedInsert, Collection.total, hle]
  · simp [List.insertionSort, List.orderedInsert, Collection.total, hle]

/-- The query joins with the source it is sorted by. -/
theorem sortBySource_ranked (hnone : registry.named cfg named = none)
    (hsort : registry.named cfg (some name) = some s) (a b : Int) (c : Collection) :
    sortBySource cfg (registry.ranked s.id a b) (queryFor named (some name))
      ((registry.ranked s.id a b).sourceNamed cfg named) c =
        some ((c.join (registry.ranked s.id a b) s.id).orderByTotal) := by
  have hsource : (registry.ranked s.id a b).sourceNamed cfg named = none := hnone
  have hother : (registry.ranked s.id a b).sourceNamed cfg (some name) = some s := hsort
  rw [hsource, sortBySource_other rfl, hother, Option.map_some]

/-- The two works in the order of the totals. -/
def rankedWorks (a b : Int) : List Work :=
  if b ≤ a then [Registry.rankedWork 1 "1", Registry.rankedWork 2 "2"]
  else [Registry.rankedWork 2 "2", Registry.rankedWork 1 "1"]

theorem V6.selected_ranked (hnone : registry.named cfg named = none)
    (hsort : registry.named cfg (some name) = some s) (a b : Int) :
    V6.selected cfg (registry.ranked s.id a b) (queryFor named (some name)) =
      .ok (rankedWorks a b) := by
  have hids : V6.getIds cfg (registry.ranked s.id a b) (queryFor named (some name)) =
      .of (registry.ranked s.id a b).works.rows := by
    show listed _ _ _ _ (registry.named cfg named) _ = _
    rw [hnone]
    rfl
  rw [V6.selected, V6.getSort_of_some (sortBySource_ranked hnone hsort a b _), hids]
  exact orderByTotal_ranked a b s.id

theorem V5.selected_ranked (hnone : registry.named cfg named = none)
    (hsort : registry.named cfg (some name) = some s) (a b : Int) :
    V5.selected cfg (registry.ranked s.id a b) (queryFor named (some name)) =
      .ok (rankedWorks a b) := by
  have hids : V5.getIds cfg (registry.ranked s.id a b) (queryFor named (some name)) =
      .of (registry.ranked s.id a b).works.rows := by
    show listed _ _ _ _ (registry.named cfg named) _ = _
    rw [hnone]
    rfl
  have hsorted : ∀ c, sortBySource cfg (registry.ranked s.id a b) (queryFor named (some name))
      ((registry.ranked s.id a b).sourceNamed cfg (queryFor named (some name)).sourceId) c =
        some ((c.join (registry.ranked s.id a b) s.id).orderByTotal) :=
    sortBySource_ranked hnone hsort a b
  rw [V5.selected, V5.getOrder, hsorted, hids]
  exact orderByTotal_ranked a b s.id

end Ranked

/-! ## Leaks -/

section Leaks

variable {cfg : Settings} {registry : Registry} {s : Source}

theorem length_probed (n : Int) : (probed (some s) s.id n).length = if 0 < n then 1 else 0 := by
  rw [probed, List.filter_singleton]
  by_cases hn : 0 < n <;> simp [hn]

/-- The answer is in the response. -/
theorem eq_of_map_eq {α : Type} {f : α → Response} (hf : Function.Injective f)
    {x y : Except ApiError α} (h : x.map f = y.map f) : x = y := by
  cases x with
  | error e =>
    cases y with
    | error e' => exact congrArg Except.error (Except.error.inj h)
    | ok b => cases h
  | ok a =>
    cases y with
    | error e' => cases h
    | ok b => exact congrArg Except.ok (hf (Except.ok.inj h))

/-- The number of works tells the probes apart. -/
theorem ne_of_total {β : Type} (s : Source) (index : Int → Except ApiError (Listing β))
    (h : ∀ n, ∃ listing, index n = .ok listing ∧
      listing.total = (probed (some s) s.id n).length) : index 1 ≠ index 0 := by
  intro hsame
  obtain ⟨one, hone, htone⟩ := h 1
  obtain ⟨zero, hzero, htzero⟩ := h 0
  rw [hone, hzero] at hsame
  rw [Except.ok.inj hsame, htzero, length_probed, length_probed] at htone
  simp at htone

/-- The order of the works tells the ranked states apart. -/
theorem ne_of_pids {β : Type} (index : Int → Int → Except ApiError (Listing β))
    (pid : β → Option String)
    (h : ∀ a b, ∃ listing, index a b = .ok listing ∧
      listing.results.map pid = (rankedWorks a b).map (fun w => w.col .pid)) :
    index 1 0 ≠ index 0 1 := by
  intro hsame
  obtain ⟨one, hone, hpone⟩ := h 1 0
  obtain ⟨two, htwo, hptwo⟩ := h 0 1
  rw [hone, htwo] at hsame
  rw [Except.ok.inj hsame, hptwo] at hpone
  simp [rankedWorks, Registry.rankedWork] at hpone

theorem length_rankedWorks (a b : Int) : (rankedWorks a b).length = 2 := by
  unfold rankedWorks
  split <;> rfl

namespace V6

theorem leak_of_source {named sort : Option String} (hnamed : registry.named cfg named = some s)
    (hprivate : registry.isPrivate s.id = true) :
    ¬ Confidential cfg registry (.worksV6 named sort) := by
  intro hconfidential
  have hs : s ∈ registry.sources.rows := Table.first_mem hnamed
  have hsame := respond_probe hs hconfidential hprivate
    (show (Request.worksV6 (queryFor named sort)).kind = _ from rfl)
  refine ne_of_total s (fun n => index cfg false (registry.probe s.id n) (queryFor named sort))
    (fun n => ?_) (eq_of_map_eq (fun _ _ h => Response.worksV6.inj h) hsame)
  obtain ⟨listing, hok, htotal, -⟩ := index_first false (selected_probe s.id n named sort) rfl rfl
  refine ⟨listing, hok, ?_⟩
  rw [htotal, total]
  show (totalEntries _ _ (registry.named cfg named) none).getD _ = _
  rw [hnamed, totalEntries_probe hs, Option.getD_some]

theorem leak_of_sort (hnone : registry.named cfg named = none)
    (hsort : registry.named cfg (some name) = some s) (hprivate : registry.isPrivate s.id = true) :
    ¬ Confidential cfg registry (.worksV6 named (some name)) := by
  intro hconfidential
  have hsame := respond_ranked (Table.first_mem hsort) hconfidential hprivate
    (show (Request.worksV6 (queryFor named (some name))).kind = _ from rfl)
  refine ne_of_pids
    (fun a b => index cfg false (registry.ranked s.id a b) (queryFor named (some name)))
    WorkView.id (fun a b => ?_) (eq_of_map_eq (fun _ _ h => Response.worksV6.inj h) hsame)
  obtain ⟨listing, hok, -, hresults⟩ :=
    index_first false (selected_ranked hnone hsort a b) rfl rfl
  refine ⟨listing, hok, ?_⟩
  rw [hresults, List.take_of_length_le (by rw [length_rankedWorks]; omega), List.map_map]
  rfl

/-- The months of a private source are shown. -/
theorem leak_of_months (hnamed : registry.named cfg named = some s)
    (hprivate : registry.isPrivate s.id = true) :
    ¬ Confidential cfg registry (.monthsV6 named) := by
  intro hconfidential
  have hs : s ∈ registry.sources.rows := Table.first_mem hnamed
  have hsame := eq_of_map_eq (fun _ _ h => Response.monthsV6.inj h)
    (respond_probe hs hconfidential hprivate
      (show (Request.monthsV6 named).kind = _ from rfl))
  have hmonths : ∀ n : Int, monthsIndex cfg (registry.probe s.id n) named =
      .ok [⟨s.name, 2015, 1, { total := n }⟩] := by
    intro n
    have hsource : (registry.probe s.id n).sourceNamed cfg named = some s := hnamed
    have hrows : (registry.probe s.id n).months.rows.filter (fun row => row.sourceId == s.id) =
        (registry.probe s.id n).months.rows := by
      refine List.filter_eq_self.mpr fun row hrow => ?_
      obtain rfl := List.mem_singleton.mp hrow
      exact beq_self_eq_true s.id
    have hone : ([(2015, 1)] : List (Int × Int)).dedup = [(2015, 1)] := by decide
    simp only [monthsIndex, hsource, hrows]
    simp [grouped, sumMetrics, Registry.probe, Registry.probeMeasurements, Row.withId, hone,
      List.insertionSort]
  rw [hmonths, hmonths] at hsame
  simp at hsame

end V6

namespace V5

theorem leak_of_source {named order : Option String} (hnamed : registry.named cfg named = some s)
    (hprivate : registry.isPrivate s.id = true) :
    ¬ Confidential cfg registry (.worksV5 named order) := by
  intro hconfidential
  have hs : s ∈ registry.sources.rows := Table.first_mem hnamed
  have hsame := respond_probe hs hconfidential hprivate
    (show (Request.worksV5 (queryFor named order)).kind = _ from rfl)
  refine ne_of_total s (fun n => index cfg false (registry.probe s.id n) (queryFor named order))
    (fun n => ?_) (eq_of_map_eq (fun _ _ h => Response.worksV5.inj h) hsame)
  obtain ⟨listing, hok, htotal, -⟩ := index_first false (selected_probe s.id n named order) rfl rfl
  refine ⟨listing, hok, ?_⟩
  rw [htotal, total]
  show (totalEntries _ _ (registry.named cfg named) none).getD _ = _
  rw [hnamed, totalEntries_probe hs, Option.getD_some]

theorem leak_of_order (hnone : registry.named cfg named = none)
    (hsort : registry.named cfg (some name) = some s) (hprivate : registry.isPrivate s.id = true) :
    ¬ Confidential cfg registry (.worksV5 named (some name)) := by
  intro hconfidential
  have hsame := respond_ranked (Table.first_mem hsort) hconfidential hprivate
    (show (Request.worksV5 (queryFor named (some name))).kind = _ from rfl)
  refine ne_of_pids
    (fun a b => index cfg false (registry.ranked s.id a b) (queryFor named (some name)))
    WorkView.id (fun a b => ?_) (eq_of_map_eq (fun _ _ h => Response.worksV5.inj h) hsame)
  obtain ⟨listing, hok, -, hresults⟩ :=
    index_first false (selected_ranked hnone hsort a b) rfl rfl
  refine ⟨listing, hok, ?_⟩
  rw [hresults, List.take_of_length_le (by rw [length_rankedWorks]; omega), List.map_map]
  rfl

/-- The signposts are summed up over private sources. -/
theorem leak_of_signposts (hnames : registry.UniqueNames) {named order : Option String}
    (hpublic : ∀ s' ∈ registry.named cfg named, registry.isPrivate s'.id = false)
    (hs : s ∈ registry.sources.rows) (hprivate : registry.isPrivate s.id = true)
    (hname : s.name ∈ cfg.signpostNames) :
    ¬ Confidential cfg registry (.worksV5 named order) := by
  intro hconfidential
  have hsame := eq_of_map_eq (fun _ _ h => Response.worksV5.inj h)
    (respond_probe hs hconfidential hprivate
      (show (Request.worksV5 (queryFor named order)).kind = _ from rfl))
  -- the work is selected in both states, since the query is about a public source
  have hall : ∀ n, probed (registry.named cfg named) s.id n = [Registry.probeWork] := by
    intro n
    refine List.filter_eq_self.mpr fun w _ => ?_
    cases hsource : registry.named cfg named with
    | none => rfl
    | some s' =>
      have hne : s'.id ≠ s.id := by
        intro heq
        have hvisible := hpublic s' hsource
        rw [heq, hprivate] at hvisible
        cases hvisible
      simp [hne]
  have hresults : ∀ n, ∃ listing, index cfg false (registry.probe s.id n) (queryFor named order) =
      .ok listing ∧ listing.results.map WorkView.counts =
        [(registry.probe s.id n).counts cfg Registry.probeWork] := by
    intro n
    obtain ⟨listing, hok, -, hresults⟩ :=
      index_first false (selected_probe s.id n named order) rfl rfl
    refine ⟨listing, hok, ?_⟩
    rw [hresults, hall]
    rfl
  obtain ⟨one, hone, hcone⟩ := hresults 1
  obtain ⟨zero, hzero, hczero⟩ := hresults 0
  rw [hone, hzero] at hsame
  rw [Except.ok.inj hsame, hczero] at hcone
  exact counts_probe_ne hs hnames hname (List.singleton_inj.mp hcone).symm

end V5

namespace V3

theorem same_probe (cfg : Settings) :
    cfg.same (Registry.probeWork.col .pmid) (some "1") = true :=
  beq_self_eq_true (cfg.collate "1")

/-- The probe has retrieval statuses of every public source. -/
theorem withStatuses_probe (cfg : Settings) {u : Source} (hu : u ∈ registry.sources.rows)
    (hpublic : registry.isPrivate u.id = false) (sourceId : Nat) (n : Int) :
    withStatuses (registry.probe sourceId n)
      (getSourceIds cfg false (registry.probe sourceId n) none) [Registry.probeWork] =
        [Registry.probeWork] := by
  refine List.filter_eq_self.mpr fun w hw => ?_
  obtain rfl := List.mem_singleton.mp hw
  refine List.any_eq_true.mpr ⟨Registry.probeStatus sourceId n u, ?_, ?_⟩
  · exact List.mem_filter.mpr ⟨List.mem_map.mpr ⟨u, hu, rfl⟩, rfl⟩
  · refine List.contains_iff_mem.mpr (List.mem_map.mpr ⟨u, ?_, rfl⟩)
    refine List.mem_filter.mpr ⟨List.mem_filter.mpr ⟨hu, ?_⟩, rfl⟩
    show (false || !registry.isPrivate u.id) = true
    rw [hpublic]
    rfl

/-- The index shows the signposts of private sources. -/
theorem leak_of_signposts (hnames : registry.UniqueNames) {u : Source}
    (hu : u ∈ registry.sources.rows) (hpublic : registry.isPrivate u.id = false)
    (hs : s ∈ registry.sources.rows) (hprivate : registry.isPrivate s.id = true)
    (hname : s.name ∈ cfg.signpostNames) : ¬ Confidential cfg registry .worksV3 := by
  intro hconfidential
  have hsame := eq_of_map_eq (fun _ _ h => Response.worksV3.inj h)
    (respond_probe hs hconfidential hprivate
      (show (Request.worksV3 { ids := some "1", type := some "pmid" }).kind = _ from rfl))
  have hindex : ∀ n, ∃ works,
      index cfg false (registry.probe s.id n) { ids := some "1", type := some "pmid" } = .ok works ∧
        works.map WorkView.counts = [(registry.probe s.id n).counts cfg Registry.probeWork] := by
    intro n
    have hids : ((splitComma "1").take 50).map (getCleanId cfg) = ["1"] := by
      rw [show splitComma "1" = ["1"] by decide]
      rfl
    have hfilter : (registry.probe s.id n).works.rows.filter (fun w =>
        (((splitComma "1").take 50).map (getCleanId cfg)).any (fun id =>
          cfg.same (w.col .pmid) (some id))) = [Registry.probeWork] := by
      refine List.filter_eq_self.mpr fun w hw => ?_
      obtain rfl := List.mem_singleton.mp hw
      rw [hids, List.any_cons, List.any_nil, Bool.or_false]
      exact same_probe cfg
    have hworks := withStatuses_probe cfg hu hpublic s.id n
    refine ⟨[workView cfg (registry.probe s.id n) none
      (getSourceIds cfg false (registry.probe s.id n) none) Registry.probeWork], ?_, rfl⟩
    unfold index
    rw [show typeColumn columns .doi (some "pmid") = .pmid from rfl]
    simp only [hfilter, hworks]
    rfl
  obtain ⟨one, hone, hcone⟩ := hindex 1
  obtain ⟨zero, hzero, hczero⟩ := hindex 0
  rw [hone, hzero] at hsame
  rw [Except.ok.inj hsame, hczero] at hcone
  exact counts_probe_ne hs hnames hname (List.singleton_inj.mp hcone).symm

/-- So does the page of a work. -/
theorem show_leak_of_signposts (hnames : registry.UniqueNames) {u : Source}
    (hu : u ∈ registry.sources.rows) (hpublic : registry.isPrivate u.id = false)
    (hs : s ∈ registry.sources.rows) (hprivate : registry.isPrivate s.id = true)
    (hname : s.name ∈ cfg.signpostNames) : ¬ Confidential cfg registry .workV3 := by
  intro hconfidential
  have hsame := eq_of_map_eq (fun _ _ h => Response.workV3.inj h)
    (respond_probe hs hconfidential hprivate
      (show (Request.workV3 "pmid:1" {}).kind = _ from rfl))
  have hhash : getIdHash cfg.toEnv (some "pmid:1") = .ok (some (.pmid, "1")) := by
    have hid : restoreId "pmid:1".toList = "pmid:1".toList := by decide +kernel
    have hrule : idRule "pmid:1".toList = .rest .pmid 5 := by decide +kernel
    simp only [getIdHash, hid, hrule]
    rfl
  have hshow : ∀ n, ∃ work, showWork cfg false (registry.probe s.id n) "pmid:1" {} = .ok work ∧
      work.counts = (registry.probe s.id n).counts cfg Registry.probeWork := by
    intro n
    have hfilter : (registry.probe s.id n).works.rows.filter
        (fun w => cfg.same (w.col .pmid) (some "1")) = [Registry.probeWork] := by
      refine List.filter_eq_self.mpr fun w hw => ?_
      obtain rfl := List.mem_singleton.mp hw
      exact same_probe cfg
    have hworks := withStatuses_probe cfg hu hpublic s.id n
    refine ⟨workView cfg (registry.probe s.id n) none
      (getSourceIds cfg false (registry.probe s.id n) none) Registry.probeWork, ?_, rfl⟩
    simp only [showWork, hhash, hfilter, hworks, List.head?_cons]
  obtain ⟨one, hone, hcone⟩ := hshow 1
  obtain ⟨zero, hzero, hczero⟩ := hshow 0
  rw [hone, hzero] at hsame
  rw [Except.ok.inj hsame, hczero] at hcone
  exact counts_probe_ne hs hnames hname hcone.symm

end V3

end Leaks

/-! ## The result -/

/-- A discreet request shows nothing private. -/
theorem confidential_of_discreet {cfg : Settings} {registry : Registry}
    (hnames : registry.UniqueNames) (hdiscreet : Discreet cfg registry kind) :
    Confidential cfg registry kind := by
  rintro request rfl site m rfl hsite hother h
  cases request with
  | worksV6 p => rw [respond, V6.index_eq h hnames hdiscreet, respond]
  | workV6 id => rw [respond, V6.showWork_eq h hnames id, respond]
  | eventsV6 p => rw [respond, V6.eventsIndex_eq h hsite hother p, respond]
  | monthsV6 sourceId => rw [respond, V6.monthsIndex_eq h hdiscreet, respond]
  | worksV5 p => rw [respond, V5.index_eq h hsite hother hdiscreet.1 hdiscreet.2, respond]
  | workV5 id => rfl
  | worksV3 p =>
    rcases hdiscreet with hsignposts | hprivate
    · rw [respond, V3.index_eq h hsignposts p, respond]
    · rw [respond, V3.index_eq_of_private hprivate p, respond]
  | workV3 id p =>
    rcases hdiscreet with hsignposts | hprivate
    · rw [respond, V3.showWork_eq h hsignposts id p, respond]
    · rw [respond, V3.showWork_eq_of_private hprivate id p, respond]

/-- Every other request does. -/
theorem discreet_of_confidential {cfg : Settings} {registry : Registry}
    (hnames : registry.UniqueNames) (h : Confidential cfg registry kind) :
    Discreet cfg registry kind := by
  have hpublic : ∀ {s : Source}, ¬ registry.isPrivate s.id = true →
      registry.isPrivate s.id = false :=
    Bool.eq_false_iff.mpr
  -- a public source beside a private signpost lets v3 show the sum
  have hv3 : (∀ u ∈ registry.sources.rows, registry.isPrivate u.id = false →
      ∀ s ∈ registry.sources.rows, registry.isPrivate s.id = true → s.name ∉ cfg.signpostNames) →
      registry.PublicSignposts cfg ∨
        ∀ s ∈ registry.sources.rows, registry.isPrivate s.id = true := by
    intro hsignposts
    by_cases hall : ∀ s ∈ registry.sources.rows, registry.isPrivate s.id = true
    · exact .inr hall
    · push Not at hall
      obtain ⟨u, hu, hvisible⟩ := hall
      exact .inl (hsignposts u hu (hpublic hvisible))
  cases kind with
  | worksV6 named sort =>
    refine ⟨fun s hs => hpublic fun hp => V6.leak_of_source hs hp h, ?_⟩
    intro hnone name hname s hs
    cases hname
    exact hpublic fun hp => V6.leak_of_sort hnone hs hp h
  | workV6 => trivial
  | eventsV6 => trivial
  | monthsV6 named => exact fun s hs => hpublic fun hp => V6.leak_of_months hs hp h
  | worksV5 named order =>
    have hsource : ∀ s ∈ registry.named cfg named, registry.isPrivate s.id = false :=
      fun s hs => hpublic fun hp => V5.leak_of_source hs hp h
    refine ⟨⟨hsource, ?_⟩, fun s hs hp hname => V5.leak_of_signposts hnames hsource hs hp hname h⟩
    intro hnone name hname s hs
    cases hname
    exact hpublic fun hp => V5.leak_of_order hnone hs hp h
  | workV5 => trivial
  | worksV3 =>
    exact hv3 fun u hu hvisible s hs hp hname =>
      V3.leak_of_signposts hnames hu hvisible hs hp hname h
  | workV3 =>
    exact hv3 fun u hu hvisible s hs hp hname =>
      V3.show_leak_of_signposts hnames hu hvisible hs hp hname h

/-- **Requests of a kind tell nothing about the metrics of private sources
exactly if the works are neither chosen nor ordered by a private source, the
months are not those of one, and the signposts of v5 and v3 do not sum up
over one.** -/
theorem confidential_iff (cfg : Settings) (registry : Registry) (hnames : registry.UniqueNames)
    (kind : Kind) : Confidential cfg registry kind ↔ Discreet cfg registry kind :=
  ⟨discreet_of_confidential hnames, confidential_of_discreet hnames⟩

def mendeleySource : Source where
  id := 2
  type := .mendeley
  name := "mendeley"
  title := "Mendeley"

/-- CiteULike for everyone, Mendeley for admin and staff. -/
def privateMendeley : Registry where
  sources := (Table.empty.insert
    { type := .citeulike, name := "citeulike", title := "CiteULike" }).insert mendeleySource
  isPrivate := fun id => id == 2

theorem works_by_citeulike_confidential :
    Confidential plainSettings privateMendeley (.worksV6 (some "citeulike") none) := by
  refine (confidential_iff plainSettings privateMendeley ?_ _).mpr ⟨?_, ?_⟩
  · unfold Registry.UniqueNames
    decide +kernel
  · have hall : (privateMendeley.named plainSettings (some "citeulike")).all
        (fun s => !privateMendeley.isPrivate s.id) = true := by decide +kernel
    intro s hs
    rw [Option.mem_def.mp hs] at hall
    simpa using hall
  · intro _ name hname
    cases hname

/-- Two states that differ in the events of Mendeley are told apart by the
number of works, by their order, by the months and by the bookmarks. -/
theorem private_metrics_visible :
    (Consistent (privateMendeley.probe 2 0) ∧ Consistent (privateMendeley.probe 2 1) ∧
      SameInPublic (privateMendeley.probe 2 0) (privateMendeley.probeMeasurements 2 1)) ∧
    (Consistent (privateMendeley.ranked 2 0 1) ∧ Consistent (privateMendeley.ranked 2 1 0) ∧
      SameInPublic (privateMendeley.ranked 2 0 1) (Registry.rankedMeasurements 2 1 0)) ∧
    (V6.index plainSettings false (privateMendeley.probe 2 0)
      { sourceId := some "mendeley" }).map Listing.total = .ok 0 ∧
    (V6.index plainSettings false (privateMendeley.probe 2 1)
      { sourceId := some "mendeley" }).map Listing.total = .ok 1 ∧
    (V6.index plainSettings false (privateMendeley.ranked 2 0 1) { sort := some "mendeley" }).map
      (fun listing => listing.results.map V6.WorkView.id) = .ok [some "2", some "1"] ∧
    (V6.index plainSettings false (privateMendeley.ranked 2 1 0) { sort := some "mendeley" }).map
      (fun listing => listing.results.map V6.WorkView.id) = .ok [some "1", some "2"] ∧
    V6.monthsIndex plainSettings (privateMendeley.probe 2 0) (some "mendeley") =
      .ok [⟨"mendeley", 2015, 1, { total := 0 }⟩] ∧
    V6.monthsIndex plainSettings (privateMendeley.probe 2 1) (some "mendeley") =
      .ok [⟨"mendeley", 2015, 1, { total := 1 }⟩] ∧
    (V5.index plainSettings false (privateMendeley.probe 2 0) {}).map
      (fun listing => listing.results.map (fun work => work.counts.bookmarks)) = .ok [1] ∧
    (V5.index plainSettings false (privateMendeley.probe 2 1) {}).map
      (fun listing => listing.results.map (fun work => work.counts.bookmarks)) = .ok [2] ∧
    (V3.showWork plainSettings false (privateMendeley.probe 2 0) "pmid:1" {}).map
      (fun work => work.counts.bookmarks) = .ok 1 ∧
    (V3.showWork plainSettings false (privateMendeley.probe 2 1) "pmid:1" {}).map
      (fun work => work.counts.bookmarks) = .ok 2 := by
  have hs : mendeleySource ∈ privateMendeley.sources.rows := List.mem_pair.mpr (.inr rfl)
  have hprivate : privateMendeley.isPrivate mendeleySource.id = true := rfl
  refine ⟨⟨probe_consistent hs 0, probe_consistent hs 1, probe_same hprivate 0 1⟩,
    ⟨ranked_consistent hs 0 1, ranked_consistent hs 1 0, ranked_same hprivate 0 1 1 0⟩, ?_⟩
  refine ⟨?_, ?_, ?_, ?_, ?_, ?_, ?_, ?_, ?_, ?_⟩ <;> decide +kernel

end Lagotto.Api
