/-
Lagotto.Api.TotalsTheorems — the total of the v6 works index and the works a
client receives that reads all pages.

The works are chosen by one `if` chain, chosen again by the join of the sort
step, and counted by a `case` over cached counts. `selected_perm` says what is
selected once both steps are done: a permutation of the works `get_ids` and
`get_class_name` leave, without those that have no retrieval status for the
source they are sorted by. `total_eq_iff` compares the number of these with
the count. `reads_all_iff` puts both together with the pages of
`Relational.Pages`. It needs the unique index on work and source, without
which a join could repeat a work.
-/
import Lagotto.Api.Responses
import Lagotto.Work.FindOrCreateTheorems

namespace Lagotto.Api

variable {cfg : Settings} {site : Site} {p : WorksParams} {c : Collection}

open Relational

/-- The unique index on `work_id` and `source_id`. -/
def UniqueStatuses (site : Site) : Prop :=
  (site.retrievalStatuses.rows.map (fun rs => (rs.workId, rs.sourceId))).Nodup

instance (site : Site) : Decidable (UniqueStatuses site) :=
  inferInstanceAs (Decidable (List.Nodup _))

/-! ## What a join leaves -/

/-- The work has a retrieval status for the source. -/
def Site.hasStatusFor (site : Site) (sourceId : Nat) (work : Work) : Bool :=
  !(site.statusesFor sourceId work).isEmpty

section Join

variable (hunique : UniqueStatuses site)

include hunique

theorem length_statusesFor_le (sourceId : Nat) (work : Work) :
    (site.statusesFor sourceId work).length ≤ 1 := by
  have hcount := List.nodup_iff_count_le_one.mp hunique (work.id, sourceId)
  have hfilter : site.statusesFor sourceId work = site.retrievalStatuses.rows.filter
      (fun rs => (rs.workId, rs.sourceId) == (work.id, sourceId)) := by
    refine List.filter_congr fun rs _ => ?_
    rw [Bool.eq_iff_iff]
    simp
  rw [List.count, List.countP_map] at hcount
  rw [hfilter, ← List.countP_eq_length_filter]
  exact hcount

/-- A work is joined with its retrieval status, or is not there. -/
theorem map_fst_join (c : Collection) (sourceId : Nat) :
    (c.join site sourceId).hits.map Prod.fst =
      (c.hits.map Prod.fst).filter (site.hasStatusFor sourceId) := by
  obtain ⟨joined, hits⟩ := c
  show (hits.flatMap _).map Prod.fst = _
  induction hits with
  | nil => rfl
  | cons hit hits ih =>
    have hlen := length_statusesFor_le hunique sourceId hit.1
    rw [List.flatMap_cons, List.map_append, ih, List.map_cons, List.filter_cons, Site.hasStatusFor]
    cases hstatuses : site.statusesFor sourceId hit.1 with
    | nil => simp
    | cons rs rest =>
      have hrest : rest = [] := by
        rw [hstatuses, List.length_cons] at hlen
        exact List.eq_nil_of_length_eq_zero (by omega)
      simp [hrest]

/-- The works with events of a source. -/
theorem map_fst_withEvents (works : List Work) (sourceId : Nat) :
    (((Collection.of works).join site sourceId).filter
      (fun hit => 0 < Collection.total hit)).hits.map Prod.fst =
        works.filter (site.hasEvents sourceId) := by
  show ((((works.map fun w => (w, none)).flatMap _).filter _).map Prod.fst) = _
  induction works with
  | nil => rfl
  | cons w works ih =>
    have hlen := length_statusesFor_le hunique sourceId w
    rw [List.map_cons, List.flatMap_cons, List.filter_append, List.map_append, ih, List.filter_cons,
      Site.hasEvents]
    cases hstatuses : site.statusesFor sourceId w with
    | nil => simp
    | cons rs rest =>
      have hrest : rest = [] := by
        rw [hstatuses, List.length_cons] at hlen
        exact List.eq_nil_of_length_eq_zero (by omega)
      by_cases htotal : 0 < rs.metrics.total
      · simp [hrest, Collection.total, htotal]
      · simp [hrest, Collection.total, htotal]

end Join

/-! ## What is selected -/

namespace V6

/-- The works before they are sorted. -/
def chosen (cfg : Settings) (site : Site) (p : WorksParams) : List Work :=
  (getClassName cfg site p (getIds cfg site p)).hits.map Prod.fst

/-- The source `get_sort` joins with. -/
def sortSource (cfg : Settings) (site : Site) (p : WorksParams) : Option Source :=
  if (site.sourceNamed cfg p.sourceId).isSome then none
  else p.sort.bind (fun sort => site.sourceNamed cfg (some sort))

/-- The works are to be ordered by a table they are not joined with. -/
def Misordered (cfg : Settings) (site : Site) (p : WorksParams) : Prop :=
  (site.sourceNamed cfg p.sourceId).isSome ∧ p.sort.isSome ∧ p.sort = p.sourceId ∧
    (p.ids.isSome ∨ p.q.isSome)

theorem joined_getClassName (cfg : Settings) (site : Site) (p : WorksParams) (c : Collection) :
    (getClassName cfg site p c).joined = c.joined := by
  unfold getClassName
  split <;> rfl

theorem joined_getIds (hsource : (site.sourceNamed cfg p.sourceId).isSome) :
    (getIds cfg site p).joined = true ↔ p.ids = none ∧ p.q = none := by
  unfold getIds listed
  cases p.ids with
  | some ids => simp [Collection.of]
  | none =>
    cases p.q with
    | some q => simp [Collection.of]
    | none =>
      obtain ⟨source, hs⟩ := Option.isSome_iff_exists.mp hsource
      simp [hs, Collection.join, Collection.filter]

end V6

/-! ## Sorting -/

section Sorting

variable {source : Option Source}

theorem sortBySource_unsorted (h : p.sort = none) : sortBySource cfg site p source c = none := by
  simp only [sortBySource, h]

theorem sortBySource_found {sort : String} {s : Source} (h : p.sort = some sort) :
    sortBySource cfg site p (some s) c =
      if p.sourceId = some sort then some c.orderByTotal else none := by
  simp only [sortBySource, h]

theorem sortBySource_other {sort : String} (h : p.sort = some sort) :
    sortBySource cfg site p none c =
      (site.sourceNamed cfg (some sort)).map
        (fun other => (c.join site other.id).orderByTotal) := by
  simp only [sortBySource, h]

theorem orderByTotal_of_joined (h : c.joined = true) :
    ∃ sorted, c.orderByTotal = .ok sorted ∧ sorted.hits.Perm c.hits := by
  rw [Collection.orderByTotal, if_pos h]
  exact ⟨_, rfl, List.perm_insertionSort _ _⟩

end Sorting

namespace V6

theorem selected_of_misordered (h : Misordered cfg site p) :
    selected cfg site p = .error .statementInvalid := by
  obtain ⟨hsource, hsort, hsame, hgiven⟩ := h
  obtain ⟨source, hs⟩ := Option.isSome_iff_exists.mp hsource
  obtain ⟨sort, ho⟩ := Option.isSome_iff_exists.mp hsort
  have hjoined : (getClassName cfg site p (getIds cfg site p)).joined = false := by
    rw [joined_getClassName, Bool.eq_false_iff, Ne, joined_getIds hsource]
    rintro ⟨hids, hq⟩
    simp [hids, hq] at hgiven
  rw [selected, getSort, hs, sortBySource_found ho, if_pos (hsame.symm.trans ho),
    Collection.orderByTotal, hjoined]
  rfl

/-- Without the first two branches the works are sorted by their own
columns. -/
theorem getSort_of_none (h : sortBySource cfg site p (site.sourceNamed cfg p.sourceId) c = none) :
    ∃ sorted, getSort cfg site p c = .ok sorted ∧ sorted.hits.Perm c.hits := by
  rw [getSort, h]
  by_cases hcreated : p.sort = some "created_at"
  · exact ⟨_, if_pos hcreated, List.perm_insertionSort _ _⟩
  · exact ⟨_, if_neg hcreated, List.perm_insertionSort _ _⟩

theorem getSort_of_some {result : Except ApiError Collection}
    (h : sortBySource cfg site p (site.sourceNamed cfg p.sourceId) c = some result) :
    getSort cfg site p c = result := by
  rw [getSort, h]

/-- The works of a query that have a retrieval status for the source they are
sorted by. -/
def sortable (cfg : Settings) (site : Site) (p : WorksParams) (works : List Work) : List Work :=
  works.filter (fun w =>
    (sortSource cfg site p).all (fun source => site.hasStatusFor source.id w))

theorem sortable_of_none (h : sortSource cfg site p = none) (works : List Work) :
    sortable cfg site p works = works := by
  rw [sortable, h]
  exact List.filter_eq_self.mpr fun _ _ => rfl

/-- The first two branches of the sort: not taken, or the works are joined and
ordered. -/
theorem sortBySource_perm (hunique : UniqueStatuses site)
    (hjoined : (site.sourceNamed cfg p.sourceId).isSome → p.sort.isSome → p.sort = p.sourceId →
      c.joined = true) :
    (sortBySource cfg site p (site.sourceNamed cfg p.sourceId) c = none ∧
      sortable cfg site p (c.hits.map Prod.fst) = c.hits.map Prod.fst) ∨
    ∃ sorted, sortBySource cfg site p (site.sourceNamed cfg p.sourceId) c = some (.ok sorted) ∧
      (sorted.hits.map Prod.fst).Perm (sortable cfg site p (c.hits.map Prod.fst)) := by
  cases hsource : site.sourceNamed cfg p.sourceId with
  | some source =>
    have hnone : sortSource cfg site p = none := by rw [sortSource, hsource]; rfl
    rw [sortable_of_none hnone]
    cases ho : p.sort with
    | none => exact .inl ⟨sortBySource_unsorted ho, rfl⟩
    | some sort =>
      rw [sortBySource_found ho]
      by_cases hsame : p.sourceId = some sort
      · obtain ⟨sorted, hok, hperm⟩ := orderByTotal_of_joined
          (hjoined (by rw [hsource]; rfl) (by rw [ho]; rfl) (ho.trans hsame.symm))
        exact .inr ⟨sorted, by rw [if_pos hsame, hok], hperm.map _⟩
      · exact .inl ⟨if_neg hsame, rfl⟩
  | none =>
    have hsort : sortSource cfg site p =
        p.sort.bind (fun sort => site.sourceNamed cfg (some sort)) := by
      rw [sortSource, hsource]; rfl
    cases ho : p.sort with
    | none => exact .inl ⟨sortBySource_unsorted ho, sortable_of_none (by rw [hsort, ho]; rfl) _⟩
    | some sort =>
      rw [ho, Option.bind_some] at hsort
      rw [sortBySource_other ho]
      cases hother : site.sourceNamed cfg (some sort) with
      | none => exact .inl ⟨rfl, sortable_of_none (hsort.trans hother) _⟩
      | some other =>
        obtain ⟨sorted, hok, hperm⟩ := orderByTotal_of_joined
          (show (c.join site other.id).joined = true from rfl)
        refine .inr ⟨sorted, by rw [Option.map_some, hok], ?_⟩
        rw [sortable, hsort, hother]
        exact (hperm.map Prod.fst).trans (.of_eq (map_fst_join hunique c other.id))

/-- Sorting keeps the works, but for those without a retrieval status of the
source they are sorted by. -/
theorem selected_perm (hunique : UniqueStatuses site) (hordered : ¬ Misordered cfg site p) :
    ∃ works, selected cfg site p = .ok works ∧
      works.Perm (sortable cfg site p (chosen cfg site p)) := by
  have hjoined : (site.sourceNamed cfg p.sourceId).isSome → p.sort.isSome → p.sort = p.sourceId →
      (getClassName cfg site p (getIds cfg site p)).joined = true := by
    intro hsource hsort hsame
    rw [joined_getClassName, joined_getIds hsource]
    refine ⟨?_, ?_⟩ <;> rw [← Option.not_isSome_iff_eq_none] <;> intro hgiven <;>
      exact hordered ⟨hsource, hsort, hsame, by simp [hgiven]⟩
  rcases sortBySource_perm hunique hjoined with ⟨hskip, hall⟩ | ⟨sorted, hok, hperm⟩
  · obtain ⟨sorted, hok, hperm⟩ := getSort_of_none hskip
    refine ⟨sorted.hits.map Prod.fst, by rw [selected, hok]; rfl, ?_⟩
    exact (hperm.map Prod.fst).trans (.of_eq hall.symm)
  · exact ⟨sorted.hits.map Prod.fst, by rw [selected, getSort_of_some hok]; rfl, hperm⟩

/-! ## The total -/

/-- None of the parameters that cannot be cached. -/
def Cached (p : WorksParams) : Prop := p.ids = none ∧ p.q = none ∧ p.className = none

/-- The cached count is over the works that are selected: with a source and a
publisher, all works with events of the source are the publisher's; sorted by
a source, all works counted have a retrieval status for it. -/
def CountsSelected (cfg : Settings) (site : Site) (p : WorksParams) : Prop :=
  match site.sourceNamed cfg p.sourceId, publisher cfg site p with
  | some source, some publisher => ∀ w ∈ site.works.rows, site.hasEvents source.id w = true →
      w.publisherId = some publisher.memberId
  | some _, none => True
  | none, some publisher => ∀ sort ∈ p.sort, ∀ other ∈ site.sourceNamed cfg (some sort),
      ∀ w ∈ site.works.rows, w.publisherId = some publisher.memberId →
        site.hasStatusFor other.id w = true
  | none, none => site.hasStatus = true → ∀ sort ∈ p.sort,
      ∀ other ∈ site.sourceNamed cfg (some sort), ∀ w ∈ site.works.rows, w.tracked = true →
        site.hasStatusFor other.id w = true

theorem chosen_of_cached (hunique : UniqueStatuses site) (hcached : Cached p) :
    chosen cfg site p =
      match site.sourceNamed cfg p.sourceId, publisher cfg site p with
      | some source, _ => site.works.rows.filter (site.hasEvents source.id)
      | none, some publisher =>
        site.works.rows.filter (fun w => w.publisherId == some publisher.memberId)
      | none, none => site.works.rows.filter (·.tracked) := by
  obtain ⟨hids, hq, hclass⟩ := hcached
  have hof : ∀ works : List Work, (Collection.of works).hits.map Prod.fst = works := by
    intro works
    simp [Collection.of, Function.comp_def]
  unfold chosen getClassName getIds listed
  simp only [hids, hq, hclass]
  cases site.sourceNamed cfg p.sourceId with
  | some source => exact map_fst_withEvents hunique _ _
  | none =>
    cases publisher cfg site p with
    | some publisher => exact hof _
    | none => exact hof _

/-- Counting all of a list and counting some of it. -/
theorem length_filter_all_iff {works : List Work} {sort : Option String} :
    works.length = (works.filter (fun w => (sort.bind (fun sort =>
        site.sourceNamed cfg (some sort))).all
          (fun other => site.hasStatusFor other.id w))).length ↔
      ∀ name ∈ sort, ∀ other ∈ site.sourceNamed cfg (some name), ∀ w ∈ works,
        site.hasStatusFor other.id w = true := by
  rw [eq_comm, List.length_filter_eq_length_iff]
  cases hother : sort.bind (fun sort => site.sourceNamed cfg (some sort)) with
  | none =>
    simp only [Option.all_none, implies_true, true_iff]
    intro name hname other hfound
    rw [Option.mem_def.mp hname] at hother
    exact absurd (hother.symm.trans hfound) (by simp)
  | some other =>
    obtain ⟨name, hname, hfound⟩ := Option.bind_eq_some_iff.mp hother
    simp only [Option.all_some]
    constructor
    · intro h name' hname' other' hfound' w hw
      obtain rfl : name = name' := Option.some.inj (hname.symm.trans hname')
      obtain rfl : other = other' := Option.some.inj (hfound.symm.trans hfound')
      exact h w hw
    · intro h w hw
      exact h name hname other hfound w hw

theorem total_of_not_cached (h : ¬ Cached p) : total cfg site p = none := by
  unfold total totalEntries
  rw [if_pos]
  simp only [Bool.or_eq_true]
  by_contra hnone
  simp only [not_or, Bool.not_eq_true, Option.isSome_eq_false_iff,
    Option.isNone_iff_eq_none] at hnone
  exact h ⟨hnone.1.1, hnone.1.2, hnone.2⟩

/-- The total is the number of works selected exactly if it counts them. -/
theorem total_eq_iff (hunique : UniqueStatuses site) (hcached : Cached p) {works : List Work}
    (hworks : works.Perm (sortable cfg site p (chosen cfg site p))) :
    (total cfg site p).getD works.length = works.length ↔ CountsSelected cfg site p := by
  have hlen := hworks.length_eq
  rw [chosen_of_cached hunique hcached] at hlen
  obtain ⟨hids, hq, hclass⟩ := hcached
  unfold total totalEntries CountsSelected
  unfold sortable sortSource at hlen
  simp only [hids, hq, hclass, Option.isSome_none, Bool.or_self, Bool.false_eq_true, if_false]
  cases hsource : site.sourceNamed cfg p.sourceId with
  | some source =>
    have hevents : works.length = (site.works.rows.filter (site.hasEvents source.id)).length := by
      simpa [hsource] using hlen
    cases hpublisher : publisher cfg site p with
    | some publisher =>
      simp only [Option.getD_some, hevents, ← List.filter_filter,
        List.length_filter_eq_length_iff, List.mem_filter, beq_iff_eq, and_imp]
    | none => simp only [Option.getD_some, hevents]
  | none =>
    simp only [hsource, Option.isSome_none, Bool.false_eq_true, if_false] at hlen
    cases hpublisher : publisher cfg site p with
    | some publisher =>
      simp only [hpublisher] at hlen
      rw [hlen, Option.getD_some, length_filter_all_iff]
      simp only [List.mem_filter, beq_iff_eq, and_imp]
    | none =>
      simp only [hpublisher] at hlen
      cases hstatus : site.hasStatus with
      | false => simp
      | true =>
        rw [hlen, if_pos rfl, Option.getD_some, length_filter_all_iff]
        simp only [List.mem_filter, and_imp, forall_const]

/-! ## Reading all pages -/

/-- The results of an answer. -/
def resultsOf {α : Type} : Except ApiError (Listing α) → List α
  | .ok listing => listing.results
  | .error _ => []

/-- A client that asks for the pages of a query one by one: the first answer
has the number of works selected, the pages it announces are all of them, and
the last page has something on it unless nothing is selected. -/
def ReadsAll (cfg : Settings) (staff : Bool) (site : Site) (p : WorksParams) : Prop :=
  ∃ works, selected cfg site p = .ok works ∧ works.Nodup ∧
    ∀ per : Nat, 1 ≤ per → per ≤ 1000 → ∃ first,
      index cfg staff site { p with page := some 1, perPage := some per } = .ok first ∧
      first.total = works.length ∧
      (List.range' 1 first.totalPages).flatMap (fun page : Nat => resultsOf
        (index cfg staff site { p with page := some (page : Int), perPage := some per })) =
          works.map (workView staff site) ∧
      (works ≠ [] → resultsOf (index cfg staff site
        { p with page := some first.totalPages, perPage := some per }) ≠ [])

section Reading

variable {staff : Bool}

/-- The page and its size change neither the works nor the total. -/
theorem index_page {works : List Work} (hworks : selected cfg site p = .ok works) {per page : Nat}
    (hper : per ≤ 1000) (hpage : 1 ≤ page) :
    index cfg staff site { p with page := some page, perPage := some per } = .ok
      { total := (total cfg site p).getD works.length
        totalPages := if per = 0 then 1 else
          totalPages per ((total cfg site p).getD works.length)
        page := if (total cfg site p).getD works.length = 0 then 1 else page
        results := (pageOf per page works).map (workView staff site) } := by
  have hselected : selected cfg site { p with page := some page, perPage := some per } =
      .ok works := hworks
  have htotal : total cfg site { p with page := some page, perPage := some per } =
      total cfg site p := rfl
  have hnumber : pageNumber (some (page : Int)) = .ok page := by
    rw [pageNumber, if_neg (by simp; omega)]
    simp
  have hsize : perPage 0 1000 (some (per : Int)) = per := by
    rw [perPage, if_pos (by omega)]
    simp
  unfold index
  rw [hselected]
  simp only [paginate, hnumber, hsize, htotal, Except.map]

theorem chosen_sublist (hunique : UniqueStatuses site) :
    (chosen cfg site p).Sublist site.works.rows := by
  have hof : ∀ q : Work → Bool,
      ((Collection.of (site.works.rows.filter q)).hits.map Prod.fst).Sublist site.works.rows := by
    intro q
    have h : (Collection.of (site.works.rows.filter q)).hits.map Prod.fst =
        site.works.rows.filter q := by
      simp [Collection.of, Function.comp_def]
    rw [h]
    exact List.filter_sublist
  have hids : ((getIds cfg site p).hits.map Prod.fst).Sublist site.works.rows := by
    unfold getIds listed
    split
    · exact hof _
    · split
      · exact hof _
      · split
        · rw [map_fst_withEvents hunique]
          exact List.filter_sublist
        · split
          · exact hof _
          · exact hof _
  unfold chosen getClassName
  split
  · exact hids
  · exact (List.filter_sublist.map Prod.fst).trans hids

theorem nodup_works (site : Site) : site.works.rows.Nodup :=
  site.works.ordered.imp fun h heq => absurd (heq ▸ h) (lt_irrefl _)

end Reading

/-- **The total is the number of works selected, and reading the pages that
are announced gives all of them, exactly if the query can be ordered and the
cached count, where one is used, is over the works that are selected.** -/
theorem reads_all_iff (cfg : Settings) (staff : Bool) (site : Site)
    (hunique : UniqueStatuses site) (p : WorksParams) :
    ReadsAll cfg staff site p ↔
      ¬ Misordered cfg site p ∧ (Cached p → CountsSelected cfg site p) := by
  constructor
  · rintro ⟨works, hworks, -, hpages⟩
    have hordered : ¬ Misordered cfg site p := by
      intro h
      rw [selected_of_misordered h] at hworks
      cases hworks
    refine ⟨hordered, fun hcached => ?_⟩
    obtain ⟨works', hworks', hperm⟩ := selected_perm hunique hordered
    obtain rfl : works' = works := by
      rw [hworks'] at hworks
      exact Except.ok.inj hworks
    obtain ⟨first, hfirst, htotal, -⟩ := hpages 1 le_rfl (by omega)
    have hanswer := Except.ok.inj (hfirst.symm.trans
      (index_page hworks (show (1 : Nat) ≤ 1000 by omega) (le_refl 1)))
    rw [hanswer] at htotal
    exact (total_eq_iff hunique hcached hperm).mp htotal
  · rintro ⟨hordered, hcounts⟩
    obtain ⟨works, hworks, hperm⟩ := selected_perm hunique hordered
    have htotal : (total cfg site p).getD works.length = works.length := by
      by_cases hcached : Cached p
      · exact (total_eq_iff hunique hcached hperm).mpr (hcounts hcached)
      · rw [total_of_not_cached hcached, Option.getD_none]
    have hnodup : works.Nodup := by
      refine hperm.nodup_iff.mpr (List.Nodup.filter _ ?_)
      exact (nodup_works site).sublist (chosen_sublist hunique)
    refine ⟨works, hworks, hnodup, fun per hper hmax => ?_⟩
    have hpage : ∀ page : Nat, 1 ≤ page → resultsOf (index cfg staff site
        { p with page := some (page : Int), perPage := some (per : Int) }) =
          (pageOf per page works).map (workView staff site) := by
      intro page h
      rw [index_page hworks hmax h]
      rfl
    have hannounced : (if per = 0 then 1 else
        totalPages per ((total cfg site p).getD works.length)) = totalPages per works.length := by
      rw [if_neg (by omega), htotal]
    refine ⟨_, index_page hworks hmax le_rfl, htotal, ?_, ?_⟩
    · simp only [hannounced]
      rw [List.flatMap_congr fun page h => hpage page (List.mem_range'_1.mp h).1,
        ← List.map_flatMap, flatMap_pages hper]
    · simp only [hannounced]
      intro hne
      rw [hpage _ (one_le_totalPages hper _), Ne, List.map_eq_nil_iff]
      exact pageOf_totalPages hper hne

end V6

/-- The settings of a plain installation. -/
def plainSettings : Settings where
  toEnv := plainEnv
  unencode := fun id => id
  like := fun _ _ => false

/-- A tracked work of publisher 78 with three bookmarks in CiteULike, and one
of publisher 340 that nobody has asked CiteULike about. -/
def twoWorks : Site where
  sources := Table.empty.insert { type := .citeulike, name := "citeulike", title := "CiteULike" }
  works := (Table.empty.insert
      { col := fun c => if c = .pid then some "http://doi.org/10.1234/one" else none
        publisherId := some 78
        tracked := true }).insert
      { col := fun c => if c = .pid then some "http://doi.org/10.1371/two" else none
        publisherId := some 340
        tracked := true }
  retrievalStatuses := Table.empty.insert { workId := 1, sourceId := 1, metrics := { total := 3 } }
  publishers := [⟨"plos", 340⟩]

namespace V6

theorem reads_all_bookmarked :
    ReadsAll plainSettings false twoWorks { sourceId := some "citeulike" } := by
  refine (reads_all_iff plainSettings false twoWorks ?_ { sourceId := some "citeulike" }).mpr
    ⟨?_, fun _ => ?_⟩
  · decide +kernel
  · rintro ⟨-, hsort, -⟩
    cases hsort
  · have hsource : (twoWorks.sourceNamed plainSettings (some "citeulike")).isSome = true := by
      decide +kernel
    have hpublisher : (publisher plainSettings twoWorks { sourceId := some "citeulike" }).isNone =
        true := by
      decide +kernel
    obtain ⟨source, hs⟩ := Option.isSome_iff_exists.mp hsource
    simp only [CountsSelected, hs, Option.isNone_iff_eq_none.mp hpublisher]

/-- The work of another publisher is listed but not counted; sorted by
CiteULike, a work is counted but not listed; and works given by their ids
cannot be sorted by the source that is asked for. -/
theorem total_is_not_number_selected :
    UniqueStatuses twoWorks ∧
    ¬ ReadsAll plainSettings false twoWorks
      { sourceId := some "citeulike", publisherId := some "plos" } ∧
    ¬ ReadsAll plainSettings false twoWorks { sort := some "citeulike" } ∧
    ¬ ReadsAll plainSettings false twoWorks
      { ids := some "http://doi.org/10.1234/one", sourceId := some "citeulike",
        sort := some "citeulike" } := by
  have hwrong : ∀ (p : WorksParams) (n m : Nat), n ≠ m →
      (selected plainSettings twoWorks p).map List.length = .ok n →
      (index plainSettings false twoWorks { p with page := some 1, perPage := some 1 }).map
        Listing.total = .ok m → ¬ ReadsAll plainSettings false twoWorks p := by
    rintro p n m hne hlength htotal ⟨works, hworks, -, hpages⟩
    obtain ⟨first, hfirst, hsame, -⟩ := hpages 1 le_rfl (by omega)
    rw [hworks] at hlength
    have hfirst' : index plainSettings false twoWorks { p with page := some 1, perPage := some 1 } =
      .ok first := hfirst
    rw [hfirst'] at htotal
    have hn : works.length = n := Except.ok.inj hlength
    have hm : first.total = m := Except.ok.inj htotal
    omega
  refine ⟨by decide +kernel, hwrong _ 1 0 (by decide) (by decide +kernel) (by decide +kernel),
    hwrong _ 1 2 (by decide) (by decide +kernel) (by decide +kernel), ?_⟩
  rintro ⟨works, hworks, -⟩
  have herror : selected plainSettings twoWorks
      { ids := some "http://doi.org/10.1234/one", sourceId := some "citeulike",
        sort := some "citeulike" } = .error .statementInvalid :=
    selected_of_misordered ⟨by decide +kernel, rfl, rfl, .inl rfl⟩
  rw [herror] at hworks
  cases hworks

end V6

end Lagotto.Api
