/-
Lagotto.Source.UsageTheorems — usage counts from the payload to the view by
year.

The counts a source reports are added up by one loop and the monthly items are
made by another (`getSum_of_months` joins them), and the view by year adds up
the months again, grouped by their year (`sum_grouped`). Nothing is lost or
counted twice on the way: `usage_counts_conserved`.
-/
import Lagotto.Api.Responses
import Lagotto.Interaction.Loops
import Lagotto.Relational.Groups
import Lagotto.Source.Usage

namespace Lagotto

open Interaction Lagotto.Measurable

variable {value result : Value}

/-! ## Sums -/

/-- The items by month add up to what is reported. -/
structure Events.Conserved (e : Events) : Prop where
  html : e.counts.html = some (e.months.map (fun item => item.counts.fetch.html)).sum
  pdf : e.counts.pdf = some (e.months.map (fun item => item.counts.fetch.pdf)).sum
  total : e.counts.total = some (e.months.map (fun item => item.counts.fetch.total)).sum

/-- Where every item has one of the counts, the counts of the items add up to
the sum of the loop. -/
theorem getSum_of_months {monthItem : Value → Except Raised MonthItem} {extra : List Value}
    {months : List MonthItem} {key : String} {f : MonthItem → Int}
    (hmonths : extra.mapM monthItem = .ok months)
    (hitem : ∀ value item, monthItem value = .ok item → count key value = .ok (f item)) :
    getSum extra key = .ok (months.map f).sum := by
  have hcounts : List.Forall₂ (fun value n => count key value = .ok n) extra (months.map f) :=
    List.forall₂_map_right_iff.mpr ((mapM_eq_ok_iff.mp hmonths).imp hitem)
  exact foldlM_add_eq_ok_iff.mpr ⟨_, hcounts, (zero_add _).symm⟩

/-! ## Payloads -/

/-- What can be a count: a string, a number, or nothing. -/
def Value.Countable : Value → Prop
  | .nil | .int _ | .float _ | .str _ => True
  | .bool _ | .arr _ | .hash _ => False

instance : DecidablePred Value.Countable
  | .nil | .int _ | .float _ | .str _ => isTrue trivial
  | .bool _ | .arr _ | .hash _ => isFalse id

/-- A hash that has something countable, if anything, under each of the keys. -/
def Value.HasCounts (keys : List String) (item : Value) : Prop :=
  item.isHash = true ∧ ∀ key ∈ keys, (item.get (.str key)).Countable

instance (keys : List String) (item : Value) : Decidable (item.HasCounts keys) :=
  inferInstanceAs (Decidable (_ ∧ _))

theorem toI_of_countable (h : value.Countable) : toI value = .ok value.toI := by
  cases value with
  | nil | int n | float x | str s => rfl
  | bool b | arr items | hash entries => exact h.elim

theorem count_of_hasCounts {keys : List String} {item : Value} (h : item.HasCounts keys)
    {key : String} (hkey : key ∈ keys) :
    count key item = .ok (item.get (.str key)).toI := by
  obtain ⟨entries, rfl⟩ := Value.isHash_iff.mp h.1
  exact toI_of_countable (h.2 key hkey)

/-- The default stands in for a count that is missing. -/
theorem countable_fetch {item default : Value} {key : Key} (h : (item.get key).Countable)
    (hdefault : default.Countable) : (item.fetch key default).Countable := by
  cases item with
  | hash entries =>
    unfold Value.fetch
    unfold Value.get at h
    cases hfind : entries.find? (fun e => decide (e.1 = key)) with
    | none => simpa [hfind] using hdefault
    | some e => simpa [hfind] using h
  | nil | bool b | int n | float x | str s | arr items => exact hdefault

/-! ## COUNTER -/

namespace Counter

/-- A response without an error, whose items have counts. -/
def Payload (result : Value) : Prop :=
  (result.get (.sym "error")).truthy = false ∧
    ∀ item ∈ items result,
      item.HasCounts ["month", "year", "get_pdf", "get_xml", "get_document"]

def extraKeys : List String := ["month", "year", "pdf_views", "xml_views", "html_views"]

theorem hasCounts_extraOf {item : Value}
    (h : item.HasCounts ["month", "year", "get_pdf", "get_xml", "get_document"]) :
    (extraOf item).HasCounts extraKeys := by
  refine ⟨rfl, fun key hkey => ?_⟩
  simp only [extraKeys, List.mem_cons, List.not_mem_nil, or_false] at hkey
  rcases hkey with rfl | rfl | rfl | rfl | rfl
  · exact countable_fetch (h.2 "month" (by decide)) trivial
  · exact countable_fetch (h.2 "year" (by decide)) trivial
  · exact countable_fetch (h.2 "get_pdf" (by decide)) trivial
  · exact countable_fetch (h.2 "get_xml" (by decide)) trivial
  · exact countable_fetch (h.2 "get_document" (by decide)) trivial

theorem getExtra_of_payload (h : Payload result) :
    getExtra result = .ok ((items result).map extraOf) := by
  refine mapM_eq_ok_iff.mpr (List.forall₂_map_right_iff.mpr (List.forall₂_same.mpr ?_))
  intro item hitem
  obtain ⟨entries, rfl⟩ := Value.isHash_iff.mp (h.2 item hitem).1
  rfl

theorem monthItem_of_hasCounts (h : value.HasCounts extraKeys) :
    ∃ item, monthItem value = .ok item := by
  unfold monthItem
  rw [count_of_hasCounts h (by decide : "html_views" ∈ extraKeys),
    count_of_hasCounts h (by decide : "pdf_views" ∈ extraKeys),
    count_of_hasCounts h (by decide : "xml_views" ∈ extraKeys),
    count_of_hasCounts h (by decide : "month" ∈ extraKeys),
    count_of_hasCounts h (by decide : "year" ∈ extraKeys)]
  exact ⟨_, rfl⟩

/-- What an item is made of. -/
theorem monthItem_eq_ok {item : MonthItem} (h : monthItem value = .ok item) :
    count "html_views" value = .ok item.counts.fetch.html ∧
      count "pdf_views" value = .ok item.counts.fetch.pdf ∧
      count "xml_views" value =
        .ok (item.counts.fetch.total - item.counts.fetch.html - item.counts.fetch.pdf) := by
  obtain ⟨html, hhtml, h⟩ := bind_eq_ok_iff.mp h
  obtain ⟨pdf, hpdf, h⟩ := bind_eq_ok_iff.mp h
  obtain ⟨xml, hxml, h⟩ := bind_eq_ok_iff.mp h
  obtain ⟨number, -, h⟩ := bind_eq_ok_iff.mp h
  obtain ⟨year, -, h⟩ := bind_eq_ok_iff.mp h
  obtain rfl := Except.ok.inj h
  refine ⟨hhtml, hpdf, hxml.trans (congrArg Except.ok ?_)⟩
  simp only [Counts.fetch, Option.getD_some]
  omega

/-- A payload is parsed, and its counts are conserved. -/
theorem parseData_conserved (h : Payload result) :
    ∃ parsed, parseData result = .ok parsed ∧ parsed.events.Conserved := by
  have hextra := getExtra_of_payload h
  have hcounts : ∀ value ∈ (items result).map extraOf, value.HasCounts extraKeys := by
    intro value hvalue
    obtain ⟨item, hitem, rfl⟩ := List.mem_map.mp hvalue
    exact hasCounts_extraOf (h.2 item hitem)
  obtain ⟨months, hmonths⟩ := exists_forall₂_iff.mpr fun value hvalue =>
    monthItem_of_hasCounts (hcounts value hvalue)
  have hmonths : getEventsByMonth ((items result).map extraOf) = .ok months :=
    mapM_eq_ok_iff.mpr hmonths
  have hhtml := getSum_of_months hmonths fun _ _ h => (monthItem_eq_ok h).1
  have hpdf := getSum_of_months hmonths fun _ _ h => (monthItem_eq_ok h).2.1
  have hxml := getSum_of_months hmonths fun _ _ h => (monthItem_eq_ok h).2.2
  have htotal : (months.map (fun item => item.counts.fetch.pdf)).sum +
      (months.map (fun item => item.counts.fetch.html)).sum +
      (months.map (fun item => item.counts.fetch.total - item.counts.fetch.html -
        item.counts.fetch.pdf)).sum =
        (months.map (fun item => item.counts.fetch.total)).sum := by
    rw [← List.sum_map_add, ← List.sum_map_add]
    refine congrArg List.sum (List.map_congr_left fun item _ => ?_)
    omega
  refine ⟨_, (if_neg (by simp [h.1])).trans (bind_eq_ok_iff.mpr ⟨_, hextra, bind_eq_ok_iff.mpr
    ⟨_, hpdf, bind_eq_ok_iff.mpr ⟨_, hhtml, bind_eq_ok_iff.mpr ⟨_, hxml, bind_eq_ok_iff.mpr
      ⟨_, hmonths, rfl⟩⟩⟩⟩⟩), ?_⟩
  exact ⟨rfl, rfl, congrArg some htotal⟩

end Counter

/-! ## PubMed Central -/

namespace Pmc

/-- A response that is not found, or one without an error whose items have
counts. -/
def Payload (result : Value) : Prop :=
  result.isNotFound = true ∨
    (result.get (.sym "error")).truthy = false ∧
      ∀ item ∈ views result, item.HasCounts ["full-text", "pdf", "month", "year"]

def viewKeys : List String := ["full-text", "pdf", "month", "year"]

theorem monthItem_of_hasCounts (h : value.HasCounts viewKeys) :
    ∃ item, monthItem value = .ok item := by
  unfold monthItem
  rw [count_of_hasCounts h (by decide : "full-text" ∈ viewKeys),
    count_of_hasCounts h (by decide : "pdf" ∈ viewKeys),
    count_of_hasCounts h (by decide : "month" ∈ viewKeys),
    count_of_hasCounts h (by decide : "year" ∈ viewKeys)]
  exact ⟨_, rfl⟩

theorem monthItem_eq_ok {item : MonthItem} (h : monthItem value = .ok item) :
    count "full-text" value = .ok item.counts.fetch.html ∧
      count "pdf" value = .ok item.counts.fetch.pdf ∧
      count "pdf" value = .ok (item.counts.fetch.total - item.counts.fetch.html) := by
  obtain ⟨html, hhtml, h⟩ := bind_eq_ok_iff.mp h
  obtain ⟨pdf, hpdf, h⟩ := bind_eq_ok_iff.mp h
  obtain ⟨number, -, h⟩ := bind_eq_ok_iff.mp h
  obtain ⟨year, -, h⟩ := bind_eq_ok_iff.mp h
  obtain rfl := Except.ok.inj h
  refine ⟨hhtml, hpdf, hpdf.trans (congrArg Except.ok ?_)⟩
  simp only [Counts.fetch, Option.getD_some]
  omega

theorem parseFound_conserved (url : Option String)
    (herror : (result.get (.sym "error")).truthy = false)
    (hcounts : ∀ item ∈ views result, item.HasCounts viewKeys) :
    ∃ parsed, parseFound (.ok url) result = .ok parsed ∧ parsed.events.Conserved := by
  obtain ⟨months, hitems⟩ := exists_forall₂_iff.mpr fun value hvalue =>
    monthItem_of_hasCounts (hcounts value hvalue)
  have hmonths : getEventsByMonth (views result) = .ok months := mapM_eq_ok_iff.mpr hitems
  have hhtml := getSum_of_months hmonths fun _ _ h => (monthItem_eq_ok h).1
  have hpdf := getSum_of_months hmonths fun _ _ h => (monthItem_eq_ok h).2.1
  have hrest := getSum_of_months hmonths fun _ _ h => (monthItem_eq_ok h).2.2
  have htotal : (months.map (fun item => item.counts.fetch.html)).sum +
      (months.map (fun item => item.counts.fetch.pdf)).sum =
        (months.map (fun item => item.counts.fetch.total)).sum := by
    rw [Except.ok.inj (hpdf.symm.trans hrest), ← List.sum_map_add]
    refine congrArg List.sum (List.map_congr_left fun item _ => ?_)
    omega
  obtain ⟨link, hlink⟩ : ∃ link, eventsUrlFor
      ((months.map (fun item => item.counts.fetch.html)).sum +
        (months.map (fun item => item.counts.fetch.pdf)).sum) (.ok url) = .ok link := by
    unfold eventsUrlFor
    split
    · exact ⟨_, rfl⟩
    · exact ⟨_, rfl⟩
  refine ⟨_, (if_neg (by simp [herror])).trans (bind_eq_ok_iff.mpr ⟨_, hhtml, bind_eq_ok_iff.mpr
    ⟨_, hpdf, bind_eq_ok_iff.mpr ⟨_, hlink, bind_eq_ok_iff.mpr ⟨_, hmonths, rfl⟩⟩⟩⟩), ?_⟩
  exact ⟨rfl, rfl, congrArg some htotal⟩

/-- A payload is parsed, and its counts are conserved. -/
theorem parseData_conserved (url : Option String) (h : Payload result) :
    ∃ parsed, parseData (.ok url) result = .ok parsed ∧ parsed.events.Conserved := by
  unfold parseData
  cases hfound : result.isNotFound with
  | true =>
    refine parseFound_conserved url rfl ?_
    intro item hitem
    cases hitem
  | false =>
    obtain hmissing | ⟨herror, hcounts⟩ := h
    · rw [hfound] at hmissing
      cases hmissing
    · exact parseFound_conserved url herror hcounts

end Pmc

/-! ## By year -/

namespace Api

/-- The groups add up to what was grouped. -/
theorem sum_grouped {f : Metrics → Int} (hf : ∀ rows, f (sumMetrics rows) = (rows.map f).sum)
    (rows : List (Int × Metrics)) :
    ((grouped (· ≤ ·) rows).map (fun entry => f entry.2)).sum =
      (rows.map (fun row => f row.2)).sum := by
  have hperm := List.perm_insertionSort (· ≤ ·) (rows.map Prod.fst).dedup
  have hgroup : ∀ year, f (sumMetrics ((rows.filter (fun row => row.1 = year)).map Prod.snd)) =
      ((rows.filter (fun row => row.1 = year)).map (fun row => f row.2)).sum := by
    intro year
    rw [hf, List.map_map]
    rfl
  unfold grouped
  rw [List.map_map, (hperm.map _).sum_eq]
  simp only [Function.comp_def, hgroup]
  refine Relational.sum_fibers Prod.fst (fun row => f row.2) (List.nodup_dedup _) ?_
  intro row hrow
  exact List.mem_dedup.mpr (List.mem_map_of_mem hrow)

theorem map_fst_grouped (rows : List (Int × Metrics)) :
    (grouped (· ≤ ·) rows).map Prod.fst =
      (rows.map Prod.fst).dedup.insertionSort (· ≤ ·) := by
  unfold grouped
  rw [List.map_map]
  exact List.map_id _

theorem sumMetrics_grouped (rows : List (Int × Metrics)) :
    sumMetrics ((grouped (· ≤ ·) rows).map Prod.snd) = sumMetrics (rows.map Prod.snd) := by
  have hsum : ∀ {f : Metrics → Int}, (∀ rows, f (sumMetrics rows) = (rows.map f).sum) →
      f (sumMetrics ((grouped (· ≤ ·) rows).map Prod.snd)) =
        f (sumMetrics (rows.map Prod.snd)) := by
    intro f hf
    rw [hf, hf, List.map_map, List.map_map]
    exact sum_grouped hf rows
  have hfields : ∀ m n : Metrics, m.total = n.total → m.pdf = n.pdf → m.html = n.html →
      m.readers = n.readers → m.comments = n.comments → m.likes = n.likes → m = n := by
    intro m n htotal hpdf hhtml hreaders hcomments hlikes
    cases m
    cases n
    simp_all
  exact hfields _ _ (hsum fun _ => rfl) (hsum fun _ => rfl) (hsum fun _ => rfl)
    (hsum fun _ => rfl) (hsum fun _ => rfl) (hsum fun _ => rfl)

end Api

/-- Usage counts are conserved from the payload to the view by year. What
COUNTER and PMC report for a work is what its monthly items add up to; and a
view by year has every year of the monthly rows once and in order, and adds up
to what the rows add up to. -/
theorem usage_counts_conserved :
    (∀ result, Counter.Payload result →
      ∃ parsed, Counter.parseData result = .ok parsed ∧ parsed.events.Conserved) ∧
    (∀ url result, Pmc.Payload result →
      ∃ parsed, Pmc.parseData (.ok url) result = .ok parsed ∧ parsed.events.Conserved) ∧
    ∀ (site : Api.Site) (rs : RetrievalStatus),
      ((site.byYear rs).map Prod.fst).Pairwise (· < ·) ∧
      (∀ year, year ∈ (site.byYear rs).map Prod.fst ↔
        ∃ row ∈ rs.months site.months, row.year = year) ∧
      Api.sumMetrics ((site.byYear rs).map Prod.snd) =
        Api.sumMetrics ((rs.months site.months).map (·.metrics)) := by
  refine ⟨fun _ => Counter.parseData_conserved, fun url _ => Pmc.parseData_conserved url,
    fun site rs => ⟨?_, fun year => ?_, ?_⟩⟩
  · unfold Api.Site.byYear
    rw [Api.map_fst_grouped]
    exact Relational.pairwise_lt_insertionSort (List.nodup_dedup _)
  · unfold Api.Site.byYear Api.Site.byMonth
    rw [Api.map_fst_grouped, List.mem_insertionSort, List.mem_dedup]
    simp
  · unfold Api.Site.byYear Api.Site.byMonth
    rw [Api.sumMetrics_grouped, List.map_map, List.map_map]
    rfl

/-- Two months, with counts as strings, as numbers, and missing. -/
def counterPayload : Value :=
  .hash [(.str "rest", .hash [(.str "response", .hash [(.str "results", .hash [(.str "item", .arr
    [.hash [(.str "month", .str "1"), (.str "year", .str "2015"), (.str "get_pdf", .str "3"),
        (.str "get_document", .int 4)],
      .hash [(.str "month", .str "2"), (.str "year", .str "2015"),
        (.str "get_xml", .int 1)]])])])])]

def pmcPayload : Value :=
  .hash [(.str "views", .arr
    [.hash [(.str "month", .str "12"), (.str "year", .int 2014), (.str "full-text", .str "3")],
      .hash [(.str "month", .str "1"), (.str "year", .int 2015), (.str "full-text", .str "5"),
        (.str "pdf", .int 2)]])]

theorem two_months_conserved :
    (∃ parsed, Counter.parseData counterPayload = .ok parsed ∧ parsed.events.Conserved) ∧
      ∃ parsed, Pmc.parseData (.ok none) pmcPayload = .ok parsed ∧ parsed.events.Conserved :=
  ⟨usage_counts_conserved.1 counterPayload ⟨rfl, by decide⟩,
    usage_counts_conserved.2.1 none pmcPayload (Or.inr ⟨rfl, by decide⟩)⟩

end Lagotto
