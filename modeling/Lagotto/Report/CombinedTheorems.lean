/-
Lagotto.Report.CombinedTheorems — when the combined report has a complete row
for each work.

The line items of the four reports are merged by pid. The works of the PMC and
Counter reports are among those of the ALM report, so they add to its line
items (`get?_lineItemsByPid`). A work of the Mendeley report that is not tracked
gets a line item without a pid (`get?_untracked`), and the CSV cannot be
written. `combined_rows_iff` says when the rows are those of the ALM report
with the counts of the others.
-/
import Lagotto.Interaction.Loops
import Lagotto.Report.LineItems

namespace Lagotto.Report

open Interaction
open Relational

/-! ## Files -/

theorem field_eq_ok_iff {item : LineItem} {key : String} {cell : Cell} :
    LineItem.field item key = .ok cell ↔ item.get? key = some cell := by
  unfold LineItem.field
  cases item.get? key with
  | none => simp
  | some c => simp

/-- A file is written exactly if every line item has every header. -/
theorem toCsv_eq_ok_iff {headers : List String} {items : List LineItem}
    {rows : List (List Cell)} :
    toCsv headers items = .ok (headers, rows) ↔
      List.Forall₂ (fun item row => List.Forall₂ (fun header cell => item.get? header = some cell)
        headers row) items rows := by
  unfold toCsv
  rw [map_eq_ok_iff]
  constructor
  · intro ⟨found, hfound, heq⟩
    rw [(Prod.mk.inj heq).2]
    simpa only [mapM_eq_ok_iff, field_eq_ok_iff] using hfound
  · intro h
    refine ⟨rows, ?_, rfl⟩
    simpa only [mapM_eq_ok_iff, field_eq_ok_iff] using h

/-! ## Queries -/

namespace Data

variable (data : Data)

theorem mem_worksWhere {p : Work → Bool} {w : Work} :
    w ∈ data.worksWhere p ↔ w ∈ data.db.works.rows ∧ p w = true := by
  unfold worksWhere
  rw [List.mem_insertionSort, List.mem_filter]

theorem pidOf_inj {w v : Work} (hw : w ∈ data.db.works.rows) (hv : v ∈ data.db.works.rows)
    (h : pidOf w = pidOf v) : w = v := by
  refine data.pids w hw v hv ?_
  unfold pidOf at h
  cases hpid : w.col .pid <;> cases hpid' : v.col .pid <;> simp [hpid, hpid'] at h ⊢
  exact h

theorem nodup_pids (p : Work → Bool) : ((data.worksWhere p).map pidOf).Nodup := by
  have hrows : data.db.works.rows.Nodup := List.Nodup.of_map _ data.db.works.ids_nodup
  have hworks : (data.worksWhere p).Nodup :=
    (List.perm_insertionSort _ _).nodup_iff.mpr (hrows.filter p)
  refine hworks.map_on ?_
  intro w hw v hv heq
  exact data.pidOf_inj (data.mem_worksWhere.mp hw).1 (data.mem_worksWhere.mp hv).1 heq

/-- The retrieval status of a work for a source that may be missing. -/
def statusOf (source : Option Source) (w : Work) : Option RetrievalStatus :=
  source.bind (fun s => data.status s w)

theorem mem_joined {source : Option Source} {p : Work → Bool} {e : Work × RetrievalStatus} :
    e ∈ data.joined source p ↔
      e.1 ∈ data.db.works.rows ∧ p e.1 = true ∧ data.statusOf source e.1 = some e.2 := by
  unfold joined statusOf
  cases source with
  | none => simp
  | some s =>
    simp only [List.mem_filterMap, data.mem_worksWhere, Option.map_eq_some_iff, Option.bind_some]
    constructor
    · intro ⟨w, ⟨hw, hp⟩, rs, hrs, heq⟩
      rw [← heq]
      exact ⟨hw, hp, hrs⟩
    · intro ⟨hw, hp, hrs⟩
      exact ⟨e.1, ⟨hw, hp⟩, e.2, hrs, rfl⟩

theorem nodup_joined (source : Option Source) (p : Work → Bool) :
    ((data.joined source p).map (fun e => pidOf e.1)).Nodup := by
  cases source with
  | none => exact List.nodup_nil
  | some s =>
    have hmap : (data.joined (some s) p).map (fun e => pidOf e.1) =
        ((data.worksWhere p).filter (fun w => (data.status s w).isSome)).map pidOf := by
      unfold joined
      induction data.worksWhere p with
      | nil => rfl
      | cons w rest ih =>
        cases hstatus : data.status s w with
        | none => simpa [hstatus] using ih
        | some rs => simpa [hstatus] using ih
    rw [hmap]
    exact (data.nodup_pids p).sublist (List.filter_sublist.map pidOf)

/-- The line item for a work in a report. -/
theorem find?_joined {β : Type} (item : Work → RetrievalStatus → β) (pid : β → Cell)
    (hpid : ∀ w rs, pid (item w rs) = pidOf w) (source : Option Source) {p : Work → Bool}
    {w : Work} (hw : w ∈ data.db.works.rows) (hp : p w = true) :
    ((data.joined source p).map (fun e => item e.1 e.2)).find? (fun b => pid b = pidOf w) =
      (data.statusOf source w).map (item w) := by
  have hsame : ∀ e ∈ data.joined source p, pid (item e.1 e.2) = pidOf w →
      e.1 = w ∧ data.statusOf source w = some e.2 := by
    intro e he heq
    obtain ⟨hrow, -, hrs⟩ := data.mem_joined.mp he
    have hwork := data.pidOf_inj hrow hw ((hpid e.1 e.2).symm.trans heq)
    rw [hwork] at hrs
    exact ⟨hwork, hrs⟩
  cases hfind : ((data.joined source p).map (fun e => item e.1 e.2)).find?
      (fun b => pid b = pidOf w) with
  | some b =>
    obtain ⟨e, he, rfl⟩ := List.mem_map.mp (List.mem_of_find?_eq_some hfind)
    obtain ⟨hwork, hstatus⟩ := hsame e he (by simpa using List.find?_some hfind)
    rw [hstatus, Option.map_some, hwork]
  | none =>
    cases hstatus : data.statusOf source w with
    | none => rfl
    | some rs =>
      have hmem : (w, rs) ∈ data.joined source p := data.mem_joined.mpr ⟨hw, hp, hstatus⟩
      have hnone := List.find?_eq_none.mp hfind _ (List.mem_map_of_mem hmem)
      simp [hpid] at hnone

end Data

/-! ## The ALM report -/

namespace AlmStatsReport

variable (alm : AlmStatsReport) (data : Data)

theorem get?_buildLineItem (w : Work) (header : String) :
    (alm.buildLineItem data w).get? header =
      if header ∈ alm.sources.map (·.name) then some (orZero (alm.column data w header))
      else if header = "title" then some (alm.column data w "title")
      else if header = "publication_date" then some (alm.column data w "published_on")
      else if header = "pid" then some (alm.column data w "pid")
      else none := by
  unfold buildLineItem
  have hfold := OrderedHash.get?_foldl_set (fun name => orZero (alm.column data w name))
    (alm.sources.map (·.name)) (((OrderedHash.empty.set "pid" (alm.column data w "pid")).set
      "publication_date" (alm.column data w "published_on")).set "title"
        (alm.column data w "title")) header
  rw [List.foldl_map] at hfold
  rw [hfold]
  simp only [OrderedHash.get?_set, OrderedHash.get?_empty]

/-- What the report has in a column. -/
def value (w : Work) (header : String) : Cell :=
  ((alm.buildLineItem data w).get? header).getD .nil

theorem value_pid (w : Work) : alm.value data w "pid" = pidOf w := by
  have hnames : "pid" ∉ alm.sources.map (·.name) := by
    intro hmem
    obtain ⟨s, hs, hname⟩ := List.mem_map.mp hmem
    exact alm.named s hs hname
  have hcolumn : alm.column data w "pid" = pidOf w := by
    have hfind : alm.sources.reverse.find? (fun s => s.name == "pid") = none := by
      rw [List.find?_eq_none]
      intro s hs
      simpa using alm.named s (List.mem_reverse.mp hs)
    rw [column, hfind]
  unfold value
  rw [alm.get?_buildLineItem, if_neg hnames]
  simp [hcolumn]

end AlmStatsReport

/-! ## The line items of the combined report -/

namespace AlmCombinedStatsReport

variable (r : AlmCombinedStatsReport) (data : Data)

theorem get?_defaults (key : String) :
    defaults.get? key = if key ∈ ["pmc_html", "pmc_pdf", "counter_html", "counter_pdf",
      "mendeley_readers", "mendeley_groups"] then some (.number 0) else none :=
  OrderedHash.get?_foldl_set (fun _ => Cell.number 0) _ OrderedHash.empty key

theorem get?_withAlm (w : Work) (key : String) :
    (r.withAlm (r.alm.buildLineItem data w) none).get? key =
      if key ∈ r.alm.headers then some (r.alm.value data w key) else defaults.get? key :=
  OrderedHash.get?_foldl_set (r.alm.value data w) r.alm.headers defaults key

theorem get?_withCounts (first second : String) (n m : Int) (line : Option LineItem)
    (key : String) :
    (withCounts first second n m line).get? key =
      if key = second then some (.number m)
      else if key = first then some (.number n)
      else (line.getD defaults).get? key := by
  unfold withCounts
  rw [OrderedHash.get?_set, OrderedHash.get?_set]

/-- Two counts of a line item, if the source has data for the work. -/
def addCounts (first second : String) (n m : RetrievalStatus → Int)
    (status : Option RetrievalStatus) (line : LineItem) : LineItem :=
  status.elim line (fun rs => withCounts first second (n rs) (m rs) (some line))

theorem get?_addCounts (first second : String) (n m : RetrievalStatus → Int)
    (status : Option RetrievalStatus) (line : LineItem) (key : String) :
    (addCounts first second n m status line).get? key =
      if key = second then (status.map m).elim (line.get? key) (some <| .number ·)
      else if key = first then (status.map n).elim (line.get? key) (some <| .number ·)
      else line.get? key := by
  unfold addCounts
  cases status with
  | none => simp
  | some rs => simp [get?_withCounts]

/-- The line item of a tracked work before the Mendeley report is read. -/
def usageLine (w : Work) : LineItem :=
  addCounts "counter_html" "counter_pdf" (·.metrics.html) (·.metrics.pdf)
    (data.statusOf r.counter w)
    (addCounts "pmc_html" "pmc_pdf" (·.metrics.html) (·.metrics.pdf) (data.statusOf r.pmc w)
      (r.withAlm (r.alm.buildLineItem data w) none))

/-- The line item of a tracked work. -/
def line (w : Work) : LineItem :=
  addCounts "mendeley_readers" "mendeley_groups" (·.metrics.readers) groupsValueFor
    (data.statusOf r.mendeley w) (r.usageLine data w)

/-- What the reports other than ALM have for a work, if they have it. -/
def counts (w : Work) : List (String × Option Int) :=
  [("mendeley_readers", (data.statusOf r.mendeley w).map (·.metrics.readers)),
    ("mendeley_groups", (data.statusOf r.mendeley w).map groupsValueFor),
    ("pmc_html", (data.statusOf r.pmc w).map (·.metrics.html)),
    ("pmc_pdf", (data.statusOf r.pmc w).map (·.metrics.pdf)),
    ("counter_html", (data.statusOf r.counter w).map (·.metrics.html)),
    ("counter_pdf", (data.statusOf r.counter w).map (·.metrics.pdf))]

theorem headers_eq (w : Work) :
    r.headers = r.alm.headers ++ (r.counts data w).map Prod.fst := rfl

/-- A column of the other reports has their count, or else what the ALM report
has in a column of the same name, or else 0. -/
theorem get?_line_of_mem_counts {w : Work} {c : String × Option Int}
    (hc : c ∈ r.counts data w) :
    (r.line data w).get? c.1 = some (c.2.elim
      (if c.1 ∈ r.alm.headers then r.alm.value data w c.1 else .number 0) .number) := by
  have hzero : (r.withAlm (r.alm.buildLineItem data w) none).get? c.1 =
      some (if c.1 ∈ r.alm.headers then r.alm.value data w c.1 else .number 0) := by
    have hdefault : defaults.get? c.1 = some (.number 0) := by
      rw [get?_defaults, if_pos]
      simp only [counts, List.mem_cons, List.not_mem_nil, or_false] at hc
      rcases hc with rfl | rfl | rfl | rfl | rfl | rfl <;> simp
    rw [get?_withAlm, hdefault]
    split <;> rfl
  have helim : ∀ (n : Option Int) (cell : Cell),
      n.elim (some cell) (some <| .number ·) = some (n.elim cell .number) := by
    intro n cell
    cases n <;> rfl
  unfold line usageLine
  simp only [counts, List.mem_cons, List.not_mem_nil, or_false] at hc
  rcases hc with rfl | rfl | rfl | rfl | rfl | rfl <;> simp only [get?_addCounts, hzero] <;>
    simp only [helim, String.reduceEq, if_true, if_false]

/-- The other columns are those of the ALM report. -/
theorem get?_line_of_not_mem_counts {w : Work} {key : String}
    (hkey : key ∉ (r.counts data w).map Prod.fst) :
    (r.line data w).get? key =
      if key ∈ r.alm.headers then some (r.alm.value data w key) else none := by
  simp only [counts, List.map_cons, List.map_nil, List.mem_cons, List.not_mem_nil, or_false,
    not_or] at hkey
  obtain ⟨hreaders, hgroups, hpmc, hpmc', hcounter, hcounter'⟩ := hkey
  have hdefault : defaults.get? key = none := by
    rw [get?_defaults, if_neg]
    simp [hreaders, hgroups, hpmc, hpmc', hcounter, hcounter']
  rw [line, get?_addCounts, if_neg hgroups, if_neg hreaders, usageLine, get?_addCounts,
    if_neg hcounter', if_neg hcounter, get?_addCounts, if_neg hpmc', if_neg hpmc, get?_withAlm,
    hdefault]

/-- The row of a work: the columns of the ALM report, and the counts or 0. -/
def row (w : Work) : List Cell :=
  r.alm.headers.map (r.alm.value data w) ++
    (r.counts data w).map (fun c => .number (c.2.getD 0))

theorem forall₂_headers_row_iff {P : String → Cell → Prop} (w : Work) :
    List.Forall₂ P r.headers (r.row data w) ↔
      (∀ header ∈ r.alm.headers, P header (r.alm.value data w header)) ∧
        ∀ c ∈ r.counts data w, P c.1 (.number (c.2.getD 0)) := by
  let cells : List (String × Cell) :=
    r.alm.headers.map (fun header => (header, r.alm.value data w header)) ++
      (r.counts data w).map (fun c => (c.1, .number (c.2.getD 0)))
  have hheaders : r.headers = cells.map Prod.fst := by
    simp [cells, r.headers_eq data w, Function.comp_def]
  have hrow : r.row data w = cells.map Prod.snd := by
    simp [cells, row, Function.comp_def]
  rw [hheaders, hrow, List.forall₂_map_left_iff, List.forall₂_map_right_iff, List.forall₂_same]
  simp only [cells, List.forall_mem_append, List.forall_mem_map]

/-- A line item has the row of its work exactly if a source with the name of a
count counts the same. -/
theorem forall₂_line_row_iff (w : Work) :
    List.Forall₂ (fun header cell => (r.line data w).get? header = some cell) r.headers
        (r.row data w) ↔
      ∀ c ∈ r.counts data w, c.1 ∈ r.alm.headers →
        r.alm.value data w c.1 = .number (c.2.getD 0) := by
  rw [r.forall₂_headers_row_iff data w]
  constructor
  · intro ⟨halm, hcounts⟩ c hc hmem
    exact Option.some.inj ((halm c.1 hmem).symm.trans (hcounts c hc))
  · intro h
    refine ⟨?_, ?_⟩
    · intro header hheader
      by_cases hcount : header ∈ (r.counts data w).map Prod.fst
      · obtain ⟨c, hc, rfl⟩ := List.mem_map.mp hcount
        rw [r.get?_line_of_mem_counts data hc, if_pos hheader, h c hc hheader]
        cases c.2 <;> rfl
      · rw [r.get?_line_of_not_mem_counts data hcount, if_pos hheader]
    · intro c hc
      rw [r.get?_line_of_mem_counts data hc]
      split
      next hmem =>
        rw [h c hc hmem]
        cases c.2 <;> rfl
      next => cases c.2 <;> rfl

/-! ## Merging by pid -/

/-- The line items before the Mendeley report is read. -/
def usageItemsByPid : OrderedHash Cell LineItem :=
  ((OrderedHash.empty.alterAll LineItem.pid r.withAlm (r.alm.lineItems data)).alterAll
    UsageItem.pid withPmc (sourceReport data r.pmc)).alterAll
      UsageItem.pid withCounter (sourceReport data r.counter)

theorem lineItemsByPid_eq : r.lineItemsByPid data =
    (r.usageItemsByPid data).alterAll MendeleyItem.pid withMendeley
      (mendeleyReport data r.mendeley) := rfl

theorem map_pid_lineItems :
    (r.alm.lineItems data).map LineItem.pid = (AlmStatsReport.works data).map pidOf := by
  rw [AlmStatsReport.lineItems, List.map_map]
  refine List.map_congr_left ?_
  intro w _
  exact r.alm.value_pid data w

theorem map_pid_sourceReport (source : Option Source) :
    (sourceReport data source).map UsageItem.pid =
      (data.joined source (·.tracked)).map (fun e => pidOf e.1) := by
  rw [sourceReport, List.map_map]
  rfl

theorem map_pid_mendeleyReport (source : Option Source) :
    (mendeleyReport data source).map MendeleyItem.pid =
      (data.joined source (fun _ => true)).map (fun e => pidOf e.1) := by
  rw [mendeleyReport, List.map_map]
  rfl

/-- The PMC and Counter reports add no works. -/
theorem keys_usageItemsByPid :
    (r.usageItemsByPid data).keys = (AlmStatsReport.works data).map pidOf := by
  have hreport : ∀ source, ∀ item ∈ sourceReport data source,
      item.pid ∈ (AlmStatsReport.works data).map pidOf := by
    intro source item hitem
    have hpid : item.pid ∈ (sourceReport data source).map UsageItem.pid :=
      List.mem_map_of_mem hitem
    rw [map_pid_sourceReport] at hpid
    obtain ⟨e, he, heq⟩ := List.mem_map.mp hpid
    obtain ⟨hrow, htracked, -⟩ := data.mem_joined.mp he
    rw [← heq]
    exact List.mem_map_of_mem (data.mem_worksWhere.mpr ⟨hrow, htracked⟩)
  have halm : (OrderedHash.empty.alterAll LineItem.pid r.withAlm (r.alm.lineItems data)).keys =
      (AlmStatsReport.works data).map pidOf := by
    rw [OrderedHash.keys_alterAll_of_new, r.map_pid_lineItems data]
    · rfl
    · intro item _
      exact List.not_mem_nil
    · rw [r.map_pid_lineItems data]
      exact data.nodup_pids _
  unfold usageItemsByPid
  rw [OrderedHash.keys_alterAll_of_mem, OrderedHash.keys_alterAll_of_mem, halm]
  · rw [halm]
    exact hreport r.pmc
  · rw [OrderedHash.keys_alterAll_of_mem, halm]
    · exact hreport r.counter
    · rw [halm]
      exact hreport r.pmc

theorem get?_usageItemsByPid {w : Work} (hw : w ∈ AlmStatsReport.works data) :
    (r.usageItemsByPid data).get? (pidOf w) = some (r.usageLine data w) := by
  obtain ⟨hrow, htracked⟩ := data.mem_worksWhere.mp hw
  have halm : (r.alm.lineItems data).find? (fun item => LineItem.pid item = pidOf w) =
      some (r.alm.buildLineItem data w) := by
    have hpid : LineItem.pid (r.alm.buildLineItem data w) = pidOf w := r.alm.value_pid data w
    rw [← hpid]
    refine OrderedHash.find?_of_nodup LineItem.pid ?_ (List.mem_map_of_mem hw)
    rw [r.map_pid_lineItems data]
    exact data.nodup_pids _
  have husage : ∀ source, (sourceReport data source).find? (fun item => item.pid = pidOf w) =
      (data.statusOf source w).map (UsageItem.build w) := by
    intro source
    exact data.find?_joined UsageItem.build UsageItem.pid (fun _ _ => rfl) source hrow htracked
  have hdistinct : ∀ source, ((sourceReport data source).map UsageItem.pid).Nodup := by
    intro source
    rw [map_pid_sourceReport]
    exact data.nodup_joined source _
  have halmDistinct : ((r.alm.lineItems data).map LineItem.pid).Nodup := by
    rw [r.map_pid_lineItems data]
    exact data.nodup_pids _
  unfold usageItemsByPid
  rw [OrderedHash.get?_alterAll _ _ _ (hdistinct r.counter),
    OrderedHash.get?_alterAll _ _ _ (hdistinct r.pmc),
    OrderedHash.get?_alterAll _ _ _ halmDistinct, halm, husage, husage, OrderedHash.get?_empty]
  unfold usageLine addCounts
  cases data.statusOf r.pmc w <;> cases data.statusOf r.counter w <;>
    simp only [Option.map_none, Option.map_some, Option.elim_none, Option.elim_some] <;> rfl

/-- The Mendeley report changes the line item of any work that it has. -/
theorem get?_lineItemsByPid_eq {w : Work} (hw : w ∈ data.db.works.rows) :
    (r.lineItemsByPid data).get? (pidOf w) =
      ((data.statusOf r.mendeley w).map (MendeleyItem.build w)).elim
        ((r.usageItemsByPid data).get? (pidOf w))
        (fun item => some (withMendeley item ((r.usageItemsByPid data).get? (pidOf w)))) := by
  have hfind : (mendeleyReport data r.mendeley).find? (fun item => item.pid = pidOf w) =
      (data.statusOf r.mendeley w).map (MendeleyItem.build w) :=
    data.find?_joined MendeleyItem.build MendeleyItem.pid (fun _ _ => rfl) r.mendeley hw rfl
  have hdistinct : ((mendeleyReport data r.mendeley).map MendeleyItem.pid).Nodup := by
    rw [map_pid_mendeleyReport]
    exact data.nodup_joined r.mendeley _
  rw [lineItemsByPid_eq, OrderedHash.get?_alterAll _ _ _ hdistinct, hfind]

/-- The line item of a work of the ALM report. -/
theorem get?_lineItemsByPid {w : Work} (hw : w ∈ AlmStatsReport.works data) :
    (r.lineItemsByPid data).get? (pidOf w) = some (r.line data w) := by
  rw [r.get?_lineItemsByPid_eq data (data.mem_worksWhere.mp hw).1,
    r.get?_usageItemsByPid data hw]
  unfold line addCounts
  cases data.statusOf r.mendeley w with
  | none => rw [Option.map_none, Option.elim_none, Option.elim_none]
  | some rs =>
    rw [Option.map_some, Option.elim_some, Option.elim_some]
    rfl

/-- A work that is not tracked and has a Mendeley status gets a line item
without a pid. -/
theorem get?_untracked {w : Work} {rs : RetrievalStatus} (hw : w ∈ data.db.works.rows)
    (htracked : w.tracked = false) (hstatus : data.statusOf r.mendeley w = some rs) :
    (r.lineItemsByPid data).get? (pidOf w) = some (withMendeley (.build w rs) none) := by
  have hnone : (r.usageItemsByPid data).get? (pidOf w) = none := by
    rw [OrderedHash.get?_eq_none_iff, r.keys_usageItemsByPid data]
    intro hmem
    obtain ⟨v, hv, heq⟩ := List.mem_map.mp hmem
    obtain ⟨hrow, hv'⟩ := data.mem_worksWhere.mp hv
    rw [data.pidOf_inj hrow hw heq, htracked] at hv'
    cases hv'
  rw [r.get?_lineItemsByPid_eq data hw, hstatus, hnone, Option.map_some, Option.elim_some]

theorem get?_pid_withMendeley (item : MendeleyItem) :
    (withMendeley item none).get? "pid" = none := by
  rw [withMendeley, get?_withCounts, Option.getD_none, get?_defaults]
  simp

/-- If no work outside the ALM report has a Mendeley status, the line items are
those of its works. -/
theorem lineItems_eq (h : ∀ w ∈ data.db.works.rows, w.tracked = false →
    data.statusOf r.mendeley w = none) :
    r.lineItems data = (AlmStatsReport.works data).map (r.line data) := by
  have hkeys : (r.lineItemsByPid data).keys = (AlmStatsReport.works data).map pidOf := by
    rw [lineItemsByPid_eq, OrderedHash.keys_alterAll_of_mem, r.keys_usageItemsByPid data]
    intro item hitem
    have hpid : item.pid ∈ (mendeleyReport data r.mendeley).map MendeleyItem.pid :=
      List.mem_map_of_mem hitem
    rw [map_pid_mendeleyReport] at hpid
    obtain ⟨e, he, heq⟩ := List.mem_map.mp hpid
    obtain ⟨hrow, -, hstatus⟩ := data.mem_joined.mp he
    have htracked : e.1.tracked = true := by
      cases htracked : e.1.tracked with
      | true => rfl
      | false => cases (h e.1 hrow htracked).symm.trans hstatus
    rw [r.keys_usageItemsByPid data, ← heq]
    exact List.mem_map_of_mem (data.mem_worksWhere.mpr ⟨hrow, htracked⟩)
  rw [lineItems, OrderedHash.values_eq, hkeys, List.filterMap_map, ← List.filterMap_eq_map]
  refine List.filterMap_congr ?_
  intro w hw
  rw [Function.comp_apply, r.get?_lineItemsByPid data hw, Function.comp_apply]

/-- With such a work the file cannot be written. -/
theorem toCsv_ne_ok_of_untracked {w : Work} (hw : w ∈ data.db.works.rows)
    (htracked : w.tracked = false) (hstatus : data.statusOf r.mendeley w ≠ none)
    (rows : List (List Cell)) : r.toCsv data ≠ .ok (r.headers, rows) := by
  intro hok
  obtain ⟨rs, hrs⟩ := Option.ne_none_iff_exists'.mp hstatus
  have hget := r.get?_untracked data hw htracked hrs
  have hmem : withMendeley (.build w rs) none ∈ r.lineItems data := by
    rw [lineItems, OrderedHash.values_eq, List.mem_filterMap]
    refine ⟨pidOf w, ?_, hget⟩
    rw [← OrderedHash.get?_isSome_iff, hget, Option.isSome_some]
  obtain ⟨row, hrow⟩ := exists_forall₂_iff.mp ⟨rows, toCsv_eq_ok_iff.mp hok⟩ _ hmem
  obtain ⟨cell, hcell⟩ := exists_forall₂_iff.mp ⟨row, hrow⟩ "pid"
    (List.mem_append_left _ List.mem_cons_self)
  rw [get?_pid_withMendeley] at hcell
  cases hcell

/-- The file has one row for each work of the ALM report, with its columns and
its counts, exactly if no work that is not tracked has a Mendeley status and
sources named like the columns for counts have the same counts. -/
theorem combined_rows_iff :
    r.toCsv data = .ok (r.headers, (AlmStatsReport.works data).map (r.row data)) ↔
      (∀ w ∈ data.db.works.rows, w.tracked = false → data.statusOf r.mendeley w = none) ∧
        ∀ w ∈ AlmStatsReport.works data, ∀ c ∈ r.counts data w, c.1 ∈ r.alm.headers →
          r.alm.value data w c.1 = .number (c.2.getD 0) := by
  by_cases hsparse : ∀ w ∈ data.db.works.rows, w.tracked = false →
      data.statusOf r.mendeley w = none
  · rw [toCsv, toCsv_eq_ok_iff, r.lineItems_eq data hsparse, List.forall₂_map_left_iff,
      List.forall₂_map_right_iff, List.forall₂_same]
    simp only [r.forall₂_line_row_iff data]
    exact ⟨fun hcounts => ⟨hsparse, hcounts⟩, fun h => h.2⟩
  · refine iff_of_false ?_ (fun h => hsparse h.1)
    push Not at hsparse
    obtain ⟨w, hw, htracked, hstatus⟩ := hsparse
    exact r.toCsv_ne_ok_of_untracked data hw htracked hstatus _

def mendeleySource : Source where
  id := 1
  type := .mendeley
  name := "mendeley"
  title := "Mendeley"

/-- A work that is not tracked, with readers at Mendeley. -/
def readData : Data where
  db :=
    { works := Table.empty.insert
        { col := fun _ => some "http://doi.org/10.1371/journal.pone.0008776" }
      retrievalStatuses := Table.empty.insert
        { workId := 1, sourceId := 1, metrics := { readers := 3, total := 5 } } }
  pids := by
    intro w hw v hv _
    exact (List.mem_singleton.mp hw).trans (List.mem_singleton.mp hv).symm
  statuses := by
    intro rs hrs other hother _ _
    exact (List.mem_singleton.mp hrs).trans (List.mem_singleton.mp hother).symm

/-- The ALM report has no work, and the line item of the Mendeley report has no
pid. -/
theorem no_pid_for_read_work :
    let r : AlmCombinedStatsReport :=
      ⟨⟨[mendeleySource], by decide⟩, none, none, some mendeleySource⟩
    AlmStatsReport.works readData = [] ∧
      r.toCsv readData = .error ⟨"RuntimeError", "Don't have the key \"pid\", but know about " ++
        "[\"pmc_html\", \"pmc_pdf\", \"counter_html\", \"counter_pdf\", " ++
        "\"mendeley_readers\", \"mendeley_groups\"]"⟩ := by
  refine ⟨rfl, ?_⟩
  decide +kernel

end AlmCombinedStatsReport

end Lagotto.Report
