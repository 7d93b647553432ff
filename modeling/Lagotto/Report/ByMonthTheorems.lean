/-
Lagotto.Report.ByMonthTheorems — when the report by month has every month of
every work.

The columns are the months from the starting month to the current one
(`mem_dates_iff`), and the query has the rows from the starting month on
(`mem_monthsFrom`). A line item is made of one row, so it has the value of one
month (`map_get?_lineItem`). `usage_by_month_iff` says for which rows this is
right whichever row of a work the database returns.
-/
import Lagotto.Interaction.Loops
import Lagotto.Report.ByMonth
import Lagotto.Report.CombinedTheorems
import Lagotto.Text.Numerals

namespace Lagotto.Report

variable {result : Result} {w : Work}

open Calendars Dateable
open Interaction
open Relational

/-! ## Months -/

theorem dateKey_injective : Function.Injective dateKey := Text.dashed_injective

theorem pid_not_mem_map_dateKey (dates : List (Int × Int)) : "pid" ∉ dates.map dateKey := by
  intro h
  obtain ⟨date, -, heq⟩ := List.mem_map.mp h
  have hdash : '-' ∈ (dateKey date).toList := by
    simp [dateKey, String.toList_append]
  rw [heq] at hdash
  exact absurd hdash (by decide)

namespace SourceByMonthReport

variable (r : SourceByMonthReport) (today : Date)

/-- The month in which the months of the report start. -/
def firstMonth : Int :=
  match startDate gregorian r.year r.month with
  | none => monthNumber today.year today.month
  | some first => min first.month (monthNumber today.year today.month)

theorem firstMonth_le : r.firstMonth today ≤ monthNumber today.year today.month := by
  unfold firstMonth
  split
  · exact Int.le_refl _
  · exact min_le_right ..

theorem dates_eq :
    r.dates today =
      (interval (r.firstMonth today) (monthNumber today.year today.month)).map ofMonthNumber := by
  have hlast : endDate r.reportClass.name (ofDate today) = ofDate today := by
    cases r.reportClass <;> rfl
  unfold dates firstMonth
  cases hstart : startDate gregorian r.year r.month with
  | none =>
    rw [dateRange_of_none hstart, hlast, interval_self]
    rfl
  | some first =>
    rw [dateRange_of_start rfl hstart, hlast]
    rfl

theorem mem_dates_iff {date : Int × Int} :
    date ∈ r.dates today ↔
      1 ≤ date.2 ∧ date.2 ≤ 12 ∧ r.firstMonth today ≤ monthNumber date.1 date.2 ∧
        monthNumber date.1 date.2 ≤ monthNumber today.year today.month := by
  rw [r.dates_eq today, List.mem_map]
  constructor
  · rintro ⟨n, hn, rfl⟩
    obtain ⟨hnumber, hlow, hhigh⟩ := monthNumber_ofMonthNumber n
    rw [hnumber]
    exact ⟨hlow, hhigh, mem_interval.mp hn⟩
  · rintro ⟨hlow, hhigh, hfirst, hlast⟩
    exact ⟨_, mem_interval.mpr ⟨hfirst, hlast⟩, ofMonthNumber_monthNumber ⟨hlow, hhigh⟩⟩

theorem start_eq : r.start today = ofMonthNumber (r.firstMonth today) := by
  rw [start, r.dates_eq today, interval_cons (r.firstMonth_le today)]
  rfl

end SourceByMonthReport

/-! ## The query -/

/-- From a month on, as the query compares years and months. -/
def FromStart (start date : Int × Int) : Prop :=
  (start.1 ≤ date.1 ∧ start.2 ≤ date.2) ∨ start.1 < date.1

theorem SourceByMonthReport.fromStart_of_mem_dates {r : SourceByMonthReport} {today : Date}
    {date : Int × Int} (h : date ∈ r.dates today) : FromStart (r.start today) date := by
  obtain ⟨hlow, hhigh, hfirst, -⟩ := (r.mem_dates_iff today).mp h
  rw [r.start_eq today]
  unfold FromStart ofMonthNumber
  unfold monthNumber at hfirst
  simp only
  omega

namespace MonthlyData

variable {data : MonthlyData} {source : Source} {start : Int × Int}

theorem mem_monthsFrom :
    result ∈ data.monthsFrom source start ↔
      result.work ∈ data.db.works.rows ∧ result.row ∈ data.db.months.rows ∧
        result.row.workId = result.work.id ∧ result.row.sourceId = source.id ∧
          FromStart start result.date := by
  unfold monthsFrom
  rw [List.mem_filterMap]
  constructor
  · intro ⟨m, hm, hresult⟩
    split at hresult
    next hrow =>
      obtain ⟨w, hw, rfl⟩ := Option.map_eq_some_iff.mp hresult
      have hid : w.id = m.workId := by simpa using Table.first_prop hw
      exact ⟨Table.first_mem hw, hm, hid.symm, hrow.1, hrow.2⟩
    next => cases hresult
  · intro ⟨hwork, hrow, hid, hsource, hfrom⟩
    refine ⟨result.row, hrow, ?_⟩
    have hfirst : data.db.works.first (fun w => w.id == result.row.workId) =
        some result.work := by
      refine Table.first_eq_of_unique hwork (by simp [hid]) ?_
      intro w hw hsame
      refine data.db.works.eq_of_id_eq hw hwork ?_
      exact (beq_iff_eq.mp hsame).trans hid
    rw [if_pos ⟨hsource, hfrom⟩, hfirst, Option.map_some]

/-- A work has one row for a month. -/
theorem eq_of_work_of_date {result other : Result} (h : result ∈ data.monthsFrom source start)
    (hother : other ∈ data.monthsFrom source start) (hwork : other.work = result.work)
    (hdate : other.date = result.date) : other = result := by
  obtain ⟨-, hrow, hid, hsource, -⟩ := mem_monthsFrom.mp h
  obtain ⟨-, hrow', hid', hsource', -⟩ := mem_monthsFrom.mp hother
  have hsame : other.row = result.row := by
    refine data.monthly _ hrow' _ hrow ?_ (hsource'.trans hsource.symm)
      (congrArg Prod.fst hdate) (congrArg Prod.snd hdate)
    rw [hid', hid, hwork]
  cases result
  cases other
  exact congrArg₂ Result.mk hwork hsame

/-- Records with the same id are the same. -/
theorem eq_of_recordId {result other : Result} (h : result ∈ data.monthsFrom source start)
    (hother : other ∈ data.monthsFrom source start) (hid : other.row.id = result.row.id) :
    other = result := by
  obtain ⟨hwork, hrow, hkey, -⟩ := mem_monthsFrom.mp h
  obtain ⟨hwork', hrow', hkey', -⟩ := mem_monthsFrom.mp hother
  have hsame : other.row = result.row := data.db.months.eq_of_id_eq hrow' hrow hid
  have hworks : other.work = result.work := by
    refine data.db.works.eq_of_id_eq hwork' hwork ?_
    exact (hkey'.symm.trans (congrArg Month.workId hsame)).trans hkey
  cases result
  cases other
  exact congrArg₂ Result.mk hworks hsame

variable {pick : Choice Result}

theorem mem_execute :
    result ∈ data.execute pick source start ↔
      result ∈ oneOfEach pick (fun r => r.work.col .pid) (data.monthsFrom source start) := by
  unfold execute
  rw [List.mem_insertionSort]

theorem mem_monthsFrom_of_mem_execute (h : result ∈ data.execute pick source start) :
    result ∈ data.monthsFrom source start :=
  mem_of_mem_oneOfEach (mem_execute.mp h)

theorem nodup_pids_execute :
    ((data.execute pick source start).map (fun r => r.work.col .pid)).Nodup := by
  unfold execute
  refine (List.Perm.nodup_iff ?_).mpr (nodup_map_oneOfEach pick (fun r => r.work.col .pid)
    (data.monthsFrom source start))
  exact (List.perm_insertionSort _ _).map _

theorem nodup_works_execute :
    ((data.execute pick source start).map (·.work)).Nodup := by
  refine List.Nodup.of_map (fun w => w.col .pid) ?_
  rw [List.map_map]
  exact nodup_pids_execute

theorem nodup_recordIds_execute :
    ((data.execute pick source start).map (·.row.id)).Nodup := by
  have hresults : (data.execute pick source start).Nodup :=
    List.Nodup.of_map _ nodup_pids_execute
  refine hresults.map_on ?_
  intro other hother result hresult hid
  exact eq_of_recordId (mem_monthsFrom_of_mem_execute hresult)
    (mem_monthsFrom_of_mem_execute hother) hid

/-- Every work of the query has a result. -/
theorem exists_mem_execute (h : result ∈ data.monthsFrom source start) :
    ∃ found ∈ data.execute pick source start, found.work = result.work := by
  have hkey : result.work.col .pid ∈ (oneOfEach pick (fun r => r.work.col .pid)
      (data.monthsFrom source start)).map (fun r => r.work.col .pid) := by
    rw [map_key_oneOfEach, List.mem_dedup]
    exact List.mem_map_of_mem (f := fun r : Result => r.work.col .pid) h
  obtain ⟨found, hfound, hpid⟩ := List.mem_map.mp hkey
  refine ⟨found, mem_execute.mpr hfound, ?_⟩
  exact data.pids _ (mem_monthsFrom.mp (mem_of_mem_oneOfEach hfound)).1 _
    (mem_monthsFrom.mp h).1 hpid

end MonthlyData

/-! ## Line items -/

theorem BlockRegistrar.block_register (registrar : BlockRegistrar) (format : String)
    (block : ValueProvider) (key : String) :
    (registrar.register format block).block key =
      if key = format then block else registrar.block key := by
  unfold BlockRegistrar.block register
  rw [OrderedHash.get?_set]
  split <;> rfl

theorem AlmStatsReport.orZero_of_ne_nil {cell : Cell} (h : cell ≠ .nil) :
    AlmStatsReport.orZero cell = cell := by
  cases cell with
  | nil => exact absurd rfl h
  | text s => rfl
  | date d => rfl
  | number n => rfl

theorem pidOf_ne_nil (h : w.col .pid ≠ none) : pidOf w ≠ .nil := by
  unfold pidOf
  cases hpid : w.col .pid with
  | none => exact absurd hpid h
  | some pid => exact Cell.noConfusion

theorem Result.send_ne_nil (hpid : result.work.col .pid ≠ none) {name : String} {cell : Cell}
    (h : result.send name = .ok cell) : cell ≠ .nil := by
  intro hnil
  rw [hnil] at h
  unfold send at h
  split at h
  case h_2 => exact pidOf_ne_nil hpid (Except.ok.inj h)
  all_goals cases h

namespace SourceByMonthReport

variable {r : SourceByMonthReport} {today : Date} {data : MonthlyData} {pick : Choice Result}

/-- No value is missing in a result. -/
theorem value_ne_nil (hpid : result.work.col .pid ≠ none) {cell : Cell}
    (h : r.value result = .ok cell) : cell ≠ .nil := by
  have hsource : ByMonthClass.registrar.source.block r.format result r.format = .ok cell →
      cell ≠ .nil := by
    intro hcell
    unfold ByMonthClass.registrar.source at hcell
    rw [BlockRegistrar.block_register] at hcell
    split at hcell
    next =>
      rw [← Except.ok.inj hcell]
      exact Cell.noConfusion
    next => exact result.send_ne_nil hpid hcell
  unfold value at h
  cases hclass : r.reportClass with
  | sourceByMonthReport =>
    rw [hclass] at h
    exact hsource h
  | pmcByMonthReport =>
    rw [hclass] at h
    exact hsource h
  | counterByMonthReport =>
    rw [hclass, ByMonthClass.registrar, BlockRegistrar.block_register] at h
    split at h
    next =>
      rw [← Except.ok.inj h]
      exact Cell.noConfusion
    next => exact hsource h

/-- The value of a result that has one. -/
def cell (r : SourceByMonthReport) (result : Result) : Cell := (r.value result).toOption.getD .nil

/-- The line item of a result. -/
def lineItem (r : SourceByMonthReport) (today : Date) (result : Result) : LineItem :=
  r.buildLineItem today (nest (result, r.cell result) none)

theorem lineItems_eq_ok_iff {items : List LineItem} :
    r.lineItems today data pick = .ok items ↔
      (∀ result ∈ data.execute pick r.source (r.start today), ∃ c, r.value result = .ok c) ∧
        items = (data.execute pick r.source (r.start today)).map (r.lineItem today) := by
  have hresult : ∀ (result : Result) (e : Result × Cell),
      (r.value result).map (fun cell => (result, cell)) = .ok e ↔
        (∃ c, r.value result = .ok c) ∧ e = (result, r.cell result) := by
    intro result e
    unfold cell
    cases r.value result with
    | error e => simp [Except.map]
    | ok c => simp [Except.map, Except.toOption, eq_comm]
  have hnested : (resultsNested ((data.execute pick r.source (r.start today)).map
      (fun result => (result, r.cell result)))).values =
        (data.execute pick r.source (r.start today)).map
          (fun result => nest (result, r.cell result) none) := by
    unfold resultsNested
    rw [OrderedHash.values_alterAll_empty, List.map_map]
    · rfl
    · rw [List.map_map]
      exact MonthlyData.nodup_recordIds_execute
  unfold lineItems
  rw [map_eq_ok_iff]
  simp only [mapM_eq_ok_iff, hresult, forall₂_graph_iff]
  constructor
  · intro ⟨valued, ⟨hvalues, hvalued⟩, hitems⟩
    rw [hitems, hvalued, hnested, List.map_map]
    exact ⟨hvalues, rfl⟩
  · intro ⟨hvalues, hitems⟩
    refine ⟨_, ⟨hvalues, rfl⟩, ?_⟩
    rw [hitems, hnested, List.map_map]
    rfl

/-- A line item has the value of one month. -/
theorem map_get?_lineItem (hcell : r.cell result ≠ .nil) :
    (r.headers today).map (r.lineItem today result).get? =
      some (pidOf result.work) :: (r.dates today).map
        (fun date => some (if date = result.date then r.cell result else .number 0)) := by
  have hget : ∀ key, (r.lineItem today result).get? key =
      if key ∈ (r.dates today).map dateKey then
        some (AlmStatsReport.orZero (((nest (result, r.cell result) none).2.get? key).getD .nil))
      else if key = "pid" then some (pidOf result.work) else none := by
    intro key
    refine (OrderedHash.get?_foldl_set (fun key => AlmStatsReport.orZero
      (((nest (result, r.cell result) none).2.get? key).getD .nil)) (r.formattedDates today) _
        key).trans ?_
    rw [OrderedHash.get?_set, OrderedHash.get?_empty]
    rfl
  have hpid : (r.lineItem today result).get? "pid" = some (pidOf result.work) := by
    rw [hget, if_neg (pid_not_mem_map_dateKey (r.dates today)), if_pos rfl]
  rw [headers, List.singleton_append, List.map_cons, hpid, formattedDates, List.map_map]
  refine congrArg (some (pidOf result.work) :: ·) (List.map_congr_left ?_)
  intro date hdate
  have hnest : (nest (result, r.cell result) none).2.get? (dateKey date) =
      if date = result.date then some (r.cell result) else none := by
    refine (OrderedHash.get?_set OrderedHash.empty _ _ _).trans ?_
    rw [OrderedHash.get?_empty]
    simp only [dateKey_injective.eq_iff]
  rw [Function.comp_apply, hget, if_pos (List.mem_map_of_mem hdate), hnest]
  split
  next => rw [Option.getD_some, AlmStatsReport.orZero_of_ne_nil hcell]
  next => rfl

/-! ## Every month of every work -/

/-- The row of a work for a month. -/
def rowFor (r : SourceByMonthReport) (data : MonthlyData) (w : Work) (date : Int × Int) :
    Option Month :=
  data.db.months.first (fun m => m.workId == w.id && m.sourceId == r.source.id &&
    m.year == date.1 && m.month == date.2)

/-- The works with a row for a month of the report. -/
def worksInRange (r : SourceByMonthReport) (today : Date) (data : MonthlyData) : List Work :=
  data.db.works.rows.filter
    (fun w => (r.dates today).any (fun date => (r.rowFor data w date).isSome))

/-- The line of a work: its pid, and for each month the value of its row or 0. -/
def expectedLine (r : SourceByMonthReport) (today : Date) (data : MonthlyData) (w : Work) :
    List (Option Cell) :=
  some (pidOf w) :: (r.dates today).map (fun date => (r.rowFor data w date).elim
    (some (.number 0)) (fun m => (r.value ⟨w, m⟩).toOption))

/-- The report has one line for each work with a row for a month of the report,
and in it the values of the rows for its months. -/
def Complete (r : SourceByMonthReport) (today : Date) (data : MonthlyData)
    (pick : Choice Result) : Prop :=
  ∃ items, r.lineItems today data pick = .ok items ∧
    (items.map (fun item => (r.headers today).map item.get?)).Perm
      ((r.worksInRange today data).map (r.expectedLine today data))

theorem rowFor_eq_some_iff (hw : w ∈ data.db.works.rows) {date : Int × Int}
    (hdate : date ∈ r.dates today) {m : Month} :
    r.rowFor data w date = some m ↔
      (⟨w, m⟩ : Result) ∈ data.monthsFrom r.source (r.start today) ∧
        (⟨w, m⟩ : Result).date = date := by
  rw [MonthlyData.mem_monthsFrom]
  unfold rowFor Result.date
  constructor
  · intro h
    have hfields := Table.first_prop h
    simp only [Bool.and_eq_true, beq_iff_eq] at hfields
    obtain ⟨⟨⟨hid, hsource⟩, hyear⟩, hmonth⟩ := hfields
    have hsame : (m.year, m.month) = date := Prod.ext hyear hmonth
    refine ⟨⟨hw, Table.first_mem h, hid, hsource, ?_⟩, hsame⟩
    rw [hsame]
    exact fromStart_of_mem_dates hdate
  · intro ⟨⟨_, hrow, hid, hsource, _⟩, hsame⟩
    refine Table.first_eq_of_unique hrow (by simpa [← hsame] using And.intro hid hsource) ?_
    intro other hother hfields
    simp only [Bool.and_eq_true, beq_iff_eq] at hfields
    obtain ⟨⟨⟨hid', hsource'⟩, hyear⟩, hmonth⟩ := hfields
    rw [← hsame] at hyear hmonth
    exact data.monthly other hother m hrow (hid'.trans hid.symm) (hsource'.trans hsource.symm)
      hyear hmonth

/-- A row of the query for a month of the report is found. -/
theorem rowFor_of_mem (h : result ∈ data.monthsFrom r.source (r.start today))
    (hdate : result.date ∈ r.dates today) :
    r.rowFor data result.work result.date = some result.row :=
  (rowFor_eq_some_iff (MonthlyData.mem_monthsFrom.mp h).1 hdate).mpr ⟨h, rfl⟩

theorem mem_worksInRange :
    w ∈ r.worksInRange today data ↔
      ∃ result ∈ data.monthsFrom r.source (r.start today), result.work = w ∧
        result.date ∈ r.dates today := by
  unfold worksInRange
  rw [List.mem_filter, List.any_eq_true]
  constructor
  · intro ⟨hw, date, hdate, hsome⟩
    obtain ⟨m, hm⟩ := Option.isSome_iff_exists.mp hsome
    obtain ⟨hmem, hsame⟩ := (rowFor_eq_some_iff hw hdate).mp hm
    exact ⟨⟨w, m⟩, hmem, rfl, hsame ▸ hdate⟩
  · intro ⟨result, hresult, hwork, hdate⟩
    rw [← hwork]
    refine ⟨(MonthlyData.mem_monthsFrom.mp hresult).1, result.date, hdate, ?_⟩
    rw [rowFor_of_mem hresult hdate, Option.isSome_some]

theorem cell_ne_nil (hresult : result ∈ data.monthsFrom r.source (r.start today))
    (hvalue : ∃ c, r.value result = .ok c) : r.cell result ≠ .nil := by
  obtain ⟨c, hc⟩ := hvalue
  have hcell : r.cell result = c := by simp [cell, hc, Except.toOption]
  rw [hcell]
  exact value_ne_nil (data.present _ (MonthlyData.mem_monthsFrom.mp hresult).1) hc

/-- A line tells its work. -/
theorem work_of_expectedLine (hw : w ∈ r.worksInRange today data)
    (hresult : result ∈ data.monthsFrom r.source (r.start today))
    (hvalue : ∃ c, r.value result = .ok c)
    (heq : r.expectedLine today data w = (r.headers today).map (r.lineItem today result).get?) :
    w = result.work := by
  rw [map_get?_lineItem (cell_ne_nil hresult hvalue)] at heq
  exact data.pidOf_inj (List.mem_filter.mp hw).1 (MonthlyData.mem_monthsFrom.mp hresult).1
    (Option.some.inj (List.cons.inj heq).1)

theorem nodup_worksInRange : (r.worksInRange today data).Nodup :=
  (List.Nodup.of_map _ data.db.works.ids_nodup).filter _

/-- The line item of a result is the line of its work exactly if the other rows
for months of the report have the value 0. -/
theorem map_get?_eq_expectedLine_iff (hresult : result ∈ data.monthsFrom r.source (r.start today))
    (hvalue : ∃ c, r.value result = .ok c) :
    (r.headers today).map (r.lineItem today result).get? =
        r.expectedLine today data result.work ↔
      ∀ other ∈ data.monthsFrom r.source (r.start today), other.work = result.work →
        other ≠ result → other.date ∈ r.dates today → r.value other = .ok (.number 0) := by
  obtain ⟨hwork, -⟩ := MonthlyData.mem_monthsFrom.mp hresult
  obtain ⟨c, hc⟩ := hvalue
  have hcell : r.cell result = c := by simp [cell, hc, Except.toOption]
  rw [map_get?_lineItem (cell_ne_nil hresult ⟨c, hc⟩), expectedLine, List.cons_inj_right,
    List.map_inj_left]
  constructor
  · intro h other hother hsame hother' hdate
    have hdates : other.date ≠ result.date := fun heq =>
      hother' (MonthlyData.eq_of_work_of_date hresult hother hsame heq)
    have hcolumn := h other.date hdate
    rw [if_neg hdates, ← hsame, rowFor_of_mem hother hdate, Option.elim_some] at hcolumn
    cases hother : r.value other with
    | error e => simp [hother, Except.toOption] at hcolumn
    | ok c => simpa [hother, Except.toOption, eq_comm] using hcolumn
  · intro h date hdate
    by_cases hsame : date = result.date
    · rw [if_pos hsame, hsame, rowFor_of_mem hresult (hsame ▸ hdate), Option.elim_some, hc, hcell]
      rfl
    · rw [if_neg hsame]
      cases hrow : r.rowFor data result.work date with
      | none => rfl
      | some m =>
        obtain ⟨hmem, hdate'⟩ := (rowFor_eq_some_iff hwork hdate).mp hrow
        have hother : (⟨result.work, m⟩ : Result) ≠ result := by
          intro heq
          rw [heq] at hdate'
          exact hsame hdate'.symm
        rw [Option.elim_some, h _ hmem rfl hother (hdate'.symm ▸ hdate)]
        rfl

/-- In a complete report a result has a value, its work has a row for a month of
the report, and the other rows for such months have the value 0. -/
theorem Complete.of_mem_execute (h : r.Complete today data pick)
    (hresult : result ∈ data.execute pick r.source (r.start today)) :
    (∃ c, r.value result = .ok c) ∧
      (∃ other ∈ data.monthsFrom r.source (r.start today), other.work = result.work ∧
        other.date ∈ r.dates today) ∧
      ∀ other ∈ data.monthsFrom r.source (r.start today), other.work = result.work →
        other ≠ result → other.date ∈ r.dates today → r.value other = .ok (.number 0) := by
  obtain ⟨items, hitems, hperm⟩ := h
  obtain ⟨hvalues, rfl⟩ := lineItems_eq_ok_iff.mp hitems
  have hrow := MonthlyData.mem_monthsFrom_of_mem_execute hresult
  have hvalue := hvalues result hresult
  have hline := hperm.mem_iff.mp (List.mem_map_of_mem (List.mem_map_of_mem hresult))
  obtain ⟨w, hw, heq⟩ := List.mem_map.mp hline
  have hsame : w = result.work := work_of_expectedLine hw hrow hvalue heq
  rw [hsame] at hw heq
  exact ⟨hvalue, mem_worksInRange.mp hw,
    (map_get?_eq_expectedLine_iff hrow hvalue).mp heq.symm⟩

/-- Whichever rows the database returns, the report is complete exactly if the
format has a value for each row of the query, each work of the query has a row
for a month of the report, and if there are further rows for the work the values
for months of the report are 0. -/
theorem usage_by_month_iff (r : SourceByMonthReport) (today : Date) (data : MonthlyData) :
    (∀ pick, r.Complete today data pick) ↔
      ∀ result ∈ data.monthsFrom r.source (r.start today),
        (∃ c, r.value result = .ok c) ∧
        (∃ other ∈ data.monthsFrom r.source (r.start today), other.work = result.work ∧
          other.date ∈ r.dates today) ∧
        ∀ other ∈ data.monthsFrom r.source (r.start today), other.work = result.work →
          other ≠ result → other.date ∈ r.dates today → r.value other = .ok (.number 0) := by
  constructor
  · intro h result hresult
    obtain ⟨pick, hpick⟩ := exists_choice (fun r : Result => r.work.col .pid) hresult
    exact (h pick).of_mem_execute (MonthlyData.mem_execute.mpr hpick)
  · intro h pick
    have hrows : ∀ result ∈ data.execute pick r.source (r.start today),
        result ∈ data.monthsFrom r.source (r.start today) :=
      fun result => MonthlyData.mem_monthsFrom_of_mem_execute
    refine ⟨_, lineItems_eq_ok_iff.mpr ⟨fun result hresult => (h result (hrows result hresult)).1,
      rfl⟩, ?_⟩
    have hlines : ((data.execute pick r.source (r.start today)).map (r.lineItem today)).map
        (fun item => (r.headers today).map item.get?) =
          ((data.execute pick r.source (r.start today)).map (·.work)).map
            (r.expectedLine today data) := by
      rw [List.map_map, List.map_map]
      refine List.map_congr_left ?_
      intro result hresult
      obtain ⟨hvalue, -, hothers⟩ := h result (hrows result hresult)
      exact (map_get?_eq_expectedLine_iff (hrows result hresult) hvalue).mpr hothers
    rw [hlines]
    refine List.Perm.map _ ((List.perm_ext_iff_of_nodup MonthlyData.nodup_works_execute
      nodup_worksInRange).mpr ?_)
    intro w
    rw [mem_worksInRange, List.mem_map]
    constructor
    · intro ⟨result, hresult, hwork⟩
      obtain ⟨other, hother, hsame, hdate⟩ := (h result (hrows result hresult)).2.1
      exact ⟨other, hother, hsame.trans hwork, hdate⟩
    · intro ⟨result, hresult, hwork, _⟩
      obtain ⟨found, hfound, hsame⟩ := MonthlyData.exists_mem_execute hresult
      exact ⟨found, hfound, hsame.trans hwork⟩

def viewedWork : Work where
  id := 1
  col := fun _ => some "http://doi.org/10.1371/journal.pone.0008776"

/-- The HTML views of the work in a month of 2015. -/
def viewsIn (month views : Int) : Month where
  id := month.toNat
  retrievalStatusId := 1
  workId := 1
  sourceId := 1
  year := 2015
  month := month
  metrics := { html := views, total := views }

/-- The work has 3 views in January and 5 in February. -/
def viewedData : MonthlyData where
  db :=
    { works := Table.empty.insert viewedWork
      months := (Table.empty.insert (viewsIn 1 3)).insert (viewsIn 2 5) }
  pids := by
    intro w hw v hv _
    exact (List.mem_singleton.mp hw).trans (List.mem_singleton.mp hv).symm
  statuses := by
    intro rs hrs
    cases hrs
  present := by
    intro w hw
    rw [List.mem_singleton.mp hw]
    exact Option.some_ne_none _
  monthly := by decide

def htmlReport : SourceByMonthReport where
  reportClass := .counterByMonthReport
  source := { id := 1, type := .counter, name := "counter", title := "Counter" }
  format := "html"
  year := 2015
  month := 1

def midFebruary : Date := ⟨2015, 2, 15, by decide⟩

/-- If the database returns January, the line has 0 for February. Whichever row
it returns, a month is missing. -/
theorem month_missing :
    (htmlReport.lineItems midFebruary viewedData .first).map
        (fun items => items.map (fun item => (htmlReport.headers midFebruary).map item.get?)) =
      .ok [[some (.text "http://doi.org/10.1371/journal.pone.0008776"), some (.number 3),
        some (.number 0)]] ∧
      ∀ pick, ¬ htmlReport.Complete midFebruary viewedData pick := by
  refine ⟨by decide +kernel, ?_⟩
  intro pick h
  have hdates : htmlReport.dates midFebruary = [(2015, 1), (2015, 2)] := by decide +kernel
  have hstart : htmlReport.start midFebruary = (2015, 1) := by decide +kernel
  have hjanuary : (⟨viewedWork, viewsIn 1 3⟩ : Result) ∈
      viewedData.monthsFrom htmlReport.source (htmlReport.start midFebruary) := by
    rw [MonthlyData.mem_monthsFrom, hstart]
    exact ⟨List.mem_cons_self, List.mem_cons_self, rfl, rfl, Or.inl ⟨by decide, by decide⟩⟩
  have hfebruary : (⟨viewedWork, viewsIn 2 5⟩ : Result) ∈
      viewedData.monthsFrom htmlReport.source (htmlReport.start midFebruary) := by
    rw [MonthlyData.mem_monthsFrom, hstart]
    exact ⟨List.mem_cons_self, List.mem_cons_of_mem _ List.mem_cons_self, rfl, rfl,
      Or.inl ⟨by decide, by decide⟩⟩
  have hfound : ∃ found ∈ viewedData.execute pick htmlReport.source
      (htmlReport.start midFebruary), found.work = viewedWork :=
    MonthlyData.exists_mem_execute hjanuary
  obtain ⟨found, hfound, hwork⟩ := hfound
  obtain ⟨-, -, hzero⟩ := h.of_mem_execute hfound
  by_cases hcase : (⟨viewedWork, viewsIn 1 3⟩ : Result) = found
  · have hother : (⟨viewedWork, viewsIn 2 5⟩ : Result) ≠ found := by
      rw [← hcase]
      intro heq
      exact absurd (congrArg (fun result => result.row.month) heq) (by decide)
    have hvalue := hzero _ hfebruary hwork.symm hother (by rw [hdates]; decide)
    exact absurd hvalue (by decide +kernel)
  · have hvalue := hzero _ hjanuary hwork.symm hcase (by rw [hdates]; decide)
    exact absurd hvalue (by decide +kernel)

end SourceByMonthReport

end Lagotto.Report
