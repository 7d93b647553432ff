/-
Lagotto.Retrieval.PeriodsTheorems — what the month and day rows say about
the counts they were computed from.

Two laws are examined. The first is that a breakdown is in the table after
`update_months` or `update_days`. `first_or_create` has no update half, so a
row once written is final, and the law holds exactly when no item of the
breakdown revises a stored row.

The second is that the current period's share completes the earlier rows to
the cumulative count. `eventsPrevious` reads the last row only.
`share_completes_iff` computes what that costs: nothing while there is no
row, the counts of all rows but the last once there is an older one, and the
stored record instead of the new one when this period has a row already.
-/
import Mathlib.Tactic.Linarith
import Lagotto.Retrieval.Periods

namespace Lagotto

open Relational

/-! ## A stored breakdown -/

/-- Every item of the breakdown has its row, with the item's six counters. -/
def MonthsStored (rs : RetrievalStatus) (t : Table Month) (data : List MonthItem) : Prop :=
  ∀ item ∈ data, ∃ row ∈ t.rows, item.selects rs row = true ∧ row.metrics = item.counts.fetch

/-- Every item of the breakdown has its row, with the item's six counters. -/
def DaysStored (rs : RetrievalStatus) (t : Table Day) (data : List DayItem) : Prop :=
  ∀ item ∈ data, ∃ row ∈ t.rows, item.selects rs row = true ∧ row.metrics = item.counts.fetch

instance (rs : RetrievalStatus) (t : Table Month) (data : List MonthItem) :
    Decidable (MonthsStored rs t data) := by unfold MonthsStored; infer_instance

instance (rs : RetrievalStatus) (t : Table Day) (data : List DayItem) :
    Decidable (DaysStored rs t data) := by unfold DaysStored; infer_instance

theorem MonthItem.selects_row (rs : RetrievalStatus) (item : MonthItem) (n : Nat) :
    item.selects rs (Row.withId n (item.row rs)) = true := by
  simp [MonthItem.selects, MonthItem.row, Row.withId]

theorem DayItem.selects_row (rs : RetrievalStatus) (item : DayItem) (n : Nat) :
    item.selects rs (Row.withId n (item.row rs)) = true := by
  simp [DayItem.selects, DayItem.row, Row.withId]

/-- Items of distinct months do not select each other's rows. -/
theorem MonthItem.eq_of_selects {rs : RetrievalStatus} {data : List MonthItem}
    (hdata : (data.map (fun item => (item.year, item.month))).Nodup) :
    ∀ i ∈ data, ∀ j ∈ data, ∀ n, i.selects rs (Row.withId n (j.row rs)) = true → i = j := by
  intro i hi j hj n hsel
  simp only [selects, row, Row.withId, Bool.and_eq_true, beq_iff_eq] at hsel
  obtain ⟨⟨_, hmonth⟩, hyear⟩ := hsel
  exact List.inj_on_of_nodup_map hdata hi hj (by rw [hmonth, hyear])

/-- Items of distinct days do not select each other's rows. -/
theorem DayItem.eq_of_selects {rs : RetrievalStatus} {data : List DayItem}
    (hdata : (data.map (fun item => (item.year, item.month, item.day))).Nodup) :
    ∀ i ∈ data, ∀ j ∈ data, ∀ n, i.selects rs (Row.withId n (j.row rs)) = true → i = j := by
  intro i hi j hj n hsel
  simp only [selects, row, Row.withId, Bool.and_eq_true, beq_iff_eq] at hsel
  obtain ⟨⟨⟨_, hday⟩, hmonth⟩, hyear⟩ := hsel
  exact List.inj_on_of_nodup_map hdata hi hj (by rw [hday, hmonth, hyear])

/-- **When a breakdown gets stored.** After `update_months` and
`update_days` the tables hold the returned counters exactly when each item is
of a period without a row, or of one whose row already has the same
counters. A period that has grown since it was first stored is therefore
never brought up to date. -/
theorem update_stores_breakdown_iff (rs : RetrievalStatus) (months : Table Month)
    (days : Table Day) (monthData : List MonthItem) (dayData : List DayItem)
    (hmonths : (monthData.map (fun item => (item.year, item.month))).Nodup)
    (hdays : (dayData.map (fun item => (item.year, item.month, item.day))).Nodup) :
    (MonthsStored rs (rs.updateMonths months monthData) monthData ↔
      ∀ item ∈ monthData, (∀ row ∈ months.rows, item.selects rs row = false) ∨
        ∃ row ∈ months.rows, item.selects rs row = true ∧ row.metrics = item.counts.fetch) ∧
    (DaysStored rs (rs.updateDays days dayData) dayData ↔
      ∀ item ∈ dayData, (∀ row ∈ days.rows, item.selects rs row = false) ∨
        ∃ row ∈ days.rows, item.selects rs row = true ∧ row.metrics = item.counts.fetch) := by
  constructor
  · exact Table.stored_firstOrCreateAll_iff (MonthItem.selects_row rs) (fun _ _ => rfl)
      (MonthItem.eq_of_selects hmonths)
  · exact Table.stored_firstOrCreateAll_iff (DayItem.selects_row rs) (fun _ _ => rfl)
      (DayItem.eq_of_selects hdays)

/-- A Counter status of a work, and what it reports for April 2015 on two
days. -/
def counterStatus : RetrievalStatus := { id := 1, workId := 1, sourceId := 1 }

def aprilFirst : List MonthItem := [{ year := 2015, month := 4, counts := { total := some 20 } }]

def aprilLater : List MonthItem := [{ year := 2015, month := 4, counts := { total := some 25 } }]

def aprilAndMay : List MonthItem :=
  aprilFirst ++ [{ year := 2015, month := 5, counts := { total := some 7 } }]

def twoDays : List DayItem := [⟨2015, 4, 8, {}⟩, ⟨2015, 4, 9, {}⟩]

/-- April and the first day are stored already, May and the second day are new. -/
theorem update_stores_next_period :
    MonthsStored counterStatus
        (counterStatus.updateMonths (counterStatus.updateMonths .empty aprilFirst) aprilAndMay)
        aprilAndMay ∧
      DaysStored counterStatus
        (counterStatus.updateDays (counterStatus.updateDays .empty (twoDays.take 1)) twoDays)
        twoDays := by
  have h := update_stores_breakdown_iff counterStatus
    (counterStatus.updateMonths .empty aprilFirst)
    (counterStatus.updateDays .empty (twoDays.take 1)) aprilAndMay twoDays (by decide) (by decide)
  exact ⟨h.1.mpr (by decide), h.2.mpr (by decide)⟩

/-- The month is reported with 20 and later with 25, and stays at 20. -/
theorem updateMonths_leaves_grown_month :
    ¬ MonthsStored counterStatus
      (counterStatus.updateMonths (counterStatus.updateMonths .empty aprilFirst) aprilLater)
      aprilLater := by
  decide

/-! ## Cumulative counts -/

section Cumulative

variable {ρ : Type} (metrics : ρ → Metrics) (m : Metric)

/-- The metric summed over rows. -/
def sumOver (rows : List ρ) : Int := (rows.map (fun row => (metrics row).get m)).sum

@[simp] theorem sumOver_nil : sumOver metrics m [] = 0 := rfl

@[simp] theorem sumOver_append (rows more : List ρ) :
    sumOver metrics m (rows ++ more) = sumOver metrics m rows + sumOver metrics m more := by
  simp [sumOver]

@[simp] theorem sumOver_singleton (row : ρ) : sumOver metrics m [row] = (metrics row).get m := by
  simp [sumOver]

/-- When the current period's share and the earlier rows make up the
cumulative count: there is no row; or the last row is the current period's
and all rows together already do; or the last row is older and the rows
before it cancel out. -/
def ShareCompletes (cumulative : Metrics) (isCurrent : ρ → Bool) (rows : List ρ) : Prop :=
  match rows.getLast? with
  | none => True
  | some row =>
    if isCurrent row then sumOver metrics m rows = cumulative.get m
    else sumOver metrics m rows.dropLast = 0

/-- The law of cumulative counts, for rows of which all but the last are of
earlier periods. -/
theorem share_completes_iff (cumulative : Metrics) (isCurrent earlier : ρ → Bool) (rows : List ρ)
    (hinit : ∀ row ∈ rows.dropLast, earlier row = true)
    (hlast : ∀ row ∈ rows, earlier row = !isCurrent row) :
    (cumulative - eventsPrevious cumulative isCurrent metrics rows).get m +
        sumOver metrics m (rows.filter earlier) = cumulative.get m ↔
      ShareCompletes metrics m cumulative isCurrent rows := by
  rcases List.eq_nil_or_concat rows with rfl | ⟨init, last, rfl⟩
  · simp [eventsPrevious, ShareCompletes]
  · rw [List.concat_eq_append] at hinit hlast ⊢
    rw [List.dropLast_concat] at hinit
    have hl : earlier last = !isCurrent last := hlast last (by simp)
    have hfilter : init.filter earlier = init := List.filter_eq_self.mpr hinit
    unfold eventsPrevious ShareCompletes
    rw [List.filter_append, hfilter, List.getLast?_concat, List.dropLast_concat]
    -- the last row is counted among the earlier ones exactly when it is not current
    cases hcur : isCurrent last with
    | true =>
      have hout : [last].filter earlier = [] := by simp [hl, hcur]
      simp only [hout, hcur, if_true, Metrics.get_sub, sumOver_append, sumOver_nil,
        sumOver_singleton]
      constructor <;> intro h <;> linarith
    | false =>
      have hin : [last].filter earlier = [last] := by simp [hl, hcur]
      simp only [hin, hcur, Bool.false_eq_true, if_false, Metrics.get_sub, sumOver_append,
        sumOver_singleton]
      constructor <;> intro h <;> linarith

end Cumulative

/-- Chronological rows that do not lie after `last` are all strictly before
it, but for `last` itself. -/
theorem rel_getLast_of_pairwise {ρ : Type} {r : ρ → ρ → Prop} {rows : List ρ}
    (h : rows.Pairwise r) : ∀ row ∈ rows.dropLast, ∃ last ∈ rows, r row last := by
  intro row hrow
  rcases List.eq_nil_or_concat rows with rfl | ⟨init, last, rfl⟩
  · cases hrow
  · rw [List.concat_eq_append] at h hrow ⊢
    rw [List.dropLast_concat] at hrow
    exact ⟨last, by simp, (List.pairwise_append.mp h).2.2 row hrow last (by simp)⟩

namespace Month

/-- The month is not later than the one `today` is in. -/
def notAfter (today : Date) (row : Month) : Prop :=
  row.year < today.year ∨ (row.year = today.year ∧ row.month ≤ today.month)

instance (today : Date) : DecidablePred (notAfter today) :=
  fun row => by unfold notAfter; infer_instance

theorem earlier_eq_not_isCurrent {today : Date} {row : Month} (h : row.notAfter today) :
    row.earlier today = !row.isCurrent today := by
  unfold notAfter at h
  by_cases hc : row.year = today.year ∧ row.month = today.month
  · simp [earlier, isCurrent, hc]
  · have he : row.year < today.year ∨ (row.year = today.year ∧ row.month < today.month) := by
      omega
    have hf : row.isCurrent today = false := by simpa [isCurrent] using hc
    simpa [hf, earlier] using he

theorem earlier_of_before {today : Date} {a b : Month} (hab : a.before b) (h : b.notAfter today) :
    a.earlier today = true := by
  unfold before at hab
  unfold notAfter at h
  have he : a.year < today.year ∨ (a.year = today.year ∧ a.month < today.month) := by omega
  simpa [earlier] using he

end Month

namespace Day

/-- The day is not after `today`. -/
def notAfter (today : Date) (row : Day) : Prop :=
  row.year < today.year ∨ (row.year = today.year ∧
    (row.month < today.month ∨ (row.month = today.month ∧ row.day ≤ today.day)))

instance (today : Date) : DecidablePred (notAfter today) :=
  fun row => by unfold notAfter; infer_instance

theorem earlier_eq_not_isCurrent {today : Date} {row : Day} (h : row.notAfter today) :
    row.earlier today = !row.isCurrent today := by
  unfold notAfter at h
  by_cases hc : (row.year = today.year ∧ row.month = today.month) ∧ row.day = today.day
  · simp [earlier, isCurrent, hc]
  · have he : row.year < today.year ∨ (row.year = today.year ∧
        (row.month < today.month ∨ (row.month = today.month ∧ row.day < today.day))) := by
      omega
    have hf : row.isCurrent today = false := by simpa [isCurrent] using hc
    simpa [hf, earlier] using he

theorem earlier_of_before {today : Date} {a b : Day} (hab : a.before b) (h : b.notAfter today) :
    a.earlier today = true := by
  unfold before at hab
  unfold notAfter at h
  have he : a.year < today.year ∨ (a.year = today.year ∧
      (a.month < today.month ∨ (a.month = today.month ∧ a.day < today.day))) := by
    omega
  simpa [earlier] using he

end Day

/-- **When cumulative counts add up.** For every metric, the share reported
for the current month and the earlier month rows make up the cumulative
count exactly when `ShareCompletes` holds of the month rows; the same goes
for days, where beyond 30 days after publication nothing is reported. -/
theorem current_share_completes_iff (rs : RetrievalStatus) (publishedOn today : Date)
    (months : List Month) (days : List Day)
    (hmonths : months.Pairwise Month.before) (hmonths' : ∀ row ∈ months, row.notAfter today)
    (hdays : days.Pairwise Day.before) (hdays' : ∀ row ∈ days, row.notAfter today)
    (m : Metric) :
    ((rs.getEventsCurrentMonth today months).counts.fetch.get m +
          sumOver Month.metrics m (months.filter (Month.earlier today)) = rs.metrics.get m ↔
        ShareCompletes Month.metrics m rs.metrics (Month.isCurrent today) months) ∧
    ((∀ item, rs.getEventsCurrentDay publishedOn today days = some item →
          item.counts.fetch.get m + sumOver Day.metrics m (days.filter (Day.earlier today)) =
            rs.metrics.get m) ↔
        today.daysSince publishedOn > 30 ∨
          ShareCompletes Day.metrics m rs.metrics (Day.isCurrent today) days) := by
  have hm := share_completes_iff Month.metrics m rs.metrics (Month.isCurrent today)
    (Month.earlier today) months
    (fun row hrow => by
      obtain ⟨last, hlast, hlt⟩ := rel_getLast_of_pairwise hmonths row hrow
      exact Month.earlier_of_before hlt (hmonths' last hlast))
    (fun row hrow => Month.earlier_eq_not_isCurrent (hmonths' row hrow))
  have hd := share_completes_iff Day.metrics m rs.metrics (Day.isCurrent today)
    (Day.earlier today) days
    (fun row hrow => by
      obtain ⟨last, hlast, hlt⟩ := rel_getLast_of_pairwise hdays row hrow
      exact Day.earlier_of_before hlt (hdays' last hlast))
    (fun row hrow => Day.earlier_eq_not_isCurrent (hdays' row hrow))
  refine ⟨hm, ?_⟩
  unfold RetrievalStatus.getEventsCurrentDay
  by_cases hlate : today.daysSince publishedOn > 30
  · simp [hlate]
  · simp only [hlate, if_false, false_or]
    rw [← hd]
    constructor
    · intro h
      exact h _ rfl
    · rintro h item hitem
      cases hitem
      exact h

/-- 1 March 2015. -/
def marchFirst : Date := ⟨2015, 3, 1, by decide⟩

/-- Ten events so far. -/
def tenEvents : RetrievalStatus :=
  { id := 1, workId := 1, sourceId := 1, metrics := { total := 10 } }

/-- The rows of two earlier months, with 5 and 3 events. -/
def twoMonths : List Month :=
  [{ retrievalStatusId := 1, workId := 1, sourceId := 1, year := 2015, month := 1,
     metrics := { total := 5 } },
   { retrievalStatusId := 1, workId := 1, sourceId := 1, year := 2015, month := 2,
     metrics := { total := 3 } }]

/-- The same months, with nothing in the first. -/
def quietJanuary : List Month :=
  { twoMonths[0] with metrics := {} } :: twoMonths.drop 1

/-- The rows of the two days before, the first without events. -/
def lastDays : List Day :=
  [{ retrievalStatusId := 1, workId := 1, sourceId := 1, year := 2015, month := 2, day := 27,
     metrics := {} },
   { retrievalStatusId := 1, workId := 1, sourceId := 1, year := 2015, month := 2, day := 28,
     metrics := { total := 8 } }]

/-- Where only the last of the earlier rows has events the shares add up. -/
theorem current_share_completes_quiet_rows :
    (tenEvents.getEventsCurrentMonth marchFirst quietJanuary).counts.fetch.get .total +
        sumOver Month.metrics .total (quietJanuary.filter (Month.earlier marchFirst)) = 10 ∧
    ∀ item, tenEvents.getEventsCurrentDay marchFirst marchFirst lastDays = some item →
      item.counts.fetch.get .total +
        sumOver Day.metrics .total (lastDays.filter (Day.earlier marchFirst)) = 10 := by
  have h := current_share_completes_iff tenEvents marchFirst marchFirst quietJanuary
    lastDays (by decide) (by decide) (by decide) (by decide) .total
  refine ⟨h.1.mpr ?_, h.2.mpr (Or.inr ?_)⟩
  · show sumOver Month.metrics .total (quietJanuary.take 1) = 0
    rfl
  · show sumOver Day.metrics .total (lastDays.take 1) = 0
    rfl

/-- With two earlier rows it does not: of 10 events so far 5 and 3 are
stored, and 7 more are reported. -/
theorem current_month_counts_again :
    twoMonths.Pairwise Month.before ∧ (∀ row ∈ twoMonths, row.notAfter marchFirst) ∧
    (tenEvents.getEventsCurrentMonth marchFirst twoMonths).counts.fetch.get .total +
      sumOver Month.metrics .total (twoMonths.filter (Month.earlier marchFirst)) ≠
        tenEvents.metrics.get .total := by
  decide

end Lagotto
