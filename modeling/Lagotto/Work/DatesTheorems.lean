/-
Lagotto.Work.DatesTheorems — which date a valid work has.

`validate_published_on` and `issued` drop the parts that are missing, so a day
without a month is taken for a month. The validations bound month and day from
above only, and `Date.new` counts a negative one from the end.
`civil_parts` says what `Date.new` makes of its arguments, and
`published_and_issued_iff` which works have the date that they were given.
-/
import Lagotto.Work.Validity

namespace Lagotto

theorem twentyEight_le_daysInMonth (year month : Int) : 28 ≤ daysInMonth year month := by
  unfold daysInMonth
  repeat' split
  all_goals decide

/-- The components of a date are the arguments it was made of, except that
those below 0 count from the end. -/
theorem Date.civil_parts {year month day : Int} {date : Date}
    (h : Date.civil? year month day = some date) :
    date.year = year ∧ (date.month = month ↔ 0 < month) ∧ (date.day = day ↔ 0 < day) := by
  unfold Date.civil? at h
  dsimp only at h
  generalize hm : (if month < 0 then month + 13 else month) = m at h
  generalize hd : (if day < 0 then daysInMonth year m + 1 + day else day) = d at h
  split at h
  next hvalid =>
    obtain rfl := Option.some.inj h
    refine ⟨rfl, ?_, ?_⟩
    · show m = month ↔ 0 < month
      split at hm <;> omega
    · show d = day ↔ 0 < day
      have hdays := twentyEight_le_daysInMonth year m
      split at hd <;> omega
  next => cases h

theorem daysInMonth_le (year month : Int) : daysInMonth year month ≤ 31 := by
  unfold daysInMonth
  repeat' split
  all_goals decide

theorem Date.civil_le {year month day : Int} {date : Date}
    (h : Date.civil? year month day = some date) : month ≤ 12 ∧ day ≤ 31 := by
  obtain ⟨_, hm, hd⟩ := Date.civil_parts h
  obtain ⟨_, hmonth, _, hday⟩ := date.valid
  have hdays := daysInMonth_le date.year date.month
  exact ⟨by by_contra hlt; have := hm.mpr (by omega); omega,
    by by_contra hlt; have := hd.mpr (by omega); omega⟩

/-- There is no day 0. -/
theorem Date.civil_zero (year month : Int) : Date.civil? year month 0 = none := by
  unfold Date.civil?
  simp

namespace Work

variable {env : Env} {others : List Work} {w : Work}

/-- `published_on` is the date of the parts, with 1 for a month or day that is
missing. -/
def PublishedAsGiven (env : Env) (w : Work) : Prop :=
  ∃ date, (w.normalise env).publishedOn = some date ∧
    w.year = some date.year ∧ date.month = w.month.getD 1 ∧ date.day = w.day.getD 1

/-- `issued` has the year, the month and the day in their places, as far as
they are given. -/
def IssuedAsGiven (w : Work) : Prop :=
  (partsOf w.issued)[0]? = w.year.map Value.int ∧
    (partsOf w.issued)[1]? = w.month.map Value.int ∧
    (partsOf w.issued)[2]? = w.day.map Value.int

theorem publishedOn_of_valid (hvalid : w.errors env others = []) :
    ∃ date, Date.ofParts? w.dateParts = some date ∧
      (w.normalise env).publishedOn = some date := by
  obtain ⟨date, hdate⟩ := (errors_eq_nil_iff.mp hvalid).2.2.2.2.2.2.2.2.2.2
  refine ⟨date, (checkPublishedOn_eq_ok_iff.mp hdate).1, ?_⟩
  unfold normalise
  simp only [checkPublishedOn_beforeValidation, hdate]

/-- A valid work has the date it was given unless it has a day and no month, or
a month or a day below 0. -/
theorem published_and_issued_iff (hvalid : w.errors env others = []) :
    (w.PublishedAsGiven env ∧ w.IssuedAsGiven) ↔
      (w.month = none → w.day = none) ∧ (∀ month ∈ w.month, 0 < month) ∧
        ∀ day ∈ w.day, 0 < day := by
  obtain ⟨date, hparts, hdate⟩ := publishedOn_of_valid hvalid
  obtain ⟨year, hyear⟩ := Option.isSome_iff_exists.mp
    (errors_eq_nil_iff.mp hvalid).2.2.2.2.2.2.2.1
  have hpublished : w.PublishedAsGiven env ↔
      year = date.year ∧ date.month = w.month.getD 1 ∧ date.day = w.day.getD 1 := by
    unfold PublishedAsGiven
    simp [hdate, hyear]
  rw [hpublished]
  unfold dateParts at hparts
  unfold IssuedAsGiven issued dateParts
  rw [partsOf_datePartsHash]
  rw [hyear] at hparts ⊢
  cases hmonth : w.month with
  | none =>
    rw [hmonth] at hparts
    cases hday : w.day with
    | none =>
      rw [hday] at hparts
      obtain ⟨hy, hm, hd⟩ := Date.civil_parts (show Date.civil? year 1 1 = some date from hparts)
      simp [hy, hm.mpr one_pos, hd.mpr one_pos]
    | some day => simp
  | some month =>
    rw [hmonth] at hparts
    cases hday : w.day with
    | none =>
      rw [hday] at hparts
      obtain ⟨hy, hm, hd⟩ :=
        Date.civil_parts (show Date.civil? year month 1 = some date from hparts)
      simp [hy, hm, hd.mpr one_pos]
    | some day =>
      rw [hday] at hparts
      obtain ⟨hy, hm, hd⟩ := Date.civil_parts hparts
      simp [hy, hm, hd]

end Work

end Lagotto
