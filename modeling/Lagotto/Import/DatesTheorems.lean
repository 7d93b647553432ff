/-
Lagotto.Import.DatesTheorems — dates with missing parts on their way into a
work.

The parts of a date are filtered in four places, and each of them moves a day
into the place of a month that is missing or zero: `validate_published_on` and
`issued`, `get_date_parts`, `get_date_parts_from_parts`, and `get_text` of
`FileImport`. `CslImport` does the opposite and turns a missing part into 0,
which is not missing to `Work`: an item whose date is not complete is rejected.
-/
import Lagotto.Import.Records
import Lagotto.Work.DatesTheorems
import Lagotto.Work.FindOrCreateTheorems

namespace Lagotto.Import

/-- There is a day and no month, and the day is in the place of the month. -/
def DayAsMonth (month day : Int) (parts : List Value) : Prop :=
  month = 0 ∧ day ≠ 0 ∧ parts[1]? = some (.int day)

theorem dayAsMonth_filter_iff (keeps : Int → Bool) (hkeeps : ∀ n, keeps n = true → n ≠ 0)
    (year month day : Int) :
    DayAsMonth month day (([year, month, day].filter keeps).map Value.int) ↔
      keeps year = true ∧ month = 0 ∧ keeps day = true := by
  have hzero : keeps 0 = false := by
    by_contra h
    exact hkeeps 0 (by simpa using h) rfl
  unfold DayAsMonth
  constructor
  · rintro ⟨rfl, hday, hplace⟩
    cases hy : keeps year <;> cases hd : keeps day <;> simp_all
  · rintro ⟨hy, rfl, hd⟩
    simp [hy, hd, hzero, hkeeps day hd]

/-- Every place that filters parts keeps them in order, except for a day whose
month is missing; a work has to have positive parts besides. -/
theorem parts_in_place_iff {env : Env} {others : List Work} {w : Work}
    (hvalid : w.errors env others = []) (time : String) (year month day : Value)
    {raw : List Char} {y m d : Int} (hraw : FileImport.dashNumbers raw = [y, m, d]) :
    ((w.PublishedAsGiven env ∧ w.IssuedAsGiven) ↔
      (w.month = none → w.day = none) ∧ (∀ month ∈ w.month, 0 < month) ∧
        ∀ day ∈ w.day, 0 < day) ∧
    (¬ DayAsMonth (Source.part 5 2 time) (Source.part 8 2 time)
        (partsOf (getDateParts (some time))) ↔
      ¬ (Source.part 0 4 time ≠ 0 ∧ Source.part 5 2 time = 0 ∧ Source.part 8 2 time ≠ 0)) ∧
    (¬ DayAsMonth month.toI day.toI (partsOf (getDatePartsFromParts year month day)) ↔
      ¬ (year.toI ≠ 0 ∧ month.toI = 0 ∧ day.toI ≠ 0)) ∧
    (¬ DayAsMonth m d ((FileImport.dateParts (some raw)).map Value.int) ↔
      ¬ (0 < y ∧ m = 0 ∧ 0 < d)) := by
  refine ⟨Work.published_and_issued_iff hvalid, not_congr ?_, not_congr ?_, not_congr ?_⟩
  · have hfilter := dayAsMonth_filter_iff (fun n => n ≠ 0) (by simp) (Source.part 0 4 time)
      (Source.part 5 2 time) (Source.part 8 2 time)
    simp only [decide_eq_true_eq] at hfilter
    exact hfilter
  · have hfilter := dayAsMonth_filter_iff (fun n => n ≠ 0) (by simp) year.toI month.toI day.toI
    simp only [decide_eq_true_eq] at hfilter
    exact hfilter
  · have hfilter := dayAsMonth_filter_iff (fun n => 0 < n) (by simp; omega) y m d
    simp only [decide_eq_true_eq] at hfilter
    rw [FileImport.dateParts, hraw]
    exact hfilter

/-- A work with all parts of its date. -/
def completeDate : Work :=
  { col := fun c => if c = .doi then some "10.1371/journal.pone.0000001" else none
    title := some "One"
    year := some 2014
    month := some 5
    day := some 7 }

/-- A work with a day and no month. -/
def dayWithoutMonth : Work := { completeDate with month := none }

theorem complete_date_in_place :
    (completeDate.PublishedAsGiven plainEnv ∧ completeDate.IssuedAsGiven) ∧
      ¬ DayAsMonth 5 7 ((FileImport.dateParts (some "2014-05-07".toList)).map Value.int) := by
  have hvalid : completeDate.errors plainEnv [] = [] := by decide +kernel
  have hraw : FileImport.dashNumbers "2014-05-07".toList = [2014, 5, 7] := by decide +kernel
  have hplace := parts_in_place_iff hvalid "2014-05-07" (.int 2014) (.int 5) (.int 7) hraw
  exact ⟨hplace.1.mpr (by simp [completeDate]), hplace.2.2.2.mpr (by decide)⟩

/-- The fifth of an unknown month of 2014 is May 2014 everywhere. -/
theorem day_read_as_month :
    dayWithoutMonth.errors plainEnv [] = [] ∧
      ¬ (dayWithoutMonth.PublishedAsGiven plainEnv ∧ dayWithoutMonth.IssuedAsGiven) ∧
      DayAsMonth 0 5 (partsOf (getDateParts (some "2014-00-05"))) ∧
      DayAsMonth 0 5 (partsOf (getDatePartsFromParts (.int 2014) .nil (.int 5))) ∧
      DayAsMonth 0 5 ((FileImport.dateParts (some "2014-00-05".toList)).map Value.int) := by
  have hvalid : dayWithoutMonth.errors plainEnv [] = [] := by decide +kernel
  have htime : Wikipedia.dateParts (some "2014-00-05") = [2014, 5] := by decide +kernel
  have hraw : FileImport.dateParts (some "2014-00-05".toList) = [2014, 5] := by decide +kernel
  refine ⟨hvalid, ?_, ⟨rfl, by decide, ?_⟩, ⟨rfl, by decide, rfl⟩, ⟨rfl, by decide, ?_⟩⟩
  · rw [Work.published_and_issued_iff hvalid]
    rintro ⟨hmonth, _⟩
    cases hmonth rfl
  · rw [getDateParts, htime]
    rfl
  · rw [hraw]
    rfl

/-! ## CSL items -/

namespace CslImport

/-- The URL of an item is one that `Work` accepts, or there is none. -/
def UrlAccepted (env : Env) (others : List Work) : Option String → Prop
  | none => True
  | some url =>
    blank url = true ∨
      ∃ cleaned, env.clean url = .ok cleaned ∧ startsHttp cleaned = true ∧
        urlFormat cleaned = true ∧
        ∀ other ∈ others, other.col .canonicalUrl ≠ some cleaned

/-- An item with a title, a new DOI, and one to three parts of a past date of
which `first` is the first day. -/
structure NewItem (env : Env) (others : List Work) (item : CslItem) (doi : String)
    (parts : List Value) (first : Date) : Prop where
  doi_eq : item.doi = some doi
  format : doiFormat doi = true
  title : present (item.title.map env.sanitize) = true
  newDoi : ∀ other ∈ others, other.col .doi ≠ some doi.toLower
  pid : blank (env.encode ("http://doi.org/" ++ doi.toLower)) = false
  newPid : ∀ other ∈ others,
    other.col .pid ≠ some (env.encode ("http://doi.org/" ++ doi.toLower))
  dateParts : item.dateParts = some parts
  length : 1 ≤ parts.length ∧ parts.length ≤ 3
  date : Date.ofParts? (parts.map Value.toI) = some first
  past : first.toDays ≤ env.today.toDays

/-- The record is valid and has the date. -/
def Accepted (env : Env) (others : List Work) (p : Params) (first : Date) : Prop :=
  p.build.errors env others = [] ∧ (p.build.normalise env).publishedOn = some first

variable {env : Env} {others : List Work} {item : CslItem} {doi : String} {parts : List Value}
  {first : Date}

/-- `Work` sees three parts whatever the item has, and there is no day 0. -/
theorem ofParts_record (hnew : NewItem env others item doi parts first) :
    Date.ofParts? [partAt parts 0, partAt parts 1, partAt parts 2] =
      if parts.length = 3 then some first else none := by
  have hlength := hnew.length
  have hdate := hnew.date
  rcases parts with _ | ⟨year, _ | ⟨month, _ | ⟨day, _ | ⟨more, rest⟩⟩⟩⟩
  · simp at hlength
  · exact Date.civil_zero year.toI 0
  · exact Date.civil_zero year.toI month.toI
  · exact hdate
  · simp only [List.length_cons] at hlength
    omega

theorem checkPublishedOn_record (hnew : NewItem env others item doi parts first) (cat : Catalogue)
    (i : Importer) (date : Date) :
    (record env cat i item parts).build.checkPublishedOn env = .ok date ↔
      (parts.length = 3 ∧ (⟨1650, 1, 1, by decide⟩ : Date).toDays ≤ first.toDays) ∧
        first = date := by
  have hparts : (record env cat i item parts).build.dateParts =
      [partAt parts 0, partAt parts 1, partAt parts 2] := rfl
  rw [Work.checkPublishedOn_eq_ok_iff, hparts, ofParts_record hnew]
  by_cases hthree : parts.length = 3
  · simp only [hthree, if_true, Option.some.injEq, true_and]
    constructor
    · rintro ⟨rfl, _, hold⟩
      exact ⟨hold, rfl⟩
    · rintro ⟨hold, rfl⟩
      exact ⟨rfl, hnew.past, hold⟩
  · simp [hthree]

theorem checkUrl_iff (env : Env) (others : List Work) {w n : Work}
    (hurl : n.col .canonicalUrl = cleanedUrl env (w.col .canonicalUrl)) :
    ((w.normalizeUrl env).2 = [] ∧ Work.checkUnique others n .canonicalUrl = [] ∧
        Work.checkFormat urlFormat n .canonicalUrl = []) ↔
      UrlAccepted env others (w.col .canonicalUrl) := by
  rw [Work.normalizeUrl_errors_iff, Work.checkUnique_eq_nil_iff, Work.checkFormat_eq_nil_iff, hurl]
  cases w.col .canonicalUrl with
  | none => simp [cleanedUrl, UrlAccepted]
  | some url =>
    cases hblank : blank url with
    | true => simp [cleanedUrl, UrlAccepted, hblank]
    | false =>
      cases hclean : env.clean url with
      | error message => simp [UrlAccepted, hblank, hclean]
      | ok cleaned =>
        cases hhttp : startsHttp cleaned with
        | false => simp [UrlAccepted, hblank, hclean, hhttp]
        | true =>
          have hpresent := blank_of_startsHttp hhttp
          simp [cleanedUrl, UrlAccepted, hblank, hclean, hhttp, hpresent, and_comm]

/-- Only the date and the URL of a new item can be refused. -/
theorem errors_record_iff (hnew : NewItem env others item doi parts first) (cat : Catalogue)
    (i : Importer) :
    (record env cat i item parts).build.errors env others = [] ↔
      (∃ date, (record env cat i item parts).build.checkPublishedOn env = .ok date) ∧
        UrlAccepted env others item.url := by
  have hcol : ∀ c, c ≠ .pid →
      ((record env cat i item parts).build.beforeValidation env).1.col c =
        normalCol env c ((record env cat i item parts).build.col c) :=
    fun c hc => Work.col_beforeValidation_of_ne env _ hc
  have hblank := blank_of_doiFormat hnew.format
  have hlower := blank_of_doiFormat (doiFormat_toLower hnew.format)
  have hdoi : normalCol env .doi ((record env cat i item parts).build.col .doi) =
      some doi.toLower := by
    show loweredDoi item.doi = _
    simp [loweredDoi, hnew.doi_eq, hblank]
  have hpidFor : ((record env cat i item parts).build.identified env).pidFor env =
      some (env.encode ("http://doi.org/" ++ doi.toLower)) :=
    Work.pidFor_of_doi ((Work.col_identified ..).trans hdoi) hlower hnew.pid
  have hpid : ((record env cat i item parts).build.beforeValidation env).1.col .pid =
      some (env.encode ("http://doi.org/" ++ doi.toLower)) := by
    rw [Work.beforeValidation_fst, Work.col_setPid_pid, hpidFor, Option.some_or]
  have hurl := checkUrl_iff env others (hcol .canonicalUrl (by decide))
  rw [Work.errors_eq_nil_iff, Work.beforeValidation_errors_iff, hpidFor]
  constructor
  · rintro ⟨⟨hnormal, _⟩, _, _, hunique, _, hformat, _, _, _, _, hdate⟩
    exact ⟨hdate, hurl.mp ⟨hnormal, hunique .canonicalUrl (by decide), hformat⟩⟩
  · rintro ⟨⟨date, hdate⟩, haccepted⟩
    obtain ⟨hnormal, hunique, hformat⟩ := hurl.mpr haccepted
    have hle := Date.civil_le (Work.checkPublishedOn_eq_ok_iff.mp hdate).1
    refine ⟨⟨hnormal, rfl⟩, by simp [hpid, hnew.pid], hnew.title, ?_, ?_, hformat, ?_, rfl,
      Work.checkAtMost_eq_nil_iff.mpr hle.1, Work.checkAtMost_eq_nil_iff.mpr hle.2, date, hdate⟩
    · intro c _
      rw [Work.checkUnique_eq_nil_iff]
      intro hpresent
      cases c with
      | doi =>
        rw [hcol .doi (by decide), hdoi]
        exact hnew.newDoi
      | canonicalUrl => exact Work.checkUnique_eq_nil_iff.mp hunique hpresent
      | pid =>
        rw [hpid]
        exact hnew.newPid
      | _ =>
        -- the record has no other identifier
        rw [hcol _ (by decide)] at hpresent
        cases hpresent
    · rw [Work.checkFormat_eq_nil_iff, hcol .doi (by decide), hdoi]
      exact fun _ => doiFormat_toLower hnew.format
    · rw [Work.checkFormat_eq_nil_iff, hcol .ark (by decide)]
      intro hpresent
      cases hpresent

/-- The record of a new item is accepted with the first day of its date exactly
if the date is complete and not before 1650, and the URL is in order. -/
theorem item_accepted_iff (hnew : NewItem env others item doi parts first) (cat : Catalogue)
    (i : Importer) :
    (∃ p, parseData env cat i [item] = .ok [p] ∧ Accepted env others p first) ↔
      parts.length = 3 ∧ (⟨1650, 1, 1, by decide⟩ : Date).toDays ≤ first.toDays ∧
        UrlAccepted env others item.url := by
  have hparse : parseData env cat i [item] = .ok [record env cat i item parts] := by
    simp only [parseData, List.mapM_cons, parseItem, hnew.dateParts]
    rfl
  have haccepted : (∃ p, parseData env cat i [item] = .ok [p] ∧ Accepted env others p first) ↔
      Accepted env others (record env cat i item parts) first := by
    rw [hparse]
    simp
  rw [haccepted, Accepted, errors_record_iff hnew]
  constructor
  · rintro ⟨⟨⟨date, hdate⟩, hurl⟩, _⟩
    obtain ⟨⟨hthree, hold⟩, _⟩ := (checkPublishedOn_record hnew cat i date).mp hdate
    exact ⟨hthree, hold, hurl⟩
  · rintro ⟨hthree, hold, hurl⟩
    have hdate := (checkPublishedOn_record hnew cat i first).mpr ⟨⟨hthree, hold⟩, rfl⟩
    refine ⟨⟨⟨first, hdate⟩, hurl⟩, ?_⟩
    unfold Work.normalise
    simp only [Work.checkPublishedOn_beforeValidation, hdate]

/-- An item as in the file of the specs, with the date left open. -/
def muscularAtrophy (dateParts : List Value) : CslItem where
  doi := some "10.1242/dmm.007245"
  title := some "The contribution of mouse models"
  dateParts := some dateParts
  type := some "article-journal"

theorem muscularAtrophy_new {parts : List Value} {first : Date}
    (hlength : 1 ≤ parts.length ∧ parts.length ≤ 3)
    (hdate : Date.ofParts? (parts.map Value.toI) = some first)
    (hpast : first.toDays ≤ plainEnv.today.toDays) :
    NewItem plainEnv [] (muscularAtrophy parts) "10.1242/dmm.007245" parts first where
  doi_eq := rfl
  format := by decide +kernel
  title := by
    show present (some "The contribution of mouse models") = true
    decide +kernel
  newDoi := by simp
  pid := by decide +kernel
  newPid := by simp
  dateParts := rfl
  length := hlength
  date := hdate
  past := hpast

theorem complete_item_accepted :
    ∃ p, parseData plainEnv {} { importClass := .csl }
        [muscularAtrophy [.int 2011, .int 7, .int 1]] = .ok [p] ∧
      Accepted plainEnv [] p ⟨2011, 7, 1, by decide⟩ :=
  (item_accepted_iff (muscularAtrophy_new (by decide) (by decide) (by decide)) {}
    { importClass := .csl }).mpr ⟨rfl, by decide, trivial⟩

/-- July 2011 is not a date to `Work`. -/
theorem incomplete_item_rejected :
    ¬ ∃ p, parseData plainEnv {} { importClass := .csl }
        [muscularAtrophy [.int 2011, .int 7]] = .ok [p] ∧
      Accepted plainEnv [] p ⟨2011, 7, 1, by decide⟩ := by
  have hparse : parseData plainEnv {} { importClass := .csl }
      [muscularAtrophy [.int 2011, .int 7]] =
      .ok [record plainEnv {} { importClass := .csl } (muscularAtrophy [.int 2011, .int 7])
        [.int 2011, .int 7]] := rfl
  rw [hparse]
  rintro ⟨p, hrecord, hvalid, _⟩
  obtain ⟨rfl, _⟩ := List.cons.inj (Except.ok.inj hrecord)
  revert hvalid
  decide +kernel

end CslImport

end Lagotto.Import
