/-
Lagotto.Work.Validity — the validations of a work as conditions on it.

`errors_eq_nil_iff` takes `valid?` apart, one condition for every validation
and one for the callbacks, and the lemmas before it say what each check asks
for.
-/
import Mathlib.Tactic.Tauto
import Lagotto.Work.Dates
import Lagotto.Work.RowTheorems

namespace Lagotto

open Text

/-- What starts like a URL is not blank. -/
theorem blank_of_startsHttp {s : String} (h : startsHttp s = true) : blank s = false := by
  have hmem : 'h' ∈ s.toList := by
    rcases Bool.or_eq_true_iff.mp h with hprefix | hline
    · exact (List.isPrefixOf_iff_prefix.mp hprefix).subset (by decide)
    · exact (of_decide_eq_true hline).subset (by decide)
  rw [blank, List.all_eq_false]
  exact ⟨'h', hmem, by decide⟩

theorem blank_of_doiFormat {s : String} (h : doiFormat s = true) : blank s = false := by
  unfold doiFormat at h
  split at h
  next rest heq =>
    rw [blank, heq]
    rfl
  next => cases h

namespace Work

variable {env : Env} {others : List Work} {w : Work}

/-! ## Single checks -/

theorem checkPresence_eq_nil_iff {field : Attribute} {value : Option String} :
    checkPresence field value = [] ↔ present value = true := by
  unfold checkPresence
  split <;> simp [*]

theorem checkUnique_eq_nil_iff {c : Column} :
    checkUnique others w c = [] ↔
      (present (w.col c) = true → ∀ other ∈ others, other.col c ≠ w.col c) := by
  unfold checkUnique
  cases present (w.col c) with
  | false => simp
  | true => simp

theorem checkFormat_eq_nil_iff {format : String → Bool} {c : Column} :
    checkFormat format w c = [] ↔
      (present (w.col c) = true → (w.col c).all format = true) := by
  unfold checkFormat
  cases present (w.col c) with
  | false => simp
  | true => cases (w.col c).all format <;> simp

theorem checkAtMost_eq_nil_iff {field : Attribute} {limit n : Int} :
    checkAtMost field limit (some n) = [] ↔ n ≤ limit := by
  rw [checkAtMost]
  split <;> simp [*]

/-- The date exists and lies between 1650 and today. -/
theorem checkPublishedOn_eq_ok_iff {date : Date} :
    w.checkPublishedOn env = .ok date ↔
      Date.ofParts? w.dateParts = some date ∧ date.toDays ≤ env.today.toDays ∧
        (⟨1650, 1, 1, by decide⟩ : Date).toDays ≤ date.toDays := by
  have hparts : w.dateParts = [w.year, w.month, w.day].filterMap (fun part => part) := rfl
  unfold checkPublishedOn
  simp only [← hparts]
  split
  next hnone => simp [hnone]
  next date' hsome =>
    rw [hsome, Option.some.injEq]
    split
    next hfuture =>
      simp only [reduceCtorEq, false_iff]
      rintro ⟨rfl, hpast, _⟩
      omega
    next hpast =>
      split
      next hearly =>
        simp only [reduceCtorEq, false_iff]
        rintro ⟨rfl, _, hlate⟩
        omega
      next hlate =>
        rw [Except.ok.injEq]
        constructor
        · rintro rfl
          exact ⟨rfl, by omega, by omega⟩
        · exact And.left

/-- `normalize_url` finds nothing wrong. -/
theorem normalizeUrl_errors_iff :
    (w.normalizeUrl env).2 = [] ↔
      ∀ url, w.col .canonicalUrl = some url → blank url = false →
        ∃ cleaned, env.clean url = .ok cleaned ∧ startsHttp cleaned = true := by
  unfold normalizeUrl
  split
  next hnone => simp [hnone]
  next url hurl =>
    rw [hurl]
    simp only [Option.some.injEq, forall_eq']
    split
    next hblank => simp [hblank]
    next hblank =>
      split
      next message hclean => simp [hblank, hclean]
      next cleaned hclean => split <;> simp [*]

/-- `set_pid` finds a pid. -/
theorem setPid_errors_iff : (w.setPid env).2 = [] ↔ (w.pidFor env).isSome = true := by
  unfold setPid
  split
  next h => simp [h]
  next h => simp [h]

theorem beforeValidation_errors_iff :
    (w.beforeValidation env).2 = [] ↔
      (w.normalizeUrl env).2 = [] ∧ ((w.identified env).pidFor env).isSome = true := by
  rw [← setPid_errors_iff]
  show _ ++ _ = [] ↔ _
  rw [List.append_eq_nil_iff, normalizeUrl_errors_iff, normalizeUrl_errors_iff]
  exact Iff.rfl

/-- The columns the validations see. -/
theorem col_beforeValidation_of_ne (env : Env) (w : Work) {c : Column} (hc : c ≠ .pid) :
    (w.beforeValidation env).1.col c = normalCol env c (w.col c) := by
  rw [beforeValidation_fst, col_setPid_of_ne env _ hc, col_identified]

/-- A work with a DOI is known by it. -/
theorem pidFor_of_doi {doi : String} (hdoi : w.col .doi = some doi) (hblank : blank doi = false)
    (hpid : blank (env.encode ("http://doi.org/" ++ doi)) = false) :
    w.pidFor env = some (env.encode ("http://doi.org/" ++ doi)) := by
  have hurl : w.doiAsUrl env = some (env.encode ("http://doi.org/" ++ doi)) := by
    simp [doiAsUrl, asUrl, hdoi, hblank]
  unfold pidFor
  rw [hurl, List.find?_cons_of_pos (by simp [hpid])]
  rfl

/-! ## All of them -/

/-- `validate_published_on` reads nothing the callbacks write. -/
theorem checkPublishedOn_beforeValidation (env : Env) (w : Work) :
    (w.beforeValidation env).1.checkPublishedOn env = w.checkPublishedOn env := by
  rw [beforeValidation_eq]
  rfl

/-- What `valid?` asks for. -/
theorem errors_eq_nil_iff :
    w.errors env others = [] ↔
      (w.beforeValidation env).2 = [] ∧
        present ((w.beforeValidation env).1.col .pid) = true ∧
        present (w.title.map env.sanitize) = true ∧
        (∀ c ∈ [Column.doi, .canonicalUrl, .ark, .pid, .pmid, .pmcid, .arxiv, .wos, .scp],
          checkUnique others (w.beforeValidation env).1 c = []) ∧
        checkFormat doiFormat (w.beforeValidation env).1 .doi = [] ∧
        checkFormat urlFormat (w.beforeValidation env).1 .canonicalUrl = [] ∧
        checkFormat arkFormat (w.beforeValidation env).1 .ark = [] ∧
        w.year.isSome = true ∧
        checkAtMost .month 12 w.month = [] ∧ checkAtMost .day 31 w.day = [] ∧
        ∃ date, w.checkPublishedOn env = .ok date := by
  have htitle : (w.beforeValidation env).1.title = w.title.map env.sanitize := by
    rw [beforeValidation_eq]
  have hparts : (w.beforeValidation env).1.year = w.year ∧
      (w.beforeValidation env).1.month = w.month ∧ (w.beforeValidation env).1.day = w.day := by
    rw [beforeValidation_eq]
    exact ⟨rfl, rfl, rfl⟩
  have hyear : (if w.year.isSome = true then [] else [(Attribute.year, "is not a number")]) = [] ↔
      w.year.isSome = true := by
    split <;> simp [*]
  unfold errors validations
  rw [htitle, hparts.1, hparts.2.1, hparts.2.2, checkPublishedOn_beforeValidation]
  simp only [List.append_eq_nil_iff, checkPresence_eq_nil_iff, List.flatMap_eq_nil_iff, hyear,
    List.forall_mem_cons]
  cases hdate : w.checkPublishedOn env with
  | error message => simp
  | ok date =>
    simp only [Except.ok.injEq, exists_eq', and_true]
    tauto

end Work

end Lagotto
