/-
Lagotto.Work.ValidationTheorems — what the errors of a work say.

`find_or_create` decides by searching the message of the exception. This
module shows that the search finds what it means to find: every error a work
can have is one of a fixed list of texts or an invalid date
(`mem_errors_cases`), and of these only the uniqueness error of a column
contains the text looked for (`isIn_invalidMessage`). The text of an error of
the URL cleaner is part of the message, and must not read like one either
(`Env.Quiet`).
-/
import Lagotto.Work.FindOrCreate
import Lagotto.Work.RowTheorems

namespace Lagotto

variable {env : Env} {others : List Work} {w : Work} {e : Error} {c : Column}

open Text

/-! ## Single checks -/

/-- The text of the uniqueness validator. -/
def takenError (c : Column) : Error := (.col c, "has already been taken")

namespace Work

theorem mem_checkUnique {n : Work} :
    e ∈ checkUnique others n c ↔
      e = takenError c ∧ present (n.col c) = true ∧ ∃ other ∈ others, other.col c = n.col c := by
  unfold checkUnique takenError
  split
  next h =>
    obtain ⟨hp, hany⟩ := Bool.and_eq_true_iff.mp h
    simp only [List.mem_singleton, hp, true_and]
    exact ⟨fun he => ⟨he, by simpa using hany⟩, fun he => he.1⟩
  next h =>
    simp only [List.not_mem_nil, false_iff]
    rintro ⟨_, hp, hany⟩
    exact h (Bool.and_eq_true_iff.mpr ⟨hp, by simpa using hany⟩)

theorem eq_of_mem_checkFormat {format : String → Bool} {n : Work} (h : e ∈ checkFormat format n c) :
    e = (.col c, "is invalid") := by
  unfold checkFormat at h
  split at h
  · exact List.mem_singleton.mp h
  · cases h

theorem eq_of_mem_checkPresence {field : Attribute} {value : Option String}
    (h : e ∈ checkPresence field value) : e = (field, "can't be blank") := by
  unfold checkPresence at h
  split at h
  · cases h
  · exact List.mem_singleton.mp h

theorem eq_of_mem_checkAtMost {field : Attribute} {limit : Int} {value : Option Int}
    (h : e ∈ checkAtMost field limit value) :
    e = (field, "must be less than or equal to " ++ toString limit) := by
  unfold checkAtMost at h
  split at h
  · cases h
  · split at h
    · cases h
    · exact List.mem_singleton.mp h

theorem eq_of_mem_setPid (h : e ∈ (w.setPid env).2) :
    e = (.col .doi, "must provide at least one persistent identifier") := by
  unfold setPid at h
  split at h
  · cases h
  · exact List.mem_singleton.mp h

theorem eq_of_mem_normalizeUrl (h : e ∈ (w.normalizeUrl env).2) :
    e = (.col .canonicalUrl, "only http and https URLs are supported") ∨
      ∃ url message, env.clean url = .error message ∧ e = (.col .canonicalUrl, message) := by
  unfold normalizeUrl at h
  split at h
  · cases h
  · split at h
    · cases h
    · split at h
      next message hmessage => exact Or.inr ⟨_, message, hmessage, List.mem_singleton.mp h⟩
      next =>
        split at h
        · cases h
        · exact Or.inl (List.mem_singleton.mp h)

theorem checkPublishedOn_error {message : String} (h : w.checkPublishedOn env = .error message) :
    message = "is a date in the future" ∨ message = "is before 1650" ∨
      ∃ parts : List Int, message = join "-" (parts.map toString) ++ " is not a valid date" := by
  unfold checkPublishedOn at h
  simp only at h
  split at h
  · exact Or.inr (Or.inr ⟨_, (Except.error.inj h).symm⟩)
  · split at h
    · exact Or.inl (Except.error.inj h).symm
    · split at h
      · exact Or.inr (Or.inl (Except.error.inj h).symm)
      · cases h

/-! ## The errors a work can have -/

/-- The columns with a uniqueness validator. -/
def uniqueColumns : List Column :=
  [.doi, .canonicalUrl, .ark, .pid, .pmid, .pmcid, .arxiv, .wos, .scp]

/-- The errors with a fixed text that do not depend on other works. -/
def ownErrors : List Error :=
  [(.col .canonicalUrl, "only http and https URLs are supported"),
   (.col .doi, "must provide at least one persistent identifier"),
   (.col .pid, "can't be blank"), (.title, "can't be blank"),
   (.col .doi, "is invalid"), (.col .canonicalUrl, "is invalid"), (.col .ark, "is invalid"),
   (.year, "is not a number"),
   (.month, "must be less than or equal to " ++ toString (12 : Int)),
   (.day, "must be less than or equal to " ++ toString (31 : Int)),
   (.publishedOn, "is a date in the future"), (.publishedOn, "is before 1650")]

/-- The errors with a fixed text. -/
def knownErrors : List Error := uniqueColumns.map takenError ++ ownErrors

/-- Where an error comes from: a uniqueness check, one of the fixed texts, a
date that does not exist, or the URL cleaner. -/
theorem mem_errors_origin (h : e ∈ w.errors env others) :
    (∃ c ∈ uniqueColumns, e ∈ checkUnique others (w.beforeValidation env).1 c) ∨
      e ∈ ownErrors ∨
      (∃ parts : List Int,
        e = (.publishedOn, join "-" (parts.map toString) ++ " is not a valid date")) ∨
      ∃ url message, env.clean url = .error message ∧ e = (.col .canonicalUrl, message) := by
  have hflat : ∀ c ∈ [Column.pid, .pmid, .pmcid, .arxiv, .wos, .scp], c ∈ uniqueColumns := by
    decide
  unfold errors validations at h
  simp only [List.mem_append] at h
  rcases h with h | (((((((((((h | h) | h) | h) | h) | h) | h) | h) | h) | h) | h) | h) | h
  · unfold beforeValidation at h
    rcases List.mem_append.mp h with h | h
    · rcases eq_of_mem_normalizeUrl h with rfl | hclean
      · right; left
        decide
      · exact Or.inr (Or.inr (Or.inr hclean))
    · right; left
      rw [eq_of_mem_setPid h]
      decide
  · right; left
    rw [eq_of_mem_checkPresence h]
    decide
  · right; left
    rw [eq_of_mem_checkPresence h]
    decide
  · exact Or.inl ⟨.doi, by decide, h⟩
  · right; left
    rw [eq_of_mem_checkFormat h]
    decide
  · exact Or.inl ⟨.canonicalUrl, by decide, h⟩
  · right; left
    rw [eq_of_mem_checkFormat h]
    decide
  · exact Or.inl ⟨.ark, by decide, h⟩
  · right; left
    rw [eq_of_mem_checkFormat h]
    decide
  · obtain ⟨c, hc, hmem⟩ := List.mem_flatMap.mp h
    exact Or.inl ⟨c, hflat c hc, hmem⟩
  · right; left
    split at h
    · cases h
    · rw [List.mem_singleton.mp h]
      decide
  · right; left
    rw [eq_of_mem_checkAtMost h]
    decide
  · right; left
    rw [eq_of_mem_checkAtMost h]
    decide
  · right
    split at h
    next => cases h
    next message hmessage =>
      rw [List.mem_singleton.mp h]
      rcases checkPublishedOn_error hmessage with rfl | rfl | ⟨parts, rfl⟩
      · left
        decide
      · left
        decide
      · exact Or.inr (Or.inl ⟨parts, rfl⟩)

/-- Every uniqueness check is made. -/
theorem mem_errors_of_checkUnique (hc : c ∈ uniqueColumns)
    (h : e ∈ checkUnique others (w.beforeValidation env).1 c) : e ∈ w.errors env others := by
  have hsplit : ∀ c ∈ uniqueColumns, c = .doi ∨ c = .canonicalUrl ∨ c = .ark ∨
      c ∈ [Column.pid, .pmid, .pmcid, .arxiv, .wos, .scp] := by
    decide
  unfold errors validations
  simp only [List.mem_append, List.mem_flatMap]
  right
  rcases hsplit c hc with rfl | rfl | rfl | hflat
  · simp only [h, or_true, true_or]
  · simp only [h, or_true, true_or]
  · simp only [h, or_true, true_or]
  · exact Or.inl (Or.inl (Or.inl (Or.inl (Or.inr ⟨c, hflat, h⟩))))

theorem mem_errors_cases (h : e ∈ w.errors env others) :
    e ∈ knownErrors ∨
      (∃ parts : List Int,
        e = (.publishedOn, join "-" (parts.map toString) ++ " is not a valid date")) ∨
      ∃ url message, env.clean url = .error message ∧ e = (.col .canonicalUrl, message) := by
  rcases mem_errors_origin h with ⟨c, hc, hmem⟩ | hown | hother
  · left
    rw [(mem_checkUnique.mp hmem).1]
    exact List.mem_append_left _ (List.mem_map_of_mem hc)
  · exact Or.inl (List.mem_append_right _ hown)
  · exact Or.inr hother

end Work

/-! ## The message -/

theorem mem_fullMessages {errors : List Error} {piece : String} :
    piece ∈ fullMessages errors ↔ ∃ e ∈ errors, piece = e.1.human ++ " " ++ e.2 := by
  simp only [fullMessages, List.mem_flatMap, List.mem_eraseDups, List.mem_map, List.mem_filter]
  constructor
  · rintro ⟨_, _, e, ⟨he, _⟩, rfl⟩
    exact ⟨e, he, rfl⟩
  · rintro ⟨e, he, rfl⟩
    exact ⟨e.1, ⟨e, he, rfl⟩, e, ⟨he, by simp⟩, rfl⟩

/-- A number is written with digits and a sign. -/
theorem k_not_mem_toString (n : Int) : 'k' ∉ (toString n).toList := by
  have hnat : ∀ m : Nat, 'k' ∉ (Nat.repr m).toList := by
    intro m h
    rw [Nat.repr, String.toList_ofList] at h
    have := Nat.isDigit_of_mem_toDigits (by decide) (by decide) h
    exact absurd this (by decide)
  cases n with
  | ofNat m => exact hnat m
  | negSucc m =>
    show 'k' ∉ ("-" ++ Nat.repr (m + 1)).toList
    rw [String.toList_append, List.mem_append]
    rintro (h | h)
    · exact absurd h (by decide)
    · exact hnat _ h

theorem k_not_mem_join (parts : List Int) : 'k' ∉ (join "-" (parts.map toString)).toList := by
  induction parts with
  | nil => simp [join]
  | cons n rest ih =>
    cases rest with
    | nil => exact k_not_mem_toString n
    | cons m more =>
      have hjoin : join "-" ((n :: m :: more).map toString) =
          toString n ++ "-" ++ join "-" ((m :: more).map toString) := rfl
      rw [hjoin, String.toList_append, String.toList_append, List.mem_append, List.mem_append]
      rintro ((h | h) | h)
      · exact k_not_mem_toString n h
      · exact absurd h (by decide)
      · exact ih h

/-- What is included in a text has its characters there. -/
theorem Text.mem_of_includes {text pattern : String} (h : includes text pattern = true) {c : Char}
    (hc : c ∈ pattern.toList) : c ∈ text.toList :=
  (includes_iff.mp h).subset hc

/-- No error of the URL cleaner reads like a conflict. -/
def Env.Quiet (env : Env) : Prop :=
  ∀ url message, env.clean url = .error message → ∀ c : Conflict,
    c.isIn (Attribute.human (.col .canonicalUrl) ++ " " ++ message) = false

namespace Conflict

/-- Every conflict. -/
def all : List Conflict := [doi, pmid, ark, pid]

theorem mem_all (c : Conflict) : c ∈ all := by cases c <;> decide

/-- Among the errors with a fixed text, a conflict's text is in that of its
own column's uniqueness error and nowhere else. -/
theorem includes_knownErrors : ∀ c ∈ all, ∀ e ∈ Work.knownErrors,
    includes (e.1.human ++ " " ++ e.2) c.taken = decide (e = takenError c.column) ∧
      includes (e.1.human ++ " " ++ e.2) c.key = false := by
  simp only [includes_eq_occurs, String.toList_append]
  decide +kernel

theorem includes_date (c : Conflict) (parts : List Int) (pattern : String)
    (hpattern : pattern = c.taken ∨ pattern = c.key) :
    includes (Attribute.publishedOn.human ++ " " ++
      (join "-" (parts.map toString) ++ " is not a valid date")) pattern = false := by
  by_contra h
  have hk : 'k' ∈ pattern.toList := by
    rcases hpattern with rfl | rfl <;> cases c <;> decide
  have hmem := mem_of_includes (by simpa using h) hk
  simp only [String.toList_append, List.mem_append] at hmem
  rcases hmem with (hmem | hmem) | hmem | hmem
  · exact absurd hmem (by decide)
  · exact absurd hmem (by decide)
  · exact k_not_mem_join parts hmem
  · exact absurd hmem (by decide)

/-- The message is searched piece by piece. -/
theorem includes_invalidMessage {errors : List Error} {pattern : String} {c : Conflict}
    (hpattern : pattern = c.taken ∨ pattern = c.key) :
    includes (invalidMessage errors) pattern = true ↔
      ∃ e ∈ errors, includes (e.1.human ++ " " ++ e.2) pattern = true := by
  have hcolon : separates ": " pattern = true := by
    rcases hpattern with rfl | rfl <;> cases c <;> decide
  have hcomma : separates ", " pattern = true := by
    rcases hpattern with rfl | rfl <;> cases c <;> decide
  have hhead : includes "Validation failed" pattern = false := by
    rcases hpattern with rfl | rfl <;> cases c <;> decide
  have hsplit := includes_append_append hcolon "Validation failed" (join ", " (fullMessages errors))
  have hpieces := includes_join hcomma (fullMessages errors)
  constructor
  · intro h
    rcases hsplit.mp h with h | h
    · rw [hhead] at h
      cases h
    · obtain ⟨piece, hpiece, h⟩ := hpieces.mp h
      obtain ⟨e, he, rfl⟩ := mem_fullMessages.mp hpiece
      exact ⟨e, he, h⟩
  · rintro ⟨e, he, h⟩
    exact hsplit.mpr (Or.inr (hpieces.mpr ⟨_, mem_fullMessages.mpr ⟨e, he, rfl⟩, h⟩))

/-- Of all the errors a work can have, only the uniqueness error of its column
reads like a conflict. -/
theorem eq_takenError_of_isIn (hquiet : env.Quiet) (he : e ∈ w.errors env others) {c : Conflict}
    (h : c.isIn (e.1.human ++ " " ++ e.2) = true) : e = takenError c.column := by
  rcases Work.mem_errors_cases he with hknown | ⟨parts, rfl⟩ | ⟨url, message, hclean, rfl⟩
  · obtain ⟨htaken, hkey⟩ := includes_knownErrors c (mem_all c) e hknown
    rw [isIn, htaken, hkey, Bool.or_false] at h
    exact of_decide_eq_true h
  · rw [isIn, includes_date c parts _ (Or.inl rfl), includes_date c parts _ (Or.inr rfl)] at h
    cases h
  · exact absurd h (by simpa using hquiet url message hclean c)

/-- **The message tells the truth.** A conflict is read out of the message of
`RecordInvalid` exactly when the column of the conflict is taken. -/
theorem isIn_invalidMessage (hquiet : env.Quiet) (c : Conflict) :
    c.isIn (invalidMessage (w.errors env others)) = true ↔
      takenError c.column ∈ w.errors env others := by
  rw [isIn, Bool.or_eq_true, includes_invalidMessage (Or.inl rfl),
    includes_invalidMessage (Or.inr rfl)]
  constructor
  · rintro (⟨e, he, h⟩ | ⟨e, he, h⟩)
    · exact eq_takenError_of_isIn hquiet he (Bool.or_eq_true_iff.mpr (Or.inl h)) ▸ he
    · exact eq_takenError_of_isIn hquiet he (Bool.or_eq_true_iff.mpr (Or.inr h)) ▸ he
  · intro h
    left
    refine ⟨takenError c.column, h, ?_⟩
    have hknown : takenError c.column ∈ Work.knownErrors :=
      List.mem_append_left _ (List.mem_map_of_mem (by cases c <;> decide))
    rw [(includes_knownErrors c (mem_all c) _ hknown).1]
    exact decide_eq_true rfl

end Conflict

/-! ## Taken columns -/

namespace Work

/-- The column of the normalised record is present and some other row has
exactly the same. -/
def isTaken (env : Env) (others : List Work) (w : Work) (c : Column) : Bool :=
  present ((w.normalise env).col c) &&
    others.any (fun other => other.col c == (w.normalise env).col c)

theorem isTaken_iff :
    w.isTaken env others c = true ↔ present ((w.normalise env).col c) = true ∧
      ∃ other ∈ others, other.col c = (w.normalise env).col c := by
  simp [isTaken]

/-- A taken column is reported. -/
theorem takenError_mem_of_isTaken (hc : c ∈ uniqueColumns) (h : w.isTaken env others c = true) :
    takenError c ∈ w.errors env others := by
  have hcol : (w.normalise env).col = (w.beforeValidation env).1.col := by
    rw [col_normalise_eq, beforeValidation_fst]
  rw [isTaken_iff, hcol] at h
  exact mem_errors_of_checkUnique hc (mem_checkUnique.mpr ⟨rfl, h.1, h.2⟩)

/-- Uniqueness errors are what they say: the URL cleaner only speaks of
`canonical_url`. -/
theorem takenError_mem_errors (hc : c ∈ uniqueColumns) (hurl : c ≠ .canonicalUrl) :
    takenError c ∈ w.errors env others ↔ w.isTaken env others c = true := by
  refine ⟨fun h => ?_, takenError_mem_of_isTaken hc⟩
  have hcol : (w.normalise env).col = (w.beforeValidation env).1.col := by
    rw [col_normalise_eq, beforeValidation_fst]
  rw [isTaken_iff, hcol]
  rcases mem_errors_origin h with ⟨k, _, hk⟩ | hown | ⟨parts, hdate⟩ | ⟨_, _, _, hclean⟩
  · obtain ⟨heq, h⟩ := mem_checkUnique.mp hk
    obtain rfl : c = k := Attribute.col.inj (Prod.mk.inj heq).1
    exact h
  · have hother : ∀ e ∈ ownErrors, e.2 ≠ "has already been taken" := by decide
    exact absurd rfl (hother _ hown)
  · exact absurd (Prod.mk.inj hdate).1 (by simp)
  · exact absurd (Attribute.col.inj (Prod.mk.inj hclean).1) hurl

end Work

/-- **Which branch an invalid record leads to:** the first conflict whose
column is taken. -/
theorem Conflict.of?_invalidMessage (hquiet : env.Quiet) (others : List Work) (w : Work) :
    Conflict.of? (invalidMessage (w.errors env others)) =
      all.find? (fun c => w.isTaken env others c.column) := by
  have hsearch : isIn (invalidMessage (w.errors env others)) =
      fun c => w.isTaken env others c.column := by
    funext c
    rw [Bool.eq_iff_iff, isIn_invalidMessage hquiet,
      Work.takenError_mem_errors (by cases c <;> decide) (by cases c <;> decide)]
  rw [Conflict.of?, hsearch]
  rfl

/-- A record with errors is not saved. -/
theorem Work.rejection_of_errors (h : w.errors env others ≠ []) :
    w.rejection env others = some (.recordInvalid (invalidMessage (w.errors env others))) := by
  unfold Work.rejection
  simp only
  rw [if_neg (by simpa using h)]

/-- A record without errors is refused by the database or not at all. -/
theorem Work.rejection_of_no_errors (h : w.errors env others = []) :
    w.rejection env others = (w.row env).refusal env others := by
  simp [Work.rejection, h]

/-- A record is saved if it is valid and the database accepts its row. -/
theorem Work.rejection_eq_none :
    w.rejection env others = none ↔
      w.errors env others = [] ∧ (w.row env).refusal env others = none := by
  by_cases h : w.errors env others = []
  · simp [Work.rejection_of_no_errors h, h]
  · simp [Work.rejection_of_errors h, h]

/-- A taken column keeps a record from being saved. -/
theorem Work.rejection_of_taken (hc : c ∈ Work.uniqueColumns)
    (htaken : w.isTaken env others c = true) :
    w.rejection env others = some (.recordInvalid (invalidMessage (w.errors env others))) :=
  Work.rejection_of_errors (List.ne_nil_of_mem (Work.takenError_mem_of_isTaken hc htaken))

/-! ## The unique indexes -/

/-- The database compares strings character by character: strings that are
the same to it have the same beginnings. -/
def Env.Charwise (env : Env) : Prop :=
  ∀ length s t, env.collate s = env.collate t →
    env.collate (Work.indexed length s) = env.collate (Work.indexed length t)

/-- A collation that gives every character its own weight. -/
theorem Env.charwise_of_map {weight : Char → Char}
    (h : ∀ s, env.collate s = String.ofList (s.toList.map weight)) : env.Charwise := by
  intro length s t hsame
  rw [h, h] at hsame
  have hchars : s.toList.map weight = t.toList.map weight := String.ofList_injective hsame
  cases length with
  | none => rw [h, h, Work.indexed, Work.indexed, hchars]
  | some k =>
    rw [h, h, Work.indexed, Work.indexed, String.toList_ofList, String.toList_ofList,
      List.map_take, List.map_take, hchars]

namespace Work

/-- A row is accepted if it fits and collides with no other. -/
theorem refusal_eq_none {n : Work} :
    n.refusal env others = none ↔ n.fits = true ∧
      ∀ index ∈ uniqueIndexes, ∀ other ∈ others, collides env index n other = false := by
  unfold refusal
  cases hfits : n.fits with
  | false => simp
  | true => simp [List.find?_eq_none]

/-- An index covers its whole column: rows with the same value collide. -/
theorem collides_of_same (hchar : env.Charwise) (index : Column × Option Nat × String)
    {n other : Work} {v : String} (hv : n.col index.1 = some v)
    (h : env.same (other.col index.1) (n.col index.1) = true) :
    collides env index n other = true := by
  rw [hv] at h
  cases hother : other.col index.1 with
  | none => simp [hother, Env.same] at h
  | some u =>
    simp only [hother, Env.same, beq_iff_eq] at h
    simp only [collides, hv, hother, beq_iff_eq]
    exact hchar index.2.1 v u h.symm

/-- A column with a unique index: no two rows have the same value. -/
theorem not_same_of_accepted (hchar : env.Charwise) {n : Work} (h : n.refusal env others = none)
    {index : Column × Option Nat × String} (hindex : index ∈ uniqueIndexes) {v : String}
    (hv : n.col index.1 = some v) :
    ∀ other ∈ others, env.same (other.col index.1) (n.col index.1) = false := by
  intro other hother
  refine Bool.eq_false_iff.mpr (fun hsame => ?_)
  have hfree := (refusal_eq_none.mp h).2 index hindex other hother
  rw [collides_of_same hchar index hv hsame] at hfree
  cases hfree

end Work

end Lagotto
