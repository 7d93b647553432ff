/-
Lagotto.Work.WellKeptTheorems — every stored work could be saved again.

Callbacks write to a work while it is saved: the URL is cleaned, the DOI put
into lower case, the pid made from the first identifier, blanks become nil.
What is stored is therefore not what was validated, and it is not obvious that
it would pass. It does, and it would be stored as it is (`Work.errors_row`).
The validations and the unique indexes then compare it with the other works
only, and to them a write is visible as one new row (`WellKept.save`).

`WellKept` says this of a table by its effect: `save` succeeds for every work
and changes nothing. It is kept by all operations on works, the API's and
`find_or_create`, and by those on sources, in any order (`works_well_kept`).
-/
import Lagotto.Source.CoverageTheorems
import Lagotto.Work.IdempotenceTheorems
import Lagotto.Work.Validity

namespace Lagotto

open Relational
open StateMachine
open Text

variable {env : Env} {others : List Work} {w v : Work}

namespace Work

/-! ## A row is as valid as the record -/

/-- Validity depends on what is present once normalised, on the title and on the
parts of the date. -/
theorem errors_congr
    (hcol : ∀ c, c ≠ .pid →
      presence (normalCol env c (v.col c)) = presence (normalCol env c (w.col c)))
    (hurl : (v.normalizeUrl env).2 = [])
    (htitle : presence (v.title.map env.sanitize) = presence (w.title.map env.sanitize))
    (hyear : v.year = w.year) (hmonth : v.month = w.month) (hday : v.day = w.day)
    (h : w.errors env others = []) : v.errors env others = [] := by
  obtain ⟨hbefore, hpid, hwtitle, hunique, hdoi, hcanonical, hark, hwyear, hwmonth, hwday, date,
    hdate⟩ := errors_eq_nil_iff.mp h
  have hfor : (v.identified env).pidFor env = (w.identified env).pidFor env :=
    pidFor_congr fun c hc => by rw [col_identified, col_identified, hcol c hc]
  have hsome := (beforeValidation_errors_iff.mp hbefore).2
  have hcols : ∀ c, presence ((v.beforeValidation env).1.col c) =
      presence ((w.beforeValidation env).1.col c) := by
    intro c
    by_cases hc : c = .pid
    · rw [hc, beforeValidation_fst, beforeValidation_fst, col_setPid_pid, col_setPid_pid, hfor]
      obtain ⟨pid, hpid⟩ := Option.isSome_iff_exists.mp hsome
      rw [hpid, Option.some_or, Option.some_or]
    · rw [col_beforeValidation_of_ne env v hc, col_beforeValidation_of_ne env w hc, hcol c hc]
  have hpresent : ∀ c, present ((v.beforeValidation env).1.col c) = true →
      (w.beforeValidation env).1.col c = (v.beforeValidation env).1.col c ∧
        present ((w.beforeValidation env).1.col c) = true := by
    intro c hc
    have hw : present ((w.beforeValidation env).1.col c) = true := by
      rw [← present_presence, ← hcols c, present_presence, hc]
    exact ⟨by rw [← presence_of_present hw, ← hcols c, presence_of_present hc], hw⟩
  have hformat : ∀ format c, checkFormat format (w.beforeValidation env).1 c = [] →
      checkFormat format (v.beforeValidation env).1 c = [] := by
    intro format c hformat
    refine checkFormat_eq_nil_iff.mpr fun hc => ?_
    obtain ⟨heq, hw⟩ := hpresent c hc
    exact heq ▸ checkFormat_eq_nil_iff.mp hformat hw
  refine errors_eq_nil_iff.mpr ⟨beforeValidation_errors_iff.mpr ⟨hurl, hfor ▸ hsome⟩, ?_, ?_,
    fun c hc => ?_, hformat _ _ hdoi, hformat _ _ hcanonical, hformat _ _ hark, hyear ▸ hwyear,
    hmonth ▸ hwmonth, hday ▸ hwday, date, ?_⟩
  · rw [← present_presence, hcols, present_presence, hpid]
  · rw [← present_presence, htitle, present_presence, hwtitle]
  · refine checkUnique_eq_nil_iff.mpr fun hpc => ?_
    obtain ⟨heq, hw⟩ := hpresent c hpc
    exact heq ▸ checkUnique_eq_nil_iff.mp (hunique c hc) hw
  · unfold checkPublishedOn at hdate ⊢
    rwa [hyear, hmonth, hday]

/-- A cleaned URL is clean. -/
theorem normalizeUrl_row (henv : env.Lawful) (h : (w.normalizeUrl env).2 = []) :
    ((w.row env).normalizeUrl env).2 = [] := by
  refine normalizeUrl_errors_iff.mpr fun url hurl _ => ?_
  rw [col_row env w (by decide)] at hurl
  change presence (cleanedUrl env (w.col .canonicalUrl)) = some url at hurl
  cases hw : w.col .canonicalUrl with
  | none => simp [hw, cleanedUrl, presence] at hurl
  | some given =>
    cases hblank : blank given with
    | true => simp [hw, cleanedUrl, hblank, presence] at hurl
    | false =>
      obtain ⟨cleaned, hclean, hhttp⟩ := normalizeUrl_errors_iff.mp h given hw hblank
      simp only [hw, cleanedUrl, hblank, hclean, hhttp, Bool.false_eq_true, if_false, if_true]
        at hurl
      rw [presence_of_present (by simp [blank_of_startsHttp hhttp])] at hurl
      obtain rfl : cleaned = url := Option.some.inj hurl
      exact ⟨cleaned, henv.clean given cleaned hclean, hhttp⟩

theorem errors_withId (n : Nat) (h : w.errors env others = []) :
    (Row.withId n w).errors env others = [] := by
  have hurl := normalizeUrl_errors_iff.mp
    (beforeValidation_errors_iff.mp (errors_eq_nil_iff.mp h).1).1
  exact errors_congr (w := w) (fun _ _ => rfl) (normalizeUrl_errors_iff.mpr hurl) rfl rfl rfl rfl h

/-- **What has been saved is valid.** -/
theorem errors_row (henv : env.Lawful) (h : w.errors env others = []) :
    (w.row env).errors env others = [] := by
  have hurl := (beforeValidation_errors_iff.mp (errors_eq_nil_iff.mp h).1).1
  refine errors_congr (fun c hc => ?_) (normalizeUrl_row henv hurl) ?_ ?_ ?_ ?_ h
  · rw [normal_row henv w hc, col_row env w hc]
  all_goals rw [row_eq]
  exact title_again henv.sanitize w.title

/-! ## Works side by side -/

/-- The validations see a saved row as it is. -/
theorem col_of_row (hrow : w.row env = w) (c : Column) :
    presence ((w.beforeValidation env).1.col c) = w.col c := by
  rw [beforeValidation_fst, ← col_normalise_eq]
  exact congrFun (congrArg Work.col hrow) c

/-- The pid is that of the first identifier. -/
theorem pid_of_row (hrow : w.row env = w) (h : w.errors env others = []) :
    ∃ pid, w.pidFor env = some pid ∧ w.col .pid = some pid := by
  obtain ⟨hbefore, hpresent, _⟩ := errors_eq_nil_iff.mp h
  obtain ⟨pid, hpid⟩ := Option.isSome_iff_exists.mp (beforeValidation_errors_iff.mp hbefore).2
  have hfor : w.pidFor env = (w.identified env).pidFor env := by
    refine pidFor_congr fun c hc => ?_
    have hcol : w.col c = presence (normalCol env c (w.col c)) := by
      rw [← col_row env w hc, hrow]
    rw [col_identified]
    exact (congrArg presence hcol).trans (presence_presence _)
  have hcol := col_of_row hrow .pid
  rw [presence_of_present hpresent, beforeValidation_fst, col_setPid_pid, hpid,
    Option.some_or] at hcol
  exact ⟨pid, hfor.trans hpid, hcol.symm⟩

/-- A valid row has no unique value in common with the others. -/
theorem ne_of_valid (hrow : w.row env = w) (h : w.errors env others = []) (hv : v ∈ others)
    {c : Column} (hc : c ∈ uniqueColumns) (hsome : (v.col c).isSome = true) :
    w.col c ≠ v.col c := by
  have hunique := checkUnique_eq_nil_iff.mp ((errors_eq_nil_iff.mp h).2.2.2.1 c hc)
  have hcol := col_of_row hrow c
  cases hpresent : present ((w.beforeValidation env).1.col c) with
  | false =>
    rw [presence_of_blank hpresent] at hcol
    intro heq
    rw [← heq, ← hcol] at hsome
    cases hsome
  | true =>
    have hother := hunique hpresent v hv
    rw [presence_of_present hpresent] at hcol
    rw [hcol] at hother
    exact hother.symm

/-- A row stays valid beside others that have no unique value in common with it. -/
theorem errors_of_others (hrow : w.row env = w) (h : w.errors env others = [])
    {others' : List Work} (hothers : ∀ v ∈ others', v ∈ others ∨
      ∀ c ∈ uniqueColumns, (w.col c).isSome = true → v.col c ≠ w.col c) :
    w.errors env others' = [] := by
  obtain ⟨hbefore, hpid, htitle, hunique, hrest⟩ := errors_eq_nil_iff.mp h
  refine errors_eq_nil_iff.mpr ⟨hbefore, hpid, htitle, fun c hc => ?_, hrest⟩
  refine checkUnique_eq_nil_iff.mpr fun hpresent v hv => ?_
  rcases hothers v hv with hold | hnew
  · exact checkUnique_eq_nil_iff.mp (hunique c hc) hpresent v hold
  · have hcol := col_of_row hrow c
    rw [presence_of_present hpresent] at hcol
    rw [hcol] at hpresent ⊢
    refine hnew c hc ?_
    cases hw : w.col c with
    | none => simp [hw] at hpresent
    | some value => rfl

end Work

theorem collides_comm (env : Env) (index : Column × Option Nat × String) (v w : Work) :
    Work.collides env index v w = Work.collides env index w v := by
  unfold Work.collides
  cases v.col index.1 <;> cases w.col index.1 <;> simp [Bool.beq_comm]

/-! ## The table -/

/-- Every work can be saved again as it is, and nothing is written. -/
def WellKept (env : Env) (db : Db) : Prop :=
  ∀ w ∈ db.works.rows, updateAttributes env w {} db = .ok (some db)

theorem resaved_iff {db : Db} (hw : w ∈ db.works.rows) :
    updateAttributes env w {} db = .ok (some db) ↔
      w.row env = w ∧ w.errors env (w.others db) = [] ∧ w.refusal env (w.others db) = none := by
  have hassign : w.assign {} = w := rfl
  constructor
  · intro h
    obtain ⟨herrors, hfree, hdb⟩ := updateAttributes_some h
    rw [hassign] at herrors hfree hdb
    have hrow : w.row env = w := by
      have hmem : w ∈ (db.writeWork (w.row env)).works.rows := hdb ▸ hw
      rcases Table.mem_put.mp hmem with ⟨_, hne⟩ | ⟨heq, _⟩
      · exact absurd (Work.id_row env w).symm hne
      · exact heq.symm
    rw [hrow] at hfree
    exact ⟨hrow, herrors, hfree⟩
  · rintro ⟨hrow, herrors, hfree⟩
    have hreject : (w.assign {}).rejection env (w.others db) = none :=
      Work.rejection_eq_none.mpr ⟨herrors, hrow.symm ▸ hfree⟩
    rw [updateAttributes_of_valid hreject, hassign, hrow, Db.writeWork, Table.put_self hw]

theorem WellKept.congr {db db' : Db} (h : WellKept env db) (hworks : db'.works = db.works) :
    WellKept env db' := by
  intro w hw
  have hold : w ∈ db.works.rows := hworks ▸ hw
  have hothers : w.others db' = w.others db := by
    unfold Work.others
    rw [hworks]
  rw [resaved_iff hw, hothers]
  exact (resaved_iff hold).mp (h w hold)

/-- **One write**, of a row that is accepted beside the others. -/
theorem WellKept.save {before after : Db} (h : WellKept env before) {m : Work}
    (hmem : ∀ u ∈ after.works.rows, u = m ∨ (u ∈ before.works.rows ∧ u ∈ others))
    (hrow : m.row env = m) (hvalid : m.errors env others = [])
    (hfree : m.refusal env others = none) : WellKept env after := by
  intro u hu
  rw [resaved_iff hu]
  have hbeside : ∀ v ∈ u.others after, v = m ∧ u ≠ m ∨ v ∈ before.works.rows ∧ v ∈ others := by
    intro v hv
    obtain ⟨hv, hne⟩ := List.mem_filter.mp hv
    refine (hmem v hv).imp_left fun hvm => ⟨hvm, ?_⟩
    rintro rfl
    exact bne_iff_ne.mp hne (congrArg Work.id hvm)
  obtain ⟨hmfits, hmindexes⟩ := Work.refusal_eq_none.mp hfree
  by_cases hum : u = m
  · subst hum
    have hothers : ∀ v ∈ u.others after, v ∈ others := fun v hv =>
      ((hbeside v hv).resolve_left fun h => h.2 rfl).2
    exact ⟨hrow, Work.errors_of_others hrow hvalid fun v hv => Or.inl (hothers v hv),
      Work.refusal_eq_none.mpr ⟨hmfits, fun index hindex v hv =>
        hmindexes index hindex v (hothers v hv)⟩⟩
  · obtain ⟨hold, huother⟩ := (hmem u hu).resolve_left hum
    obtain ⟨hurow, huvalid, hufree⟩ := (resaved_iff hold).mp (h u hold)
    obtain ⟨hufits, huindexes⟩ := Work.refusal_eq_none.mp hufree
    have hothers : ∀ v ∈ u.others after, v ∈ u.others before ∨ v = m := fun v hv =>
      (hbeside v hv).symm.imp (fun h => List.mem_filter.mpr ⟨h.1, (List.mem_filter.mp hv).2⟩)
        And.left
    refine ⟨hurow, Work.errors_of_others hurow huvalid fun v hv => (hothers v hv).imp_right ?_,
      Work.refusal_eq_none.mpr ⟨hufits, fun index hindex v hv => ?_⟩⟩
    · rintro rfl c hc hsome
      exact Work.ne_of_valid hrow hvalid huother hc hsome
    · rcases hothers v hv with hv | rfl
      · exact huindexes index hindex v hv
      · rw [collides_comm]
        exact hmindexes index hindex u huother

/-! ## Operations -/

section Operations

variable {db db' : Db}

theorem WellKept.createWork (henv : env.Lawful) (h : WellKept env db) {p : Params} {id : Nat}
    (hcreate : createWork env p db = .ok (id, db')) : WellKept env db' := by
  obtain ⟨hfree, _, hworks, _⟩ := createWork_ok hcreate
  obtain ⟨hvalid, hrefusal⟩ := Work.rejection_eq_none.mp hfree
  obtain ⟨hfits, hindexes⟩ := Work.refusal_eq_none.mp hrefusal
  have hbuild : ({ id := db.works.nextId } : Work).assign p =
      Row.withId db.works.nextId p.build := rfl
  refine h.save (m := createdRow env p db) (fun u hu => ?_) ?_ ?_
    (Work.refusal_eq_none.mpr ⟨hfits, hindexes⟩)
  · rw [hworks] at hu
    exact (Table.mem_insert.mp hu).symm.imp_right fun hold => ⟨hold, hold⟩
  · rw [createdRow_eq, Work.row_row henv.clean henv.sanitize]
  · rw [createdRow_eq, hbuild]
    exact Work.errors_row henv (Work.errors_withId db.works.nextId hvalid)

theorem WellKept.updateAttributes (henv : env.Lawful) (h : WellKept env db) {p : Params}
    (hupdate : updateAttributes env w p db = .ok (some db')) : WellKept env db' := by
  obtain ⟨hvalid, hfree, rfl⟩ := updateAttributes_some hupdate
  refine h.save (fun u hu => ?_) (Work.row_row henv.clean henv.sanitize _)
    (Work.errors_row henv hvalid) hfree
  rcases Table.mem_put.mp hu with ⟨hold, hne⟩ | ⟨heq, _⟩
  · refine Or.inr ⟨hold, List.mem_filter.mpr ⟨hold, bne_iff_ne.mpr fun hid => hne ?_⟩⟩
    exact hid.trans (Work.id_row env (w.assign p)).symm
  · exact Or.inl heq

theorem WellKept.findOrCreate (henv : env.Lawful) (h : WellKept env db) (p : Params) :
    WellKept env (findOrCreate env p db).2 :=
  findOrCreate_preserves h (fun _ _ hcreate => h.createWork henv hcreate)
    (fun _ _ _ hupdate => h.updateAttributes henv hupdate)
    (fun _ _ h' => h'.congr (works_updateRelations ..)) (fun _ => h.congr (works_alertInvalid ..))

theorem works_fireEvent (validCron : String → Bool) (event : Source.Event) (s : Source)
    (w : World) : (s.fireEvent validCron event w).2.2.db.works = w.db.works := by
  have hguards : (choose (s.transitions event) s.state w).2.db.works = w.db.works :=
    choose_preserves (P := fun w' : World => w'.db.works = w.db.works)
      (fun t ht w' h => (guard_tables ht w').1.trans h) rfl
  rcases hchoose : choose (s.transitions event) s.state w with ⟨_ | dest, w'⟩
  all_goals rw [hchoose] at hguards
  · unfold Source.fireEvent
    rw [fire_of_none hchoose]
    exact hguards
  · by_cases hvalid : ({ s with state := dest } : Source).errors validCron = []
    · rw [Source.fireEvent_of_chosen hchoose hvalid, works_afterTransition, works_writeState]
      exact hguards
    · rw [Source.fireEvent_of_invalid hchoose hvalid]
      exact hguards

/-- **Every operation** keeps the works so that they can be saved again. -/
theorem WellKept.step (henv : env.Lawful) {w : World} (h : WellKept env w.db)
    (action : CoverageAction) : WellKept env (action.apply env w).db := by
  cases action with
  | create p =>
    simp only [CoverageAction.apply]
    split
    next hcreate => exact h.createWork henv hcreate
    next => exact h
  | findOrCreate p => exact h.findOrCreate henv p
  | update workId p =>
    simp only [CoverageAction.apply]
    split
    next => exact h
    next =>
      split
      next hupdate => exact h.updateAttributes henv hupdate
      next => exact h
  | fire event sourceId =>
    simp only [CoverageAction.apply]
    split
    next => exact h
    next s _ => exact h.congr (works_fireEvent env.validCron event s w)
  | insertRetrieval sourceId =>
    simp only [CoverageAction.apply]
    split
    next => exact h.congr rfl
    next => exact h

end Operations

/-- The two have no identifier in common: none of those with a unique index, as
the database compares them, and not the URL as it is written. -/
def Work.ApartFrom (env : Env) (w other : Work) : Prop :=
  (∀ c ∈ [Column.doi, .pmid, .pmcid, .arxiv, .ark], present (w.col c) = true →
    env.same (other.col c) (w.col c) = false) ∧
  (present (w.col .canonicalUrl) = true → other.col .canonicalUrl ≠ w.col .canonicalUrl)

theorem WellKept.apartFrom (henv : env.Lawful) {db : Db} (h : WellKept env db)
    (hw : w ∈ db.works.rows) (hv : v ∈ db.works.rows) (hne : v.id ≠ w.id) : w.ApartFrom env v := by
  obtain ⟨hrow, hvalid, hfree⟩ := (resaved_iff hw).mp (h w hw)
  have hother : v ∈ w.others db := List.mem_filter.mpr ⟨hv, bne_iff_ne.mpr hne⟩
  constructor
  · intro c hc hpresent
    have hindexed : ∀ c ∈ [Column.doi, .pmid, .pmcid, .arxiv, .ark],
        ∃ index ∈ Work.uniqueIndexes, index.1 = c := by
      decide
    obtain ⟨index, hindex, rfl⟩ := hindexed c hc
    obtain ⟨value, hvalue⟩ := exists_of_present hpresent
    exact Work.not_same_of_accepted henv.charwise hfree hindex hvalue v hother
  · intro hpresent
    have hunique := Work.checkUnique_eq_nil_iff.mp
      ((Work.errors_eq_nil_iff.mp hvalid).2.2.2.1 .canonicalUrl (by decide))
    have hcol := Work.col_of_row hrow .canonicalUrl
    rw [← hcol, present_presence] at hpresent
    rw [← hcol, presence_of_present hpresent]
    exact hunique hpresent v hother

/-- **The works stay well kept**, whatever is done to them. Each has the pid of
its first identifier, stands apart from the others, and can be saved again as
it is: it is valid, and neither a callback nor the database would change it. -/
theorem works_well_kept (henv : env.Lawful) {w : World} (h : WellKept env w.db)
    (actions : List CoverageAction) :
    let db := (run (CoverageAction.apply env) actions w).db
    ∀ work ∈ db.works.rows, updateAttributes env work {} db = .ok (some db) ∧
      (∃ pid, work.pidFor env = some pid ∧ work.col .pid = some pid) ∧
      ∀ other ∈ db.works.rows, other.id ≠ work.id → work.ApartFrom env other := by
  intro db work hwork
  have hkept : WellKept env db :=
    run_invariant (P := fun w : World => WellKept env w.db)
      (fun w action h => h.step henv action) h actions
  refine ⟨hkept work hwork, ?_, ?_⟩
  · obtain ⟨hrow, hvalid, _⟩ := (resaved_iff hwork).mp (hkept work hwork)
    exact Work.pid_of_row hrow hvalid
  · intro other hother hne
    exact hkept.apartFrom henv hwork hother hne

/-! ## A work that is saved twice -/

theorem wellKept_freshWith (type : SourceClass) : WellKept plainEnv (freshWith type).db := by
  intro w hw
  cases hw

/-- It is created, found again and updated, and is there once. -/
theorem doi_work_well_kept :
    let db := (run (CoverageAction.apply plainEnv)
      [.create (doiWork false), .findOrCreate (doiWork true), .update 1 (doiWork false)]
      (freshWith .citeulike)).db
    ∃ work ∈ db.works.rows, updateAttributes plainEnv work {} db = .ok (some db) := by
  have hsome : ((run (CoverageAction.apply plainEnv)
      [.create (doiWork false), .findOrCreate (doiWork true), .update 1 (doiWork false)]
      (freshWith .citeulike)).db.works.rows).length = 1 := by decide +kernel
  obtain ⟨work, hwork⟩ := List.exists_mem_of_length_pos (hsome ▸ Nat.one_pos)
  exact ⟨work, hwork, (works_well_kept plainEnv_lawful (wellKept_freshWith .citeulike) _ work
    hwork).1⟩

end Lagotto
