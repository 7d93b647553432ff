/-
Lagotto.Retrieval.IdentifiersTheorems — what runs of `update_works` keep of a
work's identifiers.

The parameters of an item have all five identifier keys, with nil where the
item has no value, so an update writes NULL over what the item lacks; only
the column by which the work was found is left out, and the ark has no key.
Nothing is lost as long as every item that is saved into a work brings a
value for the identifiers the work has (`Item.Carries`): `Work.Keeps` holds
of one update, and from there of every row over whole runs.
-/
import Lagotto.Retrieval.UpdateWorksTheorems

namespace Lagotto

open Relational
open Text

/-! ## Normalising keeps what is present -/

theorem isSpace_letter {c : Char} (hlow : 65 ≤ c.toNat) (hhigh : c.toNat ≤ 122) :
    isSpace c = false := by
  simp [isSpace]
  omega

theorem isSpace_toLower (c : Char) : isSpace c.toLower = isSpace c := by
  unfold Char.toLower
  split
  next hupper =>
    simp only [ge_iff_le, UInt32.le_iff_toNat_le] at hupper
    have hlow : 65 ≤ c.toNat := hupper.1
    have hhigh : c.toNat ≤ 90 := hupper.2
    have hlowered : (c.val + 32).toNat = c.toNat + 32 := by
      rw [UInt32.toNat_add]
      show (c.toNat + 32) % 2 ^ 32 = c.toNat + 32
      omega
    rw [isSpace_letter hlow (by omega)]
    refine isSpace_letter ?_ ?_
    · show 65 ≤ (c.val + 32).toNat
      omega
    · show (c.val + 32).toNat ≤ 122
      omega
  next => rfl

theorem blank_toLower (s : String) : blank s.toLower = blank s := by
  show (s.map Char.toLower).toList.all isSpace = s.toList.all isSpace
  rw [String.toList_map, List.all_map]
  congr 1
  funext c
  exact isSpace_toLower c

theorem not_blank_of_startsHttp {s : String} (h : startsHttp s = true) : blank s = false := by
  have hmem : 'h' ∈ s.toList := by
    unfold startsHttp at h
    rcases Bool.or_eq_true_iff.mp h with hprefix | hline
    · exact (List.isPrefixOf_iff_prefix.mp hprefix).subset (by decide)
    · exact Text.mem_of_includes hline (by decide)
  refine List.all_eq_false.mpr ⟨'h', hmem, by decide⟩

theorem present_normalCol (env : Env) (c : Column) (v : Option String) :
    present (normalCol env c v) = present v := by
  unfold normalCol
  split
  next =>
    unfold loweredDoi
    split
    next hp =>
      cases v with
      | none => cases hp
      | some s => simp [blank_toLower]
    next => rfl
  next =>
    cases v with
    | none => rfl
    | some url =>
      unfold cleanedUrl
      simp only
      split
      next => rfl
      next hblank =>
        split
        next => rfl
        next cleaned _ =>
          split
          next hhttp => simp [not_blank_of_startsHttp hhttp, hblank]
          next => rfl
  next => rfl

/-! ## What a work keeps -/

/-- The later state of a work has every identifier the earlier one had, and
its pid is still made of a DOI. -/
structure Work.Keeps (env : Env) (w w' : Work) : Prop where
  id : w'.id = w.id
  identifiers : ∀ c ∈ Column.identifiers, present (w.col c) = true → present (w'.col c) = true
  pid : present (w.col .doi) = true → w.col .pid = w.doiAsUrl env →
    w'.col .pid = w'.doiAsUrl env

theorem Work.Keeps.refl (env : Env) (w : Work) : w.Keeps env w :=
  ⟨rfl, fun _ _ h => h, fun _ h => h⟩

theorem Work.Keeps.trans {env : Env} {u v w : Work} (huv : u.Keeps env v) (hvw : v.Keeps env w) :
    u.Keeps env w where
  id := hvw.id.trans huv.id
  identifiers := fun c hc h => hvw.identifiers c hc (huv.identifiers c hc h)
  pid := fun hdoi hpid => hvw.pid (huv.identifiers .doi (by decide) hdoi) (huv.pid hdoi hpid)

/-- Every work of the earlier database is kept in the later one. -/
def Db.Keeps (env : Env) (db db' : Db) : Prop :=
  ∀ w ∈ db.works.rows, ∃ w' ∈ db'.works.rows, w.Keeps env w'

theorem Db.Keeps.refl (env : Env) (db : Db) : db.Keeps env db :=
  fun w hw => ⟨w, hw, .refl env w⟩

theorem Db.Keeps.trans {env : Env} {db₁ db₂ db₃ : Db} (h₁₂ : db₁.Keeps env db₂)
    (h₂₃ : db₂.Keeps env db₃) : db₁.Keeps env db₃ := by
  intro w hw
  obtain ⟨v, hv, hwv⟩ := h₁₂ w hw
  obtain ⟨u, hu, hvu⟩ := h₂₃ v hv
  exact ⟨u, hu, hwv.trans hvu⟩

/-- A row with a DOI has the pid made of it. -/
theorem Work.pid_row_of_doi {env : Env}
    (hencode : ∀ s, blank s = false → blank (env.encode s) = false) {w : Work}
    (hdoi : present ((w.row env).col .doi) = true) :
    (w.row env).col .pid = (w.row env).doiAsUrl env := by
  have hcol : (w.row env).col .doi = (w.identified env).col .doi := by
    rw [Work.col_row env w (by decide), Work.col_identified] at *
    rw [present_presence] at hdoi
    exact presence_of_present hdoi
  have hurl : (w.row env).doiAsUrl env = (w.identified env).doiAsUrl env := by
    unfold Work.doiAsUrl Work.asUrl
    rw [hcol]
  have hpresent : present ((w.identified env).doiAsUrl env) = true := by
    rw [hcol] at hdoi
    unfold Work.doiAsUrl Work.asUrl
    rw [if_pos hdoi]
    have hbase : blank ("http://doi.org/" ++ ((w.identified env).col .doi).getD "") = false := by
      refine List.all_eq_false.mpr ⟨'h', ?_, by decide⟩
      rw [String.toList_append]
      exact List.mem_append_left _ (by decide)
    simp [hencode _ hbase]
  rw [Work.col_row_pid, hurl]
  have hfor : (w.identified env).pidFor env = (w.identified env).doiAsUrl env := by
    unfold Work.pidFor
    rw [List.find?_cons_of_pos hpresent, Option.join_some]
  rw [hfor]
  cases hv : (w.identified env).doiAsUrl env with
  | none =>
    rw [hv] at hpresent
    cases hpresent
  | some url =>
    rw [hv] at hpresent
    rw [Option.some_or]
    exact presence_of_present hpresent

/-! ## One item -/

namespace Item

/-- The identifiers there is a key for. -/
def columns : List Column := [.doi, .pmid, .pmcid, .arxiv, .canonicalUrl]

/-- If the item is saved into a work, it has a value for every identifier of
that work, the one the work was found by apart. -/
def Carries (env : Env) (db : Db) (item : Item) : Prop :=
  ∀ e c w, (item.params env db).build.rejection env db.works.rows = some e → e.rescued = true →
    Conflict.of? e.message = some c → findWork env c.lookup (item.params env db) db = some w →
    (item.params env db).isTracked = true →
    (w.assign ((item.params env db).except c.lookup)).rejection env (w.others db) = none →
    ∀ k ∈ columns, k ≠ c.lookup → present (w.col k) = true →
      present ((item.params env db).get k) = true

/-- Every identifier has a key but the ark. -/
theorem col_params (env : Env) (db : Db) (item : Item) {k : Column}
    (hk : k ∈ Column.identifiers) :
    (k ∈ columns ∧ (item.params env db).col k = some ((item.params env db).get k)) ∨
      (item.params env db).col k = none := by
  cases k <;> first
    | exact Or.inl ⟨by decide, rfl⟩
    | exact Or.inr rfl

/-- **An item that carries what the work has takes nothing away.** -/
theorem keeps_updatedRow {env : Env}
    (hencode : ∀ s, blank s = false → blank (env.encode s) = false) {db : Db} {item : Item}
    {c : Conflict} {w : Work}
    (hcarries : ∀ k ∈ columns, k ≠ c.lookup → present (w.col k) = true →
      present ((item.params env db).get k) = true) :
    w.Keeps env (updatedRow env (item.params env db) c w) := by
  have hidentifiers : ∀ k ∈ Column.identifiers, present (w.col k) = true →
      present ((updatedRow env (item.params env db) c w).col k) = true := by
    intro k hk hw
    have hpid : k ≠ .pid := by
      rintro rfl
      exact absurd hk (by decide)
    have hassign : (w.assign ((item.params env db).except c.lookup)).col k =
        (((item.params env db).except c.lookup).col k).getD (w.col k) := rfl
    rw [updatedRow, Work.col_row env _ hpid, present_presence, present_normalCol, hassign]
    by_cases hkc : k = c.lookup
    · rw [hkc, Params.col_except_self, Option.getD_none, ← hkc]
      exact hw
    · rw [Params.col_except_of_ne _ hpid hkc]
      rcases col_params env db item hk with ⟨hkey, hv⟩ | hnone
      · rw [hv, Option.getD_some]
        exact hcarries k hkey hkc hw
      · rw [hnone, Option.getD_none]
        exact hw
  refine ⟨id_updatedRow env _ c w, hidentifiers, fun hdoi _ => ?_⟩
  exact Work.pid_row_of_doi hencode (hidentifiers .doi (by decide) hdoi)

end Item

/-- One `find_or_create` keeps the works if its item carries what they have. -/
theorem keeps_findOrCreate {env : Env}
    (hencode : ∀ s, blank s = false → blank (env.encode s) = false) {db : Db} {item : Item}
    (hcarries : item.Carries env db) :
    db.Keeps env (findOrCreate env (item.params env db) db).2 := by
  intro w hw
  rcases works_findOrCreate env (item.params env db) db with
    h | h | ⟨e, c, v, hreject, he, hc, hfind, htracked, hvalid, h⟩
  · rw [h]
    exact ⟨w, hw, .refl env w⟩
  · rw [h]
    exact ⟨w, Table.mem_insert.mpr (Or.inl hw), .refl env w⟩
  · rw [h]
    by_cases hwv : w = v
    · subst hwv
      refine ⟨updatedRow env (item.params env db) c w, ?_, ?_⟩
      · exact Table.mem_put.mpr (Or.inr ⟨rfl, w, hw, (id_updatedRow env _ c w).symm⟩)
      · exact Item.keeps_updatedRow hencode
          (hcarries e c w hreject he hc hfind htracked hvalid)
    · refine ⟨w, Table.mem_put.mpr (Or.inl ⟨hw, fun hid => hwv ?_⟩), .refl env w⟩
      exact db.works.eq_of_id_eq hw (findWork_mem hfind)
        (hid.trans (id_updatedRow env _ c v))

/-! ## Runs -/

section Runs

variable {env : Env} (hencode : ∀ s, blank s = false → blank (env.encode s) = false)

include hencode

theorem updateWorks_keeps {items : List Item} {db : Db}
    (hcarries : ∀ find ∈ updateWorksFinds env items db, find.1.Carries env find.2) :
    (∀ find ∈ updateWorksFinds env items db, db.Keeps env find.2) ∧
      db.Keeps env (updateWorks env items db).2 := by
  induction items generalizing db with
  | nil => exact ⟨fun _ h => absurd h List.not_mem_nil, .refl env db⟩
  | cons item items ih =>
    rcases updateWorks_cons env item items db with ⟨e, hend, hfinds⟩ | ⟨hend, hfinds⟩
    · rw [hfinds] at hcarries ⊢
      rw [hend]
      have hitem : item.Carries env db := hcarries (item, db) (List.mem_singleton.mpr rfl)
      refine ⟨?_, keeps_findOrCreate hencode hitem⟩
      intro find hfind
      rw [List.mem_singleton.mp hfind]
      exact .refl env db
    · rw [hfinds] at hcarries ⊢
      rw [hend]
      have hitem : item.Carries env db := hcarries (item, db) (List.mem_cons_self ..)
      have hstep := keeps_findOrCreate hencode hitem
      obtain ⟨hlater, hlast⟩ := ih (fun find hfind => hcarries find (List.mem_cons_of_mem _ hfind))
      refine ⟨?_, hstep.trans hlast⟩
      intro find hfind
      rcases List.mem_cons.mp hfind with rfl | hfind
      · exact .refl env db
      · exact hstep.trans (hlater find hfind)

/-- **A run keeps every identifier** if every item that is saved into a work
carries a value for the identifiers of that work, other than the one the work
was found by: so it is for every database a `find_or_create` of the run sees,
and for the last one. -/
theorem run_keeps_identifiers {calls : List (List Item)} {db : Db}
    (hcarries : ∀ find ∈ updateWorksRunFinds env calls db, find.1.Carries env find.2) :
    (∀ find ∈ updateWorksRunFinds env calls db, db.Keeps env find.2) ∧
      db.Keeps env (updateWorksRun env calls db) := by
  induction calls generalizing db with
  | nil => exact ⟨fun _ h => absurd h List.not_mem_nil, .refl env db⟩
  | cons items calls ih =>
    unfold updateWorksRunFinds at hcarries ⊢
    unfold updateWorksRun
    obtain ⟨hcall, hafter⟩ := updateWorks_keeps hencode
      (fun find hfind => hcarries find (List.mem_append_left _ hfind))
    obtain ⟨hrest, hend⟩ := ih (fun find hfind => hcarries find (List.mem_append_right _ hfind))
    refine ⟨?_, hafter.trans hend⟩
    intro find hfind
    rcases List.mem_append.mp hfind with hnow | hlater
    · exact hcall find hnow
    · exact hafter.trans (hrest find hlater)

end Runs

/-- One work with a DOI and a PMID. -/
def doiAndPmid : Db where
  works := Table.empty.insert
    { col := fun
        | .doi => some "10.1234/one"
        | .pmid => some "17183658"
        | .pid => some "http://doi.org/10.1234/one"
        | _ => none
      title := some "One" }

/-- The work as a source reports it that knows both identifiers. -/
def bothAgain : Item where
  doi := some "10.1234/one"
  pmid := some "17183658"
  title := some "One"
  dateParts := [2014]
  tracked := .bool true

theorem run_keeps_both :
    (∀ find ∈ updateWorksRunFinds plainEnv [[bothAgain]] doiAndPmid,
      doiAndPmid.Keeps plainEnv find.2) ∧
      doiAndPmid.Keeps plainEnv (updateWorksRun plainEnv [[bothAgain]] doiAndPmid) := by
  refine run_keeps_identifiers (fun _ h => h) ?_
  have hvalues : ∀ w ∈ doiAndPmid.works.rows, ∀ k ∈ Item.columns, present (w.col k) = true →
      present ((bothAgain.params plainEnv doiAndPmid).get k) = true := by
    decide +kernel
  intro find hfind
  rcases updateWorks_cons plainEnv bothAgain [] doiAndPmid with ⟨_, _, hfinds⟩ | ⟨_, hfinds⟩
  all_goals
    rw [updateWorksRunFinds, hfinds] at hfind
    obtain rfl : find = (bothAgain, doiAndPmid) := by
      simpa [updateWorksRunFinds, updateWorksFinds] using hfind
    intro e c w _ _ _ hfound _ _ k hk _ hw
    exact hvalues w (findWork_mem hfound) k hk hw

/-- The work as a source reports it that knows the DOI only. -/
def doiAgain : Item := { bothAgain with pmid := none }

/-- The PMID is gone afterwards. -/
theorem doiAgain_erases_pmid :
    ¬ doiAndPmid.Keeps plainEnv (updateWorksRun plainEnv [[doiAgain]] doiAndPmid) := by
  have hpmid : ∀ w ∈ (updateWorksRun plainEnv [[doiAgain]] doiAndPmid).works.rows,
      present (w.col .pmid) = false := by
    decide +kernel
  intro hkeeps
  obtain ⟨w, hw, hkept⟩ := hkeeps _ (List.mem_singleton.mpr rfl)
  have hstill := hkept.identifiers .pmid (by decide) rfl
  rw [hpmid w hw] at hstill
  cases hstill

end Lagotto
