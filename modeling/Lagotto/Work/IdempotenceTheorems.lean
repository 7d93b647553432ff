/-
Lagotto.Work.IdempotenceTheorems — when `find_or_create` is idempotent.

The first call has created a work (`repeats_of_created`), or it has found
one. What it found and left as it was, the second call finds in the same way
(`repeats_of_unsaved`). What it found and updated is looked at here: the
update may have changed which conflict comes first. The second call must find
the same row by it, and from there on all depends on whether saving the
parameters once more, with another column left out, gives another row
(`UpdateSettles`).
-/
import Lagotto.Work.RepeatTheorems

namespace Lagotto

open Relational
open Text

section Found

variable {env : Env} {p : Params} {db : Db} {c : Conflict} {w : Work} {e : SaveError}

/-- The row an update of the work writes. -/
def updatedRow (env : Env) (p : Params) (c : Conflict) (w : Work) : Work :=
  (w.assign (p.except c.lookup)).row env

@[simp] theorem id_updatedRow (env : Env) (p : Params) (c : Conflict) (w : Work) :
    (updatedRow env p c w).id = w.id := Work.id_row env _

/-- Nothing is asked where the first call returns no work. -/
theorem repeats_of_no_work {returned : Except Raised Returned} {db' : Db}
    (hrun : findOrCreate env p db = (returned, db'))
    (hnone : returned ≠ .ok .array ∧ ∀ id, returned ≠ .ok (.work id)) : Repeats env p db := by
  intro returned' db'' hrun' id hwhich
  obtain ⟨rfl, _⟩ := Prod.mk.inj (hrun.symm.trans hrun')
  rcases hwhich with rfl | ⟨rfl, _⟩
  · exact absurd rfl (hnone.2 id)
  · exact absurd rfl hnone.1

/-- What was found and not changed is found again. -/
theorem repeats_of_unsaved (hreject : p.build.rejection env db.works.rows = some e)
    (he : e.rescued = true) (hc : Conflict.of? e.message = some c)
    (hfind : findWork env c.lookup p db = some w)
    (hunsaved : p.isTracked = true → updateAttributes env w (p.except c.lookup) db = .ok none) :
    Repeats env p db := by
  have hbranch : ∀ db' : Db, db'.works = db.works →
      findOrCreate env p db' =
        (.ok (.work w.id), updateRelations env w.id p.relatedWorks db') := by
    intro db' hworks
    have hcreate : createWork env p db' = .error e := by
      rw [createWork_of_rejected, hworks]
      exact hreject
    have hfind' : findWork env c.lookup p db' = some w := by
      unfold findWork
      rw [hworks]
      exact hfind
    have hunsaved' : p.isTracked = true →
        updateAttributes env w (p.except c.lookup) db' = .ok none := by
      intro htracked
      have hothers : w.others db' = w.others db := by
        unfold Work.others
        rw [hworks]
      rw [updateAttributes_eq_none, hothers]
      exact updateAttributes_eq_none.mp (hunsaved htracked)
    rw [findOrCreate_of_conflict hcreate he hc]
    unfold rescueConflict
    rw [hfind']
    simp only
    split
    next htracked =>
      rw [hunsaved' htracked]
      rfl
    next => rfl
  rw [repeats_iff_findsAgain (hbranch db rfl) (isFoundOrStored_work _ _)]
  refine ⟨_, hbranch _ rfl, ?_⟩
  rw [updateRelations_again]
  exact ⟨rfl, rfl, rfl⟩

/-! ## After an update -/

theorem updateAttributes_of_valid {q : Params}
    (h : (w.assign q).rejection env (w.others db) = none) :
    updateAttributes env w q db = .ok (some (db.writeWork ((w.assign q).row env))) := by
  obtain ⟨hvalid, hfree⟩ := Work.rejection_eq_none.mp h
  have hothers : (w.assign q).others db = w.others db := rfl
  unfold updateAttributes
  simp only [hothers, hvalid, hfree, List.isEmpty_nil, if_true]

theorem Work.others_writeWork (w v : Work) (hid : v.id = w.id) (db : Db) :
    v.others (db.writeWork v) = w.others db := by
  unfold Work.others
  rw [← hid]
  exact db.works.filter_put v

/-- The update leaves the column by which the work was found as it was. -/
theorem col_lookup_updatedRow (hrows : NormalRows env db) (hw : w ∈ db.works.rows) :
    (updatedRow env p c w).col c.lookup = w.col c.lookup := by
  have hne : c.lookup ≠ .pid := by cases c <;> decide
  rw [updatedRow, Work.col_row env _ hne]
  have hassign : (w.assign (p.except c.lookup)).col c.lookup = w.col c.lookup := by
    show ((p.except c.lookup).col c.lookup).getD (w.col c.lookup) = _
    rw [p.col_except_self, Option.getD_none]
  rw [hassign, hrows w hw _ hne]

/-- The row is there to be found by the column the first call used. -/
theorem findWork_updated (hrows : NormalRows env db)
    (hfind : findWork env c.lookup p db = some w) :
    findWork env c.lookup p (db.writeWork (updatedRow env p c w)) =
      some (updatedRow env p c w) := by
  refine Table.first_put hfind (id_updatedRow env p c w) ?_
  rw [col_lookup_updatedRow hrows (findWork_mem hfind)]
  exact same_of_findWork hfind

theorem mem_updated (hw : w ∈ db.works.rows) :
    updatedRow env p c w ∈ (db.writeWork (updatedRow env p c w)).works.rows :=
  Table.mem_put.mpr (Or.inr ⟨rfl, w, hw, (id_updatedRow env p c w).symm⟩)

/-! ## Saving once more -/

/-- Saving what was saved, with the same column left out, changes nothing. -/
theorem updatedRow_settled (henv : env.Lawful) (c : Conflict) (w : Work) :
    ((updatedRow env p c w).assign (p.except c.lookup)).row env = updatedRow env p c w :=
  Work.row_assign_of_agrees (Work.row_row henv.clean henv.sanitize _) (p.col_except_pid _)
    ((p.except c.lookup).agrees_row env w)

/-- With another column left out, the column that was left out before is
written now. -/
theorem updatedRow_settled_iff (henv : env.Lawful) (hrows : NormalRows env db)
    (hw : w ∈ db.works.rows) {k : Conflict} (hne : k ≠ c) :
    ((updatedRow env p c w).assign (p.except k.lookup)).row env = updatedRow env p c w ↔
      ∀ v, p.col c.lookup = some v → presence (normalCol env c.lookup v) = w.col c.lookup := by
  have hpid : c.lookup ≠ .pid := by cases c <;> decide
  have hcol : c.lookup ≠ k.lookup := by
    revert hne
    cases k <;> cases c <;> decide
  constructor
  · intro hrow v hv
    rw [← col_lookup_updatedRow (p := p) hrows hw, ← hrow, Work.col_row env _ hpid]
    congr 2
    show v = ((p.except k.lookup).col c.lookup).getD _
    rw [p.col_except_of_ne hpid hcol, hv, Option.getD_some]
  · intro hspelling
    refine Work.row_assign_of_agrees (Work.row_row henv.clean henv.sanitize _)
      (p.col_except_pid _) ?_
    have hagrees : (p.except c.lookup).Agrees env (updatedRow env p c w) :=
      (p.except c.lookup).agrees_row env w
    refine { hagrees with col := ?_ }
    intro j v hj hv
    have hjk : j ≠ k.lookup := by
      rintro rfl
      rw [p.col_except_self] at hv
      cases hv
    rw [p.col_except_of_ne hj hjk] at hv
    by_cases hjc : j = c.lookup
    · subst hjc
      exact (hspelling v hv).trans (col_lookup_updatedRow hrows hw).symm
    · refine hagrees.col j v hj ?_
      rw [p.col_except_of_ne hj hjc]
      exact hv

/-- What the second call needs after an update. There is a conflict still, and
the first row its lookup matches is the one that was updated. And the conflict
is the one of the first call; or the identifier the work was found by is given
in the spelling the work has; or the second update is not valid. -/
def UpdateSettles (env : Env) (p : Params) (db : Db) (c : Conflict) (w : Work) : Prop :=
  ∃ k, p.conflict env (db.writeWork (updatedRow env p c w)).works.rows = some k ∧
    p.FirstMatch env k.lookup (db.writeWork (updatedRow env p c w)) (updatedRow env p c w) ∧
    (k = c ∨
      (∀ v, p.col c.lookup = some v → presence (normalCol env c.lookup v) = w.col c.lookup) ∨
      ((updatedRow env p c w).assign (p.except k.lookup)).errors env (w.others db) ≠ [])

/-- The branch of another column than before finds the row and saves it: what
it writes is what counts. -/
theorem findsAgain_updated_iff (htracked : p.isTracked = true) {k : Conflict}
    (hrun : findOrCreate env p (updateRelations env w.id p.relatedWorks db) =
      rescueConflict env k p (updateRelations env w.id p.relatedWorks db))
    (hfind : findWork env k.lookup p db = some w)
    (hfree : w.refusal env (w.others db) = none) :
    FindsAgain env p w.id (updateRelations env w.id p.relatedWorks db) ↔
      (w.assign (p.except k.lookup)).row env = w ∨
        (w.assign (p.except k.lookup)).errors env (w.others db) ≠ [] := by
  constructor
  · rintro ⟨db', hagain, hworks, _⟩
    by_contra hneither
    obtain ⟨hdiffers, hvalid⟩ := not_or.mp hneither
    rw [hrun] at hagain
    rcases rescueConflict_cases env k p (updateRelations env w.id p.relatedWorks db) with
      ⟨_, h⟩ | ⟨v, e', _, _, _, h⟩ | ⟨v, hv, hunsaved, _⟩ | ⟨v, db'', hv, _, hsaved, h⟩
    · rw [h] at hagain
      cases (Prod.mk.inj hagain).1
    · rw [h] at hagain
      cases (Prod.mk.inj hagain).1
    · obtain rfl : w = v := Option.some.inj (hfind.symm.trans hv)
      have hinvalid := updateAttributes_eq_none.mp (hunsaved htracked)
      exact hvalid hinvalid
    · obtain rfl : w = v := Option.some.inj (hfind.symm.trans hv)
      obtain ⟨_, _, rfl⟩ := updateAttributes_some hsaved
      rw [h] at hagain
      obtain ⟨_, rfl⟩ := Prod.mk.inj hagain
      -- the table has the new row under the key of the old one
      have hmem : (w.assign (p.except k.lookup)).row env ∈ db.works.rows := by
        have hput : db.works.put ((w.assign (p.except k.lookup)).row env) = db.works := hworks
        rw [← hput]
        exact Table.mem_put.mpr
          (Or.inr ⟨rfl, w, findWork_mem hfind, (id_updatedRow env p k w).symm⟩)
      exact hdiffers (db.works.eq_of_id_eq hmem (findWork_mem hfind) (id_updatedRow env p k w))
  · rintro (hrow | hinvalid)
    · exact findsAgain_of_settled hrun hfind hrow hfree
    · refine ⟨updateRelations env w.id p.relatedWorks
        (updateRelations env w.id p.relatedWorks db), ?_, ?_⟩
      · have hfind' : findWork env k.lookup p (updateRelations env w.id p.relatedWorks db) =
            some w := hfind
        have hunsaved' : updateAttributes env w (p.except k.lookup)
            (updateRelations env w.id p.relatedWorks db) = .ok none :=
          updateAttributes_eq_none.mpr hinvalid
        rw [hrun]
        simp [rescueConflict, hfind', htracked, hunsaved']
      · rw [updateRelations_again]
        exact ⟨rfl, rfl, rfl⟩

/-- **After an update** the second call changes nothing exactly if the update
settles. -/
theorem repeats_of_saved (henv : env.Lawful) (htext : HonestText env p)
    (hrows : NormalRows env db) (hreject : p.build.rejection env db.works.rows = some e)
    (he : e.rescued = true) (hc : Conflict.of? e.message = some c)
    (hfind : findWork env c.lookup p db = some w) (htracked : p.isTracked = true) {db' : Db}
    (hsaved : updateAttributes env w (p.except c.lookup) db = .ok (some db')) :
    Repeats env p db ↔ UpdateSettles env p db c w := by
  obtain ⟨_, hfreeOld, rfl⟩ := updateAttributes_some hsaved
  have hid := id_updatedRow env p c w
  have hothers := w.others_writeWork (updatedRow env p c w) hid db
  have hfree : (updatedRow env p c w).refusal env
      ((updatedRow env p c w).others (db.writeWork (updatedRow env p c w))) = none := by
    rw [hothers]
    exact hfreeOld
  have hfirst : findOrCreate env p db = (.ok (.work w.id), updateRelations env w.id p.relatedWorks
      (db.writeWork (updatedRow env p c w))) := by
    rw [findOrCreate_of_conflict (createWork_of_rejected.mpr hreject) he hc]
    simp [rescueConflict, hfind, htracked, hsaved, updatedRow]
  rw [repeats_iff_findsAgain hfirst (isFoundOrStored_work _ _), ← hid]
  -- which row the second call writes, by the branch it takes
  have hsettles : ∀ k : Conflict,
      (((updatedRow env p c w).assign (p.except k.lookup)).row env = updatedRow env p c w ∨
        ((updatedRow env p c w).assign (p.except k.lookup)).errors env (w.others db) ≠ []) ↔
      (k = c ∨
        (∀ v, p.col c.lookup = some v → presence (normalCol env c.lookup v) = w.col c.lookup) ∨
        ((updatedRow env p c w).assign (p.except k.lookup)).errors env (w.others db) ≠ []) := by
    intro k
    by_cases hk : k = c
    · subst hk
      simp [updatedRow_settled henv]
    · rw [updatedRow_settled_iff henv hrows (findWork_mem hfind) hk]
      simp [hk]
  constructor
  · intro hagain
    obtain ⟨e', k, hcreate, he', hk, hrun⟩ := exists_conflict_of_findsAgain hagain
    have hconflict := (Params.conflict_of_rejected henv.quiet htext
      (createWork_of_rejected.mp hcreate) he').trans hk
    have hfound : findWork env k.lookup p (db.writeWork (updatedRow env p c w)) =
        some (updatedRow env p c w) := by
      obtain ⟨db', hsecond, _⟩ := hagain
      rw [hrun] at hsecond
      obtain ⟨u, hu, huid⟩ := findWork_of_rescueConflict hsecond
      have hrow : u = updatedRow env p c w := (db.writeWork _).works.eq_of_id_eq
        (findWork_mem hu) (mem_updated (findWork_mem hfind)) huid
      rw [hrow] at hu
      exact hu
    have hwritten := (findsAgain_updated_iff htracked hrun hfound hfree).mp hagain
    rw [hothers] at hwritten
    exact ⟨k, hconflict, findWork_eq_some_iff.mp hfound, (hsettles k).mp hwritten⟩
  · rintro ⟨k, hconflict, hmatch, hk⟩
    have hrun : findOrCreate env p (updateRelations env (updatedRow env p c w).id p.relatedWorks
        (db.writeWork (updatedRow env p c w))) = rescueConflict env k p _ :=
      findOrCreate_of_params_conflict henv.quiet htext hconflict
    rw [findsAgain_updated_iff htracked hrun (findWork_eq_some_iff.mpr hmatch) hfree, hothers]
    exact (hsettles k).mpr hk

end Found

/-! ## The rows stay normal -/

/-- Saving stores normal rows. -/
theorem normal_row {env : Env} (henv : env.Lawful) (w : Work) {c : Column} (hc : c ≠ .pid) :
    presence (normalCol env c ((w.row env).col c)) = (w.row env).col c := by
  rw [Work.col_row env w hc, normalCol_again henv.clean]

/-- What `find_or_create` can do to the works table: nothing; a new row; or
the update of the work that the branch of a conflict has found. -/
theorem works_findOrCreate (env : Env) (p : Params) (db : Db) :
    (findOrCreate env p db).2.works = db.works ∨
    (findOrCreate env p db).2.works = db.works.insert (p.build.row env) ∨
    ∃ e c w, p.build.rejection env db.works.rows = some e ∧ e.rescued = true ∧
      Conflict.of? e.message = some c ∧ findWork env c.lookup p db = some w ∧
      p.isTracked = true ∧ (w.assign (p.except c.lookup)).rejection env (w.others db) = none ∧
      (findOrCreate env p db).2.works = db.works.put (updatedRow env p c w) := by
  cases hcreate : createWork env p db with
  | ok created =>
    obtain ⟨id, created⟩ := created
    rw [findOrCreate_of_created hcreate]
    exact Or.inr (Or.inl (createWork_ok hcreate).2.2.1)
  | error e =>
    cases he : e.rescued with
    | false =>
      rw [findOrCreate_of_raised hcreate he]
      exact Or.inl rfl
    | true =>
      cases hc : Conflict.of? e.message with
      | none =>
        rw [findOrCreate_of_alert hcreate he hc]
        exact Or.inl rfl
      | some c =>
        rw [findOrCreate_of_conflict hcreate he hc]
        rcases rescueConflict_cases env c p db with ⟨_, h⟩ | ⟨_, _, _, _, _, h⟩ | ⟨_, _, _, h⟩ |
          ⟨w, db', hfind, htracked, hsaved, h⟩
        · rw [h]
          exact Or.inl rfl
        · rw [h]
          exact Or.inl rfl
        · rw [h]
          exact Or.inl rfl
        · rw [h]
          obtain ⟨hvalid, hfree, rfl⟩ := updateAttributes_some hsaved
          exact Or.inr (Or.inr ⟨e, c, w, createWork_of_rejected.mp hcreate, he, hc, hfind, htracked,
            Work.rejection_eq_none.mpr ⟨hvalid, hfree⟩, rfl⟩)

/-! ## Idempotence -/

theorem plainEnv_lawful : plainEnv.Lawful where
  quiet := plainEnv_quiet
  clean := fun _ _ _ => rfl
  sanitize := fun _ => rfl
  lower := plainEnv_lower
  charwise := plainEnv_charwise

/-- A table with one work that has no URL. -/
def oneDoi : Db where
  works := Table.empty.insert
    { col := fun
        | .doi => some "10.1234/one"
        | .pid => some "http://doi.org/10.1234/one"
        | _ => none
      title := some "One" }

end Lagotto
