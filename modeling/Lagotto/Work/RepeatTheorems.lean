/-
Lagotto.Work.RepeatTheorems — calling `find_or_create` a second time.

A second call with the same parameters should find the work the first one
stored or found, and leave everything as it is. The argument is in three
steps. The record is rejected again; for a new work the conflict is the first
of doi, pmid and ark that the parameters have, or else the pid (`leading`).
The lookup of that conflict finds the row the first call left. And saving the
same parameters into that row gives the same row (`row_assign_of_agrees`),
so that the database does not change at all (`rescueConflict_settled`).

What can go wrong is in the second and third step: a pid conflict is looked
up by the unnormalised URL, and a second call that lands in another branch
than the first leaves out another column.
-/
import Lagotto.Work.FindOrCreateTheorems

namespace Lagotto

variable {env : Env} {p : Params} {c : Conflict} {db created : Db} {w : Work}

open Relational
open Text

/-! ## Assumptions on the libraries -/

/-- The URL cleaner leaves its own output alone, and so does the sanitizer; its
errors do not read like conflicts. The database does not distinguish cases,
and compares strings character by character. -/
structure Env.Lawful (env : Env) : Prop where
  quiet : env.Quiet
  clean : ∀ url cleaned, env.clean url = .ok cleaned → env.clean cleaned = .ok cleaned
  sanitize : ∀ title, env.sanitize (env.sanitize title) = env.sanitize title
  lower : ∀ s, env.collate s.toLower = env.collate s
  charwise : env.Charwise

/-- The rows have been stored by `save`: their columns are normalised. -/
def NormalRows (env : Env) (db : Db) : Prop :=
  ∀ w ∈ db.works.rows, ∀ c, c ≠ .pid → presence (normalCol env c (w.col c)) = w.col c

/-! ## Small facts -/

@[simp] theorem Env.same_self (env : Env) (v : Option String) : env.same v v = true := by
  cases v <;> simp [Env.same]

theorem Params.col_except_pid (p : Params) (c : Column) : (p.except c).col .pid = none := by
  simp [Params.except]

theorem Params.col_except_self (p : Params) (c : Column) : (p.except c).col c = none := by
  simp [Params.except]

theorem Params.col_except_of_ne (p : Params) {c k : Column} (hpid : k ≠ .pid) (hc : k ≠ c) :
    (p.except c).col k = p.col k := by
  simp [Params.except, hpid, hc]

theorem Params.Agrees.except (h : p.Agrees env w) (c : Column) : (p.except c).Agrees env w where
  __ := h
  col := by
    intro k v hk hv
    by_cases hc : k = c
    · rw [hc, p.col_except_self] at hv
      cases hv
    · rw [p.col_except_of_ne hk hc] at hv
      exact h.col k v hk hv

theorem Conflict.column_eq_lookup (hc : c ≠ .pid) : c.column = c.lookup := by
  cases c <;> first | rfl | exact absurd rfl hc

theorem updateAttributes_eq_none :
    updateAttributes env w p db = .ok none ↔ (w.assign p).errors env (w.others db) ≠ [] := by
  unfold updateAttributes
  have hothers : (w.assign p).others db = w.others db := rfl
  simp only [hothers]
  split
  next h =>
    rw [List.isEmpty_iff.mp h]
    split <;> simp
  next h =>
    simp only [true_iff]
    exact fun heq => h (List.isEmpty_iff.mpr heq)

/-- Running `update_relations` again changes nothing. -/
theorem updateRelations_again (env : Env) (id : Nat) (data : List RelatedWork) (db : Db) :
    updateRelations env id data (updateRelations env id data db) =
      updateRelations env id data db := by
  have hrows : (updateRelations env id data db).relations.firstOrCreateAll Relation.sameLink
      (fun r => r) (data.flatMap (relationsFor env db id)) =
      (updateRelations env id data db).relations := by
    refine Table.firstOrCreateAll_eq_self _ _ (fun r hr => ?_)
    refine Table.exists_mem_firstOrCreateAll ?_ hr
    intro item n
    simp [Relation.sameLink, Row.withId]
  show { updateRelations env id data db with
      relations := (updateRelations env id data db).relations.firstOrCreateAll Relation.sameLink
        (fun r => r) (data.flatMap (relationsFor env db id)) } = _
  rw [hrows]

/-! ## A row the parameters agree with -/

/-- Saving parameters that change nothing about a row of the table. -/
theorem updateAttributes_settled {q : Params} (hw : w ∈ db.works.rows)
    (hrow : (w.assign q).row env = w) (hfree : w.refusal env (w.others db) = none) :
    updateAttributes env w q db = .ok none ∨ updateAttributes env w q db = .ok (some db) := by
  cases hupdate : updateAttributes env w q db with
  | ok updated =>
    cases updated with
    | none => exact Or.inl rfl
    | some db' =>
      obtain ⟨_, _, rfl⟩ := updateAttributes_some hupdate
      right
      rw [hrow, Db.writeWork, Table.put_self hw]
  | error e =>
    unfold updateAttributes at hupdate
    have hothers : (w.assign q).others db = w.others db := rfl
    simp only [hothers, hrow, hfree] at hupdate
    split at hupdate <;> cases hupdate

/-- A branch that finds a row the parameters change nothing about returns it
and only adds relations. -/
theorem rescueConflict_settled (hfind : findWork env c.lookup p db = some w)
    (hrow : (w.assign (p.except c.lookup)).row env = w) (hfree : w.refusal env (w.others db) = none)
    :
    rescueConflict env c p db =
      (.ok (.work w.id), updateRelations env w.id p.relatedWorks db) := by
  unfold rescueConflict
  rw [hfind]
  simp only
  split
  · rcases updateAttributes_settled (findWork_mem hfind) hrow hfree with h | h
    · rw [h]
      rfl
    · rw [h]
      rfl
  · rfl

/-! ## Which branch -/

/-- The first of doi, pmid and ark that the parameters have. -/
def leading (env : Env) (p : Params) : Option Conflict :=
  [Conflict.doi, .pmid, .ark].find? (fun c => present ((p.build.normalise env).col c.column))

theorem leading_some (h : leading env p = some c) :
    c ≠ .pid ∧ present ((p.build.normalise env).col c.column) = true := by
  unfold leading at h
  refine ⟨?_, List.find?_some
    (p := fun c : Conflict => present ((p.build.normalise env).col c.column)) h⟩
  rintro rfl
  exact absurd (List.mem_of_find?_eq_some h) (by decide)

theorem leading_none (h : leading env p = none)
    (hc : present ((p.build.normalise env).col c.column) = true) : c = .pid := by
  have hblank := List.find?_eq_none.mp h
  cases c with
  | doi => exact absurd hc (hblank .doi (by decide))
  | pmid => exact absurd hc (hblank .pmid (by decide))
  | ark => exact absurd hc (hblank .ark (by decide))
  | pid => rfl

section Branch

variable {rows : List Work}

/-- Where the leading identifier is taken, its branch is the one. -/
theorem find_taken_of_leading (hlead : leading env p = some c)
    (htaken : p.build.isTaken env rows c.column = true) :
    Conflict.all.find? (fun c => p.build.isTaken env rows c.column) = some c := by
  obtain ⟨_, before, behind, hlist, hbefore⟩ := List.find?_eq_some_iff_append.mp hlead
  refine List.find?_eq_some_iff_append.mpr ⟨htaken, before, behind ++ [.pid], ?_, ?_⟩
  · have hall : Conflict.all = [Conflict.doi, .pmid, .ark] ++ [.pid] := rfl
    rw [hall, hlist, List.append_assoc, List.cons_append]
  · intro b hb
    have hblank := hbefore b hb
    simp only [Bool.not_eq_eq_eq_not, Bool.not_true] at hblank
    simp [Work.isTaken, hblank]

/-- Without one of the three only the pid can be taken. -/
theorem find_taken_of_none (hlead : leading env p = none)
    (htaken : p.build.isTaken env rows .pid = true) :
    Conflict.all.find? (fun c => p.build.isTaken env rows c.column) = some .pid := by
  have hexists : (Conflict.all.find? (fun c => p.build.isTaken env rows c.column)).isSome :=
    List.find?_isSome.mpr ⟨.pid, by decide, htaken⟩
  obtain ⟨c, hc⟩ := Option.isSome_iff_exists.mp hexists
  have hcTaken : p.build.isTaken env rows c.column = true :=
    List.find?_some (p := fun c : Conflict => p.build.isTaken env rows c.column) hc
  rw [hc, leading_none hlead (Work.isTaken_iff.mp hcTaken).1]

end Branch

/-! ## The two calls -/

/-- The call returns the work and leaves works, relations and alerts as they
are. -/
def FindsAgain (env : Env) (p : Params) (id : Nat) (db : Db) : Prop :=
  ∃ db', findOrCreate env p db = (.ok (.work id), db') ∧
    db'.works = db.works ∧ db'.relations = db.relations ∧ db'.alerts = db.alerts

/-- `find_or_create` is idempotent at these parameters: whichever work the
first call stores (it has the next id) or finds, the second call finds it
again and changes nothing. -/
def Repeats (env : Env) (p : Params) (db : Db) : Prop :=
  ∀ returned db', findOrCreate env p db = (.ok returned, db') →
    ∀ id, returned = .work id ∨ (returned = .array ∧ id = db.works.nextId) →
      FindsAgain env p id db'

/-- Where the first call stores or finds one work, whether that work is found
again is all that is asked. -/
theorem repeats_iff_findsAgain {db db' : Db} {returned : Returned} {id : Nat}
    (hrun : findOrCreate env p db = (.ok returned, db'))
    (hid : ∀ id', (returned = .work id' ∨ (returned = .array ∧ id' = db.works.nextId)) ↔ id' = id) :
    Repeats env p db ↔ FindsAgain env p id db' := by
  constructor
  · intro h
    exact h returned db' hrun id ((hid id).mpr rfl)
  · intro h returned' db'' hrun' id' hwhich
    rw [hrun] at hrun'
    obtain ⟨hreturned, rfl⟩ := Prod.mk.inj hrun'
    obtain rfl := Except.ok.inj hreturned
    rw [(hid id').mp hwhich]
    exact h

theorem isFoundOrStored_work (id nextId id' : Nat) :
    (Returned.work id = .work id' ∨ (Returned.work id = .array ∧ id' = nextId)) ↔ id' = id := by
  simp [eq_comm]

/-- Only a work that is found can be found again. -/
theorem exists_conflict_of_findsAgain {id : Nat} (h : FindsAgain env p id db) :
    ∃ e c, createWork env p db = .error e ∧ e.rescued = true ∧
      Conflict.of? e.message = some c ∧ findOrCreate env p db = rescueConflict env c p db := by
  obtain ⟨db', hrun, _⟩ := h
  cases hcreate : createWork env p db with
  | ok created =>
    rw [findOrCreate_of_created hcreate] at hrun
    cases (Prod.mk.inj hrun).1
  | error e =>
    cases he : e.rescued with
    | false =>
      rw [findOrCreate_of_raised hcreate he] at hrun
      cases (Prod.mk.inj hrun).1
    | true =>
      cases hc : Conflict.of? e.message with
      | none =>
        rw [findOrCreate_of_alert hcreate he hc] at hrun
        cases (Prod.mk.inj hrun).1
      | some c => exact ⟨e, c, rfl, he, hc, findOrCreate_of_conflict hcreate he hc⟩

/-- A branch that returns a work returns the one it found. -/
theorem findWork_of_rescueConflict {db db' : Db} {id : Nat}
    (h : rescueConflict env c p db = (.ok (.work id), db')) :
    ∃ w, findWork env c.lookup p db = some w ∧ w.id = id := by
  cases hfind : findWork env c.lookup p db with
  | none =>
    simp [rescueConflict, hfind] at h
  | some w => exact ⟨w, rfl, (Returned.work.inj (returned_rescueConflict hfind h)).symm⟩

/-- The second call finds the row the first one left, and the row is settled. -/
theorem findsAgain_of_settled
    (hrun : findOrCreate env p (updateRelations env w.id p.relatedWorks db) =
      rescueConflict env c p (updateRelations env w.id p.relatedWorks db))
    (hfind : findWork env c.lookup p db = some w)
    (hrow : (w.assign (p.except c.lookup)).row env = w) (hfree : w.refusal env (w.others db) = none)
    :
    FindsAgain env p w.id (updateRelations env w.id p.relatedWorks db) := by
  refine ⟨_, hrun.trans (rescueConflict_settled hfind hrow hfree), ?_⟩
  rw [updateRelations_again]
  exact ⟨rfl, rfl, rfl⟩

/-! ## After a work was created -/

theorem Work.row_withId (env : Env) (k : Nat) (w : Work) :
    (Row.withId k w).row env = Row.withId k (w.row env) := by
  have hcol : ((Row.withId k w).row env).col = (w.row env).col := by
    funext c
    by_cases hc : c = .pid
    · subst hc
      rw [Work.col_row_pid, Work.col_row_pid]
      congr 2
      exact Work.pidFor_congr (fun c _ => by rw [Work.col_identified, Work.col_identified]; rfl)
    · rw [Work.col_row env _ hc, Work.col_row env _ hc]
      rfl
  rw [Work.row_eq, hcol, Work.row_eq env w]
  rfl

/-- A valid record has a pid. -/
theorem Work.present_pid_of_valid {others : List Work} (h : w.errors env others = []) :
    present ((w.normalise env).col .pid) = true := by
  have hcol : (w.normalise env).col = (w.beforeValidation env).1.col := by
    rw [Work.col_normalise_eq, Work.beforeValidation_fst]
  rw [hcol]
  by_contra hblank
  have hmem : ((.col .pid, "can't be blank") : Error) ∈ w.errors env others := by
    unfold Work.errors Work.validations
    refine List.mem_append_right _ ?_
    simp [Work.checkPresence, hblank]
  rw [h] at hmem
  cases hmem

/-- The row a new work gets. -/
def createdRow (env : Env) (p : Params) (db : Db) : Work :=
  Row.withId db.works.nextId (p.build.row env)

theorem createdRow_eq (env : Env) (p : Params) (db : Db) :
    createdRow env p db = (({ id := db.works.nextId } : Work).assign p).row env :=
  (Work.row_withId env db.works.nextId p.build).symm

theorem createdRow_settled (henv : env.Lawful) (c : Column) :
    ((createdRow env p db).assign (p.except c)).row env = createdRow env p db := by
  refine Work.row_assign_of_agrees ?_ (p.col_except_pid c) ?_
  · rw [createdRow_eq, Work.row_row henv.clean henv.sanitize]
  · rw [createdRow_eq]
    exact (p.agrees_row env _).except c

theorem createdRow_free (hfree : p.build.rejection env db.works.rows = none)
    (hworks : created.works = db.works.insert (p.build.row env)) :
    (createdRow env p db).refusal env ((createdRow env p db).others created) = none := by
  have hothers : (createdRow env p db).others created = db.works.rows := by
    have hold : db.works.rows.filter (fun w => w.id != db.works.nextId) = db.works.rows :=
      List.filter_eq_self.mpr (fun w hw => bne_iff_ne.mpr (db.works.bounded w hw).ne)
    have hnew : [createdRow env p db].filter (fun w => w.id != db.works.nextId) = [] := by
      simp [createdRow, Row.withId]
    unfold Work.others
    rw [hworks, Table.rows_insert, List.filter_append]
    show db.works.rows.filter (fun w => w.id != db.works.nextId) ++
      [createdRow env p db].filter (fun w => w.id != db.works.nextId) = _
    rw [hold, hnew, List.append_nil]
  obtain ⟨hfits, hindexes⟩ := Work.refusal_eq_none.mp (Work.rejection_eq_none.mp hfree).2
  rw [hothers]
  exact Work.refusal_eq_none.mpr ⟨hfits, hindexes⟩

/-- The new row takes every column the parameters have. -/
theorem isTaken_created (hworks : created.works = db.works.insert (p.build.row env)) {c : Column}
    (hc : present ((p.build.normalise env).col c) = true) :
    p.build.isTaken env created.works.rows c = true := by
  refine Work.isTaken_iff.mpr ⟨hc, createdRow env p db, ?_, ?_⟩
  · rw [hworks]
    exact Table.mem_insert.mpr (Or.inr rfl)
  · have hcol : (createdRow env p db).col c = presence ((p.build.normalise env).col c) := rfl
    rw [hcol, presence_of_present hc]

/-- The lookup of the leading identifier finds the new row. -/
theorem findWork_created_leading (henv : env.Lawful)
    (hfree : p.build.rejection env db.works.rows = none)
    (hworks : created.works = db.works.insert (p.build.row env)) (hlead : leading env p = some c) :
    findWork env c.lookup p created = some (createdRow env p db) := by
  obtain ⟨hpid, hp⟩ := leading_some hlead
  rw [Conflict.column_eq_lookup hpid] at hp
  have hcol : (createdRow env p db).col c.lookup = (p.build.normalise env).col c.lookup :=
    presence_of_present hp
  refine Table.first_eq_of_unique ?_ ?_ ?_
  · rw [hworks]
    exact Table.mem_insert.mpr (Or.inr rfl)
  · rw [← Env.same_normalise henv.lower hpid, hcol, Env.same_self]
  · intro w hw hsame
    rw [hworks] at hw
    rcases Table.mem_insert.mp hw with hold | hnew
    · -- an older row with the same identifier would have kept the work from being created
      exfalso
      obtain ⟨index, hindex, hcolumn⟩ : ∃ index ∈ Work.uniqueIndexes, index.1 = c.lookup := by
        cases c <;> first | decide | exact absurd rfl hpid
      obtain ⟨v, hv⟩ : ∃ v, (p.build.row env).col index.1 = some v := by
        rw [hcolumn]
        exact exists_of_present (hcol ▸ hp)
      have hother := Work.not_same_of_accepted henv.charwise
        (Work.rejection_eq_none.mp hfree).2 hindex hv w hold
      rw [← Env.same_normalise henv.lower hpid, ← hcol, ← hcolumn] at hsame
      exact Bool.false_ne_true (hother.symm.trans hsame)
    · exact hnew

theorem findWork_created (hworks : created.works = db.works.insert (p.build.row env)) (c : Column) :
    findWork env c p created = (findWork env c p db).or
      (if env.same ((createdRow env p db).col c) (p.get c) then some (createdRow env p db)
        else none) := by
  unfold findWork Table.first
  rw [hworks, Table.rows_insert, List.find?_append]
  show _ = Option.or _ _
  congr 1
  show [createdRow env p db].find? _ = _
  rw [List.find?_singleton]

/-- The lookup by URL finds the new row if there is no older one with the URL
that was given, and the URL was stored as given. -/
theorem findWork_url_created_iff (hworks : created.works = db.works.insert (p.build.row env)) :
    (∃ w, findWork env .canonicalUrl p created = some w ∧ w.id = db.works.nextId) ↔
      findWork env .canonicalUrl p db = none ∧
        env.same (presence (cleanedUrl env (p.get .canonicalUrl))) (p.get .canonicalUrl) =
          true := by
  have hurl : (createdRow env p db).col .canonicalUrl =
      presence (cleanedUrl env (p.get .canonicalUrl)) := by
    show (p.build.row env).col .canonicalUrl = _
    rw [Work.col_row env _ (by decide), p.col_build]
    rfl
  rw [findWork_created hworks, hurl]
  cases hold : findWork env .canonicalUrl p db with
  | some v =>
    -- an older work has the URL, and is found first
    have hne : v.id ≠ db.works.nextId := (db.works.bounded v (findWork_mem hold)).ne
    simp [hne]
  | none =>
    have hid : (createdRow env p db).id = db.works.nextId := rfl
    simp [hid]

/-- A second call that takes the branch in which the new row is found leaves
everything as it is. -/
theorem findsAgain_created (henv : env.Lawful) (hfree : p.build.rejection env db.works.rows = none)
    (hworks : created.works = db.works.insert (p.build.row env))
    (hfind : findWork env c.lookup p created = some (createdRow env p db))
    (hbranch : Conflict.all.find? (fun c => p.build.isTaken env created.works.rows c.column) =
      some c) :
    FindsAgain env p db.works.nextId
      (updateRelations env db.works.nextId p.relatedWorks created) :=
  findsAgain_of_settled (w := createdRow env p db) (findOrCreate_of_taken henv.quiet hbranch) hfind
    (createdRow_settled henv _) (createdRow_free hfree hworks)

/-- **After a work was created** it is found again by its doi, pmid or ark;
without one of these only if no other work has the URL that was given, and
the URL was stored as given. -/
theorem repeats_of_created (henv : env.Lawful)
    (hfree : p.build.rejection env db.works.rows = none) :
    Repeats env p db ↔ (leading env p = none →
      findWork env .canonicalUrl p db = none ∧
        env.same (presence (cleanedUrl env (p.get .canonicalUrl))) (p.get .canonicalUrl) =
          true) := by
  obtain ⟨created, hcreate⟩ : ∃ created, createWork env p db = .ok (db.works.nextId, created) := by
    simp [createWork, hfree]
  obtain ⟨_, _, hworks, _⟩ := createWork_ok hcreate
  have hstored : ∀ id, (Returned.array = .work id ∨ (Returned.array = .array ∧
      id = db.works.nextId)) ↔ id = db.works.nextId := by
    simp
  rw [repeats_iff_findsAgain (findOrCreate_of_created hcreate) hstored]
  -- the second call, by the branch it takes
  cases hlead : leading env p with
  | some c =>
    have hbranch := find_taken_of_leading hlead (isTaken_created hworks (leading_some hlead).2)
    have hfind := findWork_created_leading henv hfree hworks hlead
    refine ⟨fun _ h => ?_, fun _ => findsAgain_created henv hfree hworks hfind hbranch⟩
    cases h
  | none =>
    have hvalid := (Work.rejection_eq_none.mp hfree).1
    have hbranch := find_taken_of_none hlead
      (isTaken_created hworks (Work.present_pid_of_valid hvalid))
    rw [← findWork_url_created_iff hworks]
    constructor
    · rintro ⟨db', hrun, _⟩ _
      have hsecond : findOrCreate env p (updateRelations env db.works.nextId p.relatedWorks
          created) = rescueConflict env .pid p _ := findOrCreate_of_taken henv.quiet hbranch
      rw [hsecond] at hrun
      exact findWork_of_rescueConflict hrun
    · intro h
      obtain ⟨w, hfind, hid⟩ := h rfl
      have hmem : createdRow env p db ∈ created.works.rows := by
        rw [hworks]
        exact Table.mem_insert.mpr (Or.inr rfl)
      obtain rfl := created.works.eq_of_id_eq (findWork_mem hfind) hmem hid
      exact findsAgain_created (c := .pid) henv hfree hworks hfind hbranch

end Lagotto
