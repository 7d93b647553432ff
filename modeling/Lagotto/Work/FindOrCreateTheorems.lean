/-
Lagotto.Work.FindOrCreateTheorems — what `find_or_create` returns and which
works it touches.

`createWork_ok` and `updateAttributes_some` say what a save has written;
`rescueConflict_cases` lists the outcomes of the four branches. Which branch
is taken is read out of the text of an exception; `Params.conflict` says it on
the parameters and the rows, and `conflict_of_rejected` that the two agree:
the first of doi, pmid, ark and pid that is taken, and if none is, the first
unique index in which a row collides.

The main result decides when the method keeps to the works that match its
parameters. In the branches for doi, pmid and ark a present parameter is
enough (`sharesIdentifier_of_firstMatch`); in the branch for pids the lookup
is by another column, and a missing `canonical_url` finds the first work that
has none either.
-/
import Lagotto.Work.FindOrCreate
import Lagotto.Work.ValidationTheorems

namespace Lagotto

variable {env : Env} {p : Params} {db : Db} {w : Work} {c : Conflict}

open Relational
open Text

/-! ## Frames -/

@[simp] theorem works_updateRelations (env : Env) (id : Nat) (data : List RelatedWork) (db : Db) :
    (updateRelations env id data db).works = db.works := rfl

@[simp] theorem works_alertInvalid (env : Env) (message : String) (p : Params) (db : Db) :
    (alertInvalid env message p db).works = db.works := rfl

/-! ## Saving -/

theorem createWork_of_rejected {e : SaveError} :
    createWork env p db = .error e ↔ p.build.rejection env db.works.rows = some e := by
  unfold createWork
  cases p.build.rejection env db.works.rows <;> simp

/-- A work that was created was not rejected, and is the row that was
appended. -/
theorem createWork_ok {db db' : Db} {id : Nat} (h : createWork env p db = .ok (id, db')) :
    p.build.rejection env db.works.rows = none ∧ id = db.works.nextId ∧
      db'.works = db.works.insert (p.build.row env) ∧ db'.alerts = db.alerts := by
  unfold createWork at h
  split at h
  next => cases h
  next hfree =>
    obtain ⟨rfl, rfl⟩ := Prod.mk.inj (Except.ok.inj h)
    refine ⟨hfree, rfl, ?_, ?_⟩ <;> split <;> rfl

/-- A saved update had no errors, was not refused, and replaced the row. -/
theorem updateAttributes_some {db db' : Db} (h : updateAttributes env w p db = .ok (some db')) :
    (w.assign p).errors env (w.others db) = [] ∧
      ((w.assign p).row env).refusal env (w.others db) = none ∧
      db' = db.writeWork ((w.assign p).row env) := by
  unfold updateAttributes at h
  simp only at h
  split at h
  next hvalid =>
    split at h
    next => cases h
    next hfree =>
      cases h
      exact ⟨List.isEmpty_iff.mp hvalid, hfree, rfl⟩
  next => cases h

/-! ## The branches -/

/-- The outcomes of a branch: nothing found; an update the database refused;
or the work found, with the works as they were or with the update saved. -/
theorem rescueConflict_cases (env : Env) (c : Conflict) (p : Params) (db : Db) :
    (findWork env c.lookup p db = none ∧ rescueConflict env c p db = (.ok .nil, db)) ∨
    (∃ w e, findWork env c.lookup p db = some w ∧ p.isTracked = true ∧
      updateAttributes env w (p.except c.lookup) db = .error e ∧
      rescueConflict env c p db = (.error e.raised, db)) ∨
    (∃ w, findWork env c.lookup p db = some w ∧
      (p.isTracked = true → updateAttributes env w (p.except c.lookup) db = .ok none) ∧
      rescueConflict env c p db =
        (.ok (.work w.id), updateRelations env w.id p.relatedWorks db)) ∨
    (∃ w db', findWork env c.lookup p db = some w ∧ p.isTracked = true ∧
      updateAttributes env w (p.except c.lookup) db = .ok (some db') ∧
      rescueConflict env c p db =
        (.ok (.work w.id), updateRelations env w.id p.relatedWorks db')) := by
  cases hfind : findWork env c.lookup p db with
  | none => exact Or.inl ⟨rfl, by simp [rescueConflict, hfind]⟩
  | some w =>
    right
    cases htracked : p.isTracked with
    | false =>
      refine Or.inr (Or.inl ⟨w, rfl, by simp, ?_⟩)
      simp [rescueConflict, hfind, htracked]
    | true =>
      cases hupdate : updateAttributes env w (p.except c.lookup) db with
      | error e =>
        refine Or.inl ⟨w, e, rfl, rfl, hupdate, ?_⟩
        simp [rescueConflict, hfind, htracked, hupdate]
      | ok updated =>
        cases updated with
        | none =>
          refine Or.inr (Or.inl ⟨w, rfl, fun _ => hupdate, ?_⟩)
          simp [rescueConflict, hfind, htracked, hupdate]
        | some db' =>
          refine Or.inr (Or.inr ⟨w, db', rfl, rfl, hupdate, ?_⟩)
          simp [rescueConflict, hfind, htracked, hupdate]

theorem findWork_mem {c : Column} (h : findWork env c p db = some w) :
    w ∈ db.works.rows := Table.first_mem h

theorem same_of_findWork {c : Column} (h : findWork env c p db = some w) :
    env.same (w.col c) (p.get c) = true := by
  unfold findWork at h
  exact Table.first_prop (p := fun w : Work => env.same (w.col c) (p.get c)) h

/-- A branch changes no work but the one it found. -/
theorem mem_rescueConflict {v : Work} (hv : v ∈ db.works.rows)
    (hne : ∀ w, findWork env c.lookup p db = some w → v ≠ w) :
    v ∈ (rescueConflict env c p db).2.works.rows := by
  rcases rescueConflict_cases env c p db with ⟨_, h⟩ | ⟨w, e, _, _, _, h⟩ | ⟨w, _, _, h⟩ |
    ⟨w, db', hfind, _, hupdate, h⟩
  · rw [h]
    exact hv
  · rw [h]
    exact hv
  · rw [h]
    exact hv
  · rw [h]
    obtain ⟨_, _, rfl⟩ := updateAttributes_some hupdate
    refine Table.mem_put.mpr (Or.inl ⟨hv, fun hid => ?_⟩)
    have hid' : Row.id v = Row.id w := by
      rw [hid]
      exact Work.id_row env _
    exact hne w hfind (db.works.eq_of_id_eq hv (findWork_mem hfind) hid')

/-! ## The outcomes of `find_or_create` -/

theorem findOrCreate_of_created {db created : Db} {id : Nat}
    (h : createWork env p db = .ok (id, created)) :
    findOrCreate env p db = (.ok .array, updateRelations env id p.relatedWorks created) := by
  simp [findOrCreate, h]

theorem findOrCreate_of_raised {e : SaveError} (h : createWork env p db = .error e)
    (he : e.rescued = false) :
    findOrCreate env p db = (.error e.raised, db) := by
  simp [findOrCreate, h, he]

theorem findOrCreate_of_conflict {e : SaveError} (h : createWork env p db = .error e)
    (he : e.rescued = true) (hc : Conflict.of? e.message = some c) :
    findOrCreate env p db = rescueConflict env c p db := by
  simp [findOrCreate, h, he, hc]

theorem findOrCreate_of_alert {e : SaveError} (h : createWork env p db = .error e)
    (he : e.rescued = true) (hc : Conflict.of? e.message = none) :
    findOrCreate env p db = (.ok .nil, alertInvalid env e.message p db) := by
  simp [findOrCreate, h, he, hc]

/-- What the writes of `find_or_create` preserve, it preserves: creating a work,
updating one, relations and an alert. -/
theorem findOrCreate_preserves {P : Db → Prop} (h : P db)
    (hcreate : ∀ id db', createWork env p db = .ok (id, db') → P db')
    (hupdate : ∀ w q db', updateAttributes env w q db = .ok (some db') → P db')
    (hrelations : ∀ id db', P db' → P (updateRelations env id p.relatedWorks db'))
    (halert : ∀ message, P (alertInvalid env message p db)) : P (findOrCreate env p db).2 := by
  cases hresult : createWork env p db with
  | ok created =>
    rw [findOrCreate_of_created hresult]
    exact hrelations _ _ (hcreate _ _ hresult)
  | error e =>
    cases he : e.rescued with
    | false =>
      rw [findOrCreate_of_raised hresult he]
      exact h
    | true =>
      cases hc : Conflict.of? e.message with
      | none =>
        rw [findOrCreate_of_alert hresult he hc]
        exact halert _
      | some c =>
        rw [findOrCreate_of_conflict hresult he hc]
        rcases rescueConflict_cases env c p db with ⟨_, hres⟩ | ⟨_, _, _, _, _, hres⟩ |
          ⟨_, _, _, hres⟩ | ⟨_, _, _, _, hupdated, hres⟩
        all_goals rw [hres]
        · exact h
        · exact h
        · exact hrelations _ _ h
        · exact hrelations _ _ (hupdate _ _ _ hupdated)

/-- The first conflict whose column is taken decides the branch. -/
theorem findOrCreate_of_taken (hquiet : env.Quiet)
    (h : Conflict.all.find? (fun c => p.build.isTaken env db.works.rows c.column) = some c) :
    findOrCreate env p db = rescueConflict env c p db := by
  have htaken : p.build.isTaken env db.works.rows c.column = true :=
    List.find?_some (p := fun c : Conflict => p.build.isTaken env db.works.rows c.column) h
  have hcreate := createWork_of_rejected.mpr
    (Work.rejection_of_taken (by cases c <;> decide) htaken)
  refine findOrCreate_of_conflict hcreate rfl ?_
  exact (Conflict.of?_invalidMessage hquiet db.works.rows p.build).trans h

/-! ## The conflict of parameters with a table -/

/-- The text of `RecordNotUnique` for these parameters names the index that was
violated and no other. -/
def HonestText (env : Env) (p : Params) : Prop :=
  ∀ index ∈ Work.uniqueIndexes, ∀ c ∈ Conflict.all,
    Conflict.isIn (env.duplicateEntry index.2.2 (p.build.row env)) c = true ↔ index.1 = c.column

namespace Params

/-- The first of doi, pmid, ark and pid that some row has exactly as the
normalised parameters have it. If there is none, and nothing else is wrong
with the parameters, that of the first unique index in which a row collides
with the row they would be stored as. -/
def conflict (env : Env) (p : Params) (rows : List Work) : Option Conflict :=
  (Conflict.all.find? (fun c => p.build.isTaken env rows c.column)).or
    (if (p.build.errors env rows).isEmpty && (p.build.row env).fits then
      (Work.uniqueIndexes.find? (fun index =>
          rows.any (Work.collides env index (p.build.row env)))).bind
        (fun index => Conflict.all.find? (fun c => index.1 == c.column))
    else none)

/-- The parameters are not valid, or their row would fit and collides with
another in a unique index. -/
def Rejected (env : Env) (p : Params) (rows : List Work) : Prop :=
  p.build.errors env rows ≠ [] ∨
    (p.build.row env).fits = true ∧ ∃ index ∈ Work.uniqueIndexes, ∃ other ∈ rows,
      Work.collides env index (p.build.row env) other = true

/-- The first work that has the column as it is given. -/
def FirstMatch (env : Env) (p : Params) (c : Column) (db : Db) (w : Work) : Prop :=
  w ∈ db.works.rows ∧ env.same (w.col c) (p.get c) = true ∧
    ∀ v ∈ db.works.rows, env.same (v.col c) (p.get c) = true → w.id ≤ v.id

end Params

theorem findWork_eq_some_iff {c : Column} :
    findWork env c p db = some w ↔ p.FirstMatch env c db w :=
  Table.first_eq_some_iff

section Conflicts

variable {rows : List Work} {e : SaveError}

/-- The index the database reports is one in which some row collides. -/
theorem mem_of_find_index {n : Work} {index : Column × Option Nat × String}
    (h : Work.uniqueIndexes.find? (fun index => rows.any (Work.collides env index n)) =
      some index) :
    index ∈ Work.uniqueIndexes ∧ ∃ other ∈ rows, Work.collides env index n other = true := by
  refine ⟨List.mem_of_find?_eq_some h, List.any_eq_true.mp ?_⟩
  exact List.find?_some (p := fun index => rows.any (Work.collides env index n)) h

/-- Rejected parameters are those for which `create!` raises one of the two
exceptions that are rescued. -/
theorem Params.rejected_iff :
    p.Rejected env rows ↔ ∃ e, p.build.rejection env rows = some e ∧ e.rescued = true := by
  unfold Params.Rejected
  by_cases hvalid : p.build.errors env rows = []
  · rw [Work.rejection_of_no_errors hvalid, Work.refusal]
    cases hfits : (p.build.row env).fits with
    | false => simp [hvalid, SaveError.rescued]
    | true =>
      simp only [hvalid, ne_eq, not_true_eq_false, false_or, true_and, Bool.not_true,
        Bool.false_eq_true, if_false, Option.map_eq_some_iff]
      constructor
      · rintro ⟨index, hindex, other, hother, hcollides⟩
        have hany : rows.any (Work.collides env index (p.build.row env)) = true :=
          List.any_eq_true.mpr ⟨other, hother, hcollides⟩
        obtain ⟨first, hfirst⟩ := Option.isSome_iff_exists.mp (List.find?_isSome
          (p := fun index => rows.any (Work.collides env index (p.build.row env)))
            |>.mpr ⟨index, hindex, hany⟩)
        exact ⟨_, ⟨first, hfirst, rfl⟩, rfl⟩
      · rintro ⟨_, ⟨index, hfind, rfl⟩, _⟩
        exact ⟨index, mem_of_find_index hfind⟩
  · rw [Work.rejection_of_errors hvalid]
    simp [hvalid, SaveError.rescued]

/-- Valid parameters have nothing that is taken. -/
theorem find_taken_eq_none (hvalid : p.build.errors env rows = []) :
    Conflict.all.find? (fun c => p.build.isTaken env rows c.column) = none := by
  refine List.find?_eq_none.mpr (fun c _ htaken => ?_)
  have hmem := Work.takenError_mem_of_isTaken (by cases c <;> decide) htaken
  rw [hvalid] at hmem
  cases hmem

theorem Params.conflict_of_taken
    (h : Conflict.all.find? (fun c => p.build.isTaken env rows c.column) = some c) :
    p.conflict env rows = some c := by
  rw [Params.conflict, h]
  rfl

/-- **The text and the values agree.** The branch that is read out of the
message is that of the conflict. -/
theorem Params.conflict_of_rejected (hquiet : env.Quiet) (htext : HonestText env p)
    (hreject : p.build.rejection env rows = some e) (he : e.rescued = true) :
    p.conflict env rows = Conflict.of? e.message := by
  by_cases hvalid : p.build.errors env rows = []
  · rw [Work.rejection_of_no_errors hvalid, Work.refusal] at hreject
    split at hreject
    next =>
      obtain rfl := Option.some.inj hreject
      cases he
    next hfits =>
      obtain ⟨index, hindex, rfl⟩ := Option.map_eq_some_iff.mp hreject
      have hfits' : (p.build.row env).fits = true := by simpa using hfits
      have hsearch : (fun c : Conflict => index.1 == c.column) =
          Conflict.isIn (env.duplicateEntry index.2.2 (p.build.row env)) := by
        funext c
        rw [Bool.eq_iff_iff, beq_iff_eq]
        exact (htext index (List.mem_of_find?_eq_some hindex) c (Conflict.mem_all c)).symm
      rw [Params.conflict, find_taken_eq_none hvalid, hvalid, hfits', hindex]
      show Conflict.all.find? (fun c => index.1 == c.column) = _
      rw [hsearch]
      rfl
  · rw [Work.rejection_of_errors hvalid] at hreject
    obtain rfl := Option.some.inj hreject
    rw [SaveError.message, Conflict.of?_invalidMessage hquiet]
    simp [Params.conflict, hvalid]

/-- Without a rejection there is no conflict. -/
theorem Params.rejected_of_conflict (h : p.conflict env rows = some c) : p.Rejected env rows := by
  by_cases hvalid : p.build.errors env rows = []
  · rw [Params.conflict, find_taken_eq_none hvalid, Option.none_or, hvalid] at h
    cases hfits : (p.build.row env).fits with
    | false => simp [hfits] at h
    | true =>
      simp only [hfits, List.isEmpty_nil, Bool.and_self, if_true] at h
      obtain ⟨index, hfind, _⟩ := Option.bind_eq_some_iff.mp h
      exact Or.inr ⟨hfits, index, mem_of_find_index hfind⟩
  · exact Or.inl hvalid

/-- A column in conflict is one the parameters have. -/
theorem Params.present_of_conflict (h : p.conflict env rows = some c) :
    present ((p.build.normalise env).col c.column) = true := by
  rcases Option.or_eq_some_iff.mp h with htaken | ⟨_, hindex⟩
  · have htaken : p.build.isTaken env rows c.column = true :=
      List.find?_some (p := fun c : Conflict => p.build.isTaken env rows c.column) htaken
    exact (Work.isTaken_iff.mp htaken).1
  · split at hindex
    next =>
      obtain ⟨index, hfind, hcolumn⟩ := Option.bind_eq_some_iff.mp hindex
      obtain ⟨_, other, _, hcollides⟩ := mem_of_find_index hfind
      have hc : index.1 = c.column := by
        simpa using List.find?_some (p := fun c : Conflict => index.1 == c.column) hcolumn
      by_contra hblank
      have hnone : (p.build.row env).col index.1 = none := by
        rw [hc]
        exact presence_of_blank (Bool.eq_false_iff.mpr hblank)
      simp [Work.collides, hnone] at hcollides
    next => cases hindex

/-- **Which branch `find_or_create` takes:** that of the conflict. -/
theorem findOrCreate_of_params_conflict (hquiet : env.Quiet) (htext : HonestText env p)
    (h : p.conflict env db.works.rows = some c) :
    findOrCreate env p db = rescueConflict env c p db := by
  obtain ⟨e, hreject, he⟩ := Params.rejected_iff.mp (Params.rejected_of_conflict h)
  refine findOrCreate_of_conflict (createWork_of_rejected.mpr hreject) he ?_
  rw [← Params.conflict_of_rejected hquiet htext hreject he, h]

end Conflicts

/-! ## Keeping to the works that match -/

/-- The identifiers of a work. -/
def Column.identifiers : List Column := [.doi, .pmid, .pmcid, .arxiv, .ark, .canonicalUrl]

/-- The two have a non-blank identifier in common. -/
def Work.SharesIdentifier (env : Env) (w n : Work) : Prop :=
  ∃ c ∈ Column.identifiers, present (n.col c) = true ∧ env.same (w.col c) (n.col c) = true

instance (env : Env) (w n : Work) : Decidable (w.SharesIdentifier env n) := by
  unfold Work.SharesIdentifier
  infer_instance

theorem Env.same_iff {a b : Option String} :
    env.same a b = true ↔ a.map env.collate = b.map env.collate := by
  cases a <;> cases b <;> simp [Env.same]

theorem Env.same_toLower (hlower : ∀ s, env.collate s.toLower = env.collate s)
    (a b : Option String) :
    env.same a (b.map String.toLower) = env.same a b := by
  cases a <;> cases b <;> simp [Env.same, hlower]

theorem Params.col_build (p : Params) (c : Column) : p.build.col c = p.get c := by
  show (p.col c).getD none = (p.col c).join
  cases p.col c <;> rfl

/-- Looking up the raw value or the normalised one makes no difference. -/
theorem Env.same_normalise (hlower : ∀ s, env.collate s.toLower = env.collate s) (hc : c ≠ .pid)
    (a : Option String) (p : Params) :
    env.same a ((p.build.normalise env).col c.lookup) = env.same a (p.get c.lookup) := by
  cases c with
  | doi =>
    rw [Conflict.lookup, Work.col_normalise env _ (by decide), Params.col_build]
    unfold normalCol loweredDoi
    simp only
    split
    · rw [Env.same_toLower hlower]
    · rfl
  | pmid =>
    rw [Conflict.lookup, Work.col_normalise env _ (by decide), Params.col_build]
    rfl
  | ark =>
    rw [Conflict.lookup, Work.col_normalise env _ (by decide), Params.col_build]
    rfl
  | pid => exact absurd rfl hc

/-- The id is that of a work that was not there before. -/
def IsNewWork (id : Nat) (db db' : Db) : Prop :=
  (∀ w ∈ db.works.rows, w.id ≠ id) ∧ ∃ w ∈ db'.works.rows, w.id = id

/-- `find_or_create` returns nil or a work, and the works it returns or
changes are new or have an identifier in common with the parameters. -/
def FindsOnlyMatches (env : Env) (p : Params) (db : Db) : Prop :=
  ∃ returned db', findOrCreate env p db = (.ok returned, db') ∧
    (returned = .nil ∨ ∃ id, returned = .work id) ∧
    (∀ id, returned = .work id → IsNewWork id db db' ∨
      ∃ w ∈ db.works.rows, w.id = id ∧ w.SharesIdentifier env (p.build.normalise env)) ∧
    ∀ w ∈ db.works.rows, w ∉ db'.works.rows → w.SharesIdentifier env (p.build.normalise env)

/-- Nothing is returned and no work is touched. -/
theorem findsOnlyMatches_of_nil {db db' : Db} (hrun : findOrCreate env p db = (.ok .nil, db'))
    (hworks : db'.works = db.works) :
    FindsOnlyMatches env p db := by
  refine ⟨.nil, db', hrun, Or.inl rfl, ?_, ?_⟩
  · intro id hid
    cases hid
  · intro w hw hgone
    rw [hworks] at hgone
    exact absurd hw hgone

/-- What a branch returns is the work it has found. -/
theorem returned_rescueConflict {db db' : Db} {returned : Returned}
    (hfind : findWork env c.lookup p db = some w)
    (hrun : rescueConflict env c p db = (.ok returned, db')) : returned = .work w.id := by
  rcases rescueConflict_cases env c p db with ⟨hnone, _⟩ | ⟨v, e', _, _, _, h⟩ |
    ⟨v, hv, _, h⟩ | ⟨v, db'', hv, _, _, h⟩
  · rw [hfind] at hnone
    cases hnone
  · rw [h] at hrun
    cases (Prod.mk.inj hrun).1
  all_goals
    rw [hfind] at hv
    obtain rfl := Option.some.inj hv
    rw [h] at hrun
    exact (Except.ok.inj (Prod.mk.inj hrun).1).symm

/-- A branch that finds a work and does not raise returns that work. -/
theorem rescueConflict_of_find (hfind : findWork env c.lookup p db = some w) :
    (∃ db', rescueConflict env c p db = (.ok (.work w.id), db')) ↔
      (p.isTracked = true →
        ∃ updated, updateAttributes env w (p.except c.lookup) db = .ok updated) := by
  rcases rescueConflict_cases env c p db with ⟨hnone, _⟩ | ⟨v, e, hv, htracked, hupdate, h⟩ |
    ⟨v, hv, hunsaved, h⟩ | ⟨v, db', hv, htracked, hsaved, h⟩
  · rw [hfind] at hnone
    cases hnone
  all_goals
    obtain rfl : w = v := by
      rw [hfind] at hv
      exact Option.some.inj hv
  · rw [h]
    constructor
    · rintro ⟨db', heq⟩
      cases (Prod.mk.inj heq).1
    · intro hok
      obtain ⟨updated, hok⟩ := hok htracked
      rw [hupdate] at hok
      cases hok
  · exact ⟨fun _ ht => ⟨none, hunsaved ht⟩, fun _ => ⟨_, h⟩⟩
  · exact ⟨fun _ _ => ⟨some db', hsaved⟩, fun _ => ⟨_, h⟩⟩

/-- The work that is found matches, and only its row may have changed. -/
theorem findsOnlyMatches_of_found {db db' : Db}
    (hrun : findOrCreate env p db = rescueConflict env c p db)
    (hfind : findWork env c.lookup p db = some w)
    (hmatch : w.SharesIdentifier env (p.build.normalise env))
    (hbranch : rescueConflict env c p db = (.ok (.work w.id), db')) :
    FindsOnlyMatches env p db := by
  refine ⟨.work w.id, db', hrun.trans hbranch, Or.inr ⟨w.id, rfl⟩, ?_, ?_⟩
  · intro id hid
    cases hid
    exact Or.inr ⟨w, findWork_mem hfind, rfl, hmatch⟩
  · intro v hv hgone
    by_cases hvw : v = w
    · rw [hvw]
      exact hmatch
    · have hkept : v ∈ (rescueConflict env c p db).2.works.rows := by
        refine mem_rescueConflict hv (fun u hu => ?_)
        rw [hfind] at hu
        rw [← Option.some.inj hu]
        exact hvw
      rw [hbranch] at hkept
      exact absurd hkept hgone

/-- In the branches for doi, pmid and ark the work found has the identifier in
common with the parameters. -/
theorem sharesIdentifier_of_firstMatch (hlower : ∀ s, env.collate s.toLower = env.collate s)
    (hc : c ≠ .pid) (hp : present ((p.build.normalise env).col c.column) = true)
    (h : p.FirstMatch env c.lookup db w) : w.SharesIdentifier env (p.build.normalise env) := by
  have hlookup : c.column = c.lookup := by cases c <;> first | rfl | exact absurd rfl hc
  refine ⟨c.lookup, ?_, hlookup ▸ hp, ?_⟩
  · cases c <;> decide
  · rw [Env.same_normalise hlower hc]
    exact h.2.1

/-- What the lookup by URL finds is about the parameters: they have a URL that
cleaning leaves the same, or another identifier in common with the work. -/
def Params.MeansWork (env : Env) (p : Params) (w : Work) : Prop :=
  (present ((p.build.normalise env).col .canonicalUrl) = true ∧
    env.same (p.get .canonicalUrl) ((p.build.normalise env).col .canonicalUrl) = true) ∨
  ∃ c ∈ [Column.doi, .pmid, .pmcid, .arxiv, .ark], present ((p.build.normalise env).col c) = true ∧
    env.same (w.col c) ((p.build.normalise env).col c) = true

theorem sharesIdentifier_iff_meansWork
    (h : env.same (w.col .canonicalUrl) (p.get .canonicalUrl) = true) :
    w.SharesIdentifier env (p.build.normalise env) ↔ p.MeansWork env w := by
  have hurl : env.same (w.col .canonicalUrl) ((p.build.normalise env).col .canonicalUrl) =
      env.same (p.get .canonicalUrl) ((p.build.normalise env).col .canonicalUrl) := by
    rw [Bool.eq_iff_iff, Env.same_iff, Env.same_iff, Env.same_iff.mp h]
  simp only [Work.SharesIdentifier, Params.MeansWork, Column.identifiers, List.mem_cons,
    List.not_mem_nil, or_false, exists_eq_or_imp, exists_eq_left, hurl]
  tauto

/-- The database takes the update of a work if the validations do: the row
fits and collides with no other. -/
def Work.TakesUpdate (env : Env) (w : Work) (p : Params) (db : Db) : Prop :=
  (w.assign p).errors env (w.others db) = [] →
    ((w.assign p).row env).fits = true ∧ ∀ index ∈ Work.uniqueIndexes, ∀ other ∈ w.others db,
      Work.collides env index ((w.assign p).row env) other = false

/-- That is all `update_attributes` needs not to raise. -/
theorem Work.takesUpdate_iff :
    w.TakesUpdate env p db ↔ ∃ updated, updateAttributes env w p db = .ok updated := by
  have hothers : (w.assign p).others db = w.others db := rfl
  unfold Work.TakesUpdate updateAttributes
  rw [← Work.refusal_eq_none]
  simp only [hothers]
  by_cases hvalid : (w.assign p).errors env (w.others db) = []
  · cases hrefusal : ((w.assign p).row env).refusal env (w.others db) <;> simp [hvalid]
  · simp [hvalid]

/-- Libraries that leave everything as it is, and a database that ignores
case, on 1 June 2015. -/
def plainEnv : Env where
  today := ⟨2015, 6, 1, by decide⟩
  now := 1433116800
  clean := fun url => .ok url
  encode := id
  sanitize := id
  collate := fun s => String.ofList (s.toList.map Char.toLower)
  duplicateEntry := fun index _ => "Mysql2::Error: Duplicate entry for key '" ++ index ++ "'"
  validCron := fun _ => true

/-- One work known by its DOI, one by its arXiv id. -/
def doiAndArxiv : Db where
  works := (Table.empty.insert
      { col := fun
          | .doi => some "10.1234/one"
          | .pid => some "http://doi.org/10.1234/one"
          | _ => none
        title := some "One" }).insert
      { col := fun
          | .arxiv => some "1412.1234"
          | .pid => some "http://arxiv.org/abs/1412.1234"
          | _ => none
        title := some "Two" }

/-- The second work is reported once more. -/
def arxivAgain : Params where
  col := fun
    | .doi | .pmid | .pmcid | .canonicalUrl => some none
    | .arxiv => some (some "1412.1234")
    | _ => none
  title := some (some "Two")
  year := some (some 2014)
  tracked := some (.bool false)

theorem plainEnv_quiet : plainEnv.Quiet := by
  intro url message h
  cases h

theorem plainEnv_lower (s : String) : plainEnv.collate s.toLower = plainEnv.collate s := by
  show String.ofList ((s.map Char.toLower).toList.map Char.toLower) =
    String.ofList (s.toList.map Char.toLower)
  rw [String.toList_map, List.map_map]
  congr 1
  exact List.map_congr_left (fun c _ => char_toLower_toLower c)

theorem plainEnv_charwise : plainEnv.Charwise := Env.charwise_of_map (fun _ => rfl)

theorem honestText_plainEnv (p : Params) : HonestText plainEnv p := by
  have hindexes : ∀ index ∈ Work.uniqueIndexes, ∀ c ∈ Conflict.all,
      Conflict.isIn (plainEnv.duplicateEntry index.2.2 {}) c = true ↔ index.1 = c.column := by
    simp only [Conflict.isIn, includes_eq_occurs, plainEnv, String.toList_append]
    decide +kernel
  exact hindexes

/-- The first work is reported with its pmid, and its DOI in other letters. -/
def doiInCapitals : Params where
  col := fun
    | .doi => some (some "10.1234/ONE")
    | .pmid => some (some "17183658")
    | _ => none
  title := some (some "One")
  year := some (some 2014)
  tracked := some (.bool true)

end Lagotto
