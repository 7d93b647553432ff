/-
Lagotto.Retrieval.UpdateWorksTheorems — the existing works under
`update_works` of a source whose `tracked` option is off.

An invariant of single `find_or_create` calls is one of whole `update_works`
calls (`updateWorks_preserves`). An item whose `tracked` is false in a
condition adds works and leaves the others alone. The option decides that
only if it reaches the item as a false value: the form submits the string
"0", which is true in a condition, some classes take a missing option for
true, and one does not ask.
-/
import Lagotto.Retrieval.UpdateWorks
import Lagotto.Work.IdempotenceTheorems

namespace Lagotto

open Relational

/-- One step of a call: the call ends with an exception, or goes on from the
database the item leaves. -/
theorem updateWorks_cons (env : Env) (item : Item) (items : List Item) (db : Db) :
    (∃ e, updateWorks env (item :: items) db =
        (.error e, (findOrCreate env (item.params env db) db).2) ∧
      updateWorksFinds env (item :: items) db = [(item, db)]) ∨
    (updateWorks env (item :: items) db =
        updateWorks env items (findOrCreate env (item.params env db) db).2 ∧
      updateWorksFinds env (item :: items) db =
        (item, db) :: updateWorksFinds env items (findOrCreate env (item.params env db) db).2) := by
  rw [updateWorks, updateWorksFinds]
  rcases findOrCreate env (item.params env db) db with ⟨returned, db'⟩
  rcases returned with e | _ | id | _
  · exact Or.inl ⟨e, rfl, rfl⟩
  · exact Or.inr ⟨rfl, rfl⟩
  · exact Or.inr ⟨rfl, rfl⟩
  · exact Or.inl ⟨noPid, rfl, rfl⟩

/-- What every `find_or_create` of a call preserves, the call preserves, also
if it ends with an exception. -/
theorem updateWorks_preserves {env : Env} {P : Db → Prop} {items : List Item}
    (hstep : ∀ item ∈ items, ∀ db, P db → P (findOrCreate env (item.params env db) db).2)
    {db : Db} (h : P db) : P (updateWorks env items db).2 := by
  induction items generalizing db with
  | nil => exact h
  | cons item items ih =>
    have hitem := hstep item (List.mem_cons_self ..) db h
    rcases updateWorks_cons env item items db with ⟨e, hend, _⟩ | ⟨hend, _⟩
    · rw [hend]
      exact hitem
    · rw [hend]
      exact ih (fun i hi => hstep i (List.mem_cons_of_mem _ hi)) hitem

/-- An untracked item leaves the works alone. -/
theorem mem_works_of_untracked {env : Env} {p : Params} (htracked : p.isTracked = false) {db : Db}
    {w : Work} (hw : w ∈ db.works.rows) : w ∈ (findOrCreate env p db).2.works.rows := by
  rcases works_findOrCreate env p db with h | h | ⟨_, _, _, _, _, _, _, hyes, _⟩
  · rw [h]
    exact hw
  · rw [h]
    exact Table.mem_insert.mpr (Or.inl hw)
  · rw [htracked] at hyes
    cases hyes

/-! ## The option -/

namespace Source

/-- The option was never set, or the form was saved with the box unchecked. -/
def SwitchedOff (s : Source) : Prop := s.config.tracked = .nil ∨ s.config.tracked = .str "0"

/-- Whatever the adapter reports, every row of `works` stays as it is. -/
def LeavesWorks (s : Source) : Prop :=
  ∀ env work mentions db, ∀ w ∈ db.works.rows,
    w ∈ (updateWorks env (s.getRelatedWorks env work mentions) db).2.works.rows

theorem tracked_getRelatedWorks {env : Env} {s : Source} {work : Work} {mentions : List Mention}
    {item : Item} (h : item ∈ s.getRelatedWorks env work mentions) :
    item.tracked = s.itemTracked ∧ s.type.reportsWorks = true := by
  obtain ⟨m, _, hm⟩ := List.mem_filterMap.mp h
  unfold relatedWork at hm
  simp only at hm
  split at hm
  next htype =>
    split at hm
    · cases hm
      exact ⟨rfl, by rw [htype]; rfl⟩
    · cases hm
  next htype =>
    split at hm
    · cases hm
      exact ⟨rfl, by rw [htype]; rfl⟩
    · cases hm
  next =>
    split at hm
    · next hreports =>
      cases hm
      exact ⟨rfl, hreports⟩
    · cases hm

theorem leavesWorks_of_untracked {s : Source} (h : s.itemTracked.truthy = false) :
    s.LeavesWorks := by
  intro env work mentions db w hw
  refine updateWorks_preserves (P := fun db => w ∈ db.works.rows) ?_ hw
  intro item hitem db hw
  refine mem_works_of_untracked ?_ hw
  rw [← (tracked_getRelatedWorks hitem).1] at h
  exact h

theorem leavesWorks_of_silent {s : Source} (h : s.type.reportsWorks = false) : s.LeavesWorks := by
  intro env work mentions db w hw
  refine updateWorks_preserves (P := fun db => w ∈ db.works.rows) ?_ hw
  intro item hitem
  rw [(tracked_getRelatedWorks hitem).2] at h
  cases h

end Source

/-! ## Overwriting -/

/-- A tracked item that can be saved into the work it is matched to takes the
place of its row. -/
theorem not_mem_works_of_saved {env : Env}
    (hquiet : env.Quiet) {p : Params} {db : Db} {c : Conflict}
    {w : Work} (hbranch : Conflict.all.find? (fun c => p.build.isTaken env db.works.rows c.column) =
      some c)
    (hfind : findWork env c.lookup p db = some w) (htracked : p.isTracked = true)
    (hvalid : (w.assign (p.except c.lookup)).rejection env (w.others db) = none)
    (hdiffers : updatedRow env p c w ≠ w) : w ∉ (findOrCreate env p db).2.works.rows := by
  rw [findOrCreate_of_taken hquiet hbranch]
  simp only [rescueConflict, hfind, htracked, if_true, updateAttributes_of_valid hvalid]
  intro hmem
  rcases Table.mem_put.mp hmem with ⟨_, hid⟩ | ⟨heq, _⟩
  · exact hid (id_updatedRow env p c w).symm
  · exact hdiffers heq.symm

theorem updateWorks_singleton (env : Env) (item : Item) (db : Db) :
    (updateWorks env [item] db).2 = (findOrCreate env (item.params env db) db).2 := by
  rcases updateWorks_cons env item [] db with ⟨e, hend, _⟩ | ⟨hend, _⟩
  · rw [hend]
  · rw [hend]
    rfl

namespace Item

/-- The work an item is about, under an older title. -/
def known (item : Item) : Work where
  id := 1
  col := fun
    | .doi => item.doi
    | .arxiv => item.arxiv
    | .canonicalUrl => item.url
    | .pid => (item.doi.map ("http://doi.org/" ++ ·)).or item.url
    | _ => none
  title := some "Old title"

/-- With that work in the table the item leads to the branch, finds the work
and can be saved into it. -/
def Overwrites (item : Item) (c : Conflict) : Prop :=
  Conflict.all.find? (fun c =>
    (item.params plainEnv {}).build.isTaken plainEnv [item.known] c.column) = some c ∧
  plainEnv.same (item.known.col c.lookup) ((item.params plainEnv {}).get c.lookup) = true ∧
  (item.known.assign ((item.params plainEnv {}).except c.lookup)).rejection plainEnv [] = none ∧
  (updatedRow plainEnv (item.params plainEnv {}) c item.known).title ≠ item.known.title

instance (item : Item) (c : Conflict) : Decidable (item.Overwrites c) := by
  unfold Overwrites
  infer_instance

/-- A new title for a work with a DOI. -/
def byDoi (v : Value) : Item where
  doi := some "10.1234/one"
  title := some "New title"
  dateParts := [2014]
  tracked := v

/-- A new title for a work with a URL. -/
def byUrl (url : String) (v : Value) : Item where
  url := some url
  title := some "New title"
  dateParts := [2014]
  tracked := v

/-- A new title for a work in arXiv. -/
def byArxiv (v : Value) : Item where
  arxiv := some "1412.1234"
  url := some "http://arxiv.org/abs/1412.1234"
  title := some "New title"
  dateParts := [2014]
  tracked := v

/-- The option as a checked box and as the unchecked box of the form. -/
def truthyOptions : List Value := [.bool true, .str "0"]

theorem byDoi_overwrites : ∀ v ∈ truthyOptions, (byDoi v).Overwrites .doi := by
  decide +kernel

theorem byUrl_overwrites : ∀ url ∈ ["http://example.org/one", "http://www.citeulike.org/user/one",
    "http://europepmc.org/abstract/MED/17183658", "http://twitter.com/user/status/1"],
    ∀ v ∈ truthyOptions, (byUrl url v).Overwrites .pid := by
  decide +kernel

theorem byArxiv_overwrites : ∀ v ∈ truthyOptions, (byArxiv v).Overwrites .pid := by
  decide +kernel

end Item

namespace Source

/-- What an item that overwrites its work means for the source. The relations
and the type of the item do not matter. -/
theorem not_leavesWorks {s : Source} {base : Item} {c : Conflict} (hbase : base.Overwrites c)
    (htracked : base.tracked.truthy = true) (m : Mention)
    (hitem : (s.relatedWork plainEnv {} m).map
      (fun item => { item with type := none, relatedWorks := [] }) = some base) :
    ¬ s.LeavesWorks := by
  intro hleaves
  obtain ⟨item, hitem, heq⟩ := Option.map_eq_some_iff.mp hitem
  obtain ⟨hbranch, hsame, hvalid, htitle⟩ := hbase
  have hmem := hleaves plainEnv {} [m] { works := Table.empty.insert base.known } base.known
    (List.mem_singleton.mpr rfl)
  have hitems : s.getRelatedWorks plainEnv {} [m] = [item] := by
    simp [getRelatedWorks, hitem]
  have hrows : ({ works := Table.empty.insert base.known } : Db).works.rows = [base.known] := rfl
  have hparams : item.params plainEnv { works := Table.empty.insert base.known } =
      { base.params plainEnv {} with relatedWorks := item.relatedWorks } := by
    rw [← heq]
    rfl
  have hyes : (base.params plainEnv {}).isTracked = true := htracked
  rw [hitems, updateWorks_singleton, hparams] at hmem
  -- from here on the parameters need not be computed
  generalize base.params plainEnv {} = p at hbranch hsame hvalid htitle hmem hyes
  have hfind : findWork plainEnv c.lookup { p with relatedWorks := item.relatedWorks }
      { works := Table.empty.insert base.known } = some base.known := by
    refine Table.first_eq_of_unique (List.mem_singleton.mpr rfl) hsame ?_
    intro w hw _
    rw [hrows] at hw
    exact List.mem_singleton.mp hw
  have hdiffers : updatedRow plainEnv { p with relatedWorks := item.relatedWorks } c base.known ≠
      base.known := fun heq => htitle (congrArg Work.title heq)
  have hothers : base.known.others { works := Table.empty.insert base.known } = [] := rfl
  refine not_mem_works_of_saved plainEnv_quiet hbranch hfind hyes ?_ hdiffers hmem
  rw [hothers]
  exact hvalid

/-- The value an item gets under a switched-off option. -/
theorem itemTracked_of_switchedOff {s : Source} (hoff : s.SwitchedOff) :
    (s.itemTracked.truthy = false ∧ (s.type = .plosComments ∨
      (s.config.tracked = .nil ∧ s.type.trackedDefault = false ∧
        s.type ≠ .articleCoverageCurated))) ∨
    (s.itemTracked ∈ Item.truthyOptions ∧ s.type ≠ .plosComments ∧
      ¬ (s.config.tracked = .nil ∧ s.type.trackedDefault = false ∧
        s.type ≠ .articleCoverageCurated)) := by
  unfold itemTracked
  split
  next htype => exact Or.inr ⟨by simp [Item.truthyOptions], by simp [htype], by simp [htype]⟩
  next htype => exact Or.inl ⟨rfl, Or.inl htype⟩
  next hcurated hcomments =>
    rcases hoff with hnil | hzero
    · cases hdefault : s.type.trackedDefault with
      | false =>
        refine Or.inl ⟨?_, Or.inr ⟨hnil, rfl, hcurated⟩⟩
        simp [tracked, hnil, Value.orElse, hdefault]
      | true =>
        refine Or.inr ⟨?_, hcomments, by simp⟩
        simp [tracked, hnil, Value.orElse, hdefault, Item.truthyOptions]
    · refine Or.inr ⟨?_, hcomments, by simp [hzero]⟩
      simp [tracked, hzero, Value.orElse, Item.truthyOptions]

/-- A class that reports works with a true value under `"tracked"` overwrites
one: a mention is enough that gives the identifier the class looks for. -/
theorem not_leavesWorks_of_truthy {s : Source} (hreports : s.type.reportsWorks = true)
    (hcomments : s.type ≠ .plosComments) (hv : s.itemTracked ∈ Item.truthyOptions) :
    ¬ s.LeavesWorks := by
  have htruthy : s.itemTracked.truthy = true := by
    rcases List.mem_cons.mp hv with h | h
    · rw [h]
      rfl
    · rw [List.mem_singleton.mp h]
      rfl
  have hdoi := Item.byDoi_overwrites _ hv
  have hurl := fun url hmem => Item.byUrl_overwrites url hmem _ hv
  have harxiv := Item.byArxiv_overwrites _ hv
  have hlink := hurl "http://example.org/one" (by decide)
  let title := some "New title"
  cases htype : s.type with
  | bmcFulltext | crossRef | datacite | dataciteData | europePmc | europePmcFulltext
  | natureOpensearch | plosFulltext | pubMed =>
    refine not_leavesWorks hdoi htruthy
      { doi := some "10.1234/one", title := title, dateParts := [2014] } ?_
    unfold relatedWork
    rw [htype]
    rfl
  | ads | adsFulltext =>
    refine not_leavesWorks harxiv htruthy
      { arxiv := some "1412.1234", title := title, dateParts := [2014] } ?_
    unfold relatedWork
    rw [htype]
    rfl
  | citeulike =>
    refine not_leavesWorks (hurl "http://www.citeulike.org/user/one" (by decide)) htruthy
      { account := "user", entry := "one", title := title, dateParts := [2014] } ?_
    unfold relatedWork
    rw [htype]
    rfl
  | europePmcData =>
    refine not_leavesWorks (hurl "http://europepmc.org/abstract/MED/17183658" (by decide)) htruthy
      { pmid := some "17183658", title := title, dateParts := [2014] } ?_
    unfold relatedWork
    rw [htype]
    rfl
  | twitter | twitterSearch =>
    refine not_leavesWorks (hurl "http://twitter.com/user/status/1" (by decide)) htruthy
      { account := "user", entry := "1", title := title, dateParts := [2014] } ?_
    unfold relatedWork
    rw [htype]
    rfl
  | articleCoverageCurated | github | nature | openedition | orcid | reddit | researchblogging
  | scienceSeeker | wikipedia | wordpress =>
    refine not_leavesWorks hlink htruthy
      { link := some "http://example.org/one", title := title, dateParts := [2014] } ?_
    unfold relatedWork
    rw [htype]
    rfl
  | plosComments => exact absurd htype hcomments
  | _ =>
    rw [htype] at hreports
    cases hreports

/-- **When a switched-off source leaves the existing works alone:** if its
class reports no works, or reports them without the option, or if the option
was never set and the class takes that for no. -/
theorem leaves_works_iff (s : Source) (hoff : s.SwitchedOff) :
    s.LeavesWorks ↔
      s.type.reportsWorks = false ∨ s.type = .plosComments ∨
        (s.config.tracked = .nil ∧ s.type.trackedDefault = false ∧
          s.type ≠ .articleCoverageCurated) := by
  rcases itemTracked_of_switchedOff hoff with ⟨hfalse, hwhy⟩ | ⟨htruthy, hcomments, hset⟩
  · exact ⟨fun _ => Or.inr hwhy, fun _ => leavesWorks_of_untracked hfalse⟩
  · constructor
    · intro hleaves
      left
      by_contra hreports
      exact not_leavesWorks_of_truthy (Bool.not_eq_false _ ▸ hreports) hcomments htruthy hleaves
    · rintro (hsilent | hcomments' | hset')
      · exact leavesWorks_of_silent hsilent
      · exact absurd hcomments' hcomments
      · exact absurd hset' hset

/-- CrossRef with the option never set. -/
def crossref : Source := { type := .crossRef, name := "crossref", title := "CrossRef" }

theorem crossref_leaves_works : crossref.LeavesWorks :=
  (leaves_works_iff crossref (Or.inl rfl)).mpr (Or.inr (Or.inr ⟨rfl, rfl, by decide⟩))

/-- The same source after the form was saved with the box unchecked. -/
theorem crossref_unchecked_overwrites : ¬ (crossref.setTracked (.str "0")).LeavesWorks :=
  not_leavesWorks_of_truthy rfl (by decide) (List.mem_cons_of_mem _ (List.mem_singleton.mpr rfl))

end Source

end Lagotto
