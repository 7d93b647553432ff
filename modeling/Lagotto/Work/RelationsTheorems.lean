/-
Lagotto.Work.RelationsTheorems — the relations table stays symmetric.

`update_relations` stores a link between two works as two rows, one per
direction, by two independent `first_or_create` that do not look at the
relation type. The same pair may be reported again from either side and with
another type. `Mirrored` is the invariant that rules a half-written or
mismatched pair out: links are unique, every row carries the level of its
type, and a row between two different works has its counterpart.

One item keeps it (`Mirrored.link`): either both rows of the pair are there
already or neither is. `relations_symmetric` is the statement for all runs.
-/
import Lagotto.StateMachine.Runs
import Lagotto.Work.FindOrCreateTheorems

namespace Lagotto

open Relational
open StateMachine

/-! ## Relation types and their inverses -/

section Types

variable (env : Env) (types : Table RelationType)

/-- `RelationType.where(name: relation_type.inverse_name).first`. -/
def RelationType.inverse (t : RelationType) : Option RelationType :=
  types.first (fun u => env.same (some u.name) t.inverseName)

/-- Every type has an inverse, whose inverse it is. -/
def InvolutiveTypes : Prop :=
  ∀ t ∈ types.rows, ∃ u, t.inverse env types = some u ∧ u.inverse env types = some t

end Types

/-- The rows an item of `related_works` stands for: none, or one in each
direction, of a type and its inverse. -/
theorem relationsFor_cases (env : Env) (db : Db) (workId : Nat) (item : RelatedWork) :
    relationsFor env db workId item = [] ∨
      ∃ relatedId sourceId, ∃ t ∈ db.relationTypes.rows, ∃ u,
        t.inverse env db.relationTypes = some u ∧
        relationsFor env db workId item =
          [{ workId := workId, relatedWorkId := relatedId, sourceId := some sourceId,
             relationTypeId := t.id, level := t.level },
           { workId := relatedId, relatedWorkId := workId, sourceId := some sourceId,
             relationTypeId := u.id, level := u.level }] := by
  unfold relationsFor
  dsimp only
  split
  next => exact Or.inl rfl
  next t ht =>
    split
    next related source u hrelated hsource hu =>
      exact Or.inr ⟨related.id, source.id, t, Table.first_mem ht, u, hu, rfl⟩
    next => exact Or.inl rfl

/-! ## The invariant -/

/-- The row links `a` to `b` for the source `s`. -/
def Relation.Links (r : Relation) (a b : Nat) (s : Option Nat) : Prop :=
  r.workId = a ∧ r.relatedWorkId = b ∧ r.sourceId = s

theorem Relation.sameLink_iff {r other : Relation} :
    r.sameLink other = true ↔ other.Links r.workId r.relatedWorkId r.sourceId := by
  simp [Relation.sameLink, Relation.Links, and_assoc]

/-- The row is of this type and carries its level. -/
def Relation.OfType (r : Relation) (t : RelationType) : Prop :=
  r.relationTypeId = t.id ∧ r.level = t.level

/-- `first_or_create` for a link that is not in the table. -/
theorem Relation.firstOrCreate_of_new {relations : Table Relation} {r : Relation}
    (hnew : ∀ s ∈ relations.rows, ¬ s.Links r.workId r.relatedWorkId r.sourceId) :
    (relations.firstOrCreate r.sameLink r).1 = relations.insert r := by
  have hnone : relations.first r.sameLink = none := by
    simpa only [Table.first_eq_none, ← Relation.sameLink_iff, Bool.not_eq_true] using hnew
  rw [Table.firstOrCreate_of_none hnone]

/-- `first_or_create` for a link that is. -/
theorem Relation.firstOrCreate_of_linked {relations : Table Relation} {r : Relation}
    (hold : ∃ s ∈ relations.rows, s.Links r.workId r.relatedWorkId r.sourceId) :
    (relations.firstOrCreate r.sameLink r).1 = relations := by
  obtain ⟨s, hs, hlink⟩ := hold
  obtain ⟨found, hfound⟩ := Table.exists_first hs (Relation.sameLink_iff.mpr hlink)
  rw [Table.firstOrCreate_of_first hfound]

/-- No two rows link the same works for the same source. -/
def UniqueLinks (relations : Table Relation) : Prop :=
  ∀ r ∈ relations.rows, ∀ r' ∈ relations.rows,
    r'.Links r.workId r.relatedWorkId r.sourceId → r' = r

theorem UniqueLinks.insert {relations : Table Relation} (h : UniqueLinks relations) {r : Relation}
    (hnew : ∀ s ∈ relations.rows, ¬ s.Links r.workId r.relatedWorkId r.sourceId) :
    UniqueLinks (relations.insert r) := by
  intro s hs s' hs' hlink
  rcases Table.mem_insert.mp hs with hs | rfl <;> rcases Table.mem_insert.mp hs' with hs' | rfl
  · exact h s hs s' hs' hlink
  · exact absurd ⟨hlink.1.symm, hlink.2.1.symm, hlink.2.2.symm⟩ (hnew s hs)
  · exact absurd hlink (hnew s' hs')
  · rfl

section Mirrored

variable (env : Env) (types : Table RelationType)

/-- The row `r'` is the other direction of `r`: of the inverse type. -/
def Relation.MirroredBy (r r' : Relation) : Prop :=
  r'.Links r.relatedWorkId r.workId r.sourceId ∧
    ∃ t ∈ types.rows, ∃ u ∈ types.rows,
      r.OfType t ∧ r'.OfType u ∧ t.inverse env types = some u

theorem Relation.MirroredBy.typed {env : Env} {types : Table RelationType} {r r' : Relation}
    (h : r.MirroredBy env types r') : ∃ t ∈ types.rows, r.OfType t := by
  obtain ⟨_, t, ht, _, _, hrt, _, _⟩ := h
  exact ⟨t, ht, hrt⟩

/-- What holds of the relations whatever has been reported so far. -/
structure Mirrored (relations : Table Relation) : Prop where
  unique : UniqueLinks relations
  typed : ∀ r ∈ relations.rows, ∃ t ∈ types.rows, r.OfType t
  mirror : ∀ r ∈ relations.rows, r.workId ≠ r.relatedWorkId →
    ∃ r' ∈ relations.rows, r.MirroredBy env types r'

variable {env types} {relations : Table Relation}

theorem Mirrored.empty : Mirrored env types Table.empty where
  unique := by simp [UniqueLinks]
  typed := by simp
  mirror := by simp

/-- The link back is in the table if the link is. -/
theorem Mirrored.linked_back (h : Mirrored env types relations) {a b : Nat} {source : Option Nat}
    (hold : ∃ s ∈ relations.rows, s.Links a b source) :
    ∃ s ∈ relations.rows, s.Links b a source := by
  obtain ⟨s, hs, rfl, rfl, rfl⟩ := hold
  by_cases hself : s.workId = s.relatedWorkId
  · exact ⟨s, hs, hself, hself.symm, rfl⟩
  · obtain ⟨s', hs', hback, _⟩ := h.mirror s hs hself
    exact ⟨s', hs', hback⟩

/-- A new row joins the table with its counterpart, which is another row
unless the work is related to itself. -/
theorem Mirrored.extend (h : Mirrored env types relations) {after : Table Relation}
    (hunique : UniqueLinks after) (hkept : ∀ s ∈ relations.rows, s ∈ after.rows)
    (hnew : ∀ s ∈ after.rows, s ∈ relations.rows ∨ (∃ t ∈ types.rows, s.OfType t) ∧
      (s.workId ≠ s.relatedWorkId → ∃ s' ∈ after.rows, s.MirroredBy env types s')) :
    Mirrored env types after where
  unique := hunique
  typed := fun s hs => (hnew s hs).elim (h.typed s) And.left
  mirror := by
    intro s hs hne
    rcases hnew s hs with hold | ⟨_, hmirror⟩
    · obtain ⟨s', hs', hback⟩ := h.mirror s hold hne
      exact ⟨s', hkept s' hs', hback⟩
    · exact hmirror hne

/-- The link of a work with itself is its own counterpart. -/
theorem Mirrored.insert_self (h : Mirrored env types relations) {r : Relation}
    (hnew : ∀ s ∈ relations.rows, ¬ s.Links r.workId r.relatedWorkId r.sourceId)
    (htyped : ∃ t ∈ types.rows, r.OfType t) (hself : r.workId = r.relatedWorkId) :
    Mirrored env types (relations.insert r) := by
  refine h.extend (h.unique.insert hnew) (fun s hs => Table.mem_insert.mpr (Or.inl hs))
    (fun s hs => ?_)
  rcases Table.mem_insert.mp hs with hs | rfl
  · exact Or.inl hs
  · exact Or.inr ⟨htyped, fun hne => absurd hself hne⟩

/-- A new link and its counterpart. -/
theorem Mirrored.insert_pair (h : Mirrored env types relations) {r r' : Relation}
    (hnew : ∀ s ∈ relations.rows, ¬ s.Links r.workId r.relatedWorkId r.sourceId)
    (hnew' : ∀ s ∈ (relations.insert r).rows,
      ¬ s.Links r'.workId r'.relatedWorkId r'.sourceId)
    (hthere : r.MirroredBy env types r') (hback : r'.MirroredBy env types r) :
    Mirrored env types ((relations.insert r).insert r') := by
  have hrow : Row.withId relations.nextId r ∈ ((relations.insert r).insert r').rows :=
    Table.mem_insert.mpr (Or.inl (Table.mem_insert.mpr (Or.inr rfl)))
  have hrow' : Row.withId (relations.insert r).nextId r' ∈
      ((relations.insert r).insert r').rows :=
    Table.mem_insert.mpr (Or.inr rfl)
  refine h.extend ((h.unique.insert hnew).insert hnew') (fun s hs => ?_) (fun s hs => ?_)
  · exact Table.mem_insert.mpr (Or.inl (Table.mem_insert.mpr (Or.inl hs)))
  · rcases Table.mem_insert.mp hs with hs | rfl
    · rcases Table.mem_insert.mp hs with hs | rfl
      · exact Or.inl hs
      · exact Or.inr ⟨hthere.typed, fun _ => ⟨_, hrow', hthere⟩⟩
    · exact Or.inr ⟨hback.typed, fun _ => ⟨_, hrow, hback⟩⟩

/-- The two rows of one item. The second `first_or_create` finds a row exactly
if the first one does, unless the work is related to itself. -/
theorem Mirrored.link (h : Mirrored env types relations) {r r' : Relation}
    (hthere : r.MirroredBy env types r') (hback : r'.MirroredBy env types r) :
    Mirrored env types (relations.firstOrCreateAll Relation.sameLink id [r, r']) := by
  obtain ⟨hw, hrw, hsource⟩ := hthere.1
  simp only [Table.firstOrCreateAll_cons, Table.firstOrCreateAll_nil, id_eq]
  by_cases hold : ∃ s ∈ relations.rows, s.Links r.workId r.relatedWorkId r.sourceId
  · rw [Relation.firstOrCreate_of_linked hold, Relation.firstOrCreate_of_linked]
    · exact h
    · rw [hw, hrw, hsource]
      exact h.linked_back hold
  have hnew : ∀ s ∈ relations.rows, ¬ s.Links r.workId r.relatedWorkId r.sourceId :=
    fun s hs hlink => hold ⟨s, hs, hlink⟩
  rw [Relation.firstOrCreate_of_new hnew]
  by_cases hself : r.workId = r.relatedWorkId
  · rw [Relation.firstOrCreate_of_linked]
    · exact h.insert_self hnew hthere.typed hself
    · rw [hw, hrw, hsource]
      exact ⟨_, Table.mem_insert.mpr (Or.inr rfl), hself, hself.symm, rfl⟩
  · have hnew' : ∀ s ∈ (relations.insert r).rows,
        ¬ s.Links r'.workId r'.relatedWorkId r'.sourceId := by
      rw [hw, hrw, hsource]
      intro s hs hlink
      rcases Table.mem_insert.mp hs with hs | rfl
      · exact hold (h.linked_back ⟨s, hs, hlink⟩)
      · exact hself hlink.1
    rw [Relation.firstOrCreate_of_new hnew']
    exact h.insert_pair hnew hnew' hthere hback

theorem Mirrored.relationsFor (h : Mirrored env types relations) (hinv : InvolutiveTypes env types)
    {db : Db} (htypes : db.relationTypes = types) (workId : Nat) (item : RelatedWork) :
    Mirrored env types
      (relations.firstOrCreateAll Relation.sameLink id (relationsFor env db workId item)) := by
  subst htypes
  rcases relationsFor_cases env db workId item with
    hnone | ⟨relatedId, sourceId, t, ht, u, hu, hrows⟩
  · rw [hnone]
    exact h
  · have humem := Table.first_mem hu
    have hback : u.inverse env db.relationTypes = some t := by
      obtain ⟨u', hu', hback⟩ := hinv t ht
      rw [hu] at hu'
      cases hu'
      exact hback
    rw [hrows]
    refine h.link ⟨⟨rfl, rfl, rfl⟩, ?_⟩ ⟨⟨rfl, rfl, rfl⟩, ?_⟩
    · exact ⟨t, ht, u, humem, ⟨rfl, rfl⟩, ⟨rfl, rfl⟩, hu⟩
    · exact ⟨u, humem, t, ht, ⟨rfl, rfl⟩, ⟨rfl, rfl⟩, hback⟩

/-- The loop over the items keeps the invariant. -/
theorem Mirrored.updateRelations (db : Db) (hinv : InvolutiveTypes env db.relationTypes)
    (h : Mirrored env db.relationTypes db.relations) (workId : Nat) (data : List RelatedWork) :
    Mirrored env db.relationTypes (updateRelations env workId data db).relations := by
  show Mirrored env db.relationTypes (db.relations.firstOrCreateAll Relation.sameLink id
    (data.flatMap (Lagotto.relationsFor env db workId)))
  generalize db.relations = relations at h
  induction data generalizing relations with
  | nil => exact h
  | cons item rest ih =>
    rw [List.flatMap_cons, Table.firstOrCreateAll_append]
    exact ih _ (h.relationsFor hinv rfl workId item)

end Mirrored

/-! ## Runs -/

/-- A call of `update_relations`, with the works and sources there are at the
time. -/
structure RelationsCall where
  workId : Nat
  data : List RelatedWork
  works : Table Work
  sources : Table Source

/-- The tables the call reads and writes. -/
def RelationsCall.db (types : Table RelationType) (call : RelationsCall)
    (relations : Table Relation) : Db where
  works := call.works
  sources := call.sources
  relationTypes := types
  relations := relations

/-- The relations after the call. -/
def RelationsCall.apply (env : Env) (types : Table RelationType) (call : RelationsCall)
    (relations : Table Relation) : Table Relation :=
  (updateRelations env call.workId call.data (call.db types relations)).relations

/-- Two different works are linked at most once for a source, in both
directions or not at all, by a type and its inverse, and on the level of the
type. -/
def SymmetricRelations (env : Env) (types : Table RelationType) (relations : Table Relation) :
    Prop :=
  ∀ a b source, a ≠ b →
    (∀ r ∈ relations.rows, ∀ r' ∈ relations.rows,
      r.Links a b (some source) → r'.Links a b (some source) → r' = r) ∧
    (∀ t ∈ types.rows, ∀ u, t.inverse env types = some u →
      ((∃ r ∈ relations.rows, r.Links a b (some source) ∧ r.relationTypeId = t.id) ↔
        ∃ r ∈ relations.rows, r.Links b a (some source) ∧ r.relationTypeId = u.id)) ∧
    ∀ r ∈ relations.rows, r.Links a b (some source) → ∃ t ∈ types.rows, r.OfType t

/-- The counterpart of a row between different works, of the inverse type. -/
theorem Mirrored.exists_counterpart {env : Env} {types : Table RelationType}
    {relations : Table Relation} (h : Mirrored env types relations) {a b : Nat}
    {source : Option Nat} (hne : a ≠ b) {t u : RelationType} (ht : t ∈ types.rows)
    (hu : t.inverse env types = some u)
    (hrow : ∃ r ∈ relations.rows, r.Links a b source ∧ r.relationTypeId = t.id) :
    ∃ r ∈ relations.rows, r.Links b a source ∧ r.relationTypeId = u.id := by
  obtain ⟨r, hr, ⟨rfl, rfl, rfl⟩, htype⟩ := hrow
  obtain ⟨r', hr', hlink, t', ht', u', _, hrt, hru, hinv⟩ := h.mirror r hr hne
  have hsame : t' = t := types.eq_of_id_eq ht' ht (hrt.1.symm.trans htype)
  rw [hsame, hu] at hinv
  cases hinv
  exact ⟨r', hr', hlink, hru.1⟩

/-- Whatever works report, in whatever order and however often, the relations
stay symmetric. -/
theorem relations_symmetric (env : Env) (types : Table RelationType)
    (hinv : InvolutiveTypes env types) (calls : List RelationsCall) :
    SymmetricRelations env types (run (RelationsCall.apply env types) calls Table.empty) := by
  have h : Mirrored env types (run (RelationsCall.apply env types) calls Table.empty) := by
    refine run_invariant (fun relations call h => ?_) Mirrored.empty calls
    exact Mirrored.updateRelations (call.db types relations) hinv h call.workId call.data
  intro a b source hne
  refine ⟨?_, fun t ht u hu => ⟨?_, ?_⟩, fun r hr _ => h.typed r hr⟩
  · rintro r hr r' hr' ⟨rfl, rfl, hs⟩ hlink
    exact h.unique r hr r' hr' (hs ▸ hlink)
  · exact h.exists_counterpart hne ht hu
  · obtain ⟨u', hu', hback⟩ := hinv t ht
    rw [hu] at hu'
    cases hu'
    exact h.exists_counterpart hne.symm (Table.first_mem hu) hback

/-- A relation type and its inverse, on different levels. -/
def citationTypes : Table RelationType :=
  (Table.empty.insert { name := "cites", inverseName := some "is_cited_by", level := 1 }).insert
    { name := "is_cited_by", inverseName := some "cites", level := 0 }

theorem involutive_citationTypes : InvolutiveTypes plainEnv citationTypes := by
  intro t ht
  simp only [citationTypes, Table.rows_insert, Table.rows_empty, List.nil_append,
    List.cons_append, List.mem_cons, List.not_mem_nil, or_false] at ht
  rcases ht with rfl | rfl <;> exact ⟨_, rfl, rfl⟩

/-- The source the reports come from. -/
def reporting : Table Source :=
  Table.empty.insert { type := .crossRef, name := "crossref", title := "CrossRef" }

/-- The first work reports that it cites the second, and the second one that
it cites the first. -/
def citesAndBack : List RelationsCall :=
  [{ workId := 1, works := doiAndArxiv.works, sources := reporting,
     data := [⟨"http://arxiv.org/abs/1412.1234", "crossref", some "cites"⟩] },
   { workId := 2, works := doiAndArxiv.works, sources := reporting,
     data := [⟨"http://doi.org/10.1234/one", "crossref", some "cites"⟩] }]

/-- The second report is dropped, and the first one is stored both ways. -/
theorem citesAndBack_symmetric :
    (run (RelationsCall.apply plainEnv citationTypes) citesAndBack Table.empty).rows =
        [⟨1, 1, 2, some 1, 1, 1⟩, ⟨2, 2, 1, some 1, 2, 0⟩] ∧
      SymmetricRelations plainEnv citationTypes
        (run (RelationsCall.apply plainEnv citationTypes) citesAndBack Table.empty) :=
  ⟨by decide +kernel,
    relations_symmetric plainEnv citationTypes involutive_citationTypes citesAndBack⟩

end Lagotto
