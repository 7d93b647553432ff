/-
Lagotto.Work.RelationTypes — the seeded relation types, and which reported
relations are stored with them (`db/seeds/relation_types.rb`).

`update_relations` drops an item whose relation type has no inverse in the
table, and it keeps a row it finds for the same two works and source whatever
its type. `reported_iff` says exactly which items are stored as they were
reported: the inverse is among the seeds, and no row of another type is in
the way, in either direction.

Nothing is needed about the items before and after in the same call. Those
before only leave a table, and those after find a row for the link and add
none (`typedLink_firstOrCreateAll`).
-/
import Lagotto.Work.RelationsTheorems

namespace Lagotto

open Relational

/-! ## Seeds -/

/-- A type with its inverse, on a level. -/
def relationTypeSeed (level : Int) (name inverseName : String) : RelationType where
  name := name
  inverseName := some inverseName
  level := level

/-- `db/seeds/relation_types.rb`. -/
def relationTypeSeeds : List RelationType :=
  -- references
  [relationTypeSeed 1 "cites" "is_cited_by",
    relationTypeSeed 1 "is_cited_by" "cites",
    relationTypeSeed 1 "Is_supplement_to" "is_supplemented_by",
    relationTypeSeed 1 "is_supplemented_by" "is_supplement_to",
    relationTypeSeed 1 "continues" "is_continued_by",
    relationTypeSeed 1 "is_continued_by" "continues",
    relationTypeSeed 1 "is_metadata_for" "has_metadata",
    relationTypeSeed 1 "has_metadata" "is_metadata_of",
    relationTypeSeed 1 "is_part_of" "has_part",
    relationTypeSeed 1 "has_part" "is_part_of",
    relationTypeSeed 1 "references" "is_referenced_by",
    relationTypeSeed 1 "is_referenced_by" "references",
    relationTypeSeed 1 "documents" "is_documented_by",
    relationTypeSeed 1 "is_documented_by" "documents",
    relationTypeSeed 1 "compiles" "is_compiled_by",
    relationTypeSeed 1 "is_compiled_by" "compiles",
    relationTypeSeed 1 "reviews" "is_reviewed_by",
    relationTypeSeed 1 "is_reviewed_by" "reviews",
    relationTypeSeed 1 "is_derived_from" "is_source_of",
    relationTypeSeed 1 "is_source_of" "is_derived_from",
    -- custom references needed for lagotto
    relationTypeSeed 1 "discusses" "is_discussed_by",
    relationTypeSeed 1 "is_discussed_by" "discusses",
    relationTypeSeed 1 "bookmarks" "is_bookmarked_by",
    relationTypeSeed 1 "is_bookmarked_by" "bookmarks",
    relationTypeSeed 1 "recommends" "is_recommended_by",
    relationTypeSeed 1 "is_recommended_by" "recommends",
    -- versions
    relationTypeSeed 0 "is_new_version_of" "is_previous_version_of",
    relationTypeSeed 0 "is_previous_version_of" "is_new_version_of",
    relationTypeSeed 0 "is_variant_form_of" "is_original_form_of",
    relationTypeSeed 0 "is_orginal_form_of" "is_variant_form_of",
    relationTypeSeed 0 "is_identical_to" "is_identical_to",
    -- custom versions needed for lagotto
    relationTypeSeed 0 "corrects" "is_corrected_by",
    relationTypeSeed 0 "is_corrected_by" "corrects"]

/-- The table after `rake db:seed`. -/
def seededRelationTypes (env : Env) : Table RelationType :=
  Table.empty.firstOrCreateAll (fun seed t => env.same (some t.name) (some seed.name)) id
    relationTypeSeeds

/-- No two types have names that the database takes for the same. -/
def UniqueNames (env : Env) (types : Table RelationType) : Prop :=
  ∀ t ∈ types.rows, ∀ u ∈ types.rows, env.same (some t.name) (some u.name) = true → t = u

theorem Env.same_comm (env : Env) (a b : Option String) : env.same a b = env.same b a := by
  cases a <;> cases b <;> simp [Env.same, Bool.beq_comm]

theorem UniqueNames.firstOrCreate {env : Env} {types : Table RelationType}
    (h : UniqueNames env types) (seed : RelationType) :
    UniqueNames env
      (types.firstOrCreate (fun t => env.same (some t.name) (some seed.name)) seed).1 := by
  intro t ht u hu hsame
  rcases Table.mem_firstOrCreate.mp ht with ht | ⟨hnone, rfl⟩
  · rcases Table.mem_firstOrCreate.mp hu with hu | ⟨hnone, rfl⟩
    · exact h t ht u hu hsame
    · cases hsame.symm.trans (Table.first_eq_none.mp hnone t ht)
  · rcases Table.mem_firstOrCreate.mp hu with hu | ⟨_, rfl⟩
    · rw [Env.same_comm] at hsame
      cases hsame.symm.trans (Table.first_eq_none.mp hnone u hu)
    · rfl

theorem uniqueNames_seeded (env : Env) : UniqueNames env (seededRelationTypes env) := by
  have hall : ∀ (seeds : List RelationType) (types : Table RelationType), UniqueNames env types →
      UniqueNames env (types.firstOrCreateAll
        (fun seed t => env.same (some t.name) (some seed.name)) id seeds) := by
    intro seeds
    induction seeds with
    | nil => exact fun _ h => h
    | cons seed rest ih => exact fun types h => ih _ (h.firstOrCreate seed)
  exact hall _ _ (by simp [UniqueNames])

/-- The name of a seeded type is looked up to that type. -/
theorem first_seeded (env : Env) {t : RelationType} (ht : t ∈ (seededRelationTypes env).rows) :
    (seededRelationTypes env).first (fun u => env.same (some u.name) (some t.name)) = some t := by
  refine Table.first_eq_of_unique ht (by simp [Env.same]) fun u hu hsame => ?_
  exact uniqueNames_seeded env u hu t ht hsame

/-! ## Links of a type -/

section Links

variable {relations : Table Relation} {a b : Nat} {source : Option Nat} {typeId : Nat}

/-- There is a row for the link that has the type. -/
def TypedLink (relations : Table Relation) (a b : Nat) (source : Option Nat) (typeId : Nat) :
    Prop :=
  ∃ r ∈ relations.rows, r.Links a b source ∧ r.relationTypeId = typeId

/-- There is a row for the link. -/
def Linked (relations : Table Relation) (a b : Nat) (source : Option Nat) : Prop :=
  ∃ r ∈ relations.rows, r.Links a b source

/-- Where the link is in the table, no row is added for it. -/
theorem typedLink_firstOrCreateAll (hlinked : Linked relations a b source)
    (items : List Relation) :
    TypedLink (relations.firstOrCreateAll Relation.sameLink id items) a b source typeId ↔
      TypedLink relations a b source typeId := by
  constructor
  · rintro ⟨r, hr, hlink, htype⟩
    rcases Table.mem_firstOrCreateAll_cases _ _ hr with hold | ⟨item, _, hnone, n, rfl⟩
    · exact ⟨r, hold, hlink, htype⟩
    · obtain ⟨s, hs, hslink⟩ := hlinked
      have hselected : item.sameLink s = true := by
        obtain ⟨rfl, rfl, rfl⟩ := hlink
        exact Relation.sameLink_iff.mpr hslink
      rw [hnone s hs] at hselected
      cases hselected
  · rintro ⟨r, hr, hrow⟩
    exact ⟨r, Table.mem_firstOrCreateAll_of_mem _ _ hr, hrow⟩

theorem TypedLink.linked (h : TypedLink relations a b source typeId) :
    Linked relations a b source := by
  obtain ⟨r, hr, hlink, _⟩ := h
  exact ⟨r, hr, hlink⟩

theorem linked_firstOrCreate_self {r : Relation} (hr : r.Links a b source) :
    Linked (relations.firstOrCreate r.sameLink r).1 a b source := by
  obtain ⟨rfl, rfl, rfl⟩ := hr
  by_cases hlinked : Linked relations r.workId r.relatedWorkId r.sourceId
  · rwa [Relation.firstOrCreate_of_linked hlinked]
  · rw [Relation.firstOrCreate_of_new fun s hs hlink => hlinked ⟨s, hs, hlink⟩]
    exact ⟨_, Table.mem_insert.mpr (Or.inr rfl), rfl, rfl, rfl⟩

/-- The row of an item has its type unless a row of another type was found. -/
theorem typedLink_firstOrCreate_self {r : Relation} (hr : r.Links a b source) (typeId : Nat) :
    TypedLink (relations.firstOrCreate r.sameLink r).1 a b source typeId ↔
      TypedLink relations a b source typeId ∨
        ¬ Linked relations a b source ∧ r.relationTypeId = typeId := by
  obtain ⟨rfl, rfl, rfl⟩ := hr
  by_cases hlinked : Linked relations r.workId r.relatedWorkId r.sourceId
  · rw [Relation.firstOrCreate_of_linked hlinked]
    simp [hlinked]
  · have hnew : ∀ s ∈ relations.rows, ¬ s.Links r.workId r.relatedWorkId r.sourceId :=
      fun s hs hlink => hlinked ⟨s, hs, hlink⟩
    rw [Relation.firstOrCreate_of_new hnew]
    simp only [TypedLink, Table.mem_insert, or_and_right, exists_or, exists_eq_left]
    simp [hlinked, Relation.Links, Row.withId]

/-- The row of another link does not matter. -/
theorem mem_firstOrCreate_links {r s : Relation} (hother : ¬ r.Links a b source)
    (hs : s ∈ (relations.firstOrCreate r.sameLink r).1.rows) (hlink : s.Links a b source) :
    s ∈ relations.rows := by
  rcases Table.mem_firstOrCreate.mp hs with hs | ⟨_, rfl⟩
  · exact hs
  · exact absurd hlink hother

theorem typedLink_firstOrCreate_of_ne {r : Relation} (hother : ¬ r.Links a b source) :
    TypedLink (relations.firstOrCreate r.sameLink r).1 a b source typeId ↔
      TypedLink relations a b source typeId := by
  constructor
  · rintro ⟨s, hs, hlink, htype⟩
    exact ⟨s, mem_firstOrCreate_links hother hs hlink, hlink, htype⟩
  · rintro ⟨s, hs, hrow⟩
    exact ⟨s, Table.mem_firstOrCreate_of_mem hs, hrow⟩

theorem linked_firstOrCreate_of_ne {r : Relation} (hother : ¬ r.Links a b source) :
    Linked (relations.firstOrCreate r.sameLink r).1 a b source ↔ Linked relations a b source := by
  constructor
  · rintro ⟨s, hs, hlink⟩
    exact ⟨s, mem_firstOrCreate_links hother hs hlink, hlink⟩
  · rintro ⟨s, hs, hlink⟩
    exact ⟨s, Table.mem_firstOrCreate_of_mem hs, hlink⟩

end Links

/-! ## Reported relations -/

/-- The relation is stored as it was reported: a row of the type, and a row
back of the inverse type. -/
def Reported (env : Env) (types : Table RelationType) (relations : Table Relation) (a b : Nat)
    (source : Option Nat) (t : RelationType) : Prop :=
  ∃ u, t.inverse env types = some u ∧ TypedLink relations a b source t.id ∧
    TypedLink relations b a source u.id

/-- There is a row of the type, or none for the link. -/
def OpenFor (relations : Table Relation) (a b : Nat) (source : Option Nat) (typeId : Nat) : Prop :=
  TypedLink relations a b source typeId ∨ ¬ Linked relations a b source

/-- The inverse is among the types, and no row of another type is in the way.
A work that is related to itself has one link only. -/
def Reportable (env : Env) (types : Table RelationType) (relations : Table Relation) (a b : Nat)
    (source : Option Nat) (t : RelationType) : Prop :=
  ∃ u, t.inverse env types = some u ∧ OpenFor relations a b source t.id ∧
    OpenFor relations b a source u.id ∧ (a = b → Linked relations a b source ∨ t.id = u.id)

section Reported

variable {relations : Table Relation} {a b : Nat} {source : Option Nat}

/-- The two `first_or_create` of an item for different works. -/
theorem typedLinks_of_ne {r r' : Relation} (hr : r.Links a b source) (hr' : r'.Links b a source)
    (hne : a ≠ b) :
    (TypedLink (relations.firstOrCreateAll Relation.sameLink id [r, r']) a b source
        r.relationTypeId ∧
      TypedLink (relations.firstOrCreateAll Relation.sameLink id [r, r']) b a source
        r'.relationTypeId) ↔
    OpenFor relations a b source r.relationTypeId ∧
      OpenFor relations b a source r'.relationTypeId := by
  have hforth : ¬ r.Links b a source := fun h => hne (hr.1.symm.trans h.1)
  have hback : ¬ r'.Links a b source := fun h => hne (h.1.symm.trans hr'.1)
  simp only [Table.firstOrCreateAll_cons, Table.firstOrCreateAll_nil, id_eq, OpenFor]
  rw [typedLink_firstOrCreate_of_ne hback, typedLink_firstOrCreate_self hr,
    typedLink_firstOrCreate_self hr', typedLink_firstOrCreate_of_ne hforth,
    linked_firstOrCreate_of_ne hforth]
  simp

/-- For a work and itself the second finds what the first found or wrote. -/
theorem typedLinks_of_self {r : Relation} (hr : r.Links a a source) (r' : Relation) :
    (TypedLink (relations.firstOrCreateAll Relation.sameLink id [r, r']) a a source
        r.relationTypeId ∧
      TypedLink (relations.firstOrCreateAll Relation.sameLink id [r, r']) a a source
        r'.relationTypeId) ↔
    OpenFor relations a a source r.relationTypeId ∧
      OpenFor relations a a source r'.relationTypeId ∧
      (Linked relations a a source ∨ r.relationTypeId = r'.relationTypeId) := by
  have hfirst : Linked (relations.firstOrCreate r.sameLink (id r)).1 a a source :=
    linked_firstOrCreate_self hr
  rw [Table.firstOrCreateAll_cons, typedLink_firstOrCreateAll hfirst,
    typedLink_firstOrCreateAll hfirst, id_eq, typedLink_firstOrCreate_self hr,
    typedLink_firstOrCreate_self hr]
  have hlinked : TypedLink relations a a source r'.relationTypeId → Linked relations a a source :=
    TypedLink.linked
  unfold OpenFor
  tauto

/-- After the two, both links are there. -/
theorem linked_of_pair {r r' : Relation} (hr : r.Links a b source) (hr' : r'.Links b a source) :
    Linked (relations.firstOrCreateAll Relation.sameLink id [r, r']) a b source ∧
      Linked (relations.firstOrCreateAll Relation.sameLink id [r, r']) b a source := by
  have hfirst : Linked (relations.firstOrCreate r.sameLink r).1 a b source :=
    linked_firstOrCreate_self hr
  obtain ⟨s, hs, hlink⟩ := hfirst
  exact ⟨⟨s, Table.mem_firstOrCreate_of_mem hs, hlink⟩, linked_firstOrCreate_self hr'⟩

/-- The row of an item in one direction. -/
def linkRow (a b : Nat) (source : Option Nat) (t : RelationType) : Relation where
  workId := a
  relatedWorkId := b
  sourceId := source
  relationTypeId := t.id
  level := t.level

theorem links_linkRow (a b : Nat) (source : Option Nat) (t : RelationType) :
    (linkRow a b source t).Links a b source := ⟨rfl, rfl, rfl⟩

/-- The rows of an item whose records are all found. -/
theorem relationsFor_of_found {env : Env} {db : Db} {item : RelatedWork} {related : Work}
    {source : Source} {t u : RelationType} (workId : Nat)
    (hrelated : db.works.first (fun w => env.same (w.col .pid) (some item.relatedWork)) =
      some related)
    (hsource : db.sources.first (fun s => env.same (some s.name) (some item.source)) = some source)
    (htype : db.relationTypes.first (fun u => env.same (some u.name)
      (some (item.relationType.getD "cited"))) = some t)
    (hinverse : t.inverse env db.relationTypes = some u) :
    relationsFor env db workId item =
      [linkRow workId related.id (some source.id) t,
        linkRow related.id workId (some source.id) u] := by
  unfold RelationType.inverse at hinverse
  simp only [relationsFor, htype, hrelated, hsource, hinverse, linkRow]

/-- The items of a call are worked off one after the other. -/
theorem relations_updateRelations_append (env : Env) (db : Db) (workId : Nat)
    (before : List RelatedWork) (item : RelatedWork) (behind : List RelatedWork) :
    (updateRelations env workId (before ++ item :: behind) db).relations =
      (((updateRelations env workId before db).relations.firstOrCreateAll Relation.sameLink id
        (relationsFor env db workId item)).firstOrCreateAll Relation.sameLink id
          (behind.flatMap (relationsFor env db workId))) := by
  simp only [updateRelations, List.flatMap_append, List.flatMap_cons,
    Table.firstOrCreateAll_append]

/-- An item of a call, whatever the other items are and whatever is in the
table, is stored as it was reported exactly if the inverse of its type is
among the seeds and no row of another type is in the way. -/
theorem reported_iff (env : Env) (db : Db) (hseeded : db.relationTypes = seededRelationTypes env)
    (workId : Nat) (before : List RelatedWork) (item : RelatedWork) (behind : List RelatedWork)
    {related : Work} {source : Source} {t : RelationType}
    (hrelated : db.works.first (fun w => env.same (w.col .pid) (some item.relatedWork)) =
      some related)
    (hsource : db.sources.first (fun s => env.same (some s.name) (some item.source)) = some source)
    (ht : t ∈ db.relationTypes.rows) (hname : item.relationType = some t.name) :
    Reported env db.relationTypes
        (updateRelations env workId (before ++ item :: behind) db).relations workId related.id
        (some source.id) t ↔
      Reportable env db.relationTypes (updateRelations env workId before db).relations workId
        related.id (some source.id) t := by
  have htype : db.relationTypes.first (fun u => env.same (some u.name)
      (some (item.relationType.getD "cited"))) = some t := by
    rw [hseeded] at ht ⊢
    rw [hname, Option.getD_some]
    exact first_seeded env ht
  unfold Reported Reportable
  refine exists_congr fun u => and_congr_right fun hu => ?_
  have hr := links_linkRow workId related.id (some source.id) t
  have hr' := links_linkRow related.id workId (some source.id) u
  rw [relations_updateRelations_append, relationsFor_of_found workId hrelated hsource htype hu]
  -- both links are there when the items behind come
  rw [typedLink_firstOrCreateAll (linked_of_pair hr hr').1,
    typedLink_firstOrCreateAll (linked_of_pair hr hr').2]
  by_cases hself : workId = related.id
  · subst hself
    simp only [true_imp_iff]
    exact typedLinks_of_self hr _
  · simp only [hself, false_imp_iff, and_true]
    exact typedLinks_of_ne hr hr' hself

/-- The works and the source of `citesAndBack`, with the seeded types. -/
def seededDb : Db where
  works := doiAndArxiv.works
  sources := reporting
  relationTypes := seededRelationTypes plainEnv

/-- What the first work reports about the second. -/
def relationReport (relationType : String) : RelatedWork :=
  ⟨"http://arxiv.org/abs/1412.1234", "crossref", some relationType⟩

/-- The first relation between the two. -/
theorem cites_reported :
    ∃ t ∈ seededDb.relationTypes.rows, t.name = "cites" ∧
      Reported plainEnv seededDb.relationTypes
        (updateRelations plainEnv 1 [relationReport "cites"] seededDb).relations 1 2 (some 1)
        t := by
  have hcites : ∃ t ∈ seededDb.relationTypes.rows, t.name = "cites" ∧
      (t.inverse plainEnv seededDb.relationTypes).isSome = true := by
    decide +kernel
  obtain ⟨t, ht, hname, hinverse⟩ := hcites
  obtain ⟨u, hu⟩ := Option.isSome_iff_exists.mp hinverse
  refine ⟨t, ht, hname, ?_⟩
  have hrelated := (rfl : seededDb.works.first (fun w => plainEnv.same (w.col .pid)
    (some (relationReport "cites").relatedWork)) = some _)
  have hsource := (rfl : seededDb.sources.first (fun s => plainEnv.same (some s.name)
    (some (relationReport "cites").source)) = some _)
  have hseeded : seededDb.relationTypes = seededRelationTypes plainEnv := by simp only [seededDb]
  have hreported : (relationReport "cites").relationType = some t.name := by
    rw [hname, relationReport]
  have hiff := reported_iff plainEnv seededDb hseeded 1 [] _ [] hrelated hsource ht hreported
  rw [List.nil_append] at hiff
  apply hiff.mpr
  have hfree : ∀ a b, ¬ Linked (Table.empty : Table Relation) a b (some 1) := by
    rintro a b ⟨r, hr, _⟩
    cases hr
  exact ⟨u, hu, Or.inr (hfree 1 2), Or.inr (hfree 2 1), fun h => by cases h⟩

/-- A type without its inverse leaves no row, and neither does a second
relation between the same works. -/
theorem has_metadata_not_stored :
    (seededDb.works.first (fun w => plainEnv.same (w.col .pid)
      (some (relationReport "has_metadata").relatedWork))).isSome = true ∧
    (seededDb.sources.first (fun s => plainEnv.same (some s.name)
      (some (relationReport "has_metadata").source))).isSome = true ∧
    "has_metadata" ∈ seededDb.relationTypes.rows.map (·.name) ∧
    (updateRelations plainEnv 1 [relationReport "has_metadata"] seededDb).relations.rows = [] ∧
    (updateRelations plainEnv 1 [relationReport "cites", relationReport "discusses"]
        seededDb).relations.rows =
      (updateRelations plainEnv 1 [relationReport "cites"] seededDb).relations.rows := by
  decide +kernel

end Reported

end Lagotto
