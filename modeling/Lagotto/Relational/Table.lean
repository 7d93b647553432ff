/-
Lagotto.Relational.Table — tables of rows under an auto-increment key, and
the few statements an object-relational mapper issues against them.

A `Table` keeps its rows in key order and the next key above all of them;
both facts are fields, so no operation can build a table that breaks them.
`first` is `SELECT … ORDER BY id LIMIT 1`, `insert` is `INSERT` with the key
left to the database, `updateAll` and `deleteAll` are the two bulk
statements, `put` updates the row of a key, and `firstOrCreate` is the read
followed by the insert that the read makes necessary.

The lemmas say what each statement leaves in the table: `mem_insert`,
`mem_put`, `mem_firstOrCreate`. Keys identify rows (`Table.eq_of_id_eq`),
which is what turns "the row with this key" into an equation.

`firstOrCreateAll` runs `firstOrCreate` over a list of items. It never
writes to a row that is already there, so whether the table carries the
items' data afterwards is decided by the rows it starts from:
`stored_firstOrCreateAll_iff`. Counting the rows it has created is counting
the items that are the first with their key: `countP_firstOrCreateAll`.

`Touches` is the frame of a series of statements: which rows they may have
changed or deleted, and what may be found written. It is closed under
composition, and every statement has its own lemma.
-/
import Mathlib.Data.List.Nodup

namespace Lagotto.Relational

/-- A row type with its primary key column. -/
class Row (α : Type) where
  id : α → Nat
  withId : Nat → α → α
  id_withId : ∀ (n : Nat) (r : α), id (withId n r) = n
  withId_id : ∀ r : α, withId (id r) r = r

attribute [simp] Row.id_withId Row.withId_id

/-- Rows in primary-key order, all below the next key to be handed out. -/
structure Table (α : Type) [Row α] where
  rows : List α
  nextId : Nat
  ordered : rows.Pairwise (fun r s => Row.id r < Row.id s)
  bounded : ∀ r ∈ rows, Row.id r < nextId

namespace Table

variable {α : Type} [Row α] {t : Table α} {p : α → Bool} {r s : α}

@[ext] theorem ext {t u : Table α} (hr : t.rows = u.rows) (hn : t.nextId = u.nextId) : t = u := by
  cases t; cases u
  cases hr; cases hn
  rfl

/-- The table `CREATE TABLE` leaves. -/
def empty : Table α where
  rows := []
  nextId := 1
  ordered := List.Pairwise.nil
  bounded := by simp

/-! ## Statements -/

/-- `INSERT`: the database hands out the key. -/
def insert (t : Table α) (r : α) : Table α where
  rows := t.rows ++ [Row.withId t.nextId r]
  nextId := t.nextId + 1
  ordered := by
    refine List.pairwise_append.mpr ⟨t.ordered, List.pairwise_singleton _ _, ?_⟩
    intro a ha b hb
    rw [List.mem_singleton.mp hb, Row.id_withId]
    exact t.bounded a ha
  bounded := by
    intro a ha
    rcases List.mem_append.mp ha with ha | ha
    · exact Nat.lt_succ_of_lt (t.bounded a ha)
    · rw [List.mem_singleton.mp ha, Row.id_withId]
      exact Nat.lt_succ_self _

/-- The first row in key order that satisfies the condition. -/
def first (t : Table α) (p : α → Bool) : Option α := t.rows.find? p

/-- One row of an `UPDATE`: the key column is never written. -/
def updateRow (p : α → Bool) (f : α → α) (r : α) : α :=
  if p r then Row.withId (Row.id r) (f r) else r

@[simp] theorem id_updateRow (p : α → Bool) (f : α → α) (r : α) :
    Row.id (updateRow p f r) = Row.id r := by
  unfold updateRow
  split <;> simp

/-- `UPDATE … WHERE p`. -/
def updateAll (t : Table α) (p : α → Bool) (f : α → α) : Table α where
  rows := t.rows.map (updateRow p f)
  nextId := t.nextId
  ordered := by
    rw [List.pairwise_map]
    exact t.ordered.imp (fun h => by simpa using h)
  bounded := by
    intro a ha
    obtain ⟨r, hr, rfl⟩ := List.mem_map.mp ha
    simpa using t.bounded r hr

/-- `UPDATE … WHERE id`: the row takes the place of the one with its key. -/
def put (t : Table α) (r : α) : Table α :=
  t.updateAll (fun s => Row.id s == Row.id r) (fun _ => r)

/-- `DELETE … WHERE p`. The key counter is not reset. -/
def deleteAll (t : Table α) (p : α → Bool) : Table α where
  rows := t.rows.filter (fun r => !p r)
  nextId := t.nextId
  ordered := t.ordered.filter _
  bounded := fun a ha => t.bounded a (List.mem_filter.mp ha).1

/-- `where(p).first_or_create(r)`: the row found, or the row inserted. -/
def firstOrCreate (t : Table α) (p : α → Bool) (r : α) : Table α × α :=
  match t.first p with
  | some found => (t, found)
  | none => (t.insert r, Row.withId t.nextId r)

/-! ## What the statements leave -/

@[simp] theorem rows_empty : (empty : Table α).rows = [] := rfl

@[simp] theorem rows_insert (t : Table α) (r : α) :
    (t.insert r).rows = t.rows ++ [Row.withId t.nextId r] := rfl

@[simp] theorem rows_updateAll (t : Table α) (p : α → Bool) (f : α → α) :
    (t.updateAll p f).rows = t.rows.map (updateRow p f) := rfl

@[simp] theorem rows_deleteAll (t : Table α) (p : α → Bool) :
    (t.deleteAll p).rows = t.rows.filter (fun r => !p r) := rfl

theorem mem_insert :
    s ∈ (t.insert r).rows ↔ s ∈ t.rows ∨ s = Row.withId t.nextId r := by
  simp

theorem first_mem (h : t.first p = some r) : r ∈ t.rows :=
  List.mem_of_find?_eq_some h

theorem first_prop (h : t.first p = some r) : p r = true :=
  List.find?_some h

theorem first_eq_none :
    t.first p = none ↔ ∀ r ∈ t.rows, p r = false := by
  simp [first, List.find?_eq_none]

/-- A row of the table that satisfies the condition makes `first` succeed. -/
theorem exists_first (hr : r ∈ t.rows) (hp : p r = true) :
    ∃ s, t.first p = some s := by
  cases h : t.first p with
  | some s => exact ⟨s, rfl⟩
  | none =>
    have := first_eq_none.mp h r hr
    rw [hp] at this
    cases this

theorem ids_nodup (t : Table α) : (t.rows.map Row.id).Nodup :=
  List.pairwise_map.mpr (t.ordered.imp (fun h => Nat.ne_of_lt h))

/-- The key identifies the row. -/
theorem eq_of_id_eq (t : Table α) (hr : r ∈ t.rows) (hs : s ∈ t.rows) (h : Row.id r = Row.id s) :
    r = s :=
  List.inj_on_of_nodup_map t.ids_nodup hr hs h

omit [Row α] in
/-- The rows with the key of a row are that row. -/
theorem filter_key_eq {κ : Type} [DecidableEq κ] {key : α → κ} {l : List α} (h : (l.map key).Nodup)
    (hr : r ∈ l) :
    l.filter (fun s => decide (key s = key r)) = [r] := by
  induction l with
  | nil => simp at hr
  | cons s l ih =>
    rw [List.map_cons, List.nodup_cons] at h
    rcases List.mem_cons.mp hr with rfl | hr
    · rw [List.filter_cons_of_pos (by simp), List.filter_eq_nil_iff.mpr]
      intro s hs heq
      exact h.1 (List.mem_map.mpr ⟨s, hs, of_decide_eq_true heq⟩)
    · rw [List.filter_cons_of_neg, ih h.2 hr]
      intro heq
      exact h.1 (List.mem_map.mpr ⟨r, hr, (of_decide_eq_true heq).symm⟩)

/-- The only row that satisfies the condition is the one `first` finds. -/
theorem first_eq_of_unique (hr : r ∈ t.rows) (hp : p r = true)
    (hu : ∀ s ∈ t.rows, p s = true → s = r) : t.first p = some r := by
  obtain ⟨s, hs⟩ := exists_first hr hp
  rw [hs, hu s (first_mem hs) (first_prop hs)]

/-- `first` finds the row with the least key among those that satisfy the
condition. -/
theorem first_eq_some_iff :
    t.first p = some r ↔
      r ∈ t.rows ∧ p r = true ∧ ∀ s ∈ t.rows, p s = true → Row.id r ≤ Row.id s := by
  have hleast : ∀ {r}, t.first p = some r → ∀ s ∈ t.rows, p s = true → Row.id r ≤ Row.id s := by
    intro r h s hs hp
    obtain ⟨_, before, behind, hrows, hbefore⟩ := List.find?_eq_some_iff_append.mp h
    have hordered := t.ordered
    rw [hrows] at hs hordered
    rcases List.mem_append.mp hs with hs | hs
    · have hnot := hbefore s hs
      simp [hp] at hnot
    · rcases List.mem_cons.mp hs with rfl | hs
      · exact Nat.le_refl _
      · have hbehind := List.rel_of_pairwise_cons (List.pairwise_append.mp hordered).2.1 hs
        exact Nat.le_of_lt hbehind
  refine ⟨fun h => ⟨first_mem h, first_prop h, hleast h⟩, ?_⟩
  rintro ⟨hr, hp, hmin⟩
  obtain ⟨s, hs⟩ := exists_first hr hp
  have hid := Nat.le_antisymm (hmin s (first_mem hs) (first_prop hs)) (hleast hs r hr hp)
  rw [hs, t.eq_of_id_eq hr (first_mem hs) hid]

/-- An update finds the row of a key where it was. -/
theorem first_id_updateAll (t : Table α) (p : α → Bool) (f : α → α) (n : Nat) :
    (t.updateAll p f).first (fun r => Row.id r == n) =
      (t.first (fun r => Row.id r == n)).map (updateRow p f) := by
  unfold first
  rw [rows_updateAll, List.find?_map]
  simp only [Function.comp_def, id_updateRow]

/-! ## `put` -/

theorem updateRow_put (r s : α) :
    updateRow (fun s => Row.id s == Row.id r) (fun _ => r) s =
      if Row.id s = Row.id r then r else s := by
  unfold updateRow
  by_cases h : Row.id s = Row.id r
  · simp [h]
  · simp [h]

/-- A row that is put replaces the one with its id. -/
theorem mem_put :
    s ∈ (t.put r).rows ↔
      (s ∈ t.rows ∧ Row.id s ≠ Row.id r) ∨ (s = r ∧ ∃ old ∈ t.rows, Row.id old = Row.id r) := by
  simp only [put, rows_updateAll, List.mem_map, updateRow_put]
  constructor
  · rintro ⟨old, hold, heq⟩
    by_cases h : Row.id old = Row.id r
    · rw [if_pos h] at heq
      exact Or.inr ⟨heq.symm, old, hold, h⟩
    · rw [if_neg h] at heq
      subst heq
      exact Or.inl ⟨hold, h⟩
  · rintro (⟨hs, hne⟩ | ⟨rfl, old, hold, h⟩)
    · exact ⟨s, hs, if_neg hne⟩
    · exact ⟨old, hold, if_pos h⟩

/-- Putting back a row of the table changes nothing. -/
theorem put_self (h : r ∈ t.rows) : t.put r = t := by
  have hrows : (t.put r).rows = t.rows := by
    simp only [put, rows_updateAll]
    conv_rhs => rw [← List.map_id t.rows]
    refine List.map_congr_left (fun s hs => ?_)
    rw [updateRow_put, id_eq]
    split
    next heq => exact t.eq_of_id_eq h hs heq.symm
    next => rfl
  exact ext hrows rfl

/-- The rows of other keys are not touched. -/
theorem filter_put (t : Table α) (r : α) :
    (t.put r).rows.filter (fun s => Row.id s != Row.id r) =
      t.rows.filter (fun s => Row.id s != Row.id r) := by
  simp only [put, rows_updateAll, List.filter_map]
  have hkey : (fun s => Row.id s != Row.id r) ∘
      updateRow (fun s => Row.id s == Row.id r) (fun _ => r) =
      fun s => Row.id s != Row.id r := by
    funext s
    simp
  rw [hkey]
  conv_rhs => rw [← List.map_id (t.rows.filter _)]
  refine List.map_congr_left (fun s hs => ?_)
  rw [updateRow_put, if_neg (bne_iff_ne.mp (List.mem_filter.mp hs).2), id_eq]

/-- The row `first` finds is replaced by one that satisfies the condition as
well: `first` finds that one. -/
theorem first_put (h : t.first p = some r) (hid : Row.id s = Row.id r) (hs : p s = true) :
    (t.put s).first p = some s := by
  obtain ⟨hr, before, behind, hrows, hbefore⟩ := List.find?_eq_some_iff_append.mp h
  have hne : ∀ u ∈ before, Row.id u ≠ Row.id s := by
    intro u hu heq
    have hord := t.ordered
    rw [hrows] at hord
    have := (List.pairwise_append.mp hord).2.2 u hu r (List.mem_cons_self ..)
    omega
  have hput : (t.put s).rows = before ++ s :: behind.map
      (updateRow (fun u => Row.id u == Row.id s) (fun _ => s)) := by
    simp only [put, rows_updateAll, hrows, List.map_append, List.map_cons, updateRow_put]
    rw [if_pos hid.symm]
    congr 1
    conv_rhs => rw [← List.map_id before]
    exact List.map_congr_left (fun u hu => by rw [updateRow_put, if_neg (hne u hu), id_eq])
  refine List.find?_eq_some_iff_append.mpr ⟨hs, before, _, hput, hbefore⟩

/-! ## `firstOrCreate` -/

/-- A row that is found is returned. -/
theorem firstOrCreate_of_first {r found : α} (h : t.first p = some found) :
    t.firstOrCreate p r = (t, found) := by
  simp [firstOrCreate, h]

/-- Otherwise the new one is. -/
theorem firstOrCreate_of_none (h : t.first p = none) :
    t.firstOrCreate p r = (t.insert r, Row.withId t.nextId r) := by
  simp [firstOrCreate, h]

/-- A row of the result was there before, or it is the row created because
nothing matched. -/
theorem mem_firstOrCreate :
    s ∈ (t.firstOrCreate p r).1.rows ↔
      s ∈ t.rows ∨ (t.first p = none ∧ s = Row.withId t.nextId r) := by
  cases h : t.first p with
  | some found => simp [firstOrCreate_of_first h]
  | none => simp [firstOrCreate_of_none h]

theorem mem_firstOrCreate_of_mem (h : s ∈ t.rows) :
    s ∈ (t.firstOrCreate p r).1.rows :=
  mem_firstOrCreate.mpr (Or.inl h)

/-- Whether a condition selects some row after `firstOrCreate`. -/
theorem exists_mem_firstOrCreate (hp : p (Row.withId t.nextId r) = true) :
    ∃ s ∈ (t.firstOrCreate p r).1.rows, p s = true := by
  cases h : t.first p with
  | some found =>
    exact ⟨found, mem_firstOrCreate_of_mem (first_mem h), first_prop h⟩
  | none =>
    exact ⟨_, mem_firstOrCreate.mpr (Or.inr ⟨h, rfl⟩), hp⟩

/-! ## `firstOrCreate` over a list -/

section FirstOrCreateAll

variable {ι : Type} (sel : ι → α → Bool) (row : ι → α) {items : List ι}

/-- One `firstOrCreate` per item, in order. -/
def firstOrCreateAll (t : Table α) (items : List ι) : Table α :=
  items.foldl (fun t item => (t.firstOrCreate (sel item) (row item)).1) t

@[simp] theorem firstOrCreateAll_nil (t : Table α) : t.firstOrCreateAll sel row [] = t := rfl

@[simp] theorem firstOrCreateAll_cons (t : Table α) (item : ι) (items : List ι) :
    t.firstOrCreateAll sel row (item :: items) =
      (t.firstOrCreate (sel item) (row item)).1.firstOrCreateAll sel row items := rfl

theorem firstOrCreateAll_append (t : Table α) (first second : List ι) :
    t.firstOrCreateAll sel row (first ++ second) =
      (t.firstOrCreateAll sel row first).firstOrCreateAll sel row second :=
  List.foldl_append

/-- No row is lost. -/
theorem mem_firstOrCreateAll_of_mem (h : r ∈ t.rows) :
    r ∈ (t.firstOrCreateAll sel row items).rows := by
  induction items generalizing t with
  | nil => exact h
  | cons item items ih => exact ih (mem_firstOrCreate_of_mem h)

/-- A row of the result was there before, or it is the row of an item that
selected nothing before. -/
theorem mem_firstOrCreateAll_cases (h : r ∈ (t.firstOrCreateAll sel row items).rows) :
    r ∈ t.rows ∨ ∃ item ∈ items, (∀ s ∈ t.rows, sel item s = false) ∧
      ∃ n, r = Row.withId n (row item) := by
  induction items generalizing t with
  | nil => exact Or.inl h
  | cons item items ih =>
    rcases ih h with h' | ⟨other, hother, hnone, hr⟩
    · rcases mem_firstOrCreate.mp h' with h'' | ⟨hnone, rfl⟩
      · exact Or.inl h''
      · exact Or.inr ⟨item, List.mem_cons_self .., first_eq_none.mp hnone, _, rfl⟩
    · refine Or.inr ⟨other, List.mem_cons_of_mem _ hother, ?_, hr⟩
      exact fun s hs => hnone s (mem_firstOrCreate_of_mem hs)

/-- Items that all select a row already leave the table alone. -/
theorem firstOrCreateAll_eq_self (h : ∀ item ∈ items, ∃ r ∈ t.rows, sel item r = true) :
    t.firstOrCreateAll sel row items = t := by
  induction items with
  | nil => rfl
  | cons item items ih =>
    obtain ⟨r, hr, hsel⟩ := h item (List.mem_cons_self ..)
    obtain ⟨found, hfound⟩ := exists_first hr hsel
    rw [firstOrCreateAll_cons, firstOrCreate_of_first hfound]
    exact ih (fun other hother => h other (List.mem_cons_of_mem _ hother))

variable {sel row}

/-- Every item selects some row afterwards, provided it selects its own. -/
theorem exists_mem_firstOrCreateAll (hself : ∀ item n, sel item (Row.withId n (row item)) = true)
    {item : ι} (h : item ∈ items) :
    ∃ r ∈ (t.firstOrCreateAll sel row items).rows, sel item r = true := by
  induction items generalizing t with
  | nil => cases h
  | cons first rest ih =>
    rcases List.mem_cons.mp h with rfl | h'
    · obtain ⟨r, hr, hsel⟩ := exists_mem_firstOrCreate (t := t) (hself item t.nextId)
      refine ⟨r, ?_, hsel⟩
      rw [firstOrCreateAll_cons]
      exact mem_firstOrCreateAll_of_mem sel row hr
    · exact ih h'

/-- Items that are looked up by a key leave one row for each key. -/
theorem nodup_map_firstOrCreateAll {κ : Type} {keyOf : α → κ} (key : ι → κ)
    (hsel : ∀ item r, sel item r = true ↔ keyOf r = key item)
    (hrow : ∀ item n, keyOf (Row.withId n (row item)) = key item) (h : (t.rows.map keyOf).Nodup) :
    ((t.firstOrCreateAll sel row items).rows.map keyOf).Nodup := by
  induction items generalizing t with
  | nil => exact h
  | cons item items ih =>
    rw [firstOrCreateAll_cons]
    refine ih ?_
    cases hfirst : t.first (sel item) with
    | some found => rwa [firstOrCreate_of_first hfirst]
    | none =>
      rw [firstOrCreate_of_none hfirst, rows_insert, List.map_append, List.map_singleton, hrow]
      refine List.nodup_append.mpr ⟨h, List.nodup_singleton _, ?_⟩
      rintro k hk _ hk' rfl
      obtain ⟨r, hr, hkey⟩ := List.mem_map.mp hk
      rw [List.mem_singleton] at hk'
      have hmiss := first_eq_none.mp hfirst r hr
      rw [(hsel item r).mpr (hkey.trans hk')] at hmiss
      cases hmiss

/-- The items' data is in the table afterwards exactly when every item
either selected no row before, or one that held its data already. The items
must not select each other's rows. -/
theorem stored_firstOrCreateAll_iff {holds : ι → α → Prop}
    (hself : ∀ item n, sel item (Row.withId n (row item)) = true)
    (hholds : ∀ item n, holds item (Row.withId n (row item)))
    (hsep : ∀ i ∈ items, ∀ j ∈ items, ∀ n, sel i (Row.withId n (row j)) = true → i = j) :
    (∀ item ∈ items, ∃ r ∈ (t.firstOrCreateAll sel row items).rows,
        sel item r = true ∧ holds item r) ↔
      ∀ item ∈ items, (∀ r ∈ t.rows, sel item r = false) ∨
        ∃ r ∈ t.rows, sel item r = true ∧ holds item r := by
  constructor
  · intro hstored item hitem
    obtain ⟨r, hr, hsel, hdata⟩ := hstored item hitem
    rcases mem_firstOrCreateAll_cases sel row hr with hold | ⟨other, hother, hnone, n, rfl⟩
    · exact Or.inr ⟨r, hold, hsel, hdata⟩
    · rw [hsep item hitem other hother n hsel]
      exact Or.inl hnone
  · intro hbefore item hitem
    rcases hbefore item hitem with hnone | ⟨r, hr, hsel, hdata⟩
    · obtain ⟨r, hr, hsel⟩ := exists_mem_firstOrCreateAll hself (t := t) hitem
      rcases mem_firstOrCreateAll_cases sel row hr with hold | ⟨other, hother, _, n, rfl⟩
      · rw [hnone r hold] at hsel
        cases hsel
      · obtain rfl := hsep item hitem other hother n hsel
        exact ⟨_, hr, hsel, hholds item n⟩
    · exact ⟨r, mem_firstOrCreateAll_of_mem sel row hr, hsel, hdata⟩

/-! Where a row is selected by a key of the item, one row is created for each
key: that of the first item with it. -/

section Firsts

variable {κ : Type} [DecidableEq κ] (key : ι → κ)

/-- The items whose key is neither in `seen` nor the key of an item before
them. -/
def firstsFrom (seen : List κ) : List ι → List ι
  | [] => []
  | item :: rest =>
    if key item ∈ seen then firstsFrom seen rest
    else item :: firstsFrom (key item :: seen) rest

/-- The items that are the first with their key. -/
def firsts (items : List ι) : List ι := firstsFrom key [] items

theorem firstsFrom_sublist (seen : List κ) (items : List ι) :
    (firstsFrom key seen items).Sublist items := by
  induction items generalizing seen with
  | nil => exact List.Sublist.refl _
  | cons item rest ih =>
    rw [firstsFrom]
    split
    · exact (ih seen).cons item
    · exact (ih _).cons_cons item

variable {key}

theorem countP_firstOrCreateAll_firstsFrom
    (hp : ∀ item n, p (Row.withId n (row item)) = p (row item))
    (hsel : ∀ item other n, sel item (Row.withId n (row other)) = true ↔ key other = key item)
    (seen : List κ) (hseen : ∀ item, (∃ r ∈ t.rows, sel item r = true) ↔ key item ∈ seen) :
    (t.firstOrCreateAll sel row items).rows.countP p =
      t.rows.countP p + (firstsFrom key seen items).countP (fun item => p (row item)) := by
  induction items generalizing t seen with
  | nil => simp [firstsFrom]
  | cons item rest ih =>
    rw [firstOrCreateAll_cons, firstsFrom]
    by_cases hin : key item ∈ seen
    · obtain ⟨r, hr, hfound⟩ := (hseen item).mpr hin
      obtain ⟨found, hfirst⟩ := exists_first hr hfound
      rw [firstOrCreate_of_first hfirst, if_pos hin]
      exact ih _ hseen
    · have hnone : t.first (sel item) = none := by
        refine first_eq_none.mpr (fun r hr => ?_)
        cases h : sel item r with
        | false => rfl
        | true => exact absurd ((hseen item).mp ⟨r, hr, h⟩) hin
      rw [firstOrCreate_of_none hnone, if_neg hin]
      have hseen' : ∀ other, (∃ r ∈ (t.insert (row item)).rows, sel other r = true) ↔
          key other ∈ key item :: seen := by
        intro other
        simp only [mem_insert, or_and_right, exists_or, exists_eq_left, hseen, hsel,
          List.mem_cons]
        rw [or_comm, eq_comm]
      rw [ih _ hseen', rows_insert, List.countP_append, List.countP_singleton, hp,
        List.countP_cons]
      omega

/-- Counting what the items leave in an empty table is counting those that
are the first with their key. -/
theorem countP_firstOrCreateAll (hp : ∀ item n, p (Row.withId n (row item)) = p (row item))
    (hsel : ∀ item other n, sel item (Row.withId n (row other)) = true ↔ key other = key item)
    (items : List ι) :
    ((empty : Table α).firstOrCreateAll sel row items).rows.countP p =
      (firsts key items).countP (fun item => p (row item)) := by
  rw [countP_firstOrCreateAll_firstsFrom hp hsel [] (by simp)]
  simp [firsts]

end Firsts

end FirstOrCreateAll

/-! ## What a series of statements may have touched -/

section Touches

variable {touched touched' written written' : α → Prop} {t₁ t₂ t₃ : Table α}

/-- Only rows in `touched` have been changed or deleted. What stands in the
place of a changed row, and every row that has been added, is in `written`. -/
structure Touches (touched written : α → Prop) (t t' : Table α) : Prop where
  nextId : t.nextId ≤ t'.nextId
  kept : ∀ r ∈ t.rows, ¬ touched r → r ∈ t'.rows
  origin : ∀ r' ∈ t'.rows, r' ∈ t.rows ∨
    (written r' ∧ (t.nextId ≤ Row.id r' ∨ ∃ r ∈ t.rows, Row.id r = Row.id r' ∧ touched r))

theorem Touches.refl (t : Table α) : Touches touched written t t :=
  ⟨Nat.le_refl _, fun _ h _ => h, fun _ h => Or.inl h⟩

theorem Touches.trans (h₁₂ : Touches touched written t₁ t₂) (h₂₃ : Touches touched written t₂ t₃) :
    Touches touched written t₁ t₃ where
  nextId := Nat.le_trans h₁₂.nextId h₂₃.nextId
  kept := fun r hr hnot => h₂₃.kept r (h₁₂.kept r hr hnot) hnot
  origin := by
    intro r₃ hr₃
    rcases h₂₃.origin r₃ hr₃ with hr | ⟨hw, hnew | ⟨r₂, hr₂, hid, htouched⟩⟩
    · exact h₁₂.origin r₃ hr
    · exact Or.inr ⟨hw, Or.inl (Nat.le_trans h₁₂.nextId hnew)⟩
    · -- the row that was changed may itself have been written before
      rcases h₁₂.origin r₂ hr₂ with hr | ⟨_, hnew | ⟨r₁, hr₁, hid', htouched'⟩⟩
      · exact Or.inr ⟨hw, Or.inr ⟨r₂, hr, hid, htouched⟩⟩
      · exact Or.inr ⟨hw, Or.inl (hid ▸ hnew)⟩
      · exact Or.inr ⟨hw, Or.inr ⟨r₁, hr₁, hid'.trans hid, htouched'⟩⟩

theorem Touches.mono (h : Touches touched written t₁ t₂) (ht : ∀ r, touched r → touched' r)
    (hw : ∀ r, written r → written' r) : Touches touched' written' t₁ t₂ where
  nextId := h.nextId
  kept := fun r hr hnot => h.kept r hr (fun htouched => hnot (ht r htouched))
  origin := by
    intro r' hr'
    rcases h.origin r' hr' with hr | ⟨hwritten, hnew | ⟨r, hr, hid, htouched⟩⟩
    · exact Or.inl hr
    · exact Or.inr ⟨hw r' hwritten, Or.inl hnew⟩
    · exact Or.inr ⟨hw r' hwritten, Or.inr ⟨r, hr, hid, ht r htouched⟩⟩

/-- An update touches the rows it selects. -/
theorem touches_updateAll (written : α → Prop) (t : Table α) (p : α → Bool) (f : α → α)
    (hw : ∀ r, p r = true → written (Row.withId (Row.id r) (f r))) :
    Touches (fun r => p r = true) written t (t.updateAll p f) where
  nextId := Nat.le_refl _
  kept := by
    intro r hr hnot
    exact List.mem_map.mpr ⟨r, hr, by simp [updateRow, hnot]⟩
  origin := by
    intro r' hr'
    obtain ⟨r, hr, rfl⟩ := List.mem_map.mp hr'
    by_cases hp : p r = true
    · refine Or.inr ⟨?_, Or.inr ⟨r, hr, (id_updateRow p f r).symm, hp⟩⟩
      simpa [updateRow, hp] using hw r hp
    · refine Or.inl ?_
      simpa [updateRow, hp] using hr

theorem touches_put (t : Table α) (hw : written r) :
    Touches (fun s => Row.id s = Row.id r) written t (t.put r) where
  nextId := Nat.le_refl _
  kept := fun _ hs hnot => mem_put.mpr (Or.inl ⟨hs, hnot⟩)
  origin := by
    intro s hs
    rcases mem_put.mp hs with ⟨hs, _⟩ | ⟨rfl, old, hold, hid⟩
    · exact Or.inl hs
    · exact Or.inr ⟨hw, Or.inr ⟨old, hold, hid, hid⟩⟩

theorem touches_deleteAll (t : Table α) (p : α → Bool) :
    Touches (fun r => p r = true) written t (t.deleteAll p) where
  nextId := Nat.le_refl _
  kept := fun r hr hnot => List.mem_filter.mpr ⟨hr, by simpa using hnot⟩
  origin := fun _ hr => Or.inl (List.mem_filter.mp hr).1

theorem touches_firstOrCreate (t : Table α) (p : α → Bool) (hw : written (Row.withId t.nextId r)) :
    Touches touched written t (t.firstOrCreate p r).1 where
  nextId := by
    unfold firstOrCreate
    split
    · exact Nat.le_refl _
    · exact Nat.le_succ _
  kept := fun _ hr _ => mem_firstOrCreate_of_mem hr
  origin := by
    intro s hs
    rcases mem_firstOrCreate.mp hs with hs | ⟨_, rfl⟩
    · exact Or.inl hs
    · exact Or.inr ⟨hw, Or.inl (Nat.le_of_eq (Row.id_withId _ _).symm)⟩

/-- Creating touches no row that was there. -/
theorem touches_firstOrCreateAll {ι : Type} {sel : ι → α → Bool} {row : ι → α}
    (hw : ∀ item n, written (Row.withId n (row item))) (items : List ι) (t : Table α) :
    Touches touched written t (t.firstOrCreateAll sel row items) := by
  induction items generalizing t with
  | nil => exact .refl t
  | cons item items ih => exact (touches_firstOrCreate t (sel item) (hw item t.nextId)).trans (ih _)

end Touches

end Table

end Lagotto.Relational
