/-
Lagotto.Relational.OrderedHash — a hash that keeps its keys in the order in
which they were added.

`alter` changes what is under a key, or adds the key at the end. A loop that
does this for every element of a list is `alterAll`. If the elements have
different keys, each key is changed once at most (`get?_alterAll`), and the
keys afterwards are those before and the new ones behind them
(`keys_alterAll_of_mem`, `keys_alterAll_of_new`).
-/
import Mathlib.Data.List.Nodup

namespace Lagotto.Relational

/-- Values under different keys. -/
structure OrderedHash (κ α : Type) where
  entries : List (κ × α)
  distinct : (entries.map Prod.fst).Nodup

namespace OrderedHash

variable {κ α β : Type}

/-- The hash without keys. -/
def empty : OrderedHash κ α := ⟨[], List.nodup_nil⟩

def keys (h : OrderedHash κ α) : List κ := h.entries.map Prod.fst

def values (h : OrderedHash κ α) : List α := h.entries.map Prod.snd

@[simp] theorem keys_empty : (empty : OrderedHash κ α).keys = [] := rfl

variable [DecidableEq κ]

/-- `hash[key]`, if it is there. -/
def get? (h : OrderedHash κ α) (k : κ) : Option α :=
  (h.entries.find? (fun e => e.1 = k)).map Prod.snd

/-- An entry when the value under a key has been changed. -/
def altered (k : κ) (f : Option α → α) (e : κ × α) : κ × α :=
  if e.1 = k then (e.1, f (some e.2)) else e

theorem fst_altered (k : κ) (f : Option α → α) (e : κ × α) : (altered k f e).1 = e.1 := by
  unfold altered
  split <;> rfl

theorem map_fst_altered (k : κ) (f : Option α → α) (entries : List (κ × α)) :
    (entries.map (altered k f)).map Prod.fst = entries.map Prod.fst := by
  rw [List.map_map]
  exact List.map_congr_left (fun e _ => fst_altered k f e)

/-- Change what is under a key, or add it. -/
def alter (h : OrderedHash κ α) (k : κ) (f : Option α → α) : OrderedHash κ α :=
  if hk : k ∈ h.keys then ⟨h.entries.map (altered k f), by
      rw [map_fst_altered]
      exact h.distinct⟩
  else ⟨h.entries ++ [(k, f none)], by
      rw [List.map_append, List.nodup_append]
      refine ⟨h.distinct, by simp, ?_⟩
      intro a ha b hb heq
      rw [List.map_singleton, List.mem_singleton] at hb
      rw [heq, hb] at ha
      exact hk ha⟩

/-- `hash[key] = value` -/
def set (h : OrderedHash κ α) (k : κ) (v : α) : OrderedHash κ α := h.alter k (fun _ => v)

/-- A loop that changes the hash for each element of a list. -/
def alterAll (h : OrderedHash κ α) (key : β → κ) (f : β → Option α → α) (items : List β) :
    OrderedHash κ α :=
  items.foldl (fun h b => h.alter (key b) (f b)) h

/-- If no two elements of a list have the same key, an element is found by its
key. -/
theorem find?_of_nodup (key : β → κ) {items : List β} (hdistinct : (items.map key).Nodup) {b : β}
    (hb : b ∈ items) : items.find? (fun c => key c = key b) = some b := by
  cases hfind : items.find? (fun c => key c = key b) with
  | none =>
    have hnone := List.find?_eq_none.mp hfind b hb
    simp at hnone
  | some c =>
    have hkey : key c = key b := by simpa using List.find?_some hfind
    rw [List.inj_on_of_nodup_map hdistinct (List.mem_of_find?_eq_some hfind) hb hkey]

/-! ## One key -/

variable {h : OrderedHash κ α} {k j : κ} {f : Option α → α}

@[simp] theorem get?_empty (k : κ) : (empty : OrderedHash κ α).get? k = none := rfl

theorem get?_eq_none_iff : h.get? k = none ↔ k ∉ h.keys := by
  unfold get? keys
  rw [Option.map_eq_none_iff, List.find?_eq_none]
  simp only [decide_eq_true_eq, List.mem_map, not_exists, not_and]

theorem get?_isSome_iff : (h.get? k).isSome ↔ k ∈ h.keys := by
  rw [← not_iff_not, ← get?_eq_none_iff, Bool.not_eq_true, Option.isSome_eq_false_iff,
    Option.isNone_iff_eq_none]

theorem keys_alter_of_mem (hk : k ∈ h.keys) : (h.alter k f).keys = h.keys := by
  unfold alter
  rw [dif_pos hk]
  exact map_fst_altered k f h.entries

theorem keys_alter_of_not_mem (hk : k ∉ h.keys) : (h.alter k f).keys = h.keys ++ [k] := by
  unfold alter
  rw [dif_neg hk]
  exact List.map_append

theorem find?_altered (k : κ) (f : Option α → α) (entries : List (κ × α)) (j : κ) :
    (entries.map (altered k f)).find? (fun e => e.1 = j) =
      (entries.find? (fun e => e.1 = j)).map (altered k f) := by
  rw [List.find?_map]
  congr 2
  funext e
  simp only [Function.comp_apply, fst_altered]

theorem get?_alter (h : OrderedHash κ α) (k : κ) (f : Option α → α) (j : κ) :
    (h.alter k f).get? j = if j = k then some (f (h.get? k)) else h.get? j := by
  by_cases hk : k ∈ h.keys
  · have hget : (h.alter k f).get? j =
        ((h.entries.find? (fun e => e.1 = j)).map (altered k f)).map Prod.snd := by
      rw [← find?_altered]
      simp only [alter, dif_pos hk, get?]
    rw [hget]
    cases hfind : h.entries.find? (fun e => e.1 = j) with
    | none =>
      have hj : h.get? j = none := by simp [get?, hfind]
      split
      next heq => exact absurd hk (get?_eq_none_iff.mp (heq ▸ hj))
      next => rw [hj]; rfl
    | some e =>
      have he : e.1 = j := by simpa using List.find?_some hfind
      split
      next heq => simp [get?, ← heq, hfind, altered, he]
      next hne => simp [get?, hfind, altered, he, hne]
  · have hget : (h.alter k f).get? j =
        ((h.entries ++ [(k, f none)]).find? (fun e => e.1 = j)).map Prod.snd := by
      simp only [alter, dif_neg hk, get?]
    rw [hget, List.find?_append]
    by_cases hj : j = k
    · have hnone : h.entries.find? (fun e => e.1 = k) = none := by
        simpa [get?] using get?_eq_none_iff.mpr hk
      simp [hj, get?, hnone]
    · have hkj : k ≠ j := fun heq => hj heq.symm
      simp [hj, get?, hkj]

theorem get?_of_mem {e : κ × α} (he : e ∈ h.entries) : h.get? e.1 = some e.2 := by
  rw [get?, find?_of_nodup Prod.fst h.distinct he, Option.map_some]

theorem get?_set (h : OrderedHash κ α) (k : κ) (v : α) (j : κ) :
    (h.set k v).get? j = if j = k then some v else h.get? j :=
  get?_alter h k (fun _ => v) j

/-- Some keys are set. -/
theorem get?_foldl_set (value : κ → α) (ks : List κ) (h : OrderedHash κ α) (j : κ) :
    (ks.foldl (fun h k => h.set k (value k)) h).get? j =
      if j ∈ ks then some (value j) else h.get? j := by
  induction ks generalizing h with
  | nil => simp
  | cons k rest ih =>
    rw [List.foldl_cons, ih, get?_set]
    by_cases hrest : j ∈ rest
    · simp [hrest]
    · by_cases hk : j = k
      · simp [hk]
      · simp [hrest, hk]

/-- The values in the order of the keys. -/
theorem values_eq (h : OrderedHash κ α) : h.values = h.keys.filterMap h.get? := by
  unfold values keys
  rw [List.filterMap_map, ← List.filterMap_eq_map]
  refine List.filterMap_congr ?_
  intro e he
  simp only [Function.comp_apply, get?_of_mem he]

/-! ## All elements of a list -/

section All

variable (key : β → κ) (f : β → Option α → α)

/-- Elements with keys that are there add none. -/
theorem keys_alterAll_of_mem (h : OrderedHash κ α) {items : List β}
    (hitems : ∀ b ∈ items, key b ∈ h.keys) : (h.alterAll key f items).keys = h.keys := by
  unfold alterAll
  induction items generalizing h with
  | nil => rfl
  | cons b rest ih =>
    have hb := keys_alter_of_mem (f := f b) (hitems b List.mem_cons_self)
    rw [List.foldl_cons, ih, hb]
    intro c hc
    rw [hb]
    exact hitems c (List.mem_cons_of_mem b hc)

/-- Elements with new keys add these in their order. -/
theorem keys_alterAll_of_new (h : OrderedHash κ α) {items : List β}
    (hitems : ∀ b ∈ items, key b ∉ h.keys) (hdistinct : (items.map key).Nodup) :
    (h.alterAll key f items).keys = h.keys ++ items.map key := by
  unfold alterAll
  induction items generalizing h with
  | nil => simp
  | cons b rest ih =>
    have hb := keys_alter_of_not_mem (f := f b) (hitems b List.mem_cons_self)
    obtain ⟨hnew, hrest⟩ := List.nodup_cons.mp hdistinct
    rw [List.foldl_cons, ih, hb, List.map_cons, List.append_assoc, List.singleton_append]
    · intro c hc hmem
      rw [hb, List.mem_append, List.mem_singleton] at hmem
      rcases hmem with hold | heq
      · exact hitems c (List.mem_cons_of_mem b hc) hold
      · exact hnew (heq ▸ List.mem_map_of_mem hc)
    · exact hrest

/-- A key is changed by the element that has it, if there is one. -/
theorem get?_alterAll (h : OrderedHash κ α) {items : List β}
    (hdistinct : (items.map key).Nodup) (k : κ) :
    (h.alterAll key f items).get? k =
      (items.find? (fun b => key b = k)).elim (h.get? k) (fun b => some (f b (h.get? k))) := by
  unfold alterAll
  induction items generalizing h with
  | nil => rfl
  | cons b rest ih =>
    obtain ⟨hnew, hrest⟩ := List.nodup_cons.mp hdistinct
    rw [List.foldl_cons, ih _ hrest, List.find?_cons]
    by_cases hb : key b = k
    · have hnone : rest.find? (fun c => key c = k) = none := by
        rw [List.find?_eq_none]
        intro c hc
        have hne : key c ≠ key b := fun heq => hnew (heq ▸ List.mem_map_of_mem hc)
        simpa [← hb] using hne
      simp [hnone, hb, get?_alter]
    · simp [hb, get?_alter, Ne.symm hb]

/-- The values that elements with different keys give to an empty hash. -/
theorem values_alterAll_empty {items : List β} (hdistinct : (items.map key).Nodup) :
    ((empty : OrderedHash κ α).alterAll key f items).values = items.map (fun b => f b none) := by
  rw [values_eq, keys_alterAll_of_new key f empty (fun _ _ => List.not_mem_nil) hdistinct,
    keys_empty, List.nil_append, List.filterMap_map, ← List.filterMap_eq_map]
  refine List.filterMap_congr ?_
  intro b hb
  rw [Function.comp_apply, get?_alterAll key f empty hdistinct, find?_of_nodup key hdistinct hb,
    Option.elim_some, get?_empty, Function.comp_apply]

end All

end OrderedHash

end Lagotto.Relational
