/-
Lagotto.Documents.Latest — a list that keeps the last entry for each key.

`replace` drops the entries that have the key of the new one and adds the new
one at the end. A list is `Latest` for a history if it has, for each key, the
last entry of the history with that key and no other one. `replace` keeps it
so; to start over with the new entry alone keeps it so exactly if there were
entries for no other key (`latest_singleton_iff`).
-/
import Mathlib.Data.List.Basic

namespace Lagotto.Documents

variable {α κ : Type} [DecidableEq κ] (key : α → κ)

/-- The entries for a key. -/
def entries (k : κ) (xs : List α) : List α := xs.filter (fun x => key x = k)

/-- Delete what has the key of the entry, and append the entry. -/
def replace (e : α) (xs : List α) : List α := xs.filter (fun x => !decide (key x = key e)) ++ [e]

/-- For each key the last entry of the history, and nothing else. -/
def Latest (history xs : List α) : Prop :=
  ∀ k, entries key k xs = (entries key k history).getLast?.toList

variable {key} {history xs : List α} {e : α} {k : κ}

theorem entries_append (xs ys : List α) :
    entries key k (xs ++ ys) = entries key k xs ++ entries key k ys :=
  List.filter_append xs ys

theorem entries_self (e : α) : entries key (key e) [e] = [e] := by
  simp [entries]

theorem entries_of_ne (h : key e ≠ k) : entries key k [e] = [] := by
  simp [entries, h]

theorem entries_replace_self (e : α) (xs : List α) :
    entries key (key e) (replace key e xs) = [e] := by
  unfold replace
  rw [entries_append, entries_self]
  simp [entries]

theorem entries_replace_of_ne (h : key e ≠ k) (xs : List α) :
    entries key k (replace key e xs) = entries key k xs := by
  unfold replace
  rw [entries_append, entries_of_ne h, List.append_nil]
  unfold entries
  rw [List.filter_filter]
  refine List.filter_congr ?_
  intro x _
  by_cases hx : key x = k
  · have hne : k ≠ key e := fun heq => h heq.symm
    simp [hx, hne]
  · simp [hx]

theorem latest_nil : Latest key [] ([] : List α) := fun _ => rfl

/-- The last entries after one more: only those of its key are another one. -/
theorem getLast?_entries_append (history : List α) (e : α) (k : κ) :
    (entries key k (history ++ [e])).getLast? =
      if key e = k then some e else (entries key k history).getLast? := by
  rw [entries_append]
  split
  next h =>
    subst h
    rw [entries_self, List.getLast?_concat]
  next h => rw [entries_of_ne h, List.append_nil]

theorem latest_replace (h : Latest key history xs) (e : α) :
    Latest key (history ++ [e]) (replace key e xs) := by
  intro k
  rw [getLast?_entries_append]
  split
  next hk =>
    subst hk
    exact entries_replace_self e xs
  next hk => rw [entries_replace_of_ne hk, h k]

/-- To start over with the new entry loses nothing exactly if there was nothing
for another key. -/
theorem latest_singleton_iff (h : Latest key history xs) (e : α) :
    Latest key (history ++ [e]) [e] ↔ ∀ x ∈ xs, key x = key e := by
  constructor
  · intro hlatest x hx
    by_contra hne
    have hk := hlatest (key x)
    rw [getLast?_entries_append, if_neg (Ne.symm hne), ← h (key x),
      entries_of_ne (Ne.symm hne)] at hk
    have hmem : x ∈ entries key (key x) xs := List.mem_filter.mpr ⟨hx, by simp⟩
    rw [← hk] at hmem
    cases hmem
  · intro hxs k
    rw [getLast?_entries_append]
    split
    next hk =>
      subst hk
      exact entries_self e
    next hk =>
      rw [entries_of_ne hk, ← h k]
      unfold entries
      symm
      rw [List.filter_eq_nil_iff]
      intro x hx
      simpa [hxs x hx] using hk

end Lagotto.Documents
