/-
Lagotto.Interaction.Loops — a loop whose body may raise.

`mapM` in `Except` stops at the first item that raises. `mapM_eq_ok_iff` reads
its result item by item, `mapM_bind_mapM_iff` that of two loops one after the
other, and `foldlM_add_eq_ok_iff` that of a loop that adds up.
-/
import Mathlib.Algebra.BigOperators.Group.List.Basic
import Mathlib.Data.List.Forall2

namespace Lagotto.Interaction

variable {ε α β γ : Type}

theorem map_eq_ok_iff {f : α → β} {x : Except ε α} {b : β} :
    x.map f = .ok b ↔ ∃ a, x = .ok a ∧ b = f a := by
  cases x with
  | error e => simp [Except.map]
  | ok a => simp [Except.map, eq_comm]

theorem bind_eq_ok_iff {f : α → Except ε β} {x : Except ε α} {b : β} :
    (x >>= f) = .ok b ↔ ∃ a, x = .ok a ∧ f a = .ok b := by
  cases x with
  | error e =>
    constructor
    · intro h
      cases h
    · rintro ⟨a, h, -⟩
      cases h
  | ok a =>
    constructor
    · exact fun h => ⟨a, rfl, h⟩
    · rintro ⟨a', ha, hf⟩
      cases ha
      exact hf

/-- The loop ends without an exception and with these results exactly if every
item has its result. -/
theorem mapM_eq_ok_iff {f : α → Except ε β} {items : List α} {results : List β} :
    items.mapM f = .ok results ↔
      List.Forall₂ (fun item result => f item = .ok result) items results := by
  induction items generalizing results with
  | nil =>
    rw [List.mapM_nil, List.forall₂_nil_left_iff]
    exact ⟨fun h => (Except.ok.inj h).symm, fun h => congrArg Except.ok h.symm⟩
  | cons item rest ih =>
    rw [List.mapM_cons]
    cases hitem : f item with
    | error e =>
      constructor
      · intro h
        cases h
      · intro h
        cases h with
        | cons hfirst _ => cases hitem.symm.trans hfirst
    | ok first =>
      cases hrest : rest.mapM f with
      | error e =>
        constructor
        · intro h
          cases h
        · intro h
          cases h with
          | cons _ hmore => cases hrest.symm.trans (ih.mpr hmore)
      | ok more =>
        constructor
        · intro h
          obtain rfl := Except.ok.inj h
          exact .cons hitem (ih.mp hrest)
        · intro h
          cases h with
          | cons hfirst hmore =>
            obtain rfl := Except.ok.inj (hitem.symm.trans hfirst)
            obtain rfl := Except.ok.inj (hrest.symm.trans (ih.mpr hmore))
            rfl

/-- A loop that adds up what its body returns. -/
theorem foldlM_add_eq_ok_iff {M : Type} [AddMonoid M] {f : α → Except ε M} {items : List α}
    {start sum : M} :
    items.foldlM (fun sum item => do
        let n ← f item
        pure (sum + n)) start = .ok sum ↔
      ∃ ns, List.Forall₂ (fun item n => f item = .ok n) items ns ∧ sum = start + ns.sum := by
  induction items generalizing start with
  | nil =>
    simp only [List.foldlM_nil, List.forall₂_nil_left_iff, exists_eq_left, List.sum_nil, add_zero]
    exact ⟨fun h => (Except.ok.inj h).symm, fun h => congrArg Except.ok h.symm⟩
  | cons item rest ih =>
    rw [List.foldlM_cons, bind_eq_ok_iff]
    constructor
    · rintro ⟨next, hnext, hrest⟩
      obtain ⟨n, hn, hsum⟩ := bind_eq_ok_iff.mp hnext
      obtain rfl := Except.ok.inj hsum
      obtain ⟨ns, hns, rfl⟩ := ih.mp hrest
      exact ⟨n :: ns, .cons hn hns, by rw [List.sum_cons, add_assoc]⟩
    · rintro ⟨_, hns, rfl⟩
      cases hns with
      | cons hn hns =>
        refine ⟨_, bind_eq_ok_iff.mpr ⟨_, hn, rfl⟩, ih.mpr ⟨_, hns, ?_⟩⟩
        rw [List.sum_cons, add_assoc]

theorem forall₂_comp_iff {R : α → β → Prop} {S : β → γ → Prop} {items : List α}
    {results : List γ} :
    List.Forall₂ (fun item result => ∃ mid, R item mid ∧ S mid result) items results ↔
      ∃ mids, List.Forall₂ R items mids ∧ List.Forall₂ S mids results := by
  constructor
  · intro h
    induction h with
    | nil => exact ⟨[], .nil, .nil⟩
    | cons hfirst _ ih =>
      obtain ⟨mid, hR, hS⟩ := hfirst
      obtain ⟨mids, hRs, hSs⟩ := ih
      exact ⟨mid :: mids, .cons hR hRs, .cons hS hSs⟩
  · rintro ⟨mids, hRs, hSs⟩
    induction hRs generalizing results with
    | nil =>
      cases hSs
      exact .nil
    | cons hR _ ih =>
      cases hSs with
      | cons hS hSs => exact .cons ⟨_, hR, hS⟩ (ih hSs)

theorem exists_forall₂_iff {R : α → β → Prop} {items : List α} :
    (∃ results, List.Forall₂ R items results) ↔ ∀ item ∈ items, ∃ result, R item result := by
  induction items with
  | nil => exact ⟨fun _ _ h => (nomatch h), fun _ => ⟨[], .nil⟩⟩
  | cons item rest ih =>
    rw [List.forall_mem_cons, ← ih]
    constructor
    · rintro ⟨results, h⟩
      cases h with
      | cons hfirst hrest => exact ⟨⟨_, hfirst⟩, ⟨_, hrest⟩⟩
    · rintro ⟨⟨first, hfirst⟩, ⟨more, hmore⟩⟩
      exact ⟨first :: more, .cons hfirst hmore⟩

/-- Items that have a result under a condition and no choice of it. -/
theorem forall₂_graph_iff {P : α → Prop} {f : α → β} {items : List α} {results : List β} :
    List.Forall₂ (fun item result => P item ∧ result = f item) items results ↔
      (∀ item ∈ items, P item) ∧ results = items.map f := by
  induction items generalizing results with
  | nil => simp
  | cons item rest ih =>
    cases results with
    | nil => simp
    | cons result more =>
      rw [List.forall₂_cons, ih, List.forall_mem_cons, List.map_cons, List.cons.injEq]
      exact and_and_and_comm

/-- A loop over the results of a loop. -/
theorem mapM_bind_mapM_iff {f : α → Except ε β} {g : β → Except ε γ} {items : List α}
    {results : List γ} :
    (items.mapM f).bind (List.mapM g) = .ok results ↔
      List.Forall₂ (fun item result => ∃ mid, f item = .ok mid ∧ g mid = .ok result)
        items results := by
  rw [forall₂_comp_iff]
  constructor
  · intro h
    cases hmids : items.mapM f with
    | error e =>
      rw [hmids] at h
      cases h
    | ok mids =>
      rw [hmids] at h
      exact ⟨mids, mapM_eq_ok_iff.mp hmids, mapM_eq_ok_iff.mp h⟩
  · rintro ⟨mids, hf, hg⟩
    rw [mapM_eq_ok_iff.mpr hf]
    exact mapM_eq_ok_iff.mpr hg

end Lagotto.Interaction
