/-
Lagotto.Text.Numerals — numbers as texts, and texts put together from them.

A number is written with digits after a sign that may be missing
(`isDigit_of_mem_repr`, `mem_toString_int`), and the text determines the number
(`repr_nat_injective`, `toString_int_injective`). Where a number is followed by
a dash, the dash can be found again (`dashed_injective`).
-/
import Mathlib.Data.List.Basic

namespace Lagotto.Text

/-- A text is cut at the first place where a character is. -/
theorem append_cons_inj_of_not_mem {α : Type} {a : α} {s s' t t' : List α} (h : a ∉ s)
    (h' : a ∉ s') (heq : s ++ a :: t = s' ++ a :: t') : s = s' ∧ t = t' := by
  induction s generalizing s' with
  | nil =>
    cases s' with
    | nil => exact ⟨rfl, (List.cons.inj heq).2⟩
    | cons c cs =>
      have hc : a = c := (List.cons.inj heq).1
      exact absurd List.mem_cons_self (hc ▸ h')
  | cons c cs ih =>
    cases s' with
    | nil =>
      have hc : c = a := (List.cons.inj heq).1
      exact absurd List.mem_cons_self (hc ▸ h)
    | cons d ds =>
      obtain ⟨hhead, htail⟩ := List.cons.inj heq
      obtain ⟨hs, ht⟩ := ih (fun hmem => h (List.mem_cons_of_mem c hmem))
        (fun hmem => h' (List.mem_cons_of_mem d hmem)) htail
      exact ⟨by rw [hhead, hs], ht⟩

/-! ## Natural numbers -/

theorem isDigit_of_mem_repr {n : Nat} {c : Char} (h : c ∈ (Nat.repr n).toList) :
    c.isDigit = true := by
  rw [Nat.repr, String.toList_ofList] at h
  exact Nat.isDigit_of_mem_toDigits (by decide) (by decide) h

theorem repr_nat_injective : Function.Injective Nat.repr := by
  intro a b h
  have hdigits := congrArg String.toList h
  rw [Nat.repr, Nat.repr, String.toList_ofList, String.toList_ofList] at hdigits
  have hnumber := congrArg (Nat.ofDigitChars 10 · 0) hdigits
  simpa [Nat.ofDigitChars_ten_toDigits] using hnumber

theorem dash_not_mem_repr (n : Nat) : '-' ∉ (Nat.repr n).toList := by
  intro h
  exact absurd (isDigit_of_mem_repr h) (by decide)

/-! ## Integers -/

theorem toList_toString_negSucc (n : Nat) :
    (toString (Int.negSucc n)).toList = '-' :: (Nat.repr (n + 1)).toList :=
  String.toList_append

/-- A number is written with digits and a sign. -/
theorem mem_toString_int {n : Int} {c : Char} (h : c ∈ (toString n).toList) :
    c = '-' ∨ c.isDigit = true := by
  cases n with
  | ofNat m => exact Or.inr (isDigit_of_mem_repr h)
  | negSucc m =>
    rw [toList_toString_negSucc, List.mem_cons] at h
    exact h.imp_right isDigit_of_mem_repr

theorem toString_int_injective : Function.Injective (toString : Int → String) := by
  have hsign : ∀ m k : Nat, toString (Int.ofNat m) ≠ toString (Int.negSucc k) := by
    intro m k h
    have hdash : '-' ∈ (toString (Int.negSucc k)).toList := by
      rw [toList_toString_negSucc]
      exact List.mem_cons_self
    rw [← h] at hdash
    exact dash_not_mem_repr m hdash
  intro a b h
  cases a with
  | ofNat m =>
    cases b with
    | ofNat k => exact congrArg Int.ofNat (repr_nat_injective h)
    | negSucc k => exact absurd h (hsign m k)
  | negSucc m =>
    cases b with
    | ofNat k => exact absurd h.symm (hsign k m)
    | negSucc k =>
      have hlist := congrArg String.toList h
      rw [toList_toString_negSucc, toList_toString_negSucc] at hlist
      have hrepr := repr_nat_injective (String.toList_inj.mp (List.cons.inj hlist).2)
      exact congrArg Int.negSucc (Nat.succ.inj hrepr)

/-- After its first character a number has no dash. -/
theorem toString_int_eq_cons (n : Int) :
    ∃ c cs, (toString n).toList = c :: cs ∧ '-' ∉ cs := by
  cases n with
  | ofNat m =>
    have hchars : (toString (Int.ofNat m)).toList = (Nat.repr m).toList := rfl
    have hne : (Nat.repr m).toList ≠ [] := by
      rw [Nat.repr, String.toList_ofList]
      exact Nat.toDigits_ne_nil
    obtain ⟨c, cs, heq⟩ := List.exists_cons_of_ne_nil hne
    have hdash := dash_not_mem_repr m
    rw [heq] at hdash
    exact ⟨c, cs, hchars.trans heq, fun h => hdash (List.mem_cons_of_mem c h)⟩
  | negSucc m =>
    exact ⟨'-', (Nat.repr (m + 1)).toList, toList_toString_negSucc m, dash_not_mem_repr _⟩

/-- Two numbers with a dash between them. -/
theorem dashed_injective :
    Function.Injective (fun n : Int × Int => toString n.1 ++ "-" ++ toString n.2) := by
  intro a b h
  have hlist := congrArg String.toList h
  simp only at hlist
  rw [String.append_assoc, String.append_assoc, String.toList_append, String.toList_append,
    String.toList_append, String.toList_append] at hlist
  obtain ⟨c, cs, hc, hcs⟩ := toString_int_eq_cons a.1
  obtain ⟨d, ds, hd, hds⟩ := toString_int_eq_cons b.1
  rw [hc, hd, List.cons_append, List.cons_append] at hlist
  obtain ⟨hhead, htail⟩ := List.cons.inj hlist
  -- behind the first character the dash between the numbers is the first one
  obtain ⟨hfirst, hsecond⟩ := append_cons_inj_of_not_mem hcs hds htail
  have hleft : toString a.1 = toString b.1 := by
    rw [← String.toList_inj, hc, hd, hhead, hfirst]
  exact Prod.ext (toString_int_injective hleft)
    (toString_int_injective (String.toList_inj.mp hsecond))

end Lagotto.Text
