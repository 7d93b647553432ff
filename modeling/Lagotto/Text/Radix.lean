/-
Lagotto.Text.Radix — numerals in a base, the highest digit first.

Without leading zeros, numerals are ordered like their numbers if the shorter
one comes first and numerals of one length are compared digit by digit
(`ofNumeral_le_iff`), and no number has two of them (`ofNumeral_inj`). Leading
zeros do not count (`ofNumeral_dropWhile`).

With them, numerals of one length are ordered like texts (`ofNumeral_lt_of_lt`),
and so are texts that are put together from them (`append_lt_append_iff`).
-/
import Mathlib.Algebra.Group.Nat.Defs
import Mathlib.Data.List.Basic

namespace Lagotto.Text

/-- The number a list of digits stands for. -/
def ofNumeral (base : Nat) (digits : List Nat) : Nat :=
  digits.foldl (fun n d => n * base + d) 0

/-- The first digit that differs is the lower one. -/
def digitsLe : List Nat → List Nat → Bool
  | [], _ => true
  | _ :: _, [] => false
  | d :: rest, e :: more => d < e || (d == e && digitsLe rest more)

/-- Shorter numerals come first; those of one length are compared digit by
digit. -/
def NumeralLe (a c : List Nat) : Prop :=
  a.length < c.length ∨ (a.length = c.length ∧ digitsLe a c = true)

instance (a c : List Nat) : Decidable (NumeralLe a c) :=
  inferInstanceAs (Decidable (a.length < c.length ∨ (a.length = c.length ∧ digitsLe a c = true)))

variable {base : Nat} {a c : List Nat}

theorem foldl_numeral (base n : Nat) (digits : List Nat) :
    digits.foldl (fun n d => n * base + d) n =
      n * base ^ digits.length + ofNumeral base digits := by
  induction digits generalizing n with
  | nil => simp [ofNumeral]
  | cons d rest ih =>
    have hzero : ofNumeral base (d :: rest) = d * base ^ rest.length + ofNumeral base rest := by
      simpa [ofNumeral] using ih d
    rw [List.foldl_cons, ih, hzero, List.length_cons, Nat.pow_succ]
    rw [Nat.add_mul, Nat.mul_assoc, Nat.mul_comm base, Nat.add_assoc]

@[simp] theorem ofNumeral_nil : ofNumeral base [] = 0 := rfl

theorem ofNumeral_cons (d : Nat) (rest : List Nat) :
    ofNumeral base (d :: rest) = d * base ^ rest.length + ofNumeral base rest := by
  have hfold := foldl_numeral base d rest
  simpa [ofNumeral] using hfold

theorem ofNumeral_lt (h : ∀ d ∈ a, d < base) : ofNumeral base a < base ^ a.length := by
  induction a with
  | nil => simp
  | cons d rest ih =>
    have hrest := ih (fun e he => h e (List.mem_cons_of_mem _ he))
    have hd : (d + 1) * base ^ rest.length ≤ base * base ^ rest.length :=
      Nat.mul_le_mul_right _ (h d (List.mem_cons_self ..))
    rw [ofNumeral_cons, List.length_cons, Nat.pow_succ, Nat.mul_comm (base ^ rest.length)]
    rw [Nat.succ_mul] at hd
    omega

/-- Leading zeros do not count. -/
theorem ofNumeral_dropWhile (digits : List Nat) :
    ofNumeral base (digits.dropWhile (· == 0)) = ofNumeral base digits := by
  induction digits with
  | nil => rfl
  | cons d rest ih =>
    cases d with
    | zero =>
      show ofNumeral base (rest.dropWhile (· == 0)) = _
      rw [ih, ofNumeral_cons]
      simp
    | succ n => rfl

/-- Two numbers below a power are compared by their multiples of it first. -/
theorem mul_add_le_mul_add_iff {m d e x y : Nat} (hx : x < m) (hy : y < m) :
    d * m + x ≤ e * m + y ↔ d < e ∨ (d = e ∧ x ≤ y) := by
  rcases Nat.lt_trichotomy d e with hlt | rfl | hgt
  · have hle := Nat.mul_le_mul_right m (Nat.succ_le_of_lt hlt)
    rw [Nat.succ_mul] at hle
    simp only [hlt, true_or, iff_true]
    omega
  · simp
  · have hle := Nat.mul_le_mul_right m (Nat.succ_le_of_lt hgt)
    rw [Nat.succ_mul] at hle
    constructor
    · intro h
      omega
    · intro h
      omega

theorem ofNumeral_le_iff_of_length (ha : ∀ d ∈ a, d < base) (hc : ∀ d ∈ c, d < base)
    (hlength : a.length = c.length) :
    ofNumeral base a ≤ ofNumeral base c ↔ digitsLe a c = true := by
  induction a generalizing c with
  | nil =>
    cases c with
    | nil => simp [digitsLe]
    | cons e more => simp at hlength
  | cons d rest ih =>
    cases c with
    | nil => simp at hlength
    | cons e more =>
      have hrest : ∀ f ∈ rest, f < base := fun f hf => ha f (List.mem_cons_of_mem _ hf)
      have hmore : ∀ f ∈ more, f < base := fun f hf => hc f (List.mem_cons_of_mem _ hf)
      have hsame : rest.length = more.length := Nat.succ.inj hlength
      have hbelow := ofNumeral_lt hmore
      rw [← hsame] at hbelow
      rw [ofNumeral_cons, ofNumeral_cons, ← hsame,
        mul_add_le_mul_add_iff (ofNumeral_lt hrest) hbelow, ih hrest hmore hsame]
      simp only [digitsLe, Bool.or_eq_true, Bool.and_eq_true, decide_eq_true_eq, beq_iff_eq]

theorem digitsLe_antisymm (h : digitsLe a c = true) (h' : digitsLe c a = true) : a = c := by
  induction a generalizing c with
  | nil =>
    cases c with
    | nil => rfl
    | cons e more => cases h'
  | cons d rest ih =>
    cases c with
    | nil => cases h
    | cons e more =>
      simp only [digitsLe, Bool.or_eq_true, Bool.and_eq_true, decide_eq_true_eq, beq_iff_eq]
        at h h'
      rcases h with hlt | ⟨hsame, hle⟩
      · rcases h' with hlt' | ⟨hsame, -⟩
        · omega
        · omega
      · rcases h' with hlt' | ⟨-, hge⟩
        · omega
        · rw [hsame, ih hle hge]

/-- A numeral without leading zeros is above all shorter ones. -/
theorem ofNumeral_lt_of_length (hbase : 0 < base) (ha : ∀ d ∈ a, d < base)
    (hfirst : c.head? ≠ some 0) (hlength : a.length < c.length) :
    ofNumeral base a < ofNumeral base c := by
  cases c with
  | nil => simp at hlength
  | cons e more =>
    have he : 1 ≤ e := by
      simp at hfirst
      omega
    calc ofNumeral base a < base ^ a.length := ofNumeral_lt ha
      _ ≤ base ^ more.length := Nat.pow_le_pow_right hbase (Nat.le_of_lt_succ hlength)
      _ ≤ e * base ^ more.length := Nat.le_mul_of_pos_left _ he
      _ ≤ ofNumeral base (e :: more) := by
        rw [ofNumeral_cons]
        exact Nat.le_add_right _ _

theorem ofNumeral_le_iff (hbase : 0 < base) (ha : ∀ d ∈ a, d < base) (hc : ∀ d ∈ c, d < base)
    (hfirst : a.head? ≠ some 0) (hfirst' : c.head? ≠ some 0) :
    ofNumeral base a ≤ ofNumeral base c ↔ NumeralLe a c := by
  unfold NumeralLe
  rcases Nat.lt_trichotomy a.length c.length with hlt | heq | hgt
  · have hbelow := ofNumeral_lt_of_length hbase ha hfirst' hlt
    simp [hlt, Nat.le_of_lt hbelow]
  · rw [ofNumeral_le_iff_of_length ha hc heq]
    simp [heq]
  · have habove := ofNumeral_lt_of_length hbase hc hfirst hgt
    constructor
    · intro h
      omega
    · intro h
      omega

theorem ofNumeral_inj (hbase : 0 < base) (ha : ∀ d ∈ a, d < base) (hc : ∀ d ∈ c, d < base)
    (hfirst : a.head? ≠ some 0) (hfirst' : c.head? ≠ some 0) :
    ofNumeral base a = ofNumeral base c ↔ a = c := by
  constructor
  · intro h
    have hle := (ofNumeral_le_iff hbase ha hc hfirst hfirst').mp (Nat.le_of_eq h)
    have hge := (ofNumeral_le_iff hbase hc ha hfirst' hfirst).mp (Nat.le_of_eq h.symm)
    have hsame : digitsLe a c = true ∧ digitsLe c a = true := by
      unfold NumeralLe at hle hge
      constructor
      · rcases hle with hlt | hle
        · omega
        · exact hle.2
      · rcases hge with hlt | hge
        · omega
        · exact hge.2
    exact digitsLe_antisymm hsame.1 hsame.2
  · intro h
    rw [h]

/-! ## Numerals of one length as texts -/

/-- The order of texts is that of the digits. -/
theorem digitsLe_of_lt (hlength : a.length = c.length) (h : a < c) : digitsLe c a = false := by
  induction a generalizing c with
  | nil =>
    cases c with
    | nil => simp at h
    | cons e more => simp at hlength
  | cons d rest ih =>
    cases c with
    | nil => simp at hlength
    | cons e more =>
      rcases List.cons_lt_cons_iff.mp h with hlt | ⟨rfl, hlt⟩
      · simp [digitsLe, Nat.le_of_lt hlt, Nat.ne_of_gt hlt]
      · simp [digitsLe, ih (Nat.succ.inj hlength) hlt]

theorem ofNumeral_lt_of_lt (ha : ∀ d ∈ a, d < base) (hc : ∀ d ∈ c, d < base)
    (hlength : a.length = c.length) (h : a < c) : ofNumeral base a < ofNumeral base c := by
  rw [← Nat.not_le, ofNumeral_le_iff_of_length hc ha hlength.symm, digitsLe_of_lt hlength h]
  exact Bool.false_ne_true

theorem map_lt_map {α β : Type} [LT α] [LT β] {f : α → β} {s t : List α}
    (hf : ∀ x ∈ s, ∀ y ∈ t, x < y → f x < f y) (h : s < t) : s.map f < t.map f := by
  induction s generalizing t with
  | nil =>
    cases t with
    | nil => simp at h
    | cons y ys => exact List.nil_lt_cons _ _
  | cons x xs ih =>
    cases t with
    | nil => simp at h
    | cons y ys =>
      rw [List.map_cons, List.map_cons, List.cons_lt_cons_iff]
      rcases List.cons_lt_cons_iff.mp h with hlt | ⟨rfl, hlt⟩
      · exact Or.inl (hf x List.mem_cons_self y List.mem_cons_self hlt)
      · exact Or.inr ⟨rfl, ih (fun u hu v hv =>
          hf u (List.mem_cons_of_mem x hu) v (List.mem_cons_of_mem x hv)) hlt⟩

/-- Of texts with first parts of one length, the first parts decide. -/
theorem append_lt_append_iff {α : Type} [LT α] {s s' t t' : List α}
    (hlength : s.length = s'.length) : s ++ t < s' ++ t' ↔ s < s' ∨ s = s' ∧ t < t' := by
  induction s generalizing s' with
  | nil =>
    cases s' with
    | nil => simp
    | cons e more => simp at hlength
  | cons x rest ih =>
    cases s' with
    | nil => simp at hlength
    | cons e more =>
      rw [List.cons_append, List.cons_append, List.cons_lt_cons_iff, List.cons_lt_cons_iff,
        ih (Nat.succ.inj hlength), List.cons.injEq]
      tauto

end Lagotto.Text
