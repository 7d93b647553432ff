/-
Lagotto.Text.Substitution — replacing every match of a pattern in a text.

A pattern is a function that looks at the head of a text: none where the
pattern does not match there, else how many characters it takes and what is
put in their place. `gsub` goes through a text from left to right and does not
look again at what a match has taken. `gsub_induction` is the induction along
that walk, so no proof below counts positions.

Three questions are answered for any pattern: when a text is left as it is
(`gsub_eq_self_iff`), when a count of characters shows that it was
(`gsub_eq_self_of_count`), and when substituting commutes with writing every
character in another way (`gsub_flatMap`).

In a text some characters may be written with codes that all begin with one
mark (`Escaped`). Putting the character back for its code makes no difference
to whether it was written with it (`Escaped.gsub_literal`), also where the text had
codes, or parts of them, before.
-/
import Mathlib.Data.List.Infix

namespace Lagotto.Text

/-- What a pattern takes from the head of a text, and what it puts there. -/
abbrev Pattern (α : Type) := List α → Option (Nat × List α)

section Gsub

variable {α : Type} {m : Pattern α} {c : α} {l : List α} {taken : Nat}

/-- A match takes something, and only what is there. -/
def Pattern.Proper (m : Pattern α) : Prop :=
  ∀ l taken text, m l = some (taken, text) → 0 < taken ∧ taken ≤ l.length

/-- `gsub`, with the number of characters the last match still covers. -/
def gsubFrom (m : Pattern α) : Nat → List α → List α
  | _, [] => []
  | skip + 1, _ :: rest => gsubFrom m skip rest
  | 0, c :: rest =>
    match m (c :: rest) with
    | some (taken, text) => text ++ gsubFrom m (taken - 1) rest
    | none => c :: gsubFrom m 0 rest

def gsub (m : Pattern α) (l : List α) : List α := gsubFrom m 0 l

/-- Every match is replaced by itself. -/
def untouchedFrom [DecidableEq α] (m : Pattern α) : Nat → List α → Bool
  | _, [] => true
  | skip + 1, _ :: rest => untouchedFrom m skip rest
  | 0, c :: rest =>
    match m (c :: rest) with
    | some (taken, text) => text == (c :: rest).take taken && untouchedFrom m (taken - 1) rest
    | none => untouchedFrom m 0 rest

def untouched [DecidableEq α] (m : Pattern α) (l : List α) : Bool := untouchedFrom m 0 l

theorem gsubFrom_eq_drop (m : Pattern α) :
    ∀ (skip : Nat) (l : List α), gsubFrom m skip l = gsub m (l.drop skip)
  | 0, _ => rfl
  | _ + 1, [] => rfl
  | skip + 1, _ :: rest => gsubFrom_eq_drop m skip rest

theorem untouchedFrom_eq_drop [DecidableEq α] (m : Pattern α) :
    ∀ (skip : Nat) (l : List α), untouchedFrom m skip l = untouched m (l.drop skip)
  | 0, _ => rfl
  | _ + 1, [] => rfl
  | skip + 1, _ :: rest => untouchedFrom_eq_drop m skip rest

@[simp] theorem gsub_nil (m : Pattern α) : gsub m [] = [] := rfl

theorem gsub_of_none (h : m (c :: l) = none) :
    gsub m (c :: l) = c :: gsub m l := by
  simp [gsub, gsubFrom, h]

theorem gsub_of_some (hm : m.Proper) {text : List α} (h : m l = some (taken, text)) :
    gsub m l = text ++ gsub m (l.drop taken) := by
  obtain ⟨hpos, hlen⟩ := hm l taken text h
  cases l with
  | nil => simp at hlen; omega
  | cons c rest =>
    obtain ⟨n, rfl⟩ : ∃ n, taken = n + 1 := ⟨taken - 1, by omega⟩
    rw [gsub, gsubFrom, h]
    exact congrArg (text ++ ·) (gsubFrom_eq_drop m n rest)

theorem untouched_of_none [DecidableEq α] (h : m (c :: l) = none) :
    untouched m (c :: l) = untouched m l := by
  simp [untouched, untouchedFrom, h]

theorem untouched_of_some [DecidableEq α] (hm : m.Proper) {text : List α}
    (h : m l = some (taken, text)) :
    untouched m l = (text == l.take taken && untouched m (l.drop taken)) := by
  obtain ⟨hpos, hlen⟩ := hm l taken text h
  cases l with
  | nil => simp at hlen; omega
  | cons c rest =>
    obtain ⟨n, rfl⟩ : ∃ n, taken = n + 1 := ⟨taken - 1, by omega⟩
    rw [untouched, untouchedFrom, h]
    exact congrArg (_ && ·) (untouchedFrom_eq_drop m n rest)

/-- Induction along the walk of `gsub`. -/
theorem gsub_induction (hm : m.Proper) {P : List α → Prop} (nil : P [])
    (none : ∀ c l, m (c :: l) = none → P l → P (c :: l))
    (some : ∀ l taken text, m l = some (taken, text) → P (l.drop taken) → P l) (l : List α) :
    P l := by
  induction hn : l.length using Nat.strong_induction_on generalizing l with
  | _ n ih =>
    cases hml : m l with
    | some found =>
      obtain ⟨taken, text⟩ := found
      obtain ⟨hpos, hlen⟩ := hm l taken text hml
      exact some l taken text hml (ih _ (by simp; omega) _ rfl)
    | none =>
      cases l with
      | nil => exact nil
      | cons c rest => exact none c rest hml (ih _ (by simp at hn; omega) rest rfl)

/-! ## When nothing changes -/

/-- A pattern whose replacement cannot be mistaken for the text it was put
into leaves a text alone exactly where every match is replaced by itself. -/
theorem gsub_eq_self_iff [DecidableEq α] (hm : m.Proper)
    (hseen : ∀ l taken text, m l = some (taken, text) → text <+: l → text = l.take taken)
    (l : List α) : gsub m l = l ↔ untouched m l := by
  induction l using gsub_induction hm with
  | nil => simp [untouched, untouchedFrom]
  | none c l h ih => rw [gsub_of_none h, untouched_of_none h, List.cons.injEq, ← ih]; simp
  | some l taken text h ih =>
    rw [gsub_of_some hm h, untouched_of_some hm h, Bool.and_eq_true, beq_iff_eq, ← ih]
    constructor
    · intro heq
      have htext : text = l.take taken := hseen l taken text h ⟨_, heq⟩
      refine ⟨htext, ?_⟩
      rw [htext] at heq
      exact List.append_cancel_left (heq.trans (List.take_append_drop taken l).symm)
    · rintro ⟨htext, hrest⟩
      rw [htext, hrest, List.take_append_drop]

section Count

variable [DecidableEq α]

theorem count_gsub_le (hm : m.Proper)
    (hc : ∀ l taken text, m l = some (taken, text) → text.count c ≤ (l.take taken).count c)
    (l : List α) : (gsub m l).count c ≤ l.count c := by
  induction l using gsub_induction hm with
  | nil => simp
  | none d l h ih =>
    rw [gsub_of_none h, List.count_cons, List.count_cons]
    omega
  | some l taken text h ih =>
    have hsplit : l.count c = (l.take taken).count c + (l.drop taken).count c := by
      rw [← List.count_append, List.take_append_drop]
    rw [gsub_of_some hm h, List.count_append, hsplit]
    exact Nat.add_le_add (hc l taken text h) ih

/-- Where every match loses a character `c`, a text that has kept them all had
no match. -/
theorem gsub_eq_self_of_count (hm : m.Proper)
    (hc : ∀ l taken text, m l = some (taken, text) → text.count c < (l.take taken).count c)
    (h : l.count c ≤ (gsub m l).count c) : gsub m l = l := by
  have hle := count_gsub_le hm (c := c) fun l taken text hl => (hc l taken text hl).le
  induction l using gsub_induction hm with
  | nil => rfl
  | none d l hnone ih =>
    rw [gsub_of_none hnone, List.count_cons, List.count_cons] at h
    rw [gsub_of_none hnone, ih (by omega)]
  | some l taken text hsome ih =>
    have hsplit : l.count c = (l.take taken).count c + (l.drop taken).count c := by
      rw [← List.count_append, List.take_append_drop]
    rw [gsub_of_some hm hsome, List.count_append, hsplit] at h
    have hlost := hc l taken text hsome
    have hrest := hle (l.drop taken)
    omega

end Count

/-- Substituting commutes with writing every character in another way, when
the pattern finds the rewritten matches and no others. -/
theorem gsub_flatMap (hm : m.Proper) {f : α → List α}
    (hsome : ∀ l taken text, m l = some (taken, text) →
      m (l.flatMap f) = some (((l.take taken).flatMap f).length, text.flatMap f))
    (hnone : ∀ c l, m (c :: l) = none →
      gsub m (f c ++ l.flatMap f) = f c ++ gsub m (l.flatMap f)) (l : List α) :
    gsub m (l.flatMap f) = (gsub m l).flatMap f := by
  induction l using gsub_induction hm with
  | nil => simp
  | none c l h ih => rw [List.flatMap_cons, hnone c l h, gsub_of_none h, List.flatMap_cons, ih]
  | some l taken text h ih =>
    have hdrop : (l.flatMap f).drop ((l.take taken).flatMap f).length =
        (l.drop taken).flatMap f := by
      conv_lhs => rw [← List.take_append_drop taken l, List.flatMap_append]
      simp
    rw [gsub_of_some hm (hsome l taken text h), hdrop, gsub_of_some hm h, List.flatMap_append, ih]

/-- Characters no match begins at are copied. -/
theorem gsub_append {s : List α} (h : ∀ t, t <:+ s → t ≠ [] → m (t ++ l) = none) :
    gsub m (s ++ l) = s ++ gsub m l := by
  induction s with
  | nil => rfl
  | cons c s ih =>
    have hc : m (c :: (s ++ l)) = none := h (c :: s) List.suffix_rfl (by simp)
    rw [List.cons_append, gsub_of_none hc, List.cons_append,
      ih fun t ht => h t (ht.trans (List.suffix_cons c s))]

/-- What holds of every character, of a text and of the replacements, holds of
the result. -/
theorem forall_mem_gsub (hm : m.Proper) {P : α → Prop}
    (htext : ∀ l taken text, m l = some (taken, text) → (∀ c ∈ l, P c) → ∀ c ∈ text, P c)
    (h : ∀ c ∈ l, P c) : ∀ c ∈ gsub m l, P c := by
  induction l using gsub_induction hm with
  | nil => simp
  | none c l hnone ih =>
    rw [gsub_of_none hnone]
    intro d hd
    rcases List.mem_cons.mp hd with rfl | hd
    · exact h d (by simp)
    · exact ih (fun e he => h e (by simp [he])) d hd
  | some l taken text hsome ih =>
    rw [gsub_of_some hm hsome]
    intro d hd
    rcases List.mem_append.mp hd with hd | hd
    · exact htext l taken text hsome h d hd
    · exact ih (fun e he => h e (List.mem_of_mem_drop he)) d hd

/-- No character is lost if none is lost in a match. -/
theorem subset_gsub (hm : m.Proper)
    (htext : ∀ l taken text, m l = some (taken, text) → ∀ c ∈ l.take taken, c ∈ text) (l : List α) :
    ∀ c ∈ l, c ∈ gsub m l := by
  induction l using gsub_induction hm with
  | nil => simp
  | none c l hnone ih =>
    rw [gsub_of_none hnone]
    intro d hd
    rcases List.mem_cons.mp hd with rfl | hd
    · exact List.mem_cons_self
    · exact List.mem_cons_of_mem c (ih d hd)
  | some l taken text hsome ih =>
    rw [gsub_of_some hm hsome]
    intro d hd
    rw [← List.take_append_drop taken l] at hd
    rcases List.mem_append.mp hd with hd | hd
    · exact List.mem_append_left _ (htext l taken text hsome d hd)
    · exact List.mem_append_right _ (ih d hd)

/-- A character that no replacement begins with was there, and no match began
with it. -/
theorem cons_prefix_gsub_iff (hm : m.Proper) {s l : List α}
    (htext : ∀ l taken text, m l = some (taken, text) → ∃ d rest, text = d :: rest ∧ d ≠ c) :
    c :: s <+: gsub m l ↔ ∃ rest, l = c :: rest ∧ m (c :: rest) = none ∧ s <+: gsub m rest := by
  constructor
  · intro h
    cases l with
    | nil => simp at h
    | cons d l =>
      cases hmatch : m (d :: l) with
      | none =>
        rw [gsub_of_none hmatch, List.cons_prefix_cons] at h
        obtain ⟨rfl, h⟩ := h
        exact ⟨l, rfl, hmatch, h⟩
      | some found =>
        obtain ⟨e, rest, hcons, hne⟩ := htext _ _ _ hmatch
        rw [gsub_of_some hm hmatch, hcons, List.cons_append, List.cons_prefix_cons] at h
        exact absurd h.1.symm hne
  · rintro ⟨rest, rfl, hmatch, h⟩
    rw [gsub_of_none hmatch, List.cons_prefix_cons]
    exact ⟨rfl, h⟩

/-- Characters that play no part in the substitution. -/
theorem append_prefix_gsub_iff (hm : m.Proper) {p s l : List α}
    (hnone : ∀ c ∈ p, ∀ rest, m (c :: rest) = none)
    (htext : ∀ c ∈ p, ∀ l taken text, m l = some (taken, text) →
      ∃ d rest, text = d :: rest ∧ d ≠ c) :
    p ++ s <+: gsub m l ↔ ∃ rest, l = p ++ rest ∧ s <+: gsub m rest := by
  induction p generalizing l with
  | nil => simp
  | cons c p ih =>
    rw [List.cons_append, cons_prefix_gsub_iff hm (htext c List.mem_cons_self)]
    constructor
    · rintro ⟨rest, rfl, -, h⟩
      obtain ⟨more, rfl, hmore⟩ := (ih (fun d hd => hnone d (List.mem_cons_of_mem c hd))
        (fun d hd => htext d (List.mem_cons_of_mem c hd))).mp h
      exact ⟨more, rfl, hmore⟩
    · rintro ⟨rest, rfl, h⟩
      refine ⟨p ++ rest, rfl, hnone c List.mem_cons_self _, ?_⟩
      exact (ih (fun d hd => hnone d (List.mem_cons_of_mem c hd))
        (fun d hd => htext d (List.mem_cons_of_mem c hd))).mpr ⟨rest, rfl, h⟩

theorem prefix_gsub_iff (hm : m.Proper) {p l : List α}
    (hnone : ∀ c ∈ p, ∀ rest, m (c :: rest) = none)
    (htext : ∀ c ∈ p, ∀ l taken text, m l = some (taken, text) →
      ∃ d rest, text = d :: rest ∧ d ≠ c) :
    p <+: gsub m l ↔ p <+: l := by
  have hiff := append_prefix_gsub_iff hm (s := []) (l := l) hnone htext
  rw [List.append_nil] at hiff
  rw [hiff]
  constructor
  · rintro ⟨rest, rfl, -⟩
    exact List.prefix_append p rest
  · rintro ⟨rest, rfl⟩
    exact ⟨rest, rfl, List.nil_prefix⟩

/-! ## A fixed text for another -/

/-- `gsub(pat, text)` of two strings. -/
def literal [DecidableEq α] (pat text : List α) : Pattern α := fun l =>
  if pat <+: l then some (pat.length, text) else none

section Literal

variable [DecidableEq α] {pat text : List α}

theorem literal_eq_some {t : List α} (h : literal pat text l = some (taken, t)) :
    pat <+: l ∧ taken = pat.length ∧ t = text := by
  unfold literal at h
  split at h
  · next hpat => exact ⟨hpat, by simp_all⟩
  · cases h

theorem literal_eq_none : literal pat text l = none ↔ ¬ pat <+: l := by
  simp [literal]

theorem literal_proper (hpat : pat ≠ []) : (literal pat text).Proper := by
  intro l taken t h
  obtain ⟨hstart, rfl, -⟩ := literal_eq_some h
  exact ⟨List.length_pos_iff.mpr hpat, hstart.length_le⟩

theorem take_of_literal {t : List α} (h : literal pat text l = some (taken, t)) :
    l.take taken = pat := by
  obtain ⟨hstart, rfl, -⟩ := literal_eq_some h
  exact (List.prefix_iff_eq_take.mp hstart).symm

/-- A text is left alone where `pat` does not occur. -/
theorem gsub_literal_of_not_infix (h : ¬ pat <:+: l) :
    gsub (literal pat text) l = l := by
  have hnone : ∀ t, t <:+ l → t ≠ [] → literal pat text (t ++ []) = none := by
    intro t ht _
    rw [List.append_nil, literal_eq_none]
    exact fun hpat => h (hpat.isInfix.trans ht.isInfix)
  simpa using gsub_append hnone

/-- A text that is left alone does not have `pat` in it, when `text` cannot be
read as the beginning of `pat`. -/
theorem not_infix_of_gsub_literal (hpat : pat ≠ []) (htext : ¬ text <+: pat)
    (hlen : text.length ≤ pat.length) (h : gsub (literal pat text) l = l) :
    ¬ pat <:+: l := by
  have hm : (literal pat text).Proper := literal_proper hpat
  induction l using gsub_induction hm with
  | nil => simpa using hpat
  | none c l hnone ih =>
    rw [gsub_of_none hnone, List.cons.injEq] at h
    rw [List.infix_cons_iff, not_or]
    exact ⟨literal_eq_none.mp hnone, ih h.2⟩
  | some l taken t hsome ih =>
    obtain ⟨hstart, -, ht⟩ := literal_eq_some hsome
    rw [gsub_of_some hm hsome, ht] at h
    exact absurd (List.prefix_of_prefix_length_le ⟨_, h⟩ hstart hlen) htext

/-- Nothing begins a match where the first character of `pat` is missing. -/
theorem gsub_literal_append {s l : List α} (hpat : pat.head? = some c) (h : c ∉ s) :
    gsub (literal pat text) (s ++ l) = s ++ gsub (literal pat text) l := by
  apply gsub_append
  intro t ht hne
  rw [literal_eq_none]
  intro hstart
  obtain ⟨d, t, rfl⟩ := List.exists_cons_of_ne_nil hne
  obtain ⟨e, pat, rfl⟩ : ∃ e p, pat = e :: p := by
    cases pat with
    | nil => simp at hpat
    | cons e p => exact ⟨e, p, rfl⟩
  have hd : e = d := by
    rw [List.cons_append] at hstart
    exact (List.cons_prefix_cons.mp hstart).1
  have hc : e = c := by simpa using hpat
  exact h (ht.subset (by simp [← hc, hd]))

end Literal

/-! ## Codes -/

/-- Some characters of the first text are written with their codes in the
second. -/
inductive Escaped (codes : α → List α → Prop) : List α → List α → Prop
  | nil : Escaped codes [] []
  | keep (c : α) {l r : List α} (h : Escaped codes l r) : Escaped codes (c :: l) (c :: r)
  | code {c : α} {k : List α} (hk : codes c k) {l r : List α} (h : Escaped codes l r) :
    Escaped codes (c :: l) (k ++ r)

namespace Escaped

variable {codes : α → List α → Prop} {l r s : List α} {mark : α}

theorem append_left (h : Escaped codes l r) : ∀ s : List α, Escaped codes (s ++ l) (s ++ r)
  | [] => h
  | c :: s => .keep c (append_left h s)

theorem eq_of_forall_not (hcodes : ∀ c k, ¬ codes c k) (h : Escaped codes l r) : l = r := by
  induction h with
  | nil => rfl
  | keep c h ih => rw [ih]
  | code hk h ih => exact absurd hk (hcodes _ _)

/-- A text without the mark in front was there before. -/
theorem starts_of_starts (hcodes : ∀ c k, codes c k → k.head? = some mark)
    (h : Escaped codes l r) (hs : mark ∉ s) (hstart : s <+: r) : s <+: l := by
  induction h generalizing s with
  | nil => exact hstart
  | keep c h ih =>
    cases s with
    | nil => exact List.nil_prefix
    | cons d s =>
      rw [List.cons_prefix_cons] at hstart ⊢
      exact ⟨hstart.1, ih (fun hmem => hs (List.mem_cons_of_mem d hmem)) hstart.2⟩
  | code hk h ih =>
    cases s with
    | nil => exact List.nil_prefix
    | cons d s =>
      obtain ⟨tail, rfl⟩ := List.head?_eq_some_iff.mp (hcodes _ _ hk)
      rw [List.cons_append, List.cons_prefix_cons] at hstart
      exact absurd (hstart.1 ▸ List.mem_cons_self) hs

/-- Characters without a code are kept. -/
theorem exists_of_append (hs : ∀ c ∈ s, ∀ k, ¬ codes c k) (h : Escaped codes (s ++ l) r) :
    ∃ t, r = s ++ t ∧ Escaped codes l t := by
  induction s generalizing r with
  | nil => exact ⟨r, rfl, h⟩
  | cons d s ih =>
    rw [List.cons_append] at h
    cases h with
    | keep _ h =>
      obtain ⟨t, rfl, ht⟩ := ih (fun c hc => hs c (List.mem_cons_of_mem d hc)) h
      exact ⟨t, rfl, ht⟩
    | code hk h => exact absurd hk (hs d List.mem_cons_self _)

variable [DecidableEq α] {pat : List α} {d : α}

/-- **Putting back one character**: what remains is written with the other
codes. -/
theorem gsub_literal (hpat : pat.head? = some mark) (htail : mark ∉ pat.tail)
    (hcodes : ∀ c k, codes c k → k.head? = some mark ∧ mark ∉ k.tail ∧ k.length = pat.length)
    (hplain : ∀ c k, codes c k → c ∉ pat) (hcode : ∀ c, codes c pat → c = d)
    (h : Escaped codes l r) :
    Escaped (fun c k => codes c k ∧ k ≠ pat) (gsub (literal pat [d]) l)
      (gsub (literal pat [d]) r) := by
  have hne : pat ≠ [] := by
    intro hnil
    simp [hnil] at hpat
  have hm : (literal pat [d]).Proper := literal_proper hne
  obtain ⟨tail, rfl⟩ := List.head?_eq_some_iff.mp hpat
  have hput : ∀ t, gsub (literal (mark :: tail) [d]) (mark :: tail ++ t) =
      d :: gsub (literal (mark :: tail) [d]) t := by
    intro t
    have hsome : literal (mark :: tail) [d] (mark :: tail ++ t) =
        some ((mark :: tail).length, [d]) := if_pos (List.prefix_append _ _)
    rw [gsub_of_some hm hsome, List.drop_left]
    rfl
  induction l using gsub_induction hm generalizing r with
  | nil =>
    cases h
    exact .nil
  | none c l hnone ih =>
    rw [gsub_of_none hnone]
    cases h with
    | @keep _ _ r h =>
      have hnone' : literal (mark :: tail) [d] (c :: r) = none := by
        rw [literal_eq_none] at hnone ⊢
        intro hstart
        rw [List.cons_prefix_cons] at hstart hnone
        exact hnone ⟨hstart.1,
          h.starts_of_starts (fun c k hk => (hcodes c k hk).1) htail hstart.2⟩
      rw [gsub_of_none hnone']
      exact .keep c (ih h)
    | @code _ k hk _ r h =>
      by_cases hsame : k = mark :: tail
      · subst hsame
        rw [hput, hcode c hk]
        exact .keep d (ih h)
      · obtain ⟨hhead, hrest, hlength⟩ := hcodes c k hk
        obtain ⟨rest, rfl⟩ := List.head?_eq_some_iff.mp hhead
        rw [List.tail_cons] at hrest
        have hnone' : literal (mark :: tail) [d] (mark :: (rest ++ r)) = none := by
          rw [literal_eq_none]
          intro hstart
          have hstarts : mark :: tail <+: mark :: rest :=
            List.prefix_of_prefix_length_le hstart (List.prefix_append (mark :: rest) r)
              (le_of_eq hlength.symm)
          exact hsame (hstarts.eq_of_length hlength.symm).symm
        rw [List.cons_append, gsub_of_none hnone', gsub_literal_append hpat hrest]
        exact .code ⟨hk, hsame⟩ (ih h)
  | some l taken text hsome ih =>
    obtain ⟨⟨rest, rfl⟩, rfl, rfl⟩ := literal_eq_some hsome
    obtain ⟨t, rfl, ht⟩ := h.exists_of_append (fun c hc k hk => hplain c k hk hc)
    rw [hput, hput]
    rw [List.drop_left] at ih
    exact .keep d (ih ht)

end Escaped

end Gsub

end Lagotto.Text
