/-
Lagotto.Text.Includes — which part of a message a search text was found in.

A message put together from pieces with a separator is searched for a fixed
text. As long as the text shares no character with the place where two
pieces meet, it is found in the message exactly when it is found in one of
the pieces. `separates` is the check for that, and it computes, so that for
a concrete separator and text it is settled by evaluation.
-/
import Mathlib.Data.List.Infix

namespace Lagotto.Text

/-- `text.include?(pattern)`. -/
def includes (text pattern : String) : Bool := decide (pattern.toList <:+: text.toList)

/-- `pieces.join(sep)`. -/
def join (sep : String) : List String → String
  | [] => ""
  | [piece] => piece
  | piece :: rest => piece ++ sep ++ join sep rest

/-- No occurrence of the pattern can reach across the separator: its first
character is not in the pattern, and the pattern does not start inside the
rest of it. -/
def separates (sep pattern : String) : Bool :=
  match sep.toList, pattern.toList with
  | c :: rest, p :: ps => !(p :: ps).contains c && !rest.contains p
  | _, _ => false

section Lists

variable {α : Type}

/-- An occurrence that neither contains `c` nor starts in `rest` lies on one
side of `c :: rest`. -/
theorem infix_append_cons_append {c p : α} {rest ps left right : List α}
    (hc : c ∉ p :: ps) (hp : p ∉ rest)
    (h : (p :: ps) <:+: left ++ (c :: rest) ++ right) :
    (p :: ps) <:+: left ∨ (p :: ps) <:+: right := by
  obtain ⟨before, behind, heq⟩ := h
  rw [List.append_assoc, List.append_assoc] at heq
  rcases List.append_eq_append_iff.mp heq with ⟨mid, hleft, hmid⟩ | ⟨mid, hbefore, hmid⟩
  · -- the occurrence starts in `left`
    rcases List.append_eq_append_iff.mp hmid with ⟨more, rfl, _⟩ | ⟨more, hpat, hmore⟩
    · left
      exact ⟨before, more, by rw [hleft, List.append_assoc]⟩
    · cases more with
      | nil =>
        left
        rw [List.append_nil] at hpat
        exact ⟨before, [], by rw [hleft, hpat, List.append_nil]⟩
      | cons x xs =>
        rw [List.cons_append, List.cons_append] at hmore
        obtain ⟨rfl, _⟩ := List.cons.inj hmore
        exact absurd (hpat ▸ List.mem_append_right mid (List.mem_cons_self ..)) hc
  · -- it starts behind `left`
    cases mid with
    | nil =>
      rw [List.nil_append, List.cons_append, List.cons_append] at hmid
      obtain ⟨rfl, _⟩ := List.cons.inj hmid
      exact absurd (List.mem_cons_self ..) hc
    | cons x mid =>
      rw [List.cons_append, List.cons_append] at hmid
      obtain ⟨_, hmid⟩ := List.cons.inj hmid
      right
      rcases List.append_eq_append_iff.mp hmid with ⟨more, hmore, hright⟩ | ⟨more, hrest, hright⟩
      · exact ⟨more, behind, by rw [hright, List.append_assoc]⟩
      · cases more with
        | nil => exact ⟨[], behind, by simpa using hright⟩
        | cons y ys =>
          rw [List.cons_append, List.cons_append] at hright
          obtain ⟨rfl, _⟩ := List.cons.inj hright
          exact absurd (hrest ▸ List.mem_append_right mid (List.mem_cons_self ..)) hp

end Lists

theorem includes_iff {text pattern : String} :
    includes text pattern = true ↔ pattern.toList <:+: text.toList := by
  simp [includes]

/-- The search by recursion on the text, for evaluation. -/
def occurs (pattern : List Char) : List Char → Bool
  | [] => pattern.isEmpty
  | c :: rest => pattern.isPrefixOf (c :: rest) || occurs pattern rest

theorem includes_eq_occurs (text pattern : String) :
    includes text pattern = occurs pattern.toList text.toList := by
  rw [includes]
  generalize pattern.toList = p
  induction text.toList with
  | nil => cases p <;> simp [occurs]
  | cons c rest ih =>
    rw [occurs, ← ih, Bool.eq_iff_iff, decide_eq_true_iff, List.infix_cons_iff, Bool.or_eq_true,
      List.isPrefixOf_iff_prefix, decide_eq_true_iff]

/-- A separated text is found on the left or on the right. -/
theorem includes_append_append {sep pattern : String} (h : separates sep pattern = true)
    (left right : String) :
    includes (left ++ sep ++ right) pattern = true ↔
      includes left pattern = true ∨ includes right pattern = true := by
  unfold separates at h
  cases hsep : sep.toList with
  | nil => simp [hsep] at h
  | cons c rest =>
    cases hpat : pattern.toList with
    | nil => simp [hsep, hpat] at h
    | cons p ps =>
      simp only [hsep, hpat, Bool.and_eq_true, Bool.not_eq_true', List.contains_eq_mem,
        decide_eq_false_iff_not] at h
      simp only [includes_iff, String.toList_append, hsep, hpat]
      constructor
      · exact infix_append_cons_append h.1 h.2
      · rintro (hl | hr)
        · exact (hl.trans (List.prefix_append ..).isInfix).trans (List.prefix_append ..).isInfix
        · exact hr.trans (List.suffix_append ..).isInfix

/-- **A separated text is found in a join exactly when it is found in a
piece.** -/
theorem includes_join {sep pattern : String} (h : separates sep pattern = true)
    (pieces : List String) :
    includes (join sep pieces) pattern = true ↔
      ∃ piece ∈ pieces, includes piece pattern = true := by
  induction pieces with
  | nil =>
    cases hpat : pattern.toList with
    | nil =>
      unfold separates at h
      cases hs : sep.toList <;> simp [hpat, hs] at h
    | cons p ps => simp [join, includes, hpat]
  | cons piece rest ih =>
    cases rest with
    | nil => simp [join]
    | cons next more =>
      have hjoin : join sep (piece :: next :: more) = piece ++ sep ++ join sep (next :: more) := rfl
      rw [hjoin, includes_append_append h, ih]
      simp only [List.mem_cons, or_and_right, exists_or, exists_eq_left]

end Lagotto.Text
