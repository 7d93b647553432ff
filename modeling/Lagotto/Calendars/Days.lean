/-
Lagotto.Calendars.Days — counting days from month to month.

A calendar says which days a month has. Months are numbers, one for each month
of each year, and nothing is said about the days but that they begin with the
first: a month may be short, and days may be missing from the middle of it.

`upTo` goes through the days between two dates one after the other. The months
it comes through are all months between the two, whatever the calendar
(`months_upTo`): a step stays in its month or goes to the next one
(`succ_cases`), and the last day is in the month of the second date.
-/
import Mathlib.Data.List.Basic
import Mathlib.Algebra.GroupWithZero.Nat
import Mathlib.Algebra.Order.Group.Int

namespace Lagotto.Calendars

/-- The days of every month, in order. -/
structure Calendar where
  days : Int → List Int
  first : ∀ month, 1 ∈ days month
  least : ∀ month, ∀ day ∈ days month, 1 ≤ day

/-- A day that exists. -/
structure Day (cal : Calendar) where
  month : Int
  day : Int
  valid : day ∈ cal.days month

namespace Day

variable {cal : Calendar}

/-- The first of a month. -/
def firstOf (cal : Calendar) (month : Int) : Day cal := ⟨month, 1, cal.first month⟩

/-- The next day. -/
def succ (d : Day cal) : Day cal :=
  match h : (cal.days d.month).find? (fun day => decide (d.day < day)) with
  | some day => ⟨d.month, day, List.mem_of_find?_eq_some h⟩
  | none => firstOf cal (d.month + 1)

def before (d other : Day cal) : Bool :=
  d.month < other.month || (d.month == other.month && d.day < other.day)

/-- The days up to `last`, at most so many. -/
def upTo (last : Day cal) : Nat → Day cal → List (Day cal)
  | 0, _ => []
  | n + 1, d => if last.before d then [] else d :: upTo last n d.succ

/-- The number of days there are for `upTo`. -/
def left (last d : Day cal) : Nat :=
  ((cal.days d.month).filter (fun day => decide (d.day ≤ day))).length +
    ((List.range (last.month - d.month).toNat).map
      (fun i : Nat => (cal.days (d.month + 1 + i)).length)).sum

/-- The same day of the month before, or the last one that exists. -/
def monthBefore (d : Day cal) : Day cal where
  month := d.month - 1
  day := ((cal.days (d.month - 1)).filter (fun day => decide (day ≤ d.day))).getLastD 1
  valid := by
    rcases List.eq_nil_or_concat' ((cal.days (d.month - 1)).filter
      (fun day => decide (day ≤ d.day))) with hnil | ⟨init, last, hconcat⟩
    · rw [hnil]
      exact cal.first _
    · have hlast : last ∈ (cal.days (d.month - 1)).filter (fun day => decide (day ≤ d.day)) := by
        rw [hconcat]
        exact List.mem_append_right _ (List.mem_singleton_self last)
      rw [hconcat, List.getLastD_concat]
      exact List.mem_of_mem_filter hlast

/-! ## A step -/

variable {d last : Day cal}

theorem before_iff {other : Day cal} :
    d.before other = true ↔
      d.month < other.month ∨ d.month = other.month ∧ d.day < other.day := by
  simp [before]

/-- The next day is a later one of the month, or the first of the next month. -/
theorem succ_cases (d : Day cal) :
    (d.succ.month = d.month ∧ d.day < d.succ.day) ∨ d.succ = firstOf cal (d.month + 1) := by
  unfold succ
  split
  next day h => exact Or.inl ⟨rfl, by simpa using List.find?_some h⟩
  next => exact Or.inr rfl

/-- Where the day after `d` is too late, `d` is in the last month. -/
theorem month_eq_of_before_succ (hd : last.before d = false) (hsucc : last.before d.succ = true) :
    d.month = last.month := by
  rw [← Bool.not_eq_true, before_iff] at hd
  rw [before_iff] at hsucc
  have hleast := cal.least last.month last.day last.valid
  rcases succ_cases d with ⟨hmonth, _⟩ | hfirst
  · omega
  · rw [hfirst] at hsucc
    simp only [firstOf] at hsucc
    omega

theorem mem_rest (d : Day cal) :
    d.day ∈ (cal.days d.month).filter (fun day => decide (d.day ≤ day)) := by
  simp [d.valid]

theorem left_pos (last d : Day cal) : 0 < left last d := by
  have hpos := List.length_pos_of_mem (mem_rest d)
  unfold left
  omega

/-- Less is left from the next day on. -/
theorem left_succ_lt (hsucc : last.before d.succ = false) : left last d.succ < left last d := by
  rcases succ_cases d with ⟨hmonth, hday⟩ | hfirst
  · have hfewer : ((cal.days d.month).filter (fun day => decide (d.succ.day ≤ day))).length <
        ((cal.days d.month).filter (fun day => decide (d.day ≤ day))).length := by
      have hfilter : (cal.days d.month).filter (fun day => decide (d.succ.day ≤ day)) =
          ((cal.days d.month).filter (fun day => decide (d.day ≤ day))).filter
            (fun day => decide (d.succ.day ≤ day)) := by
        rw [List.filter_filter]
        refine List.filter_congr fun day _ => ?_
        by_cases hle : d.succ.day ≤ day
        · simp [hle, Int.le_trans (Int.le_of_lt hday) hle]
        · simp [hle]
      rw [hfilter]
      exact List.length_filter_lt_length_iff_exists.mpr ⟨d.day, mem_rest d, by simpa using hday⟩
    unfold left
    rw [hmonth]
    exact Nat.add_lt_add_right hfewer _
  · rw [hfirst, ← Bool.not_eq_true, before_iff] at hsucc
    rw [hfirst]
    simp only [firstOf] at hsucc
    have hcount : (last.month - d.month).toNat = (last.month - (d.month + 1)).toNat + 1 := by omega
    have hpos := List.length_pos_of_mem (mem_rest d)
    have hmost := List.length_filter_le (fun day => decide ((1 : Int) ≤ day))
      (cal.days (d.month + 1))
    have hsum : ((List.range (last.month - d.month).toNat).map
        (fun i : Nat => (cal.days (d.month + 1 + i)).length)).sum =
          (cal.days (d.month + 1)).length +
            ((List.range (last.month - (d.month + 1)).toNat).map
              (fun i : Nat => (cal.days (d.month + 1 + 1 + i)).length)).sum := by
      rw [hcount, List.range_succ_eq_map, List.map_cons, List.sum_cons, List.map_map]
      refine congrArg₂ (· + ·) (by simp) (congrArg List.sum (List.map_congr_left fun i _ => ?_))
      simp only [Function.comp_apply, Nat.succ_eq_add_one]
      congr 2
      push_cast
      omega
    unfold left firstOf
    simp only
    omega

end Day

/-! ## Months -/

/-- The months from one to another. -/
def interval (first last : Int) : List Int :=
  (List.range (last + 1 - first).toNat).map (fun i : Nat => first + i)

theorem mem_interval {first last month : Int} :
    month ∈ interval first last ↔ first ≤ month ∧ month ≤ last := by
  unfold interval
  simp only [List.mem_map, List.mem_range]
  constructor
  · rintro ⟨i, hi, rfl⟩
    omega
  · rintro ⟨hfirst, hlast⟩
    exact ⟨(month - first).toNat, by omega, by omega⟩

theorem interval_cons {first last : Int} (h : first ≤ last) :
    interval first last = first :: interval (first + 1) last := by
  have hcount : (last + 1 - first).toNat = (last + 1 - (first + 1)).toNat + 1 := by omega
  unfold interval
  rw [hcount, List.range_succ_eq_map, List.map_cons, List.map_map]
  refine congrArg₂ List.cons (by simp) (List.map_congr_left fun i _ => ?_)
  simp only [Function.comp_apply, Nat.succ_eq_add_one]
  push_cast
  omega

theorem interval_self (month : Int) : interval month month = [month] := by
  rw [interval_cons (Int.le_refl month)]
  simp [interval]

section Distinct

variable {α : Type} [BEq α] [LawfulBEq α]

/-- A value that comes first again. -/
theorem eraseDups_cons_head {a : α} {l : List α} (h : l.head? = some a) :
    (a :: l).eraseDups = l.eraseDups := by
  cases l with
  | nil => cases h
  | cons b rest =>
    obtain rfl : b = a := by simpa using h
    rw [List.eraseDups_cons, List.eraseDups_cons, List.filter_cons_of_neg (by simp)]

/-- A value that does not come again. -/
theorem eraseDups_cons_of_not_mem {a : α} {l : List α} (h : a ∉ l) :
    (a :: l).eraseDups = a :: l.eraseDups := by
  rw [List.eraseDups_cons, List.filter_eq_self.mpr]
  intro b hb
  have hne : b ≠ a := fun heq => h (heq ▸ hb)
  simpa using hne

end Distinct

/-- The months the days up to `last` are in, each once: those from the month
of the first day to that of `last`. -/
theorem months_upTo {cal : Calendar} {α : Type} [BEq α] [LawfulBEq α] {f : Int → α}
    (hf : Function.Injective f) {last : Day cal} {n : Nat} {d : Day cal}
    (hd : last.before d = false) (hn : Day.left last d ≤ n) :
    ((Day.upTo last n d).map (fun day => f day.month)).eraseDups =
      (interval d.month last.month).map f := by
  induction n generalizing d with
  | zero =>
    have hpos := Day.left_pos last d
    omega
  | succ n ih =>
    rw [Day.upTo, if_neg (by simp [hd]), List.map_cons]
    cases hsucc : last.before d.succ with
    | true =>
      have hnone : Day.upTo last n d.succ = [] := by
        cases n with
        | zero => rfl
        | succ n => rw [Day.upTo, if_pos hsucc]
      rw [hnone, Day.month_eq_of_before_succ hd hsucc, interval_self]
      rfl
    | false =>
      have hless := Day.left_succ_lt hsucc
      have hrest := ih hsucc (by omega)
      rcases Day.succ_cases d with ⟨hmonth, _⟩ | hfirst
      · -- the next day is in the same month
        rw [hmonth] at hrest
        rw [← hrest]
        have hpos := Day.left_pos last d.succ
        obtain ⟨k, rfl⟩ : ∃ k, n = k + 1 := ⟨n - 1, by omega⟩
        refine eraseDups_cons_head ?_
        rw [Day.upTo, if_neg (by simp [hsucc]), List.map_cons, List.head?_cons, hmonth]
      · have hmonth : d.succ.month = d.month + 1 := by rw [hfirst]; rfl
        have hle : d.month + 1 ≤ last.month := by
          rw [← Bool.not_eq_true, Day.before_iff] at hsucc
          omega
        have hnew : f d.month ∉ (Day.upTo last n d.succ).map (fun day => f day.month) := by
          rw [← List.mem_eraseDups, hrest, List.mem_map]
          rintro ⟨month, hmem, heq⟩
          rw [hf heq, mem_interval] at hmem
          omega
        rw [eraseDups_cons_of_not_mem hnew, hrest, hmonth,
          interval_cons (by omega : d.month ≤ last.month), List.map_cons]

end Lagotto.Calendars
