/-
Lagotto.Source.EventsTheorems — the counts by day and by month.

Related works are grouped by the first characters of their timestamps, and the
groups are sorted as texts. A timestamp in ISO 8601 begins with its year, month
and day, written with four, two and two digits, so this order of the texts is
the order of time (`Spelling.day_lt_of_lt`).

Both methods group the same list, by month and, after the late works are taken
out, by day. What the groups of one month have in total is in either case a
number of timestamps of the list (`sum_months`, `sum_days`), and the two are
compared there.
-/
import Mathlib.Algebra.BigOperators.Ring.Finset
import Mathlib.Data.List.ReduceOption
import Mathlib.Data.List.TakeWhile
import Mathlib.Data.String.Basic
import Lagotto.Relational.Groups
import Lagotto.Source.Adapter
import Lagotto.Text.Radix

namespace Lagotto

open Relational Text

/-- The month of the one is over before that of the other. -/
def MonthItem.Before (a b : MonthItem) : Prop :=
  a.year < b.year ∨ a.year = b.year ∧ a.month < b.month

def DayItem.Before (a b : DayItem) : Prop :=
  a.year < b.year ∨ a.year = b.year ∧ (a.month < b.month ∨ a.month = b.month ∧ a.day < b.day)

/-! ## Digits -/

def digitOf (c : Char) : Nat := c.toNat - 48

theorem toNat_of_isDigit {c : Char} (h : c.isDigit = true) : 48 ≤ c.toNat ∧ c.toNat ≤ 57 := by
  simp only [Char.isDigit, Bool.and_eq_true, decide_eq_true_eq] at h
  exact ⟨UInt32.le_iff_toNat_le.mp h.1, UInt32.le_iff_toNat_le.mp h.2⟩

theorem digitOf_lt_digitOf {c d : Char} (hc : c.isDigit = true) (h : c < d) :
    digitOf c < digitOf d := by
  have hlt : c.toNat < d.toNat := UInt32.lt_iff_toNat_lt.mp h
  have hle := (toNat_of_isDigit hc).1
  unfold digitOf
  omega

theorem digits_eq_ofNumeral {cs : List Char} (h : ∀ c ∈ cs, c.isDigit = true) :
    Value.digits cs = (ofNumeral 10 (cs.map digitOf) : Nat) := by
  have hfold : ∀ n : Nat, cs.foldl (fun (n : Int) c => 10 * n + (c.toNat - 48 : Nat)) n =
      ((cs.map digitOf).foldl (fun n d => n * 10 + d) n : Nat) := by
    clear h
    induction cs with
    | nil => simp
    | cons c rest ih =>
      intro n
      rw [List.foldl_cons, List.map_cons, List.foldl_cons, ← ih]
      congr 1
      unfold digitOf
      omega
  unfold Value.digits ofNumeral
  rw [List.takeWhile_eq_self_iff.mpr h]
  exact hfold 0

/-- Equally long numerals compare as their texts do. -/
theorem digits_lt_digits {s t : List Char} (hs : ∀ c ∈ s, c.isDigit = true)
    (ht : ∀ c ∈ t, c.isDigit = true) (hlength : s.length = t.length) (h : s < t) :
    Value.digits s < Value.digits t := by
  have hbelow : ∀ {u : List Char}, (∀ c ∈ u, c.isDigit = true) → ∀ d ∈ u.map digitOf, d < 10 := by
    intro u hu d hd
    obtain ⟨c, hc, rfl⟩ := List.mem_map.mp hd
    have hle := (toNat_of_isDigit (hu c hc)).2
    unfold digitOf
    omega
  rw [digits_eq_ofNumeral hs, digits_eq_ofNumeral ht, Int.ofNat_lt]
  exact ofNumeral_lt_of_lt (hbelow hs) (hbelow ht) (by simpa using hlength)
    (map_lt_map (fun c hc d _ => digitOf_lt_digitOf (hs c hc)) h)

theorem toI_of_isDigit {cs : List Char} (h : ∀ c ∈ cs, c.isDigit = true) :
    (Value.str (String.ofList cs)).toI = Value.digits cs := by
  simp only [Value.toI, String.toList_ofList]
  cases cs with
  | nil => rfl
  | cons c rest =>
    have hc := h c List.mem_cons_self
    have hcode := toNat_of_isDigit hc
    have hspace : ¬ isSpace c = true := by
      simp [isSpace]
      omega
    rw [List.dropWhile_cons_of_neg hspace]
    split
    · rename_i heq
      rw [(List.cons.inj heq).1] at hc
      exact absurd hc (by decide)
    · rename_i heq
      rw [(List.cons.inj heq).1] at hc
      exact absurd hc (by decide)
    · rfl

namespace Source

/-! ## Timestamps -/

/-- A timestamp in ISO 8601, and its date. -/
structure Timestamp where
  text : String
  date : Date
  written : iso8601? text = some date

/-- The digits of a date. -/
structure Spelling (date : Date) where
  year : List Char
  month : List Char
  day : List Char
  year_length : year.length = 4
  month_length : month.length = 2
  day_length : day.length = 2
  year_isDigit : ∀ c ∈ year, c.isDigit = true
  month_isDigit : ∀ c ∈ month, c.isDigit = true
  day_isDigit : ∀ c ∈ day, c.isDigit = true
  digits_year : Value.digits year = date.year
  digits_month : Value.digits month = date.month
  digits_day : Value.digits day = date.day

namespace Spelling

variable {date other : Date}

def monthKey (s : Spelling date) : List Char := s.year ++ '-' :: s.month

def dayKey (s : Spelling date) : List Char := s.monthKey ++ '-' :: s.day

theorem monthKey_length (s : Spelling date) : s.monthKey.length = 7 := by
  simp [monthKey, s.year_length, s.month_length]

/-- The text order of month keys is the order of the months. -/
theorem month_lt_of_lt (s : Spelling date) (t : Spelling other) (h : s.monthKey < t.monthKey) :
    date.year < other.year ∨ date.year = other.year ∧ date.month < other.month := by
  have hyears := s.year_length.trans t.year_length.symm
  have hmonths := s.month_length.trans t.month_length.symm
  rw [monthKey, monthKey, append_lt_append_iff hyears, List.cons_lt_cons_iff] at h
  rw [← s.digits_year, ← t.digits_year, ← s.digits_month, ← t.digits_month]
  rcases h with hlt | ⟨hsame, hdash | ⟨-, hlt⟩⟩
  · exact Or.inl (digits_lt_digits s.year_isDigit t.year_isDigit hyears hlt)
  · exact absurd hdash (by decide)
  · exact Or.inr ⟨by rw [hsame], digits_lt_digits s.month_isDigit t.month_isDigit hmonths hlt⟩

/-- The text order of day keys is the order of the days. -/
theorem day_lt_of_lt (s : Spelling date) (t : Spelling other) (h : s.dayKey < t.dayKey) :
    date.year < other.year ∨ date.year = other.year ∧
      (date.month < other.month ∨ date.month = other.month ∧ date.day < other.day) := by
  rw [dayKey, dayKey, append_lt_append_iff (s.monthKey_length.trans t.monthKey_length.symm),
    List.cons_lt_cons_iff] at h
  rcases h with hlt | ⟨hsame, hdash | ⟨-, hlt⟩⟩
  · exact (s.month_lt_of_lt t hlt).imp_right (And.imp_right Or.inl)
  · exact absurd hdash (by decide)
  · obtain ⟨hyear, hrest⟩ := List.append_inj hsame (s.year_length.trans t.year_length.symm)
    have hmonth := (List.cons.inj hrest).2
    have hday := digits_lt_digits s.day_isDigit t.day_isDigit
      (s.day_length.trans t.day_length.symm) hlt
    rw [s.digits_day, t.digits_day] at hday
    rw [← s.digits_year, ← t.digits_year, ← s.digits_month, ← t.digits_month]
    exact Or.inr ⟨by rw [hyear], Or.inr ⟨by rw [hmonth], hday⟩⟩

theorem part_of_append {key : String} {before cs after : List Char} {start length : Nat}
    (hkey : key.toList = before ++ (cs ++ after)) (hstart : before.length = start)
    (hlength : cs.length = length) (hcs : ∀ c ∈ cs, c.isDigit = true) :
    part start length key = Value.digits cs := by
  rw [part, hkey, ← hstart, ← hlength, List.drop_left, List.take_left, toI_of_isDigit hcs]

section Parts

variable (s : Spelling date) {key : String} {after : List Char}

theorem part_year (h : key.toList = s.monthKey ++ after) : part 0 4 key = date.year := by
  have hkey : key.toList = [] ++ (s.year ++ ('-' :: s.month ++ after)) := by simp [h, monthKey]
  exact (part_of_append hkey rfl s.year_length s.year_isDigit).trans s.digits_year

theorem part_month (h : key.toList = s.monthKey ++ after) : part 5 2 key = date.month := by
  have hkey : key.toList = s.year ++ ['-'] ++ (s.month ++ after) := by simp [h, monthKey]
  have hstart : (s.year ++ ['-']).length = 5 := by simp [s.year_length]
  rw [part_of_append hkey hstart s.month_length s.month_isDigit, s.digits_month]

theorem part_day (h : key.toList = s.dayKey) : part 8 2 key = date.day := by
  have hkey : key.toList = s.monthKey ++ ['-'] ++ (s.day ++ []) := by simp [h, dayKey]
  have hstart : (s.monthKey ++ ['-']).length = 8 := by simp [s.monthKey_length]
  rw [part_of_append hkey hstart s.day_length s.day_isDigit, s.digits_day]

end Parts

end Spelling

theorem civil?_eq_some {year month day : Int} {date : Date} (hmonth : 0 ≤ month) (hday : 0 ≤ day)
    (h : Date.civil? year month day = some date) :
    date.year = year ∧ date.month = month ∧ date.day = day := by
  simp only [Date.civil?, if_neg (Int.not_lt.mpr hmonth), if_neg (Int.not_lt.mpr hday)] at h
  split at h
  · rw [← Option.some.inj h]
    exact ⟨rfl, rfl, rfl⟩
  · cases h

namespace Timestamp

variable (t : Timestamp)

/-- The first ten characters of a timestamp spell its date. -/
theorem exists_spelling : ∃ s : Spelling t.date, t.text.toList.take 10 = s.dayKey := by
  have hwritten := t.written
  unfold iso8601? at hwritten
  split at hwritten
  · rename_i y₁ y₂ y₃ y₄ m₁ m₂ d₁ d₂ heq
    split at hwritten
    · rename_i hdigits
      have hd : ∀ c ∈ [y₁, y₂, y₃, y₄, m₁, m₂, d₁, d₂], c.isDigit = true :=
        List.all_eq_true.mp hdigits
      have hyear : ∀ c ∈ [y₁, y₂, y₃, y₄], c.isDigit = true := fun c hc => hd c (by grind)
      have hmonth : ∀ c ∈ [m₁, m₂], c.isDigit = true := fun c hc => hd c (by grind)
      have hday : ∀ c ∈ [d₁, d₂], c.isDigit = true := fun c hc => hd c (by grind)
      obtain ⟨hy, hm, hd⟩ := civil?_eq_some
        (by rw [digits_eq_ofNumeral hmonth]; exact Int.natCast_nonneg _)
        (by rw [digits_eq_ofNumeral hday]; exact Int.natCast_nonneg _) hwritten
      exact ⟨⟨[y₁, y₂, y₃, y₄], [m₁, m₂], [d₁, d₂], rfl, rfl, rfl, hyear, hmonth, hday, hy.symm,
        hm.symm, hd.symm⟩, heq⟩
    · cases hwritten
  · cases hwritten

/-- What the first seven and the first ten characters are. -/
theorem exists_spelling_leading :
    ∃ s : Spelling t.date, (leading 7 t.text).toList = s.monthKey ∧
      (leading 10 t.text).toList = s.dayKey := by
  obtain ⟨s, hday⟩ := t.exists_spelling
  have htake : t.text.toList.take 7 = (t.text.toList.take 10).take 7 := by
    rw [List.take_take]
    rfl
  refine ⟨s, ?_, ?_⟩
  · rw [leading, String.toList_ofList, htake, hday, Spelling.dayKey, ← s.monthKey_length,
      List.take_left]
  · rw [leading, String.toList_ofList, hday]

theorem month_parts :
    part 0 4 (leading 7 t.text) = t.date.year ∧ part 5 2 (leading 7 t.text) = t.date.month := by
  obtain ⟨s, hmonth, -⟩ := t.exists_spelling_leading
  rw [← List.append_nil s.monthKey] at hmonth
  exact ⟨s.part_year hmonth, s.part_month hmonth⟩

theorem day_parts :
    part 0 4 (leading 10 t.text) = t.date.year ∧ part 5 2 (leading 10 t.text) = t.date.month ∧
      part 8 2 (leading 10 t.text) = t.date.day := by
  obtain ⟨s, -, hday⟩ := t.exists_spelling_leading
  exact ⟨s.part_year hday, s.part_month hday, s.part_day hday⟩

variable {t} {u : Timestamp}

theorem month_lt_of_leading (h : leading 7 t.text < leading 7 u.text) :
    t.date.year < u.date.year ∨ t.date.year = u.date.year ∧ t.date.month < u.date.month := by
  obtain ⟨s, hs, -⟩ := t.exists_spelling_leading
  obtain ⟨s', hs', -⟩ := u.exists_spelling_leading
  rw [String.lt_iff_toList_lt, hs, hs'] at h
  exact s.month_lt_of_lt s' h

theorem day_lt_of_leading (h : leading 10 t.text < leading 10 u.text) :
    t.date.year < u.date.year ∨ t.date.year = u.date.year ∧
      (t.date.month < u.date.month ∨ t.date.month = u.date.month ∧ t.date.day < u.date.day) := by
  obtain ⟨s, -, hs⟩ := t.exists_spelling_leading
  obtain ⟨s', -, hs'⟩ := u.exists_spelling_leading
  rw [String.lt_iff_toList_lt, hs, hs'] at h
  exact s.day_lt_of_lt s' h

end Timestamp

/-! ## Groups -/

section Groups

variable (keys : List String)

theorem pairwise_grouped : (grouped keys).Pairwise (fun a b => a.1 < b.1) := by
  rw [grouped, List.pairwise_map]
  exact pairwise_lt_insertionSort (nodup_eraseDups keys)

variable {keys} in
/-- A group is a key that occurs, with the number of times it does. -/
theorem mem_grouped {e : String × Int} :
    e ∈ grouped keys ↔ e.1 ∈ keys ∧ e.2 = keys.count e.1 := by
  rw [grouped, List.mem_map]
  constructor
  · rintro ⟨key, hkey, rfl⟩
    rw [List.mem_insertionSort, List.mem_eraseDups] at hkey
    exact ⟨hkey, rfl⟩
  · rintro ⟨hkey, hcount⟩
    refine ⟨e.1, ?_, Prod.ext rfl hcount.symm⟩
    rwa [List.mem_insertionSort, List.mem_eraseDups]

variable {keys} in
theorem exists_mem_grouped {key : String} (h : key ∈ keys) : ∃ e ∈ grouped keys, key = e.1 :=
  ⟨(key, keys.count key), mem_grouped.mpr ⟨h, rfl⟩, rfl⟩

/-- Each key is counted in its group, whichever groups are asked for. -/
theorem sum_grouped (p : String → Bool) :
    (((grouped keys).filter (fun e => p e.1)).map (fun e => e.2)).sum = (keys.countP p : Int) := by
  have hperm := ((perm_dedup_insertionSort keys).filter p).map (fun key => (keys.count key : Int))
  rw [grouped, List.filter_map, List.map_map]
  calc _ = (((keys.eraseDups.insertionSort (· ≤ ·)).filter p).map
        (fun key => (keys.count key : Int))).sum := rfl
    _ = ((keys.dedup.filter p).map (fun key => (keys.count key : Int))).sum := hperm.sum_eq
    _ = (((keys.dedup.filter p).map (fun key => keys.count key)).sum : Nat) := by
        rw [Nat.cast_list_sum, List.map_map]
        rfl
    _ = (keys.countP p : Int) := by rw [List.sum_map_count_dedup_filter_eq_countP]

end Groups

/-! ## Items -/

@[simp] theorem fetch_total_countOf (metric : Metric) (n : Int) :
    (countOf metric n).fetch.total = n := by
  cases metric <;> rfl

@[simp] theorem fetch_get_countOf (metric : Metric) (n : Int) :
    (countOf metric n).fetch.get metric = n := by
  cases metric <;> rfl

def monthItem (metric : Metric) (e : String × Int) : MonthItem where
  year := part 0 4 e.1
  month := part 5 2 e.1
  counts := countOf metric e.2

def dayItem (metric : Metric) (e : String × Int) : DayItem where
  year := part 0 4 e.1
  month := part 5 2 e.1
  day := part 8 2 e.1
  counts := countOf metric e.2

theorem year_monthItem (metric : Metric) (e : String × Int) :
    (monthItem metric e).year = part 0 4 e.1 := by
  simp only [monthItem]

theorem month_monthItem (metric : Metric) (e : String × Int) :
    (monthItem metric e).month = part 5 2 e.1 := by
  simp only [monthItem]

theorem year_dayItem (metric : Metric) (e : String × Int) :
    (dayItem metric e).year = part 0 4 e.1 := by
  simp only [dayItem]

theorem month_dayItem (metric : Metric) (e : String × Int) :
    (dayItem metric e).month = part 5 2 e.1 := by
  simp only [dayItem]

theorem day_dayItem (metric : Metric) (e : String × Int) :
    (dayItem metric e).day = part 8 2 e.1 := by
  simp only [dayItem]

/-- What the items of some periods have in total is the number of keys that
belong to these periods. -/
theorem sum_items {Item : Type} (make : String × Int → Item) (total : Item → Int)
    (htotal : ∀ e, total (make e) = e.2) (p : Item → Bool) (q : String → Bool)
    (hp : ∀ e, p (make e) = q e.1) (keys : List String) :
    ((((grouped keys).map make).filter p).map total).sum = (keys.countP q : Int) := by
  have hfilter : (fun e => p (make e)) = (fun e : String × Int => q e.1) := funext hp
  rw [← sum_grouped keys q, List.filter_map, List.map_map]
  simp only [Function.comp_def, hfilter, htotal]

/-- Every item counts something, and all of it under its metric. -/
theorem counted {Item : Type} (metric : Metric) (make : String × Int → Item)
    (counts : Item → Counts) (hmake : ∀ e, counts (make e) = countOf metric e.2)
    (keys : List String) :
    ∀ item ∈ (grouped keys).map make, 0 < (counts item).fetch.total ∧
      (counts item).fetch.get metric = (counts item).fetch.total := by
  intro item hitem
  obtain ⟨e, he, rfl⟩ := List.mem_map.mp hitem
  obtain ⟨hkey, hcount⟩ := mem_grouped.mp he
  rw [hmake, fetch_total_countOf, fetch_get_countOf, hcount]
  exact ⟨Int.natCast_pos.mpr (List.count_pos_iff.mpr hkey), rfl⟩

/-- The keys of the groups are those of the timestamps. -/
def keys (n : Nat) (ts : List Timestamp) : List String :=
  (ts.map Timestamp.text).map (leading n)

theorem mem_keys {n : Nat} {ts : List Timestamp} {key : String} :
    key ∈ keys n ts ↔ ∃ t ∈ ts, leading n t.text = key := by
  simp [keys]

section Months

variable (metric : Metric) (ts : List Timestamp)

theorem getEventsByMonth_eq :
    getEventsByMonth metric (ts.map Timestamp.text) =
      (grouped (keys 7 ts)).map (monthItem metric) := rfl

theorem monthItem_of_key {t : Timestamp} {e : String × Int} (h : leading 7 t.text = e.1) :
    (monthItem metric e).year = t.date.year ∧ (monthItem metric e).month = t.date.month := by
  rw [year_monthItem, month_monthItem, ← h]
  exact t.month_parts

/-- The months come in order, each once. -/
theorem pairwise_months :
    (getEventsByMonth metric (ts.map Timestamp.text)).Pairwise MonthItem.Before := by
  rw [getEventsByMonth_eq, List.pairwise_map]
  refine (pairwise_grouped _).imp_of_mem ?_
  intro a b ha hb hlt
  obtain ⟨t, -, ht⟩ := mem_keys.mp (mem_grouped.mp ha).1
  obtain ⟨u, -, hu⟩ := mem_keys.mp (mem_grouped.mp hb).1
  obtain ⟨hyear, hmonth⟩ := monthItem_of_key metric ht
  obtain ⟨hyear', hmonth'⟩ := monthItem_of_key metric hu
  rw [← ht, ← hu] at hlt
  rw [MonthItem.Before, hyear, hyear', hmonth, hmonth']
  exact Timestamp.month_lt_of_leading hlt

/-- A month is listed exactly when an event falls in it. -/
theorem exists_month_iff (year month : Int) :
    (∃ item ∈ getEventsByMonth metric (ts.map Timestamp.text),
        item.year = year ∧ item.month = month) ↔
      ∃ t ∈ ts, t.date.year = year ∧ t.date.month = month := by
  rw [getEventsByMonth_eq]
  constructor
  · rintro ⟨item, hitem, hdate⟩
    obtain ⟨e, he, rfl⟩ := List.mem_map.mp hitem
    obtain ⟨t, ht, hkey⟩ := mem_keys.mp (mem_grouped.mp he).1
    obtain ⟨hyear, hmonth⟩ := monthItem_of_key metric hkey
    rw [hyear, hmonth] at hdate
    exact ⟨t, ht, hdate⟩
  · rintro ⟨t, ht, hdate⟩
    obtain ⟨e, he, hkey⟩ := exists_mem_grouped (mem_keys.mpr ⟨t, ht, rfl⟩)
    obtain ⟨hyear, hmonth⟩ := monthItem_of_key metric hkey
    refine ⟨monthItem metric e, List.mem_map_of_mem he, ?_⟩
    rw [hyear, hmonth]
    exact hdate

/-- A month counts the events that fall in it. -/
theorem sum_months (year month : Int) :
    (((getEventsByMonth metric (ts.map Timestamp.text)).filter
        (fun item => item.year = year ∧ item.month = month)).map (·.counts.fetch.total)).sum =
      (ts.countP (fun t => t.date.year = year ∧ t.date.month = month) : Int) := by
  rw [getEventsByMonth_eq, sum_items (monthItem metric) (·.counts.fetch.total)
    (fun e => fetch_total_countOf metric e.2) _
    (fun key => part 0 4 key = year ∧ part 5 2 key = month)
    (fun e => by simp only [year_monthItem, month_monthItem]), keys, List.countP_map,
    List.countP_map]
  refine congrArg Nat.cast (List.countP_congr ?_)
  intro t _
  simp only [Function.comp_apply, t.month_parts]

theorem sum_all_months :
    ((getEventsByMonth metric (ts.map Timestamp.text)).map (·.counts.fetch.total)).sum =
      (ts.length : Int) := by
  have hall := sum_items (monthItem metric) (·.counts.fetch.total)
    (fun e => fetch_total_countOf metric e.2) (fun _ => true) (fun _ => true) (fun _ => rfl)
    (keys 7 ts)
  rw [List.filter_true, List.countP_true] at hall
  rw [getEventsByMonth_eq, hall, keys, List.length_map, List.length_map]

end Months

section Days

variable (metric : Metric) (ts : List Timestamp) (published : Date)

/-- The works that are counted by day. -/
def early : List Timestamp := ts.filter (fun t => t.date.daysSince published ≤ 30)

theorem filterAuxM_isEarly (acc : List String) :
    List.filterAuxM (isEarly (some published)) (ts.map Timestamp.text) acc =
      .ok (((early ts published).map Timestamp.text).reverse ++ acc) := by
  induction ts generalizing acc with
  | nil => rfl
  | cons t rest ih =>
    have hstep : isEarly (some published) t.text = .ok (t.date.daysSince published ≤ 30) := by
      unfold isEarly
      rw [t.written]
    rw [List.map_cons, List.filterAuxM, hstep]
    refine (ih _).trans ?_
    by_cases hearly : t.date.daysSince published ≤ 30
    · simp [early, hearly]
    · simp [early, hearly]

/-- The items that `get_events_by_day` returns. -/
def dayItems : List DayItem := (grouped (keys 10 (early ts published))).map (dayItem metric)

/-- Well-formed timestamps never raise. -/
theorem getEventsByDay_eq :
    getEventsByDay metric (some published) (ts.map Timestamp.text) =
      .ok (dayItems metric ts published) := by
  have hfilter : (ts.map Timestamp.text).filterM (isEarly (some published)) =
      .ok ((early ts published).map Timestamp.text) := by
    rw [List.filterM, filterAuxM_isEarly, List.append_nil]
    exact congrArg Except.ok (List.reverse_reverse _)
  unfold getEventsByDay
  rw [hfilter]
  rfl

theorem dayItem_of_key {t : Timestamp} {e : String × Int} (h : leading 10 t.text = e.1) :
    (dayItem metric e).year = t.date.year ∧ (dayItem metric e).month = t.date.month ∧
      (dayItem metric e).day = t.date.day := by
  rw [year_dayItem, month_dayItem, day_dayItem, ← h]
  exact t.day_parts

/-- The days come in order, each once. -/
theorem pairwise_days : (dayItems metric ts published).Pairwise DayItem.Before := by
  rw [dayItems, List.pairwise_map]
  refine (pairwise_grouped _).imp_of_mem ?_
  intro a b ha hb hlt
  obtain ⟨t, -, ht⟩ := mem_keys.mp (mem_grouped.mp ha).1
  obtain ⟨u, -, hu⟩ := mem_keys.mp (mem_grouped.mp hb).1
  obtain ⟨hyear, hmonth, hday⟩ := dayItem_of_key metric ht
  obtain ⟨hyear', hmonth', hday'⟩ := dayItem_of_key metric hu
  rw [← ht, ← hu] at hlt
  rw [DayItem.Before, hyear, hyear', hmonth, hmonth', hday, hday']
  exact Timestamp.day_lt_of_leading hlt

/-- A day is listed exactly when an early event falls on it. -/
theorem exists_day_iff (year month day : Int) :
    (∃ item ∈ dayItems metric ts published,
        item.year = year ∧ item.month = month ∧ item.day = day) ↔
      ∃ t ∈ ts, t.date.daysSince published ≤ 30 ∧
        t.date.year = year ∧ t.date.month = month ∧ t.date.day = day := by
  constructor
  · rintro ⟨item, hitem, hdate⟩
    obtain ⟨e, he, rfl⟩ := List.mem_map.mp hitem
    obtain ⟨t, ht, hkey⟩ := mem_keys.mp (mem_grouped.mp he).1
    obtain ⟨hyear, hmonth, hday⟩ := dayItem_of_key metric hkey
    rw [early, List.mem_filter, decide_eq_true_eq] at ht
    rw [hyear, hmonth, hday] at hdate
    exact ⟨t, ht.1, ht.2, hdate⟩
  · rintro ⟨t, ht, hearly, hdate⟩
    have hmem : t ∈ early ts published := List.mem_filter.mpr ⟨ht, decide_eq_true hearly⟩
    obtain ⟨e, he, hkey⟩ := exists_mem_grouped (mem_keys.mpr ⟨t, hmem, rfl⟩)
    obtain ⟨hyear, hmonth, hday⟩ := dayItem_of_key metric hkey
    refine ⟨dayItem metric e, List.mem_map_of_mem he, ?_⟩
    rw [hyear, hmonth, hday]
    exact hdate

/-- The days of a month count the early events of that month. -/
theorem sum_days (year month : Int) :
    (((dayItems metric ts published).filter
        (fun item => item.year = year ∧ item.month = month)).map (·.counts.fetch.total)).sum =
      ((early ts published).countP (fun t => t.date.year = year ∧ t.date.month = month) : Int) := by
  rw [dayItems, sum_items (dayItem metric) (·.counts.fetch.total)
    (fun e => fetch_total_countOf metric e.2) _
    (fun key => part 0 4 key = year ∧ part 5 2 key = month)
    (fun e => by simp only [year_dayItem, month_dayItem]), keys, List.countP_map,
    List.countP_map]
  refine congrArg Nat.cast (List.countP_congr ?_)
  intro t _
  simp only [Function.comp_apply, t.day_parts]

end Days

/-! ## Both breakdowns -/

/-- One item for each month that occurs, in order, and each work counted. -/
structure CountsMonths (metric : Metric) (ts : List Timestamp) (months : List MonthItem) :
    Prop where
  ordered : months.Pairwise MonthItem.Before
  occur : ∀ year month, (∃ item ∈ months, item.year = year ∧ item.month = month) ↔
    ∃ t ∈ ts, t.date.year = year ∧ t.date.month = month
  positive : ∀ item ∈ months, 0 < item.counts.fetch.total
  sum : (months.map (·.counts.fetch.total)).sum = (ts.length : Int)
  chosen : ∀ item ∈ months, item.counts.fetch.get metric = item.counts.fetch.total

/-- One item for each day that occurs up to thirty days after publication, in
order. -/
structure CountsDays (metric : Metric) (published : Date) (ts : List Timestamp)
    (days : List DayItem) : Prop where
  ordered : days.Pairwise DayItem.Before
  occur : ∀ year month day,
    (∃ item ∈ days, item.year = year ∧ item.month = month ∧ item.day = day) ↔
      ∃ t ∈ ts, t.date.daysSince published ≤ 30 ∧
        t.date.year = year ∧ t.date.month = month ∧ t.date.day = day
  positive : ∀ item ∈ days, 0 < item.counts.fetch.total
  chosen : ∀ item ∈ days, item.counts.fetch.get metric = item.counts.fetch.total

theorem countsMonths (metric : Metric) (ts : List Timestamp) :
    CountsMonths metric ts (getEventsByMonth metric (ts.map Timestamp.text)) := by
  have hcounted := counted metric (monthItem metric) MonthItem.counts (fun _ => rfl) (keys 7 ts)
  exact
    { ordered := pairwise_months metric ts
      occur := exists_month_iff metric ts
      positive := fun item hitem => (hcounted item hitem).1
      sum := sum_all_months metric ts
      chosen := fun item hitem => (hcounted item hitem).2 }

theorem countsDays (metric : Metric) (published : Date) (ts : List Timestamp) :
    CountsDays metric published ts (dayItems metric ts published) := by
  have hcounted := counted metric (dayItem metric) DayItem.counts (fun _ => rfl)
    (keys 10 (early ts published))
  exact
    { ordered := pairwise_days metric ts published
      occur := exists_day_iff metric ts published
      positive := fun item hitem => (hcounted item hitem).1
      chosen := fun item hitem => (hcounted item hitem).2 }

/-- Whatever is counted and whenever the work was published: the months count
every related work with a timestamp, the days those of the first thirty days,
and a month has at least what its days have. -/
theorem events_counted_by_day_and_month (metric : Metric) (published : Date)
    (works : List (Option Timestamp)) :
    let ts := works.reduceOption
    let months := getEventsByMonth metric (ts.map Timestamp.text)
    CountsMonths metric ts months ∧
      ∃ days, getEventsByDay metric (some published) (ts.map Timestamp.text) = .ok days ∧
        CountsDays metric published ts days ∧
        ∀ year month,
          let inMonth := ((months.filter (fun item => item.year = year ∧ item.month = month)).map
            (·.counts.fetch.total)).sum
          let inDays := ((days.filter (fun item => item.year = year ∧ item.month = month)).map
            (·.counts.fetch.total)).sum
          inDays ≤ inMonth ∧
            ((∀ t ∈ ts, t.date.year = year ∧ t.date.month = month →
              t.date.daysSince published ≤ 30) → inDays = inMonth) := by
  intro ts months
  refine ⟨countsMonths metric ts, dayItems metric ts published,
    getEventsByDay_eq metric ts published, countsDays metric published ts, ?_⟩
  intro year month
  simp only [months, sum_months, sum_days]
  constructor
  · exact Int.ofNat_le.mpr (List.Sublist.countP_le List.filter_sublist)
  · intro hearly
    rw [early, List.countP_filter]
    refine congrArg Nat.cast (List.countP_congr ?_)
    intro t ht
    simp only [Bool.and_eq_true, decide_eq_true_eq]
    exact ⟨And.left, fun hdate => ⟨hdate, hearly t ht hdate⟩⟩

end Source

end Lagotto
