/-
Lagotto.Import.DataciteTheorems — when data centres keep their publishers
apart.

The number of a symbol depends on its stem: the letters and digits before the
first dot or dash, without leading zeros. Symbols with the same stem share a
publisher, and a stem beyond `ZIK0ZJ` does not fit the column (`number_inj`,
`fitsColumn_iff`). `createdFor_of_linkAll` says which publishers a page of
items leaves, and `publishers_kept_apart_iff` when each item is linked to the
one with its symbol.
-/
import Lagotto.Import.Datacite
import Lagotto.Work.FindOrCreateTheorems

namespace Lagotto.Import

open Relational
open Text

/-! ## Stems -/

theorem digit36_lt {c : Char} {d : Nat} (h : digit36 c = some d) : d < 36 := by
  unfold digit36 at h
  split at h
  next hdigit =>
    simp only [Char.isDigit, Bool.and_eq_true, decide_eq_true_eq, UInt32.le_iff_toNat_le,
      ge_iff_le] at hdigit
    have hval : c.toNat = c.val.toNat := rfl
    have hnine : '9'.val.toNat = 57 := rfl
    have hd := Option.some.inj h
    omega
  next =>
    split at h
    next hupper =>
      have hrange : c.val ≥ 'A'.val ∧ c.val ≤ 'Z'.val := of_decide_eq_true hupper
      simp only [UInt32.le_iff_toNat_le, ge_iff_le] at hrange
      have hval : c.toNat = c.val.toNat := rfl
      have hz : 'Z'.val.toNat = 90 := rfl
      have hd := Option.some.inj h
      omega
    next => cases h

theorem leadingDigits_lt (cs : List Char) : ∀ d ∈ leadingDigits cs, d < 36 := by
  induction cs with
  | nil => simp [leadingDigits]
  | cons c rest ih =>
    unfold leadingDigits
    cases hd : digit36 c with
    | none => simp
    | some d => simpa using ⟨digit36_lt hd, ih⟩

namespace Symbol

variable {s : Symbol}

/-- The digits at the beginning of a symbol, without leading zeros. -/
def stem (s : Symbol) : List Nat := (leadingDigits s.unsigned).dropWhile (· == 0)

/-- The stem with its sign, which an empty stem does not have. -/
def signedStem (s : Symbol) : Bool × List Nat := (s.negative && !s.stem.isEmpty, s.stem)

/-- The number the stem stands for. -/
def number (s : Symbol) : Int :=
  if s.negative then -(ofNumeral 36 s.stem : Int) else ofNumeral 36 s.stem

theorem stem_lt (s : Symbol) : ∀ d ∈ s.stem, d < 36 :=
  fun d hd => leadingDigits_lt _ d ((List.dropWhile_sublist _).subset hd)

theorem head_stem (s : Symbol) : s.stem.head? ≠ some 0 := by
  intro hzero
  have hhead := List.head?_dropWhile_not (· == 0) (leadingDigits s.unsigned)
  unfold stem at hzero
  rw [hzero] at hhead
  simp at hhead

theorem memberId_eq (s : Symbol) : s.memberId = s.number := by
  unfold memberId number stem
  rw [ofNumeral_dropWhile]

theorem ofNumeral_stem_inj {s t : Symbol} :
    ofNumeral 36 s.stem = ofNumeral 36 t.stem ↔ s.stem = t.stem :=
  ofNumeral_inj (by decide) s.stem_lt t.stem_lt s.head_stem t.head_stem

theorem ofNumeral_stem_eq_zero : ofNumeral 36 s.stem = 0 ↔ s.stem = [] := by
  have hnil := ofNumeral_inj (c := []) (by decide) s.stem_lt (by simp) s.head_stem (by simp)
  rwa [ofNumeral_nil] at hnil

/-- Symbols have the same number exactly if they have the same stem. -/
theorem number_inj {s t : Symbol} : s.number = t.number ↔ s.signedStem = t.signedStem := by
  have hstem := ofNumeral_stem_inj (s := s) (t := t)
  have hs := ofNumeral_stem_eq_zero (s := s)
  have ht := ofNumeral_stem_eq_zero (s := t)
  unfold number signedStem
  cases s.negative with
  | false =>
    cases t.negative with
    | false =>
      simp only [Bool.false_eq_true, if_false, Bool.false_and, Prod.mk.injEq, true_and]
      rw [← hstem]
      omega
    | true =>
      simp only [Bool.false_eq_true, if_false, if_true, Bool.false_and, Bool.true_and,
        Prod.mk.injEq]
      have hnil : ((false = !t.stem.isEmpty) ∧ s.stem = t.stem) ↔ s.stem = [] ∧ t.stem = [] := by
        cases t.stem <;> simp
      rw [hnil, ← hs, ← ht]
      omega
  | true =>
    cases t.negative with
    | false =>
      simp only [Bool.false_eq_true, if_false, if_true, Bool.false_and, Bool.true_and,
        Prod.mk.injEq]
      have hnil : (((!s.stem.isEmpty) = false) ∧ s.stem = t.stem) ↔
          s.stem = [] ∧ t.stem = [] := by
        cases s.stem with
        | nil => simp
        | cons d rest => simp
      rw [hnil, ← hs, ← ht]
      omega
    | true =>
      simp only [if_true, Bool.true_and, Prod.mk.injEq]
      have hsame : ((!s.stem.isEmpty) = !t.stem.isEmpty ∧ s.stem = t.stem) ↔ s.stem = t.stem :=
        and_iff_right_of_imp (fun h => by rw [h])
      rw [hsame, ← hstem]
      omega

/-- `ZIK0ZJ`, the greatest number of the column, or `ZIK0ZK` behind a dash. -/
def limit (s : Symbol) : List Nat :=
  if s.negative then [35, 18, 20, 0, 35, 20] else [35, 18, 20, 0, 35, 19]

theorem fitsColumn_iff (s : Symbol) :
    DataciteImport.fitsColumn s.memberId = true ↔ NumeralLe s.stem s.limit := by
  have hlimit : ∀ d ∈ s.limit, d < 36 := by
    unfold limit
    split <;> decide
  have hfirst : s.limit.head? ≠ some 0 := by
    unfold limit
    split <;> decide
  rw [← ofNumeral_le_iff (by decide) s.stem_lt hlimit s.head_stem hfirst, memberId_eq]
  unfold DataciteImport.fitsColumn number limit
  rw [Bool.and_eq_true, decide_eq_true_eq, decide_eq_true_eq]
  cases s.negative with
  | false =>
    have hvalue : ofNumeral 36 [35, 18, 20, 0, 35, 19] = 2147483647 := by decide
    simp only [Bool.false_eq_true, if_false, hvalue]
    omega
  | true =>
    have hvalue : ofNumeral 36 [35, 18, 20, 0, 35, 20] = 2147483648 := by decide
    simp only [if_true, hvalue]
    omega

end Symbol

/-! ## The publishers a page leaves -/

namespace DataciteImport

variable {env : Env} {cat : Catalogue} {items : List Item} {item : Item} {k : Int}
  {publishers : Table Publisher} {p : Publisher}

/-- What one item does to the table, if its number fits. -/
def link (item : Item) (publishers : Table Publisher) : Table Publisher :=
  match item.datacentreSymbol with
  | none => publishers
  | some s => firstOrCreate item s publishers

/-- What the page does to the table. -/
def linkAll : List Item → Table Publisher → Table Publisher
  | [], publishers => publishers
  | item :: items, publishers => linkAll items (link item publishers)

/-- The symbols of a page. -/
def symbols (items : List Item) : List Symbol := items.filterMap (·.datacentreSymbol)

theorem mem_symbols :
    s ∈ symbols items ↔ ∃ item ∈ items, item.datacentreSymbol = some s := by
  simp [symbols]

theorem parseItem_of_fits
    (hfits : ∀ s, item.datacentreSymbol = some s → fitsColumn s.memberId = true) :
    parseItem env cat item publishers = (.ok (record env cat item), link item publishers) := by
  unfold parseItem link
  cases hsymbol : item.datacentreSymbol with
  | none => rfl
  | some s => simp only [hfits s hsymbol, if_true]

theorem parseItems_cons_iff {publishers next left : Table Publisher} {first : Params}
    {records : List Params} (hitem : parseItem env cat item publishers = (.ok first, next)) :
    parseItems env cat (item :: items) publishers = (.ok records, left) ↔
      ∃ more, parseItems env cat items next = (.ok more, left) ∧ records = first :: more := by
  simp only [parseItems, hitem]
  cases hrest : parseItems env cat items next with
  | mk result after =>
    cases result with
    | error e => simp
    | ok more =>
      constructor
      · intro h
        cases h
        exact ⟨more, rfl, rfl⟩
      · intro ⟨_, hmore, hrecords⟩
        cases hmore
        rw [hrecords]

/-- The page is parsed exactly if all numbers fit. -/
theorem parseItems_eq_ok_iff {publishers left : Table Publisher} {records : List Params} :
    parseItems env cat items publishers = (.ok records, left) ↔
      (∀ s ∈ symbols items, fitsColumn s.memberId = true) ∧
        records = items.map (record env cat) ∧ left = linkAll items publishers := by
  induction items generalizing publishers records with
  | nil =>
    simp only [parseItems, symbols, linkAll, Prod.mk.injEq, Except.ok.injEq, List.filterMap_nil,
      List.not_mem_nil, false_implies, implies_true, true_and, List.map_nil]
    exact and_congr eq_comm eq_comm
  | cons item items ih =>
    have hsymbols : (∀ s ∈ symbols (item :: items), fitsColumn s.memberId = true) ↔
        (∀ s, item.datacentreSymbol = some s → fitsColumn s.memberId = true) ∧
          ∀ s ∈ symbols items, fitsColumn s.memberId = true := by
      simp only [mem_symbols]
      grind
    rw [hsymbols]
    by_cases hfits : ∀ s, item.datacentreSymbol = some s → fitsColumn s.memberId = true
    · rw [parseItems_cons_iff (parseItem_of_fits hfits)]
      constructor
      · intro ⟨more, hmore, hrecords⟩
        obtain ⟨hrest, hmap, hleft⟩ := ih.mp hmore
        exact ⟨⟨hfits, hrest⟩, by rw [hrecords, hmap, List.map_cons], hleft⟩
      · intro ⟨⟨_, hrest⟩, hmap, hleft⟩
        exact ⟨_, ih.mpr ⟨hrest, rfl, hleft⟩, hmap⟩
    · -- the first item raises
      constructor
      · intro h
        simp only [not_forall, Bool.not_eq_true] at hfits
        obtain ⟨s, hsymbol, hwide⟩ := hfits
        simp [parseItems, parseItem, hsymbol, hwide] at h
      · intro h
        exact absurd h.1.1 hfits

/-- What is new in the table comes from the first item it could come from. -/
theorem link_cases (item : Item) (publishers : Table Publisher) :
    link item publishers = publishers ∨
      ∃ s, item.datacentreSymbol = some s ∧ stored publishers s.number = none ∧
        isValid publishers (newPublisher item s) = true ∧
        link item publishers = publishers.insert (newPublisher item s) := by
  unfold link
  cases hsymbol : item.datacentreSymbol with
  | none => exact Or.inl rfl
  | some s =>
    simp only [firstOrCreate, s.memberId_eq]
    cases hstored : stored publishers s.number with
    | some p => exact Or.inl rfl
    | none =>
      cases hvalid : isValid publishers (newPublisher item s) with
      | false => exact Or.inl rfl
      | true => exact Or.inr ⟨s, rfl, hstored, hvalid, rfl⟩

theorem rows_link (item : Item) (publishers : Table Publisher) :
    publishers.rows <+: (link item publishers).rows := by
  rcases link_cases item publishers with h | ⟨s, _, _, _, h⟩
  · rw [h]
  · rw [h]
    exact List.prefix_append ..

theorem rows_linkAll (items : List Item) (publishers : Table Publisher) :
    publishers.rows <+: (linkAll items publishers).rows := by
  induction items generalizing publishers with
  | nil => exact List.prefix_rfl
  | cons item items ih => exact (rows_link item publishers).trans (ih (link item publishers))

/-- A publisher that is stored stays where it is. -/
theorem stored_of_extended {before after : Table Publisher} (h : before.rows <+: after.rows)
    (hp : stored before k = some p) : stored after k = some p := by
  obtain ⟨more, hmore⟩ := h
  unfold stored Table.first at *
  rw [← hmore, List.find?_append, hp]
  rfl

theorem stored_none_of_extended {before after : Table Publisher} (h : before.rows <+: after.rows)
    (hafter : stored after k = none) : stored before k = none := by
  cases hbefore : stored before k with
  | none => rfl
  | some p =>
    rw [stored_of_extended h hbefore] at hafter
    cases hafter

theorem stored_eq_none_iff :
    stored publishers k = none ↔ ∀ p ∈ publishers.rows, p.memberId ≠ some k := by
  unfold stored Table.first
  rw [List.find?_eq_none]
  simp only [beq_iff_eq, ne_eq]

/-- A row that was created for an item of the page. -/
structure CreatedFor (items : List Item) (before : Table Publisher) (s : Symbol)
    (p : Publisher) : Prop where
  name : p.name = s.text
  memberId : p.memberId = some s.number
  item : ∃ item ∈ items, item.datacentreSymbol = some s ∧ present item.publisher = true
  notBlank : blank s.text = false
  newName : ∀ other ∈ before.rows, other.name ≠ s.text
  newNumber : stored before s.number = none

theorem createdFor_of_link (hp : p ∈ (link item publishers).rows) :
    p ∈ publishers.rows ∨ ∃ s, CreatedFor [item] publishers s p := by
  rcases link_cases item publishers with h | ⟨s, hsymbol, hstored, hvalid, h⟩
  · rw [h] at hp
    exact Or.inl hp
  · rw [h] at hp
    rcases Table.mem_insert.mp hp with hold | rfl
    · exact Or.inl hold
    · right
      simp only [isValid, newPublisher, s.memberId_eq, Bool.and_eq_true, Bool.not_eq_true',
        List.all_eq_true, bne_iff_ne, Option.isSome_some, and_true] at hvalid
      obtain ⟨⟨htitle, hblank⟩, hothers⟩ := hvalid
      exact ⟨s, {
        name := rfl
        memberId := congrArg some s.memberId_eq
        item := ⟨item, List.mem_singleton_self item, hsymbol, htitle⟩
        notBlank := hblank
        newName := fun other hother => (hothers other hother).1
        newNumber := hstored }⟩

theorem createdFor_of_linkAll (hp : p ∈ (linkAll items publishers).rows) :
    p ∈ publishers.rows ∨ ∃ s, CreatedFor items publishers s p := by
  induction items generalizing publishers with
  | nil => exact Or.inl hp
  | cons item items ih =>
    rcases ih hp with hlink | ⟨s, hs⟩
    · rcases createdFor_of_link hlink with hold | ⟨s, hs⟩
      · exact Or.inl hold
      · right
        obtain ⟨a, ha, hsymbol⟩ := hs.item
        rw [List.mem_singleton.mp ha] at hsymbol
        exact ⟨s, { hs with item := ⟨item, List.mem_cons_self, hsymbol⟩ }⟩
    · right
      obtain ⟨a, ha, hsymbol⟩ := hs.item
      exact ⟨s, { hs with
        item := ⟨a, List.mem_cons_of_mem _ ha, hsymbol⟩
        newName := fun other hother =>
          hs.newName other ((rows_link item publishers).subset hother)
        newNumber := stored_none_of_extended (rows_link item publishers) hs.newNumber }⟩

/-- An item with a title leaves a publisher with its number, unless the name is
taken. -/
theorem stored_of_titled (hitem : item ∈ items) (hsymbol : item.datacentreSymbol = some s)
    (htitle : present item.publisher = true) (hblank : blank s.text = false)
    (hname : ∀ p ∈ publishers.rows, p.name ≠ s.text) :
    ∃ p, stored (linkAll items publishers) s.number = some p := by
  induction items generalizing publishers with
  | nil => cases hitem
  | cons a rest ih =>
    cases hafter : stored (link a publishers) s.number with
    | some p => exact ⟨p, stored_of_extended (rows_linkAll rest (link a publishers)) hafter⟩
    | none =>
      rcases List.mem_cons.mp hitem with rfl | hrest
      · have hbefore := stored_none_of_extended (rows_link item publishers) hafter
        have hvalid : isValid publishers (newPublisher item s) = true := by
          have hnumber := stored_eq_none_iff.mp hbefore
          simp only [isValid, newPublisher, s.memberId_eq, htitle, hblank, Bool.not_false,
            Option.isSome_some, Bool.and_true, Bool.true_and, List.all_eq_true,
            Bool.and_eq_true, bne_iff_ne]
          exact fun p hp => ⟨hname p hp, hnumber p hp⟩
        have hlink : link item publishers = publishers.insert (newPublisher item s) := by
          simp only [link, hsymbol, firstOrCreate, s.memberId_eq, hbefore, hvalid, if_true]
        rw [hlink] at hafter
        refine absurd (congrArg some s.memberId_eq) ?_
        exact stored_eq_none_iff.mp hafter _ (Table.mem_insert.mpr (Or.inr rfl))
      · refine ih hrest ?_
        -- a publisher the first item created under this name would have the number
        intro p hp heq
        rcases createdFor_of_link hp with hold | ⟨t, ht⟩
        · exact hname p hold heq
        · have hsame : t = s := Symbol.ext (ht.name.symm.trans heq)
          rw [hsame] at ht
          exact stored_eq_none_iff.mp hafter p hp ht.memberId

/-- The publisher an item is linked to. -/
theorem createdFor_of_stored (h : stored (linkAll items publishers) k = some p) :
    stored publishers k = some p ∨ ∃ s, s.number = k ∧ CreatedFor items publishers s p := by
  have hmem := List.mem_of_find?_eq_some h
  have hnumber := List.find?_some h
  simp only [beq_iff_eq] at hnumber
  rcases createdFor_of_linkAll hmem with hold | ⟨s, hs⟩
  · left
    cases hbefore : stored publishers k with
    | some q =>
      have hkept := stored_of_extended (rows_linkAll items publishers) hbefore
      rw [hkept] at h
      exact h
    | none => exact absurd hnumber (stored_eq_none_iff.mp hbefore p hold)
  · right
    have hsame := hs.memberId
    rw [hnumber] at hsame
    exact ⟨s, (Option.some.inj hsame).symm, hs⟩

/-! ## Different data centres -/

/-- Different symbols of a page have different numbers, the numbers fit the
column, and behind the number of an item is a publisher with its symbol. -/
def KeptApart (env : Env) (cat : Catalogue) (items : List Item) : Prop :=
  (∀ s ∈ symbols items, ∀ t ∈ symbols items, s ≠ t → s.memberId ≠ t.memberId) ∧
    (∀ s ∈ symbols items, fitsColumn s.memberId = true) ∧
    ∃ records publishers, parseData env cat (some items) = (.ok records, publishers) ∧
      ∀ s ∈ symbols items, ∃ p, stored publishers s.memberId = some p ∧ p.name = s.text

/-- The table has the publisher of the symbol already, or neither its number nor
its name is taken and an item of the page has a title for it. -/
def Available (items : List Item) (publishers : Table Publisher) (s : Symbol) : Prop :=
  (∃ p, stored publishers s.number = some p ∧ p.name = s.text) ∨
    (stored publishers s.number = none ∧ (∀ p ∈ publishers.rows, p.name ≠ s.text) ∧
      blank s.text = false ∧
      ∃ item ∈ items, item.datacentreSymbol = some s ∧ present item.publisher = true)

theorem linked_iff (hapart : ∀ t ∈ symbols items, s ≠ t → s.number ≠ t.number) :
    (∃ p, stored (linkAll items publishers) s.number = some p ∧ p.name = s.text) ↔
      Available items publishers s := by
  constructor
  · intro ⟨p, hp, hname⟩
    rcases createdFor_of_stored hp with hold | ⟨t, _, ht⟩
    · exact Or.inl ⟨p, hold, hname⟩
    · have hsame : t = s := Symbol.ext (ht.name.symm.trans hname)
      rw [hsame] at ht
      exact Or.inr ⟨ht.newNumber, ht.newName, ht.notBlank, ht.item⟩
  · intro havailable
    rcases havailable with ⟨p, hp, hname⟩ | ⟨hnumber, hnew, hblank, item, hitem, hsymbol, htitle⟩
    · exact ⟨p, stored_of_extended (rows_linkAll items publishers) hp, hname⟩
    · obtain ⟨p, hp⟩ := stored_of_titled hitem hsymbol htitle hblank hnew
      refine ⟨p, hp, ?_⟩
      rcases createdFor_of_stored hp with hold | ⟨t, hsame, ht⟩
      · rw [hnumber] at hold
        cases hold
      · -- no other symbol of the page has the number
        obtain ⟨a, ha, hat, _⟩ := ht.item
        have hst : s = t := by
          by_contra hne
          exact hapart t (mem_symbols.mpr ⟨a, ha, hat⟩) hne hsame.symm
        rw [ht.name, hst]

/-- A page keeps its data centres apart exactly if no stem is too long, no two
symbols share a stem, and each symbol has or gets a publisher. -/
theorem publishers_kept_apart_iff (env : Env) (cat : Catalogue) (items : List Item) :
    KeptApart env cat items ↔
      (∀ s ∈ symbols items, NumeralLe s.stem s.limit) ∧
      (∀ s ∈ symbols items, ∀ t ∈ symbols items, s ≠ t → s.signedStem ≠ t.signedStem) ∧
      ∀ s ∈ symbols items, Available items cat.publishers s := by
  have hnumbers : (∀ s ∈ symbols items, ∀ t ∈ symbols items, s ≠ t → s.memberId ≠ t.memberId) ↔
      ∀ s ∈ symbols items, ∀ t ∈ symbols items, s ≠ t → s.signedStem ≠ t.signedStem := by
    simp only [Symbol.memberId_eq, ne_eq, Symbol.number_inj]
  have hfits : (∀ s ∈ symbols items, fitsColumn s.memberId = true) ↔
      ∀ s ∈ symbols items, NumeralLe s.stem s.limit :=
    forall₂_congr (fun s _ => s.fitsColumn_iff)
  have hlinked (hapart : ∀ s ∈ symbols items, ∀ t ∈ symbols items, s ≠ t →
      s.memberId ≠ t.memberId) :
      (∀ s ∈ symbols items, ∃ p,
        stored (linkAll items cat.publishers) s.memberId = some p ∧ p.name = s.text) ↔
      ∀ s ∈ symbols items, Available items cat.publishers s := by
    simp only [Symbol.memberId_eq] at hapart ⊢
    exact forall₂_congr (fun s hs => linked_iff (hapart s hs))
  unfold KeptApart parseData
  simp only [parseItems_eq_ok_iff]
  rw [← hnumbers, ← hfits]
  constructor
  · intro ⟨hapart, hall, records, publishers, ⟨_, _, hleft⟩, hnames⟩
    rw [hleft] at hnames
    exact ⟨hall, hapart, (hlinked hapart).mp hnames⟩
  · intro ⟨hall, hapart, havailable⟩
    exact ⟨hapart, hall, _, _, ⟨hall, rfl, rfl⟩, (hlinked hapart).mpr havailable⟩

/-- The item of a data centre of the California Digital Library. -/
def cdlItem (s : Symbol) : Item :=
  { doi := some "10.5072/1", publisher := some "A Data Center", datacentreSymbol := some s }

/-- The symbols `CDL.DRYAD` and `CDL.UCI`. -/
def dryad : Symbol := ⟨"CDL.DRYAD", by decide +kernel⟩

@[inherit_doc dryad] def uci : Symbol := ⟨"CDL.UCI", by decide +kernel⟩

/-- Both symbols are number 16041, which is `CDL`: the second item is linked to
the publisher of the first. -/
theorem second_center_not_stored :
    ¬ KeptApart plainEnv {} [cdlItem dryad, cdlItem uci] ∧
      dryad.memberId = 16041 ∧ uci.memberId = 16041 ∧
      (parseData plainEnv {} (some [cdlItem dryad, cdlItem uci])).2.rows.map (·.name) =
        ["CDL.DRYAD"] := by
  have hdryad : dryad.memberId = 16041 := by decide +kernel
  have huci : uci.memberId = 16041 := by decide +kernel
  refine ⟨?_, hdryad, huci, by decide +kernel⟩
  intro ⟨hapart, _⟩
  have hdistinct : dryad ≠ uci := by decide +kernel
  refine hapart dryad ?_ uci ?_ hdistinct (hdryad.trans huci.symm)
  · exact mem_symbols.mpr ⟨cdlItem dryad, by simp, rfl⟩
  · exact mem_symbols.mpr ⟨cdlItem uci, by simp, rfl⟩

end DataciteImport

end Lagotto.Import
