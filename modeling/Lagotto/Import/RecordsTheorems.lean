/-
Lagotto.Import.RecordsTheorems — which lines of a file become records.

Both importers of text files are meant to skip blank lines. They leave nil for
a blank line, and `parse_data` raises on it. `pipeline_eq_ok_iff` says for each
of the two when it ends without an exception and with what. The lines that
`get_data` has not read are missing in any case.
-/
import Lagotto.Import.Records
import Lagotto.Interaction.Loops
import Lagotto.Work.FindOrCreateTheorems

namespace Lagotto.Import

open Interaction
open Relational

/-! ## `FileImport` -/

theorem splitFields_eq_nil_iff (limit : Nat) (cs : List Char) :
    splitFields (limit + 1) cs = [] ↔ cs.dropWhile asciiSpace = [] := by
  unfold splitFields
  simp only [List.isEmpty_iff]
  split
  next h => simp [h]
  next h => split <;> simp [h]

/-- What `strip` leaves starts with a field. -/
theorem dropWhile_strip (cs : List Char) : (strip cs).dropWhile asciiSpace = strip cs := by
  have hpre : strip cs <+: cs.dropWhile asciiSpace := List.rdropWhile_prefix ..
  cases hstrip : strip cs with
  | nil => rfl
  | cons c rest =>
    obtain ⟨behind, hbehind⟩ := hpre
    rw [hstrip, List.cons_append] at hbehind
    have hne : cs.dropWhile asciiSpace ≠ [] := by simp [← hbehind]
    have hhead : asciiSpace c = false := by
      simpa [← hbehind] using List.head_dropWhile_not asciiSpace hne
    exact List.dropWhile_cons_of_neg (by simp [hhead])

namespace FileImport

/-- Nothing is left of the line. -/
def isBlank (line : String) : Bool := (strip line.toList).isEmpty

/-- `get_id_hash` does not raise on the first field of the line. -/
def Readable (env : Env) (line : String) : Prop :=
  ∀ rawDoi ∈ (splitFields 3 (strip line.toList)).head?, ∃ doi, readId env rawDoi = .ok doi

/-- The line becomes the record. -/
def Becomes (env : Env) (cat : Catalogue) (i : Importer) (line : String) (p : Params) : Prop :=
  ∃ item, lineItem env i line = .ok (some item) ∧ record env cat item = p

theorem splitFields_strip_iff (line : String) :
    splitFields 3 (strip line.toList) = [] ↔ isBlank line = true := by
  rw [splitFields_eq_nil_iff, dropWhile_strip, isBlank, List.isEmpty_iff]

theorem exists_becomes_iff {env : Env} {cat : Catalogue} {i : Importer} {line : String} :
    (∃ p, Becomes env cat i line p) ↔ isBlank line = false ∧ Readable env line := by
  have hblank := splitFields_strip_iff line
  unfold Becomes lineItem Readable
  cases hfields : splitFields 3 (strip line.toList) with
  | nil =>
    rw [hfields] at hblank
    simp [hblank.mp rfl]
  | cons rawDoi rest =>
    rw [hfields] at hblank
    have hnot : isBlank line = false := by simpa using hblank
    cases hread : readId env rawDoi with
    | ok doi => simp [hnot, hread, Except.map]
    | error e => simp [hread, Except.map]

/-- The pipeline in one loop. -/
theorem pipeline_eq_ok_iff {env : Env} {cat : Catalogue} {i : Importer} {options : Options}
    {records : List Params} :
    pipeline env cat i options = .ok records ↔
      ∃ lines, (textWindow options.offset).slice i.file = some lines ∧
        List.Forall₂ (Becomes env cat i) lines records := by
  have hitem : ∀ line p, (∃ item, lineItem env i line = .ok item ∧
      parseItem env cat item = .ok p) ↔ Becomes env cat i line p := by
    intro line p
    constructor
    · rintro ⟨item, hline, hparse⟩
      cases item with
      | none => cases hparse
      | some item => exact ⟨item, hline, Except.ok.inj hparse⟩
    · rintro ⟨item, hline, rfl⟩
      exact ⟨some item, hline, rfl⟩
  unfold pipeline getData getText
  cases hslice : (textWindow options.offset).slice i.file with
  | none => simp [Except.bind]
  | some lines =>
    simp only [Option.some.injEq, exists_eq_left']
    refine mapM_bind_mapM_iff.trans ?_
    simp only [hitem]

/-- `get_data` and `parse_data` do not raise and give a record for every line
that is not blank, and nothing else. -/
def OneRecordEach (env : Env) (cat : Catalogue) (i : Importer) (options : Options) : Prop :=
  ∃ records, pipeline env cat i options = .ok records ∧
    List.Forall₂ (Becomes env cat i) (i.file.filter (fun line => !isBlank line)) records

theorem oneRecordEach_iff (env : Env) (cat : Catalogue) (i : Importer) (options : Options) :
    OneRecordEach env cat i options ↔
      options.offset ≤ i.file.length ∧
        (∀ line ∈ (i.file.drop options.offset).take 500,
          isBlank line = false ∧ Readable env line) ∧
        ∀ line ∈ (textWindow options.offset).outside i.file, isBlank line = true := by
  have hguard : ∀ line, Option.guard (fun line => !isBlank line) line = none ↔
      isBlank line = true := by
    simp
  have hfilter : i.file.filter (fun line => !isBlank line) =
      i.file.filterMap (Option.guard (fun line => !isBlank line)) :=
    congrFun List.filterMap_eq_filter.symm i.file
  have hread : ∀ {lines : List String}, (∀ line ∈ lines, isBlank line = false) →
      lines.filterMap (Option.guard (fun line => !isBlank line)) = lines := by
    intro lines hlines
    rw [List.filterMap_eq_filter, List.filter_eq_self]
    simpa using hlines
  constructor
  · rintro ⟨records, hrun, heach⟩
    obtain ⟨lines, hslice, hbecome⟩ := pipeline_eq_ok_iff.mp hrun
    obtain ⟨hoffset, rfl⟩ := Window.slice_eq_some_iff.mp hslice
    have hlines := exists_forall₂_iff.mp ⟨records, hbecome⟩
    simp only [exists_becomes_iff] at hlines
    refine ⟨hoffset, hlines, fun line hline => (hguard line).mp ?_⟩
    refine Window.none_of_length _ ?_ line hline
    rw [← hfilter, heach.length_eq, ← hbecome.length_eq]
    exact (congrArg List.length (hread (fun line hline => (hlines line hline).1))).symm
  · rintro ⟨hoffset, hlines, houtside⟩
    obtain ⟨records, hbecome⟩ := exists_forall₂_iff.mpr
      (fun line hline => exists_becomes_iff.mpr (hlines line hline))
    refine ⟨records, pipeline_eq_ok_iff.mpr
      ⟨_, Window.slice_eq_some_iff.mpr ⟨hoffset, rfl⟩, hbecome⟩, ?_⟩
    have hsame := (Window.filterMap_slice_iff (textWindow options.offset) i.file _).mpr
      (fun line hline => (hguard line).mpr (houtside line hline))
    have hwindow := hread (fun line hline => (hlines line hline).1)
    rw [hfilter, hsame]
    exact hwindow.symm ▸ hbecome

end FileImport

/-! ## `DoiImport` -/

namespace DoiImport

/-- The lines of a file. -/
def linesOf (content : String) : List String := (content.toList.splitOn '\n').map String.ofList

/-- Nothing but white space is left of the line. -/
def isBlank (line : String) : Bool := blank (chomp line)

/-- The record a line stands for: none if it is blank or nothing is known
about it. -/
def recordOf (env : Env) (cat : Catalogue) (registries : Registries) (line : String) :
    Option Params :=
  if isBlank line then none else lookUp env cat registries (chomp line)

theorem recordOf_eq_none_iff (env : Env) (cat : Catalogue) {registries : Registries}
    {line : String} :
    recordOf env cat registries line = none ↔
      isBlank line = true ∨
        registries.getMetadata (chomp line) (registries.getDoiRa (chomp line)) = none := by
  unfold recordOf lookUp
  cases isBlank line with
  | true => simp
  | false => simp

theorem filterMap_dropWhile {α β : Type} {p : α → Bool} {f : α → Option β}
    (h : ∀ x, p x = true → f x = none) (l : List α) :
    (l.dropWhile p).filterMap f = l.filterMap f := by
  induction l with
  | nil => rfl
  | cons x rest ih =>
    cases hx : p x with
    | true => rw [List.dropWhile_cons_of_pos hx, ih, List.filterMap_cons_none (h x hx)]
    | false => rw [List.dropWhile_cons_of_neg (by simp [hx])]

/-- The empty lines that `split` drops do not matter. -/
theorem filterMap_splitLines (env : Env) (cat : Catalogue) (registries : Registries)
    (content : String) :
    (splitLines content).filterMap (recordOf env cat registries) =
      (linesOf content).filterMap (recordOf env cat registries) := by
  have hempty : ∀ line : String, (line == "") = true → recordOf env cat registries line = none := by
    intro line hline
    rw [beq_iff_eq.mp hline]
    rfl
  unfold splitLines
  rw [List.filterMap_reverse, filterMap_dropWhile hempty, ← List.filterMap_reverse,
    List.reverse_reverse]
  rfl

theorem parseItem_eq_ok_iff {env : Env} {cat : Catalogue} {registries : Registries}
    {line : String} {p : Option Params} :
    parseItem env cat registries (lineItem line) = .ok p ↔
      isBlank line = false ∧ p = recordOf env cat registries line := by
  unfold lineItem recordOf isBlank
  cases blank (chomp line) with
  | true => simp [parseItem]
  | false => simp [parseItem, eq_comm]

/-- The pipeline in one loop. -/
theorem pipeline_eq_ok_iff {env : Env} {cat : Catalogue} {registries : Registries}
    {content : String} {options : Options} {records : List Params} :
    pipeline env cat registries (some content) options = .ok records ↔
      ∃ lines, (fileWindow options).slice (splitLines content) = some lines ∧
        (∀ line ∈ lines, isBlank line = false) ∧
        records = lines.filterMap (recordOf env cat registries) := by
  simp only [pipeline, getData]
  cases hslice : (fileWindow options).slice (splitLines content) with
  | none => simp [Except.bind]
  | some lines =>
    simp only [Option.some.injEq, exists_eq_left']
    show ((lines.map lineItem).mapM (parseItem env cat registries)).map
      (List.filterMap (fun record => record)) = .ok records ↔ _
    have hloop : ∀ results, (lines.map lineItem).mapM (parseItem env cat registries) =
        .ok results ↔ (∀ line ∈ lines, isBlank line = false) ∧
          results = lines.map (recordOf env cat registries) := by
      intro results
      rw [mapM_eq_ok_iff, List.forall₂_map_left_iff]
      simp only [parseItem_eq_ok_iff]
      exact forall₂_graph_iff
    constructor
    · intro h
      cases hresults : (lines.map lineItem).mapM (parseItem env cat registries) with
      | error e =>
        rw [hresults] at h
        cases h
      | ok results =>
        obtain ⟨hblank, rfl⟩ := (hloop results).mp hresults
        rw [hresults] at h
        obtain rfl := Except.ok.inj h
        exact ⟨hblank, List.filterMap_map ..⟩
    · rintro ⟨hblank, rfl⟩
      rw [(hloop _).mpr ⟨hblank, rfl⟩]
      exact congrArg Except.ok (List.filterMap_map ..)

/-- `get_data` and `parse_data` do not raise and give a record for every line
that is not blank and whose metadata are found, and nothing else. -/
def OneRecordEach (env : Env) (cat : Catalogue) (registries : Registries) (content : String)
    (options : Options) : Prop :=
  pipeline env cat registries (some content) options =
    .ok ((linesOf content).filterMap (recordOf env cat registries))

theorem oneRecordEach_iff (env : Env) (cat : Catalogue) (registries : Registries)
    (content : String) (options : Options) :
    OneRecordEach env cat registries content options ↔
      options.offset ≤ (splitLines content).length ∧
        (∀ line ∈ ((splitLines content).drop options.offset).take (options.rows.getD 1000),
          isBlank line = false) ∧
        ∀ line ∈ (fileWindow options).outside (splitLines content),
          isBlank line = true ∨
            registries.getMetadata (chomp line) (registries.getDoiRa (chomp line)) = none := by
  unfold OneRecordEach
  simp only [← recordOf_eq_none_iff env cat]
  rw [pipeline_eq_ok_iff, ← filterMap_splitLines]
  constructor
  · rintro ⟨lines, hslice, hblank, hrecords⟩
    obtain ⟨hoffset, rfl⟩ := Window.slice_eq_some_iff.mp hslice
    exact ⟨hoffset, hblank, (Window.filterMap_slice_iff ..).mp hrecords⟩
  · rintro ⟨hoffset, hblank, houtside⟩
    exact ⟨_, Window.slice_eq_some_iff.mpr ⟨hoffset, rfl⟩, hblank,
      (Window.filterMap_slice_iff ..).mpr houtside⟩

end DoiImport

/-! ## Both -/

/-- Every line that is not blank becomes a record exactly if no line that is
read is blank, all of them can be read, and nothing of interest is left
unread. -/
theorem lines_recorded_iff (env : Env) (cat : Catalogue) (i : Importer) (registries : Registries)
    (content : String) (options : Options) :
    (FileImport.OneRecordEach env cat i options ↔
      options.offset ≤ i.file.length ∧
        (∀ line ∈ (i.file.drop options.offset).take 500,
          FileImport.isBlank line = false ∧ FileImport.Readable env line) ∧
        ∀ line ∈ (textWindow options.offset).outside i.file, FileImport.isBlank line = true) ∧
    (DoiImport.OneRecordEach env cat registries content options ↔
      options.offset ≤ (DoiImport.splitLines content).length ∧
        (∀ line ∈ ((DoiImport.splitLines content).drop options.offset).take
          (options.rows.getD 1000), DoiImport.isBlank line = false) ∧
        ∀ line ∈ (fileWindow options).outside (DoiImport.splitLines content),
          DoiImport.isBlank line = true ∨
            registries.getMetadata (DoiImport.chomp line)
              (registries.getDoiRa (DoiImport.chomp line)) = none) :=
  ⟨FileImport.oneRecordEach_iff env cat i options,
    DoiImport.oneRecordEach_iff env cat registries content options⟩

/-- Registries that know every DOI. -/
def allKnown : Registries where
  getDoiRa := fun _ => some "crossref"
  getCrossrefMetadata := fun doi => some { title := some doi, dateParts := [2014] }
  getDataciteMetadata := fun _ => none
  getPubmedMetadata := fun _ => none

/-- A blank line between two DOIs makes both importers fail. -/
theorem blank_line_raises :
    ¬ FileImport.OneRecordEach plainEnv {}
        { importClass := .file
          file := ["10.1371/journal.pone.0000001", "", "10.1371/journal.pone.0000002"] } {} ∧
      ¬ DoiImport.OneRecordEach plainEnv {} allKnown
        "10.1371/journal.pone.0000001\n\n10.1371/journal.pone.0000002\n" {} := by
  constructor
  · intro h
    have hblank := ((FileImport.oneRecordEach_iff ..).mp h).2.1 "" (by decide)
    exact absurd hblank.1 (by decide)
  · intro h
    have hblank := ((DoiImport.oneRecordEach_iff ..).mp h).2.1 "" (by decide +kernel)
    exact absurd hblank (by decide)

end Lagotto.Import
