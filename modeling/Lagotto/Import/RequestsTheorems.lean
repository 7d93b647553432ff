/-
Lagotto.Import.RequestsTheorems — which records an import asks for.

The step of `queue_work_import` and the number of records `get_data` asks for
agree in all classes but two: `FileImport` reads 500 lines per step and
`CrossrefImport` asks for 10 works. `requestedWindows_eq` puts the windows of
every class in the form of `Relational.windows`, and the rest is arithmetic.
-/
import Lagotto.Import.Requests

namespace Lagotto.Import

open Relational

variable (yearOf : String → Int)

/-- The records a class asks for at once. -/
def ImportClass.rows : ImportClass → Nat
  | .file => 500
  | .crossref => 10
  | .base | .doi | .csl | .datacite | .dataone | .plos => 1000

theorem solr_window (base q fl : String) (offset rows : Nat) (more : List (String × Param)) :
    (Url.mk base (solrParams q offset rows fl ++ more)).window = some ⟨offset, rows⟩ := rfl

theorem crossref_window {i : Importer} (hsample : i.sample = 0) (offset rows : Nat) :
    (crossrefQueryUrl i offset rows).window = some ⟨offset, rows⟩ := by
  unfold crossrefQueryUrl
  simp only [hsample, Nat.lt_irrefl, if_false]
  rfl

theorem requested_eq {i : Importer} (hsample : i.importClass = .crossref → i.sample = 0)
    {options : Options} (hrows : options.rows = none) :
    requested yearOf i options = some ⟨options.offset, i.importClass.rows⟩ := by
  unfold requested
  cases hclass : i.importClass with
  | base => simp [fileWindow, hrows, ImportClass.rows]
  | file => rfl
  | doi => simp [fileWindow, hrows, ImportClass.rows]
  | csl => simp [fileWindow, hrows, ImportClass.rows]
  | crossref => exact crossref_window (hsample hclass) options.offset 10
  | datacite => exact solr_window ..
  | dataone => exact solr_window ..
  | plos => exact solr_window ..

theorem requestedWindows_eq {i : Importer} (hsample : i.importClass = .crossref → i.sample = 0)
    (totalResults : Nat) :
    requestedWindows yearOf i totalResults = windows 1000 i.importClass.rows totalResults := by
  unfold requestedWindows queueWorkImport windows
  rw [List.filterMap_map, ← List.filterMap_eq_map]
  refine List.filterMap_congr (fun offset _ => ?_)
  exact requested_eq yearOf hsample rfl

/-- All records are asked for once, except that `FileImport` misses lines of
more than 500 and `CrossrefImport` works of more than 10. -/
theorem requested_once_iff (i : Importer) (hsample : i.importClass = .crossref → i.sample = 0)
    (n : Nat) :
    CoveredOnce (requestedWindows yearOf i n) n ↔
      (i.importClass = .file → n ≤ 500) ∧ (i.importClass = .crossref → n ≤ 10) := by
  have hrows : i.importClass.rows ≤ 1000 := by
    cases i.importClass <;> decide
  rw [requestedWindows_eq yearOf hsample n, covered_iff (by decide) hrows]
  cases i.importClass <;> simp [ImportClass.rows]

/-- The works of a file of 2500 are asked for once, by three steps. -/
theorem works_of_three_steps_requested :
    CoveredOnce (requestedWindows (fun _ => 2015) { importClass := .csl } 2500) 2500 :=
  (requested_once_iff (fun _ => 2015) { importClass := .csl } (by decide) 2500).mpr
    ⟨by decide, by decide⟩

/-- Of a file with 600 lines, line 500 is not asked for. -/
theorem line_not_requested :
    ¬ CoveredOnce (requestedWindows (fun _ => 2015) { importClass := .file } 600) 600 := by
  rw [requestedWindows_eq _ (by decide)]
  intro hcovered
  exact absurd (hcovered 500 (by decide)) (by decide)

end Lagotto.Import
