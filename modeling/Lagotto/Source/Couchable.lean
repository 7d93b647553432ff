/-
Lagotto.Source.Couchable — documents in CouchDB
(`app/models/concerns/couchable.rb`).

A source that imports files keeps one document for each work. The document is
read, changed and written back, each with a request of its own, and each
request may fail. `rescue_faraday_error` makes a hash with `:error` of a failed
request, which a caller that asks for another key takes for a document without
it. `save_lagotto_data` asks for the revision once more before it writes, and
so writes also where the document has not been read.
-/
import Lagotto.Documents.Store
import Lagotto.Retrieval.Networkable
import Lagotto.Text.PercentEncoding

namespace Lagotto

open Documents

/-- A database of CouchDB with its documents under their URLs. -/
abbrev Couch (α : Type) := Store String α

namespace Couchable

variable {α : Type}

/-- The hash of a failed request. -/
structure ErrorHash where
  error : String
  status : Int
  deriving DecidableEq, Repr

/-- `url_db + CGI.escape(doi)` -/
def documentUrl (urlDb doi : String) : String :=
  urlDb ++ String.ofList (Text.escape doi.toList)

/-- Each DOI has a document of its own. -/
theorem documentUrl_inj {urlDb doi other : String} :
    documentUrl urlDb doi = documentUrl urlDb other ↔ doi = other := by
  constructor
  · intro h
    have hlist := String.ofList_injective ((String.append_right_inj urlDb).mp h)
    exact String.toList_injective (Text.escape_injective hlist)
  · intro h
    rw [h]

/-- `rescue_faraday_error` for a request without data, which raises on a 409. -/
def rescueFaradayError (url : String) (f : Failure) : Except Raised ErrorHash :=
  if f.status = 409 then .error ⟨"NoMethodError", "undefined method `[]' for nil:NilClass"⟩
  else .ok ⟨f.message url, f.status⟩

/-- `get_result(url)` -/
def getResult (couch : Couch α) (url : String) (failure : Option Failure) :
    Except Raised (Except ErrorHash (Document α)) :=
  match failure with
  | some f => (rescueFaradayError url f).map .error
  | none =>
    match couch url with
    | none => .ok (.error ⟨"not_found", 404⟩)
    | some document => .ok (.ok document)

/-- `get_lagotto_rev(url)` -/
def getLagottoRev (couch : Couch α) (url : String) (failure : Option Failure) :
    Except Raised (Option Nat) :=
  match failure with
  | some f => (rescueFaradayError url f).map (fun _ => none)
  | none => .ok (couch.rev url)

/-- `put_lagotto_data(url, data: data)`, where `rev` is the `_rev` of the data.
The message for a conflict asks the data for a `:rev` they do not have. -/
def putLagottoData (couch : Couch α) (url : String) (rev : Option Nat) (data : α)
    (failure : Option Failure) : Except ErrorHash Nat × Couch α :=
  match failure with
  | some f =>
    (.error ⟨f.message url ++ if f.status = 409 then " with rev " else "", f.status⟩, couch)
  | none =>
    match couch.put url rev data with
    | none =>
      (.error ⟨"the server responded with status 409 for " ++ url ++ " with rev ", 409⟩, couch)
    | some (rev, couch) => (.ok rev, couch)

/-- `save_lagotto_data(url, data: data)`. Data that were read have a `_rev` of
their own. It is the one that is asked for here, unless someone else has
written in between. -/
def saveLagottoData (couch : Couch α) (url : String) (rev : Option Nat) (data : α)
    (headFailure putFailure : Option Failure) :
    Except Raised (Except ErrorHash Nat) × Couch α :=
  match getLagottoRev couch url headFailure with
  | .error e => (.error e, couch)
  | .ok dataRev =>
    let (saved, couch) := putLagottoData couch url (rev.or dataRev) data putFailure
    (.ok saved, couch)

/-! ## What the requests give -/

variable {couch : Couch α} {url : String} {f : Failure} {head : Option Failure}
  {rev headRev : Option Nat} {data : α}

theorem getResult_of_failed (hf : f.status ≠ 409) :
    getResult couch url (some f) = .ok (.error ⟨f.message url, f.status⟩) := by
  simp [getResult, rescueFaradayError, hf, Except.map]

theorem getLagottoRev_of_failed (hf : f.status ≠ 409) :
    getLagottoRev couch url (some f) = .ok none := by
  simp [getLagottoRev, rescueFaradayError, hf, Except.map]

theorem saveLagottoData_of_put {saved : Nat × Couch α}
    (hhead : getLagottoRev couch url head = .ok headRev)
    (hput : couch.put url (rev.or headRev) data = some saved) :
    saveLagottoData couch url rev data head none = (.ok (.ok saved.1), saved.2) := by
  simp only [saveLagottoData, hhead, putLagottoData, hput]

/-- A save that fails or conflicts leaves the documents as they are. -/
theorem saveLagottoData_of_refused {put : Option Failure}
    (hhead : getLagottoRev couch url head = .ok headRev)
    (hput : put ≠ none ∨ couch.put url (rev.or headRev) data = none) :
    ∃ hash, saveLagottoData couch url rev data head put = (.ok (.error hash), couch) := by
  simp only [saveLagottoData, hhead]
  cases put with
  | some f => exact ⟨_, rfl⟩
  | none =>
    rcases hput with hne | hconflict
    · exact absurd rfl hne
    · simp only [putLagottoData, hconflict]
      exact ⟨_, rfl⟩

end Couchable

end Lagotto
