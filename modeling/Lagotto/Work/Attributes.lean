/-
Lagotto.Work.Attributes — assigning, normalising and validating a work
(`app/models/work.rb`, `config/initializers/constants.rb`).

`Params` is the hash the callers pass: a key may be missing, nil, or have a
value, and the three differ when a record is updated. `Work.normalise` is the
chain of `before_validation` callbacks with the date `validate_published_on`
writes, and `Work.errors` is what `valid?` collects, callbacks included.

Code that is not the application's is a parameter (`Env`): the URL cleaner,
the URI encoder, the HTML sanitizer, and the database's comparison of
strings, which is equality of `collate` keys. The lookups and the unique
indexes compare that way; the uniqueness validator asks with `= BINARY`, and
compares the strings themselves.
-/
import Mathlib.Logic.Function.Basic
import Lagotto.Model.Schema
import Lagotto.Text.Includes

namespace Lagotto

open Text

/-! ## What the application runs on -/

structure Env where
  /-- `Time.zone.now.to_date`. -/
  today : Date
  /-- `Time.zone.now`, for the time stamps of new rows. -/
  now : Time
  /-- `PostRank::URI.clean`, or the message of the error it raises. -/
  clean : String → Except String String
  /-- `Addressable::URI.encode`. -/
  encode : String → String
  /-- `sanitize(_, tags: %w(b i sc sub sup))`. -/
  sanitize : String → String
  /-- The key by which the database compares strings. -/
  collate : String → String
  /-- The text of `RecordNotUnique`, for an index and a row. -/
  duplicateEntry : String → Work → String
  /-- What `CronParser` accepts. -/
  validCron : String → Bool

/-- `column = value`, or `column IS NULL`. -/
def Env.same (env : Env) : Option String → Option String → Bool
  | none, none => true
  | some a, some b => env.collate a == env.collate b
  | _, _ => false

/-! ## Formats -/

/-- `\A10\.\d{4,5}/.+` -/
def doiFormat (s : String) : Bool :=
  match s.toList with
  | '1' :: '0' :: '.' :: rest =>
    let registrant := rest.takeWhile Char.isDigit
    (registrant.length == 4 || registrant.length == 5) &&
      match rest.dropWhile Char.isDigit with
      | '/' :: c :: _ => c != '\n'
      | _ => false
  | _ => false

/-- `\Aark:\/[0-9]+\/.+\z` -/
def arkFormat (s : String) : Bool :=
  match s.toList with
  | 'a' :: 'r' :: 'k' :: ':' :: '/' :: rest =>
    !(rest.takeWhile Char.isDigit).isEmpty &&
      match rest.dropWhile Char.isDigit with
      | '/' :: name => !name.isEmpty && !name.contains '\n'
      | _ => false
  | _ => false

/-- `[a-z0-9]+([\-\.]{1}[a-z0-9]+)*`, from either end. -/
def isLabels (cs : List Char) : Bool :=
  let word := fun c : Char => c.isLower || c.isDigit
  let sep := fun c : Char => c == '-' || c == '.'
  cs.all (fun c => word c || sep c) && cs.head?.any word && cs.getLast?.any word &&
    (cs.zip cs.tail).all (fun pair => !(sep pair.1 && sep pair.2))

/-- `[a-z0-9]+([\-\.]{1}[a-z0-9]+)*\.[a-z]{2,5}` and up to `port` digits, read
from the end: the digits, the letters of the last label, its dot. -/
def isHost (port : Nat) (cs : List Char) : Bool :=
  let rest := cs.reverse.dropWhile Char.isDigit
  let top := rest.takeWhile Char.isLower
  (cs.reverse.takeWhile Char.isDigit).length ≤ port && 2 ≤ top.length && top.length ≤ 5 &&
    match rest.dropWhile Char.isLower with
    | '.' :: labels => isLabels labels
    | _ => false

/-- `\A(http|https|ftp):\/\/[a-z0-9]+([\-\.]{1}[a-z0-9]+)*\.[a-z]{2,5}(([0-9]{1,5})?\/.*)?\z` -/
def urlFormat (s : String) : Bool :=
  let afterScheme : Option (List Char) :=
    match s.toList with
    | 'h' :: 't' :: 't' :: 'p' :: ':' :: '/' :: '/' :: rest => some rest
    | 'h' :: 't' :: 't' :: 'p' :: 's' :: ':' :: '/' :: '/' :: rest => some rest
    | 'f' :: 't' :: 'p' :: ':' :: '/' :: '/' :: rest => some rest
    | _ => none
  match afterScheme with
  | none => false
  | some rest =>
    let host := rest.takeWhile (· != '/')
    let path := rest.dropWhile (· != '/')
    if path.isEmpty then isHost 0 host else isHost 5 host && !path.contains '\n'

/-- `url =~ /^(http|https)/`: at the start of any line. -/
def startsHttp (s : String) : Bool :=
  "http".toList.isPrefixOf s.toList || includes s "\nhttp"

/-! ## Params -/

/-- An element of `related_works`. -/
structure RelatedWork where
  relatedWork : String
  source : String
  relationType : Option String := none
  deriving DecidableEq, Repr

/-- The hash of attributes: `none` for a key that is not there. -/
structure Params where
  col : Column → Option (Option String) := fun _ => none
  title : Option (Option String) := none
  year : Option (Option Int) := none
  month : Option (Option Int) := none
  day : Option (Option Int) := none
  publisherId : Option (Option Int) := none
  workTypeId : Option (Option Nat) := none
  registrationAgency : Option (Option String) := none
  csl : Option Value := none
  tracked : Option Value := none
  relatedWorks : List RelatedWork := []

namespace Params

/-- `params[c]`. -/
def get (p : Params) (c : Column) : Option String := (p.col c).join

/-- `params[:tracked]` in a condition. -/
def isTracked (p : Params) : Bool := (p.tracked.getD .nil).truthy

/-- `params.except(:pid, c, :related_works)`; the relations are no attribute
in any case. -/
def except (p : Params) (c : Column) : Params :=
  { p with col := fun c' => if c' = .pid ∨ c' = c then none else p.col c' }

end Params

namespace Work

/-- `assign_attributes`. -/
def assign (w : Work) (p : Params) : Work where
  id := w.id
  col := fun c => (p.col c).getD (w.col c)
  title := p.title.getD w.title
  year := p.year.getD w.year
  month := p.month.getD w.month
  day := p.day.getD w.day
  publishedOn := w.publishedOn
  publisherId := p.publisherId.getD w.publisherId
  workTypeId := p.workTypeId.getD w.workTypeId
  registrationAgency := p.registrationAgency.getD w.registrationAgency
  csl := p.csl.getD w.csl
  tracked := (p.tracked.map Value.toBoolean).getD w.tracked

/-- Write one identifier column. -/
def setCol (w : Work) (c : Column) (v : Option String) : Work :=
  { w with col := Function.update w.col c v }

@[simp] theorem col_setCol_self (w : Work) (c : Column) (v : Option String) :
    (w.setCol c v).col c = v := by
  simp [setCol]

theorem col_setCol_of_ne (w : Work) {c c' : Column} (v : Option String) (h : c' ≠ c) :
    (w.setCol c v).col c' = w.col c' := by
  simp [setCol, h]

/-! ## Identifiers as URLs -/

/-- `"#{base}#{identifier}" if identifier.present?` -/
def asUrl (w : Work) (base : String) (c : Column) : Option String :=
  if present (w.col c) then some (base ++ (w.col c).getD "") else none

def doiAsUrl (env : Env) (w : Work) : Option String :=
  (w.asUrl "http://doi.org/" .doi).map env.encode

def pmidAsUrl (w : Work) : Option String := w.asUrl "http://www.ncbi.nlm.nih.gov/pubmed/" .pmid

def pmcidAsUrl (w : Work) : Option String :=
  w.asUrl "http://www.ncbi.nlm.nih.gov/pmc/articles/PMC" .pmcid

def arxivAsUrl (w : Work) : Option String := w.asUrl "http://arxiv.org/abs/" .arxiv

def arkAsUrl (w : Work) : Option String := w.asUrl "http://n2t.net/" .ark

end Work

end Lagotto
