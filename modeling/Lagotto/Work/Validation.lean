/-
Lagotto.Work.Validation — the callbacks and validations of a work, and the
statement that stores it (`app/models/work.rb`, `db/schema.rb`).

The callbacks run on the record as assigned and may add errors of their own;
the validations then see the normalised record. What is stored is that
record with its blank strings turned into NULL. The database has the last
word: a value that does not fit its column and a value that is already in a
unique index are refused with different exceptions, and only the second one
is among those `find_or_create` rescues.
-/
import Lagotto.Work.Attributes

namespace Lagotto

open Text

/-- The attributes errors are filed under. -/
inductive Attribute where
  | col (c : Column)
  | title | year | month | day | publishedOn
  deriving DecidableEq, Repr

/-- `human_attribute_name`. -/
def Attribute.human : Attribute → String
  | .col .doi => "Doi"
  | .col .pmid => "Pmid"
  | .col .pmcid => "Pmcid"
  | .col .arxiv => "Arxiv"
  | .col .ark => "Ark"
  | .col .canonicalUrl => "Canonical url"
  | .col .wos => "Wos"
  | .col .scp => "Scp"
  | .col .dataone => "Dataone"
  | .col .pid => "Pid"
  | .title => "Title"
  | .year => "Year"
  | .month => "Month"
  | .day => "Day"
  | .publishedOn => "Published on"

/-- An attribute and what is wrong with it. -/
abbrev Error := Attribute × String

/-- `errors.full_messages`: by attribute, in the order the attributes first
had an error. -/
def fullMessages (errors : List Error) : List String :=
  (errors.map Prod.fst).eraseDups.flatMap (fun field =>
    (errors.filter (fun e => e.1 == field)).map (fun e => e.1.human ++ " " ++ e.2))

/-- The message of `RecordInvalid`. -/
def invalidMessage (errors : List Error) : String :=
  "Validation failed" ++ ": " ++ join ", " (fullMessages errors)

namespace Work

/-! ## Callbacks -/

/-- `sanitize_title`. -/
def sanitizeTitle (env : Env) (w : Work) : Work := { w with title := w.title.map env.sanitize }

/-- `normalize_url`. -/
def normalizeUrl (env : Env) (w : Work) : Work × List Error :=
  match w.col .canonicalUrl with
  | none => (w, [])
  | some url =>
    if blank url then (w, [])
    else
      match env.clean url with
      | .error message => (w, [(.col .canonicalUrl, message)])
      | .ok cleaned =>
        if startsHttp cleaned then (w.setCol .canonicalUrl (some cleaned), [])
        else (w, [(.col .canonicalUrl, "only http and https URLs are supported")])

/-- `normalize_doi`. -/
def normalizeDoi (w : Work) : Work :=
  if present (w.col .doi) then w.setCol .doi ((w.col .doi).map String.toLower) else w

/-- What `set_pid` takes for the pid: the first that is there. -/
def pidFor (env : Env) (w : Work) : Option String :=
  ([w.doiAsUrl env, w.pmidAsUrl, w.pmcidAsUrl, w.col .canonicalUrl, w.arxivAsUrl,
    w.arkAsUrl].find? present).join

/-- `set_pid`. -/
def setPid (env : Env) (w : Work) : Work × List Error :=
  match w.pidFor env with
  | some pid => (w.setCol .pid (some pid), [])
  | none => (w, [(.col .doi, "must provide at least one persistent identifier")])

/-- The `before_validation` chain with the errors it adds. -/
def beforeValidation (env : Env) (w : Work) : Work × List Error :=
  let url := (w.sanitizeTitle env).normalizeUrl env
  let pid := url.1.normalizeDoi.setPid env
  (pid.1, url.2 ++ pid.2)

/-- `validate_published_on`: the date, or what is wrong with it. -/
def checkPublishedOn (env : Env) (w : Work) : Except String Date :=
  let dateParts := [w.year, w.month, w.day].filterMap (fun part => part)
  match Date.ofParts? dateParts with
  | none => .error (join "-" (dateParts.map toString) ++ " is not a valid date")
  | some date =>
    if env.today.toDays < date.toDays then .error "is a date in the future"
    else if date.toDays < (⟨1650, 1, 1, by decide⟩ : Date).toDays then .error "is before 1650"
    else .ok date

/-- The record after the callbacks and validations have written to it. -/
def normalise (env : Env) (w : Work) : Work :=
  let n := (w.beforeValidation env).1
  match n.checkPublishedOn env with
  | .ok date => { n with publishedOn := some date }
  | .error _ => n

/-! ## Validations -/

/-- `uniqueness: true, allow_blank: true`, against the other rows. The query is
`column = BINARY value`: a value that differs in case is not taken. -/
def checkUnique (others : List Work) (n : Work) (c : Column) : List Error :=
  if present (n.col c) && others.any (fun other => other.col c == n.col c) then
    [(.col c, "has already been taken")]
  else
    []

/-- `format: …, allow_blank: true`. -/
def checkFormat (format : String → Bool) (n : Work) (c : Column) : List Error :=
  if present (n.col c) && !(n.col c).all format then [(.col c, "is invalid")] else []

/-- `presence: true`. -/
def checkPresence (field : Attribute) (value : Option String) : List Error :=
  if present value then [] else [(field, "can't be blank")]

/-- `numericality: { only_integer: true, less_than_or_equal_to: limit, allow_nil: true }`. -/
def checkAtMost (field : Attribute) (limit : Int) : Option Int → List Error
  | none => []
  | some n =>
    if n ≤ limit then [] else [(field, "must be less than or equal to " ++ toString limit)]

/-- The `validates` lines of `Work`, in order. -/
def validations (env : Env) (others : List Work) (n : Work) : List Error :=
  checkPresence (.col .pid) (n.col .pid) ++ checkPresence .title n.title ++
  checkUnique others n .doi ++ checkFormat doiFormat n .doi ++
  checkUnique others n .canonicalUrl ++ checkFormat urlFormat n .canonicalUrl ++
  checkUnique others n .ark ++ checkFormat arkFormat n .ark ++
  [.pid, .pmid, .pmcid, .arxiv, .wos, .scp].flatMap (checkUnique others n) ++
  (if n.year.isSome then [] else [(.year, "is not a number")]) ++
  checkAtMost .month 12 n.month ++ checkAtMost .day 31 n.day ++
  match n.checkPublishedOn env with
  | .ok _ => []
  | .error message => [(.publishedOn, message)]

/-- `errors` after `valid?`. -/
def errors (env : Env) (others : List Work) (w : Work) : List Error :=
  (w.beforeValidation env).2 ++ validations env others (w.beforeValidation env).1

/-! ## The row -/

/-- `nilify_blanks`. -/
def nilifyBlanks (w : Work) : Work :=
  { w with
    col := fun c => presence (w.col c)
    title := presence w.title
    registrationAgency := presence w.registrationAgency }

/-- The row `save` writes for a record. -/
def row (env : Env) (w : Work) : Work := (w.normalise env).nilifyBlanks

/-- The limit of a column: characters of a string, bytes of a text. -/
def fits (n : Work) : Bool :=
  [Column.doi, .pmid, .pmcid, .arxiv, .ark, .wos, .scp, .dataone].all
      (fun c => (n.col c).all (fun v => v.length ≤ 191)) &&
    [n.col .canonicalUrl, n.col .pid, n.title].all
      (fun text => text.all (fun v => v.utf8ByteSize ≤ 65535)) &&
    n.registrationAgency.all (fun v => v.length ≤ 255)

/-- The unique indexes on `works` in the order of the schema, with the length
of those that only cover the beginning of their column. There is none on
`canonical_url`. -/
def uniqueIndexes : List (Column × Option Nat × String) :=
  [(.ark, some 100, "index_works_on_ark"), (.arxiv, some 100, "index_works_on_arxiv"),
   (.dataone, none, "index_works_on_dataone"), (.doi, none, "index_works_on_doi"),
   (.pid, some 191, "index_works_on_pid"), (.pmcid, some 100, "index_works_on_pmcid"),
   (.pmid, none, "index_works_on_pmid"), (.scp, some 100, "index_works_on_scp"),
   (.wos, some 100, "index_works_on_wos")]

/-- What an index holds of a value. -/
def indexed (length : Option Nat) (v : String) : String :=
  match length with
  | none => v
  | some k => String.ofList (v.toList.take k)

/-- Two rows have the same entry in the index; NULL has none. -/
def collides (env : Env) (index : Column × Option Nat × String) (n other : Work) : Bool :=
  match n.col index.1, other.col index.1 with
  | some a, some b => env.collate (indexed index.2.1 a) == env.collate (indexed index.2.1 b)
  | _, _ => false

end Work

/-- What `create!` and `update_attributes` can fail with. -/
inductive SaveError where
  | recordInvalid (message : String)
  | recordNotUnique (message : String)
  | statementInvalid (message : String)
  deriving DecidableEq, Repr

def SaveError.message : SaveError → String
  | .recordInvalid m | .recordNotUnique m | .statementInvalid m => m

/-- `rescue ActiveRecord::RecordInvalid, ActiveRecord::RecordNotUnique`. -/
def SaveError.rescued : SaveError → Bool
  | .recordInvalid _ | .recordNotUnique _ => true
  | .statementInvalid _ => false

def SaveError.raised : SaveError → Raised
  | .recordInvalid m => ⟨"ActiveRecord::RecordInvalid", m⟩
  | .recordNotUnique m => ⟨"ActiveRecord::RecordNotUnique", m⟩
  | .statementInvalid m => ⟨"ActiveRecord::StatementInvalid", m⟩

namespace Work

/-- Why the database refuses a row beside the others, if it does. -/
def refusal (env : Env) (others : List Work) (n : Work) : Option SaveError :=
  if !n.fits then some (.statementInvalid "Mysql2::Error: Data too long for column")
  else
    (uniqueIndexes.find? (fun index => others.any (collides env index n))).map
      (fun index => .recordNotUnique (env.duplicateEntry index.2.2 n))

end Work

end Lagotto
