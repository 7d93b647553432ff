/-
Lagotto.Work.IdHash — `get_id_hash`, the column and the value an identifier
stands for.

The identifier comes from an address or a parameter. Escaped slashes and
colons are put back first, then the double slash behind `http:` that nginx and
the router swallow. What is left is looked up in a list of beginnings, in the
order of the `case`. An identifier none of them fits is taken for a DOI.
-/
import Lagotto.Relational.Table
import Lagotto.Text.PercentEncoding
import Lagotto.Work.Attributes

namespace Lagotto

open Relational Text

/-! ## Putting back what was swallowed -/

/-- `\w` -/
def wordChar (c : Char) : Bool := c.isAlphanum || c == '_'

/-- `/(scheme):\/+(\w+)/`, replaced by `'\1://\2'`. -/
def schemeSlashes (scheme : List Char) : Pattern Char := fun l =>
  if scheme ++ [':'] <+: l then
    let rest := l.drop (scheme.length + 1)
    let slashes := rest.takeWhile (· == '/')
    let word := (rest.dropWhile (· == '/')).takeWhile wordChar
    if slashes.isEmpty || word.isEmpty then none
    else
      some (scheme.length + 1 + slashes.length + word.length, scheme ++ [':', '/', '/'] ++ word)
  else
    none

/-- `/(http|https):\/+(\w+)/` -/
def httpSlashes : Pattern Char := fun l =>
  (schemeSlashes ['h', 't', 't', 'p'] l).or (schemeSlashes ['h', 't', 't', 'p', 's'] l)

def unescapeSlashes (id : List Char) : List Char := gsub (literal ['%', '2', 'F'] ['/']) id

def unescapeColons (id : List Char) : List Char := gsub (literal ['%', '3', 'A'] [':']) id

/-- The three `gsub` of `get_id_hash`. -/
def restoreId (id : List Char) : List Char :=
  gsub httpSlashes (unescapeColons (unescapeSlashes id))

/-! ## The beginnings -/

/-- What a branch of the `case` makes of the identifier. -/
inductive IdRule where
  /-- `{ doi: CGI.unescape(id[n..-1]).downcase }` -/
  | doi (n : Nat)
  /-- `{ doi: CGI.unescape(id) }` -/
  | doiAsIs
  /-- `{ doi: id[n..-1].gsub("_", "/").downcase }` -/
  | doiUnderscored (n : Nat)
  /-- `{ c: id[n..-1] }` -/
  | rest (c : Column) (n : Nat)
  /-- `{ canonical_url: PostRank::URI.clean(id) }` -/
  | url
  deriving DecidableEq

def idRules : List (String × IdRule) :=
  [("doi.org/", .doi 8),
   ("www.ncbi.nlm.nih.gov/pubmed/", .rest .pmid 28),
   ("www.ncbi.nlm.nih.gov/pmc/articles/PMC", .rest .pmcid 37),
   ("arxiv.org/abs/", .rest .arxiv 14),
   ("n2t.net/ark:", .rest .ark 8),
   ("http://doi.org/", .doi 15),
   ("http://dx.doi.org/", .doi 18),
   ("http://www.ncbi.nlm.nih.gov/pubmed/", .rest .pmid 35),
   ("http://www.ncbi.nlm.nih.gov/pmc/articles/PMC", .rest .pmcid 44),
   ("http://arxiv.org/abs/", .rest .arxiv 21),
   ("http://n2t.net/ark:", .rest .ark 15),
   ("http:", .url),
   ("https:", .url),
   ("doi:", .doi 4),
   ("pmid:", .rest .pmid 5),
   ("pmcid:PMC", .rest .pmcid 9),
   ("pmcid:", .rest .pmcid 6),
   ("arxiv:", .rest .arxiv 6),
   ("wos:", .rest .wos 4),
   ("scp:", .rest .scp 4),
   ("ark:", .rest .ark 0),
   ("doi/", .doi 4),
   ("info:doi/", .doi 9),
   ("10.", .doiAsIs),
   ("pmid/", .rest .pmid 5),
   ("pmcid/PMC", .rest .pmcid 9),
   ("pmcid/", .rest .pmcid 6),
   ("PMC", .rest .pmcid 3),
   ("doi_10.", .doiUnderscored 4)]

/-- The branch taken; the last one is for what none of the beginnings fits. -/
def idRule (id : List Char) : IdRule :=
  match idRules.find? (fun rule => rule.1.toList.isPrefixOf id) with
  | some rule => rule.2
  | none => .doi 0

/-- `CGI.unescape`, with the error the database raises for bytes that are no
text. -/
def unescaped (id : List Char) : Except String String :=
  match unescape id with
  | some cs => .ok (String.ofList cs)
  | none => .error "invalid byte sequence in UTF-8"

def IdRule.apply (env : Env) (id : List Char) : IdRule → Except String (Column × String)
  | .doi n => (unescaped (id.drop n)).map (fun doi => (.doi, doi.toLower))
  | .doiAsIs => (unescaped id).map (fun doi => (.doi, doi))
  | .doiUnderscored n =>
    .ok (.doi, (String.ofList (gsub (literal ['_'] ['/']) (id.drop n))).toLower)
  | .rest c n => .ok (c, String.ofList (id.drop n))
  | .url => (env.clean (String.ofList id)).map (fun url => (.canonicalUrl, url))

/-- `get_id_hash`: the one entry of the hash, nil for nil, or the message of
the error raised. -/
def getIdHash (env : Env) : Option String → Except String (Option (Column × String))
  | none => .ok none
  | some id =>
    let id := restoreId id.toList
    ((idRule id).apply env id).map some

/-- What `load_work` can fail with. -/
inductive LoadError where
  | recordNotFound
  | raised (message : String)
  deriving DecidableEq

/-- `load_work`, for the parameter `id`. -/
def loadWork (env : Env) (works : Table Work) (id : Option String) : Except LoadError Work :=
  match getIdHash env id with
  | .error message => .error (.raised message)
  | .ok none => .error .recordNotFound
  | .ok (some (key, value)) =>
    match works.first (fun w => env.same (w.col key) (some value)) with
    | some work => .ok work
    | none => .error .recordNotFound

end Lagotto
