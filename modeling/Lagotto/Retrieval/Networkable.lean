/-
Lagotto.Retrieval.Networkable — `get_result` and the errors it turns into
values (`app/models/concerns/networkable.rb`), and the calls an adapter can
make on its surroundings.

A request that fails does not raise: `rescue_faraday_error` files an alert and
returns a hash with `:error` and `:status`. The keys are symbols, so no body
that a server sends can be taken for one. The one failure that does raise is a
409, whose message asks for a `:rev` no reading request has.

An adapter is a `Fetch`: it reads the web, files alerts and updates the work
it is asked about, and has no other access to the database.
-/
import Lagotto.Interaction.Program
import Lagotto.Work.FindOrCreate

namespace Lagotto

open Interaction
open Text

/-! ## Failures -/

/-- What `NETWORKABLE_EXCEPTIONS` stands for: a 404, a timeout, another error
response with the rate limit it names, or no response at all. Messages are
those `parse_error_response` gives. -/
inductive Failure where
  | notFound (message : String)
  | timeout (message : String)
  | response (status : Int) (message body limit : String)
  | other (message : String)
  deriving DecidableEq, Repr

namespace Failure

def status : Failure → Int
  | notFound _ => 404
  | timeout _ => 408
  | response status _ body _ =>
    if status = 403 ∧ includes body "Excessive use detected" then 429 else status
  | other _ => 400

/-- `class_name_by_status`; the class of the exception stands in for what is
not in the table. -/
def className (f : Failure) : String :=
  match f.status with
  | 400 => "Net::HTTPBadRequest"
  | 401 => "Net::HTTPUnauthorized"
  | 403 => "Net::HTTPForbidden"
  | 404 => "Net::HTTPNotFound"
  | 406 => "Net::HTTPNotAcceptable"
  | 408 => "Net::HTTPRequestTimeOut"
  | 409 => "Net::HTTPConflict"
  | 417 => "Net::HTTPExpectationFailed"
  | 429 => "Net::HTTPTooManyRequests"
  | 500 => "Net::HTTPInternalServerError"
  | 502 => "Net::HTTPBadGateway"
  | 503 => "Net::HTTPServiceUnavailable"
  | 504 => "Net::HTTPGatewayTimeOut"
  | _ => "Faraday::ClientError"

/-- `level_by_status`: temporary problems are warnings. -/
def level (f : Failure) : Int := if f.status ∈ [408, 502, 503, 504] then 2 else 3

/-- The message of the hash, and of the alert. -/
def message (url : String) : Failure → String
  | notFound message => message
  | timeout message | other message => message ++ " for " ++ url
  | response status message body limit =>
    let f := response status message body limit
    message ++ " for " ++ url ++
      if f.status = 429 then ". Rate-limit " ++ limit ++ " exceeded." else ""

/-- The hash `get_result` returns. -/
def result (url : String) (f : Failure) : Value :=
  .hash [(.sym "error", .str (f.message url)), (.sym "status", .int f.status)]

end Failure

/-- What comes back for a request. -/
inductive Response where
  | body (value : Value)
  | failed (failure : Failure)

/-! ## Errors in a result -/

/-- `data[:status] == 404`. -/
def Value.isNotFound (v : Value) : Bool :=
  match v.get (.sym "status") with
  | .int n => n == 404
  | _ => false

/-- `data[:error].present? && data[:status] != 404`. -/
def Value.carriesError (v : Value) : Bool := !(v.get (.sym "error")).isBlank && !v.isNotFound

/-! ## Calls -/

/-- What an adapter can do: request a URL, file an alert, update a work. -/
inductive Call where
  | get (url : String)
  | alert (alert : Alert)
  | update (work : Work) (p : Params)

/-- What it gets back; an update says whether it was saved, and leaves the
record as assigned in either case. -/
def Call.Answer : Call → Type
  | .get _ => Value
  | .alert _ => Unit
  | .update _ _ => Bool × Work

/-- Code of an adapter. -/
abbrev Fetch (α : Type) := Program Call Call.Answer Raised α

def Fetch.get (url : String) : Fetch Value := Program.call (Call.get url)

def Fetch.alert (a : Alert) : Fetch Unit := Program.call (Call.alert a)

def Fetch.update (work : Work) (p : Params) : Fetch (Bool × Work) :=
  Program.call (Call.update work p)

/-- The database while an adapter runs, and the results its requests had. -/
structure Session where
  db : Db
  results : List Value := []

/-- What the servers answer may depend on all that was answered before. -/
abbrev Web := List Value → String → Response

/-- `get_result` for a request of the retrieval status. -/
def getResult (env : Env) (web : Web) (rs : RetrievalStatus) (url : String) (s : Session) :
    Except Raised Value × Session :=
  match web s.results url with
  | .body value => (.ok value, { s with results := s.results ++ [value] })
  | .failed f =>
    match f with
    | .notFound _ => (.ok (f.result url), { s with results := s.results ++ [f.result url] })
    | _ =>
      if f.status = 409 then (.error ⟨"NoMethodError", "undefined method `[]' for nil:NilClass"⟩, s)
      else
        (.ok (f.result url),
          { db := s.db.fileAlert env.collate
              { message := f.message url, className := f.className, targetUrl := some url
                status := some f.status, level := f.level, sourceId := some rs.sourceId
                workId := some rs.workId, updatedAt := env.now }
            results := s.results ++ [f.result url] })

/-- `work.update_attributes(p)`. -/
def updateWork (env : Env) (work : Work) (p : Params) (s : Session) :
    Except Raised (Bool × Work) × Session :=
  match updateAttributes env work p s.db with
  | .error e => (.error e.raised, s)
  | .ok saved =>
    (.ok (saved.isSome, (work.assign p).normalise env), { s with db := saved.getD s.db })

/-- The surroundings of an adapter. -/
def handle (env : Env) (web : Web) (rs : RetrievalStatus) :
    (c : Call) → Session → Except Raised c.Answer × Session
  | .get url, s => getResult env web rs url s
  | .alert a, s =>
    (.ok (), { s with db := s.db.fileAlert env.collate { a with updatedAt := env.now } })
  | .update work p, s => updateWork env work p s

end Lagotto
