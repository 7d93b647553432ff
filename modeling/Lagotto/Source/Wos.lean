/-
Lagotto.Source.Wos — Web of Science (`app/models/sources/wos.rb`).

The service answers with status 200 and puts its own errors into the body, so
they are found while parsing. `check_error_status` files an alert with a
status code; the hash `parse_data` returns has the message only.
-/
import Lagotto.Source.Adapter

namespace Lagotto

open Interaction

namespace Wos

/-- `deep_fetch('response', 'fn', …)`. -/
def fn (rest : List String) : List Key := (["response", "fn"] ++ rest).map Key.str

/-- `get_data`: a POST with the DOI in the body. -/
def getData (s : Source) (work : Work) : Fetch Value :=
  if !present (work.col .doi) then .done (.hash [])
  else
    match (s.config.fields.find? (fun field => field.1 == "url_private")).map Prod.snd with
    | some (.str urlPrivate) => Fetch.get urlPrivate
    | _ => .fail ⟨"URI::InvalidURIError", "bad URI(is not URI?): "⟩

/-- `status.casecmp('OK') == 0`. -/
def isOk (status : String) : Bool := status.toList.map Char.toLower == ['o', 'k']

/-- The alert of an error status. -/
def alertFor (s : Source) (work : Work) (status error : String) : Alert where
  message := "Web of Science error " ++ status ++ ": '" ++ error ++ "' for work " ++
    (work.col .doi).getD ""
  className := if status = "Server.authentication" then "Net::HTTPUnauthorized"
    else "Net::HTTPNotFound"
  status := some (if status = "Server.authentication" then 401 else 404)
  sourceId := some s.id

/-- `check_error_status`: the message, or `none` for `false`. -/
def checkErrorStatus (s : Source) (result : Value) (work : Work) : Fetch (Option String) :=
  match result.deepFetch (fn ["rc"]) (.str "OK") with
  | .str status =>
    if isOk status then .done none
    else
      let error :=
        match result.deepFetch (fn ["error"]) (.str "an error occured") with
        | .str error => error
        | _ => ""
      let alert := alertFor s work status error
      (Fetch.alert alert).bind fun _ => .done (some alert.message)
  | _ => .fail ⟨"NoMethodError", "undefined method `casecmp'"⟩

/-- `parse_data`. -/
def parseData (s : Source) (result : Value) (work : Work) : Fetch (Parsed × Work) :=
  if (result.get (.sym "error")).truthy then .done (.ofResult result, work)
  else
    (checkErrorStatus s result work).bind fun
      | some message => .done ({ error := .str message }, work)
      | none =>
        match (result.deepFetch (fn ["map", "map", "map", "val"]) .nil).toArray with
        | [total, wos, eventsUrl] =>
          let parsed : Parsed :=
            { events :=
                { counts := { total := some total.toI }
                  eventsUrl := match eventsUrl with | .str url => some url | _ => none } }
          match wos with
          | .str id =>
            if !blank id && !present (work.col .wos) then
              (Fetch.update work { col := fun c => if c = .wos then some (some id) else none }).bind
                fun (_, work) => .done (parsed, work)
            else .done (parsed, work)
          | _ => .done (parsed, work)
        | _ => .done ({ events := { counts := { total := some 0 } } }, work)

/-- The class. -/
def adapter : Adapter where
  getData := getData
  parseData := parseData

end Wos

end Lagotto
