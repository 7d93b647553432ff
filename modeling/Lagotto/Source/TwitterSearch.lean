/-
Lagotto.Source.TwitterSearch — tweets from the Twitter Search API
(`app/models/sources/twitter_search.rb`).

A search returns recent tweets only, so `update_extra` is meant to merge them
with the tweets that were found before. It asks for those under
`twitter_search:` and the DOI, which is not the URL of a document and not a URI
at all: an underscore has no place in a scheme. `URI.parse` raises, the
exception is rescued like a failed request, and what comes back has no `extra`.
-/
import Lagotto.Relational.Pages
import Lagotto.Source.RelatedWorks
import Lagotto.Source.Wikipedia
import Lagotto.Text.PercentEncoding

namespace Lagotto.TwitterSearch

open Interaction
open Relational
open Wikipedia

/-! ## Tweets -/

/-- What the class takes from elsewhere: `Time.zone.parse(time).utc.iso8601`,
`get_authors`, and whether `get_access_token` has or gets a token. -/
structure Library where
  isoTime : String → Except Raised String
  getAuthors : List Value → Value
  token : Bool := true

/-- A status of the response as far as it is used. -/
structure Status where
  id : Value
  text : Value
  title : Value
  time : Option String
  user : String
  userName : Value
  userProfileImage : Value

/-- `item.key?(key)` -/
def hasKey (item : Value) (key : String) : Bool :=
  match item with
  | .hash entries => entries.any (fun e => e.1 = .str key)
  | _ => false

/-- `get_iso8601_from_time` -/
def getIso8601FromTime (lib : Library) (time : Value) : Except Raised (Option String) :=
  match presence (string? time) with
  | none => .ok none
  | some time => (lib.isoTime time).map some

/-- The screen name, the name and the image of the user of a status. -/
def userOf (item : Value) : Except Raised (Value × Value × Value) :=
  if !item.isHash then .error ⟨"NoMethodError", "undefined method `key?'"⟩
  else if hasKey item "from_user" then
    .ok (item.get (.str "from_user"), item.get (.str "from_user_name"),
      item.get (.str "profile_image_url"))
  else
    match item.get (.str "user") with
    | .nil => .error ⟨"NoMethodError", "undefined method `[]' for nil:NilClass"⟩
    | user => .ok (user.get (.str "screen_name"), user.get (.str "name"),
        user.get (.str "profile_image_url"))

/-- What `get_related_works` and `get_extra` read of an item. -/
def status (lib : Library) (item : Value) : Except Raised Status :=
  match userOf item with
  | .error e => .error e
  | .ok (user, userName, userProfileImage) =>
    match getIso8601FromTime lib (item.get (.str "created_at")) with
    | .error e => .error e
    | .ok time =>
      .ok
        { id := item.get (.str "id_str")
          text := item.get (.str "text")
          title := item.fetch (.str "text") (.str "")
          time := time
          user := (string? user).getD ""
          userName := userName
          userProfileImage := userProfileImage }

/-- `Array(result['statuses'])` -/
def items (result : Value) : List Value := (result.get (.str "statuses")).toArray

def statuses (lib : Library) (result : Value) : Except Raised (List Status) :=
  (items result).mapM (status lib)

/-- An element of `get_related_works`. -/
def mention (lib : Library) (s : Status) : Mention where
  account := s.user
  entry := (string? s.id).getD ""
  title := string? s.title
  dateParts := dateParts s.time
  author := lib.getAuthors [s.userName]
  containerTitle := .str "Twitter"

/-- An element of `get_extra`. -/
def event (s : Status) : Value :=
  let eventTime := s.time.elim .nil .str
  .hash
    [(.sym "event", .hash
       [(.sym "id", s.id), (.sym "text", s.text), (.sym "created_at", eventTime),
        (.sym "user", .str s.user), (.sym "user_name", s.userName),
        (.sym "user_profile_image", s.userProfileImage)]),
     (.sym "event_time", eventTime),
     (.sym "event_url",
       .str ("http://twitter.com/" ++ s.user ++ "/status/" ++ (string? s.id).getD ""))]

/-! ## `update_extra` -/

/-- `"twitter_search:#{work.doi_escaped}"` -/
def documentName (work : Work) : String :=
  "twitter_search:" ++
    ((presence (work.col .doi)).map (fun doi => String.ofList (Text.escape doi.toList))).getD ""

/-- What `URI.parse` raises. -/
def badUri (work : Work) : Failure := .other ("bad URI(is not URI?): " ++ documentName work)

/-- `get_lagotto_data`, of a name that is not a URI. -/
def getLagottoData (work : Work) : Fetch Value :=
  (Fetch.alert
    { message := (badUri work).message (documentName work), className := (badUri work).className
      targetUrl := some (documentName work), status := some (badUri work).status
      level := (badUri work).level }).bind fun _ =>
    .done ((badUri work).result (documentName work))

/-- `event[:event][:id]` -/
def idOf (event : Value) : Value := (event.get (.sym "event")).get (.sym "id")

/-- `group_by { |event| event[:event][:id] }.map { |_, v| v.first }` -/
def firstById (events : List Value) : List Value :=
  unionBy (fun a b => (idOf a).eql (idOf b)) [] events

/-- `update_extra` -/
def updateExtra (work : Work) (extra : List Value) : Fetch (List Value) :=
  (getLagottoData work).bind fun data =>
    .done (firstById (unionBy Value.eql (data.get (.str "extra")).toArray extra))

/-! ## The class -/

/-- `get_query_string` of a source; `none` is the empty hash. -/
def getQueryString (env : Env) (work : Work) : Fetch (Option String × Work) :=
  (work.getUrl env).bind fun (known, work) =>
    .done (if known || present (work.col .doi) then some (queryString work) else none, work)

/-- `get_query_url` -/
def getQueryUrl (env : Env) (lib : Library) (work : Work) : Fetch (Option String) :=
  (getQueryString env work).bind fun (query, _) =>
    match presence query with
    | none => .done none
    | some query =>
      if lib.token then
        .done (some ("https://api.twitter.com/1.1/search/tweets.json?q=" ++ query ++
          "&count=100&include_entities=1&result_type=recent"))
      else .fail ⟨"ArgumentError", "No access token."⟩

/-- `get_events_url`; the empty hash is left out. -/
def getEventsUrl (env : Env) (work : Work) : Fetch (Option String × Work) :=
  (getQueryString env work).bind fun (query, work) =>
    .done (query.map (fun query => "https://twitter.com/search?q=" ++ query ++ "&f=realtime"), work)

/-- `parse_data` -/
def parseData (env : Env) (lib : Library) (s : Source) (result : Value) (work : Work) :
    Fetch (Parsed × Work) :=
  if (result.get (.sym "error")).truthy then .done (.ofResult result, work)
  else
    (Program.ofExcept (statuses lib result)).bind fun found =>
      let relatedWorks := s.getRelatedWorks env work (found.map (mention lib))
      let total : Int := relatedWorks.length
      let timestamps := found.filterMap (·.time)
      (updateExtra work (found.map event)).bind fun extra =>
        (getEventsUrl env work).bind fun (eventsUrl, work) =>
          (Program.ofExcept
              (Source.getEventsByDay .comments work.publishedOn timestamps)).bind fun days =>
            .done
              ({ works := relatedWorks
                 events :=
                   { counts := { comments := some total, total := some total }
                     eventsUrl := eventsUrl
                     extra := .arr extra
                     days := days
                     months := Source.getEventsByMonth .comments timestamps } }, work)

/-- The class. -/
def adapter (env : Env) (lib : Library) : Adapter where
  getData := fun _ work => Source.getData (getQueryUrl env lib work)
  parseData := parseData env lib

end Lagotto.TwitterSearch
