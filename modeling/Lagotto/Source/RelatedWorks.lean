/-
Lagotto.Source.RelatedWorks — the items the adapters make of the works a
response mentions (`get_related_works` in `app/models/sources`).

A `Mention` holds what an adapter reads about one work in a response, after
the adapter's own unwrapping of the JSON or XML. What it makes of it differs
by class in which identifiers it sets, how it builds the URL, the type and
the relation, and what it puts under `"tracked"`. Most classes put the
setting of the source there; one always puts `true`, and one has no such key.
-/
import Lagotto.Source.Configurable
import Lagotto.Work.Attributes

namespace Lagotto

/-- An element of `:works`, with the keys `update_works` reads. `dateParts` is
the first of the `date-parts` of `issued`. -/
structure Item where
  doi : Option String := none
  pmid : Option String := none
  pmcid : Option String := none
  arxiv : Option String := none
  url : Option String := none
  title : Option String := none
  dateParts : List Int := []
  type : Option String := none
  tracked : Value := .bool false
  author : Value := .arr []
  containerTitle : Value := .nil
  volume : Value := .nil
  page : Value := .nil
  issue : Value := .nil
  relatedWorks : List RelatedWork := []

/-- What a response says about a work: `link` is a URL in it, `account` and
`entry` the parts a URL is built from. -/
structure Mention where
  doi : Option String := none
  pmid : Option String := none
  pmcid : Option String := none
  arxiv : Option String := none
  link : Option String := none
  account : String := ""
  entry : String := ""
  title : Option String := none
  dateParts : List Int := []
  type : Option String := none
  author : Value := .arr []
  containerTitle : Value := .nil
  volume : Value := .nil
  page : Value := .nil
  issue : Value := .nil
  relationType : String := "cites"

namespace SourceClass

/-- The classes that report related works at all. -/
def reportsWorks : SourceClass → Bool
  | articleCoverage | biod | bitbucket | bloglines | connotea | copernicus | counter
  | dataoneCounter | dataoneUsage | f1000 | facebook | figshare | mendeley | pmc
  | postgenomic | relativeMetric | scopus | wos => false
  | _ => true

/-- The classes with a `"DOI"`. -/
def setsDoi : SourceClass → Bool
  | bmcFulltext | crossRef | datacite | dataciteData | europePmc | europePmcFulltext
  | natureOpensearch | plosFulltext | pubMed => true
  | _ => false

/-- The classes with a `"PMID"` and a `"PMCID"`. -/
def setsPmid : SourceClass → Bool
  | europePmc | europePmcFulltext | pubMed => true
  | _ => false

/-- The `"URL"` of an item. -/
def urlFor (env : Env) (work : Work) (m : Mention) : SourceClass → Option String
  | ads | adsFulltext => m.arxiv.map ("http://arxiv.org/abs/" ++ ·)
  | citeulike => some ("http://www.citeulike.org/" ++ m.account ++ "/" ++ m.entry)
  | europePmcData => m.pmid.map ("http://europepmc.org/abstract/MED/" ++ ·)
  | nature => m.link.map (fun url =>
      if blank url || "http://".toList.isPrefixOf url.toList then url else "http://" ++ url)
  | plosComments => work.doiAsUrl env
  | twitter | twitterSearch =>
      some ("http://twitter.com/" ++ m.account ++ "/status/" ++ m.entry)
  | articleCoverageCurated | github | natureOpensearch | openedition | orcid | reddit
  | researchblogging | scienceSeeker | wikipedia | wordpress => m.link
  | _ => none

def typeFor (m : Mention) : SourceClass → Option String
  | articleCoverageCurated | crossRef | datacite | dataciteData | pubMed => m.type
  | citeulike | github | orcid => some "entry"
  | nature | openedition | researchblogging | scienceSeeker | wordpress => some "post"
  | plosComments | reddit | twitter | twitterSearch => some "personal_communication"
  | wikipedia => some "entry-encyclopedia"
  | _ => some "article-journal"

def relationFor (m : Mention) : SourceClass → String
  | ads => "is_previous_version_of"
  | datacite | dataciteData => m.relationType
  | citeulike | github | orcid => "bookmarks"
  | articleCoverageCurated | nature | openedition | plosComments | reddit | researchblogging
  | scienceSeeker | twitter | twitterSearch | wordpress => "discusses"
  | wikipedia => "references"
  | _ => "cites"

end SourceClass

namespace Source

/-- What stands under `"tracked"`; `update_works` reads a missing key as
`false`. -/
def itemTracked (s : Source) : Value :=
  match s.type with
  | .articleCoverageCurated => .bool true
  | .plosComments => .bool false
  | _ => s.tracked

/-- The item for one mention. The two classes that look for an arXiv id skip
what has none. -/
def relatedWork (env : Env) (s : Source) (work : Work) (m : Mention) : Option Item :=
  let item : Item :=
    { doi := if s.type.setsDoi then m.doi else none
      pmid := if s.type.setsPmid then m.pmid else none
      pmcid := if s.type.setsPmid then m.pmcid else none
      url := s.type.urlFor env work m
      title := m.title
      dateParts := m.dateParts
      type := s.type.typeFor m
      tracked := s.itemTracked
      author := m.author
      containerTitle := m.containerTitle
      volume := m.volume
      page := m.page
      issue := m.issue
      relatedWorks :=
        [{ relatedWork := (work.col .pid).getD "", source := s.name
           relationType := some (s.type.relationFor m) }] }
  match s.type with
  | .ads | .adsFulltext => if present m.arxiv then some { item with arxiv := m.arxiv } else none
  | type => if type.reportsWorks then some item else none

/-- `get_related_works`. -/
def getRelatedWorks (env : Env) (s : Source) (work : Work) (mentions : List Mention) :
    List Item :=
  mentions.filterMap (s.relatedWork env work)

end Source

end Lagotto
