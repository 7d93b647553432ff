/-
Lagotto.Model.SourceClass — the classes under `app/models/sources` and the
defaults they override.

`Configurable` answers every setting with the stored one or a default, and
some classes replace the default. A table per setting lists the classes that
do; every other class has the default of `Configurable`.
-/
import Mathlib.Data.List.Basic

namespace Lagotto

/-- `sources.type`. -/
inductive SourceClass where
  | ads | adsFulltext | articleCoverage | articleCoverageCurated | biod | bitbucket | bloglines
  | bmcFulltext | citeulike | connotea | copernicus | counter | crossRef | datacite
  | dataciteData | dataoneCounter | dataoneUsage | europePmc | europePmcData
  | europePmcFulltext | f1000 | facebook | figshare | github | mendeley | nature
  | natureOpensearch | openedition | orcid | plosComments | plosFulltext | pmc | postgenomic
  | pubMed | reddit | relativeMetric | researchblogging | scienceSeeker | scopus | twitter
  | twitterSearch | wikipedia | wordpress | wos
  deriving DecidableEq, Repr

namespace SourceClass

/-- Seconds; `1.month` is thirty days. -/
def oneDay : Int := 86400

def oneMonth : Int := 2592000

/-- `(1.month * 0.25).to_i`. -/
def quarterMonth : Int := 648000

def timeout : SourceClass → Int
  | crossRef => 120
  | _ => 30

/-- Requests in one hour. -/
def rateLimiting : SourceClass → Int
  | ads | adsFulltext | openedition | scienceSeeker | wordpress => 1000
  | citeulike | researchblogging => 2000
  | reddit | twitterSearch => 1800
  | github | nature => 5000
  | natureOpensearch => 25000
  | bitbucket => 30000
  | _ => 200000

/-- Retrieval statuses in one job. -/
def jobBatchSize : SourceClass → Int
  | researchblogging | wikipedia => 50
  | reddit | twitterSearch | wordpress => 100
  | _ => 200

/-- The classes that let the configuration replace it. -/
def configuresBatchSize : SourceClass → Bool
  | reddit | researchblogging | twitterSearch | wikipedia | wordpress => true
  | _ => false

def stalenessYear : SourceClass → Int
  | nature | openedition | researchblogging | scienceSeeker => oneMonth
  | _ => quarterMonth

def stalenessAll : SourceClass → Int
  | twitterSearch => quarterMonth
  | _ => oneMonth

def cronLine : SourceClass → String
  | f1000 => "* 02 * * 1"
  | pmc => "0 5 9 * *"
  | _ => "* 4 * * *"

/-- The classes whose `obsolete?` no longer looks at the setting. -/
def isObsolete : SourceClass → Bool
  | biod | bloglines | connotea | postgenomic => true
  | _ => false

/-- What stands after the `||` in `tracked`. -/
def trackedDefault : SourceClass → Bool
  | dataciteData | nature | researchblogging | scienceSeeker => true
  | _ => false

end SourceClass

end Lagotto
