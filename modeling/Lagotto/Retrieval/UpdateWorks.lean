/-
Lagotto.Retrieval.UpdateWorks — `update_works`
(`app/models/retrieval_status.rb`).

Every item is turned into parameters with the same thirteen keys, whether the
item has a value for them or not, and handed to `find_or_create`. The method
then asks what comes back for its pid: a new work makes that an array, and
the method ends with the exception.
-/
import Lagotto.Source.RelatedWorks
import Lagotto.Work.FindOrCreate

namespace Lagotto

namespace Item

/-- The hash under `csl:`. -/
def csl (item : Item) : Value :=
  .hash
    [(.str "author", item.author), (.str "container-title", item.containerTitle),
     (.str "volume", item.volume), (.str "page", item.page), (.str "issue", item.issue)]

/-- The parameters for `find_or_create`: what an item does not have is nil
under its key. There is no key for an ark. -/
def params (env : Env) (db : Db) (item : Item) : Params where
  col := fun
    | .doi => some item.doi
    | .pmid => some item.pmid
    | .pmcid => some item.pmcid
    | .arxiv => some item.arxiv
    | .canonicalUrl => some item.url
    | _ => none
  title := some item.title
  year := some item.dateParts[0]?
  month := some item.dateParts[1]?
  day := some item.dateParts[2]?
  workTypeId := some ((db.workTypes.first (fun t => env.same (some t.name) item.type)).map (·.id))
  csl := some item.csl
  tracked := some item.tracked
  relatedWorks := item.relatedWorks

end Item

/-- `w.pid` on the array of a new work; the message goes on with the array. -/
def noPid : Raised := ⟨"NoMethodError", "undefined method `pid'"⟩

/-- `update_works`. The pids it collects are not used by its caller. -/
def updateWorks (env : Env) : List Item → Db → Except Raised Unit × Db
  | [], db => (.ok (), db)
  | item :: items, db =>
    match findOrCreate env (item.params env db) db with
    | (.error e, db) => (.error e, db)
    | (.ok .array, db) => (.error noPid, db)
    | (.ok _, db) => updateWorks env items db

/-! ## Runs -/

/-- The `find_or_create` calls of one `update_works`, each with the database it
finds: the call that raises is the last. -/
def updateWorksFinds (env : Env) : List Item → Db → List (Item × Db)
  | [], _ => []
  | item :: items, db =>
    (item, db) ::
      match findOrCreate env (item.params env db) db with
      | (.error _, _) => []
      | (.ok .array, _) => []
      | (.ok _, db) => updateWorksFinds env items db

/-- A sequence of `update_works` calls. What a call has stored before it
raises stays stored. -/
def updateWorksRun (env : Env) : List (List Item) → Db → Db
  | [], db => db
  | items :: calls, db => updateWorksRun env calls (updateWorks env items db).2

def updateWorksRunFinds (env : Env) : List (List Item) → Db → List (Item × Db)
  | [], _ => []
  | items :: calls, db =>
    updateWorksFinds env items db ++ updateWorksRunFinds env calls (updateWorks env items db).2

end Lagotto
