/-
Lagotto.Source.Configurable — settings of a source and its validations
(`app/models/concerns/configurable.rb`, `app/models/source.rb`).

A setting is the stored one or its class's default. `Source.errors` is what
`valid?` collects: presence of name and title, the seven numbers, the cron
line, and, in the states that count as active, the fields the class asks
for. The uniqueness of `name` is not checked again: no modelled save writes
that column, and `index_sources_on_name` holds it unique in the table.
-/
import Lagotto.Model.Schema

namespace Lagotto

namespace Source

/-! ## Settings -/

def timeout (s : Source) : Int := s.config.timeout.getD s.type.timeout

def maxFailedQueries (s : Source) : Int := s.config.maxFailedQueries.getD 200

/-- 24 hours. -/
def maxFailedQueryTimeInterval : Int := 86400

def rateLimiting (s : Source) : Int := s.config.rateLimiting.getD s.type.rateLimiting

/-- `job_batch_size`: only some classes look at the configuration. -/
def jobBatchSize (s : Source) : Int :=
  if s.type.configuresBatchSize then s.config.jobBatchSize.getD s.type.jobBatchSize
  else s.type.jobBatchSize

def stalenessWeek (s : Source) : Int := s.config.stalenessWeek.getD SourceClass.oneDay

def stalenessMonth (s : Source) : Int := s.config.stalenessMonth.getD SourceClass.oneDay

def stalenessYear (s : Source) : Int := s.config.stalenessYear.getD s.type.stalenessYear

def stalenessAll (s : Source) : Int := s.config.stalenessAll.getD s.type.stalenessAll

def cronLine (s : Source) : String := s.config.cronLine.getD s.type.cronLine

/-- `config.tracked || false`, with `true` in place of `false` in some classes. -/
def tracked (s : Source) : Value := s.config.tracked.orElse (.bool s.type.trackedDefault)

/-- `tracked=`: the value is stored as it comes in. -/
def setTracked (s : Source) (value : Value) : Source :=
  { s with config := { s.config with tracked := value } }

/-- `obsolete?`. -/
def obsolete (s : Source) : Bool := s.type.isObsolete || s.config.obsolete.truthy

/-! ## Validations -/

/-- `BLANK_FIELDS`. -/
def allowedBlankFields (s : Source) : List String :=
  match s.name with
  | "crossref" => ["username", "password", "openurl_username"]
  | "pmc" => ["journals", "username", "password"]
  | "facebook" => ["client_id", "client_secret", "url_linkstat", "access_token"]
  | "mendeley" => ["access_token"]
  | "twitter_search" => ["access_token"]
  | "scopus" => ["insttoken"]
  | _ => []

/-- `validate_config_fields`. -/
def validateConfigFields (s : Source) : List (String × String) :=
  (s.config.fields.filter
    (fun field => !s.allowedBlankFields.contains field.1 && field.2.isBlank)).map
      (fun field => (field.1, "can't be blank"))

/-- `presence: true`. -/
def validatePresence (field value : String) : List (String × String) :=
  if blank value then [(field, "can't be blank")] else []

/-- `numericality: { only_integer: true, greater_than: 0 }`: the setters have
already made an integer of the value. -/
def validatePositive (field : String) (value : Int) : List (String × String) :=
  if 0 < value then [] else [(field, "must be greater than 0")]

/-- `validate_cron_line_format`; `validCron` is what `CronParser` accepts. -/
def validateCronLineFormat (validCron : String → Bool) (s : Source) : List (String × String) :=
  if !blank s.cronLine && !validCron s.cronLine then
    [("cron_line", "is not a valid crontab entry")]
  else
    []

/-- `errors` after `valid?`. -/
def errors (validCron : String → Bool) (s : Source) : List (String × String) :=
  validatePresence "name" s.name ++
  validatePresence "title" s.title ++
  validatePositive "timeout" s.timeout ++
  validatePositive "max_failed_queries" s.maxFailedQueries ++
  validatePositive "rate_limiting" s.rateLimiting ++
  validatePositive "staleness_week" s.stalenessWeek ++
  validatePositive "staleness_month" s.stalenessMonth ++
  validatePositive "staleness_year" s.stalenessYear ++
  validatePositive "staleness_all" s.stalenessAll ++
  s.validateCronLineFormat validCron ++
  (if s.state.active then s.validateConfigFields else [])

/-- A source that is valid in some active state is valid in every state. -/
theorem errors_eq_nil_of_active {validCron : String → Bool} {s : Source} {state : SourceState}
    (hactive : state.active = true)
    (h : ({ s with state := state } : Source).errors validCron = []) (dest : SourceState) :
    ({ s with state := dest } : Source).errors validCron = [] := by
  unfold errors at h ⊢
  rw [hactive, if_pos rfl] at h
  obtain ⟨hbase, hfields⟩ := List.append_eq_nil_iff.mp h
  refine List.append_eq_nil_iff.mpr ⟨hbase, ?_⟩
  split
  · exact hfields
  · rfl

end Source

end Lagotto
