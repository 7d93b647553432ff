import Lagotto.Relational.Table
import Lagotto.Model.Schema
import Lagotto.Retrieval.Periods
import Lagotto.Retrieval.PeriodsTheorems
import Lagotto.Source.Configurable
import Lagotto.StateMachine.Guarded
import Lagotto.Source.Statable
import Lagotto.Source.StatableTheorems
import Lagotto.Jobs.DeleteEventJob
import Lagotto.Text.Includes
import Lagotto.Work.Attributes
import Lagotto.Work.Validation
import Lagotto.Work.FindOrCreate
import Lagotto.Work.FindOrCreateTheorems
import Lagotto.Work.ValidationTheorems
import Lagotto.Work.RepeatTheorems
import Lagotto.Work.IdempotenceTheorems
import Lagotto.Retrieval.UpdateWorks
import Lagotto.Retrieval.UpdateWorksTheorems
import Lagotto.Retrieval.IdentifiersTheorems
import Lagotto.Interaction.Program
import Lagotto.Retrieval.Networkable
import Lagotto.Retrieval.PerformGetData
import Lagotto.Source.Adapter
import Lagotto.Source.Wos
import Lagotto.Source.Wikipedia
import Lagotto.Retrieval.PerformGetDataTheorems
import Lagotto.Source.AdapterTheorems
import Lagotto.Interaction.Batch
import Lagotto.Jobs.SourceJob
import Lagotto.Jobs.SourceJobTheorems
import Lagotto.Source.Queueing
import Lagotto.Jobs.Application
import Lagotto.Jobs.ApplicationTheorems
import Lagotto.Source.QueueingTheorems
import Lagotto.Jobs.ExclusivityTheorems
import Lagotto.Jobs.StoredStateTheorems
import Lagotto.Jobs.BatchTheorems
import Lagotto.Work.RelationsTheorems
import Lagotto.Retrieval.FailureTheorems
import Lagotto.Source.RateLimits
import Lagotto.Source.RateLimitsTheorems
import Lagotto.Jobs.RateLimiter
import Lagotto.Jobs.RateLimiterTheorems
import Lagotto.Export.ApiSnapshot
import Lagotto.Export.ProgressTheorems
import Lagotto.Export.AttemptTheorems
import Lagotto.Export.ChainTheorems
import Lagotto.Export.RecoveryTheorems
import Lagotto.Export.IsolationTheorems
import Lagotto.StateMachine.CheckThenAct
import Lagotto.Work.RelationTypes
import Lagotto.Jobs.DuplicateRowsTheorems
import Lagotto.Source.Coverage
import Lagotto.Source.CoverageTheorems
import Lagotto.Text.PercentEncoding
import Lagotto.Work.IdHash
import Lagotto.Work.IdHashTheorems
import Lagotto.Work.PidTheorems
import Lagotto.Api.Site
import Lagotto.Relational.Pages
import Lagotto.Api.Works
import Lagotto.Api.Responses
import Lagotto.Api.TotalsTheorems
import Lagotto.Api.Confidentiality
import Lagotto.Api.ConfidentialityTheorems
import Lagotto.Api.LeakTheorems
import Lagotto.Interaction.Trace
import Lagotto.Source.Paging
import Lagotto.Source.PagingTheorems
import Lagotto.Source.WikipediaTheorems
import Lagotto.Filter.ApiResponse
import Lagotto.Filter.Run
import Lagotto.Filter.AlertTheorems
import Lagotto.Filter.RunTheorems
import Lagotto.Source.Caching
import Lagotto.Source.CachingTheorems
import Lagotto.Export.StateTheorems
import Lagotto.Export.VersionTheorems
import Lagotto.Jobs.Notifications
import Lagotto.Jobs.NotificationsTheorems
import Lagotto.Import.Requests
import Lagotto.Import.RequestsTheorems
import Lagotto.Import.Records
import Lagotto.Import.RecordsTheorems
import Lagotto.Work.Dates
import Lagotto.Work.DatesTheorems
import Lagotto.Import.DatesTheorems
import Lagotto.Import.Datacite
import Lagotto.Import.DataciteTheorems
import Lagotto.Documents.Latest
import Lagotto.Documents.Store
import Lagotto.Source.Couchable
import Lagotto.Source.Pmc
import Lagotto.Source.PmcTheorems
import Lagotto.Source.F1000
import Lagotto.Source.F1000Theorems
import Lagotto.Source.TwitterSearch
import Lagotto.Source.TwitterSearchTheorems
import Lagotto.Relational.OrderedHash
import Lagotto.Report.LineItems
import Lagotto.Report.CombinedTheorems
import Lagotto.Relational.Groups
import Lagotto.Report.ByMonth
import Lagotto.Report.ByMonthTheorems
import Lagotto.Export.TempfileTheorems
import Lagotto.Calendars.Days
import Lagotto.Model.Dateable
import Lagotto.Source.Usage
import Lagotto.Source.UsageTheorems
import Lagotto.Source.EventsTheorems
import Lagotto.Filter.MilestoneTheorems
import Lagotto.Work.SpellingTheorems
import Lagotto.Work.LinkTheorems
import Lagotto.Interaction.Embedding
import Lagotto.Jobs.Cron
import Lagotto.Jobs.CronTheorems
import Lagotto.Jobs.TimetableTheorems
import Lagotto.Work.WellKeptTheorems
