import MomBot.Cooperative.Coroutine
import MomBot.Cooperative.Dialogue
import MomBot.Cooperative.Handlers
import MomBot.Cooperative.Abort
import MomBot.Cooperative.Lock
import MomBot.Cooperative.Guarded
import MomBot.Cooperative.Serial
import MomBot.Cooperative.Interleave
import MomBot.Cooperative.Interference
import MomBot.Cooperative.Watch
import MomBot.Cooperative.Keeping
import MomBot.Cooperative.Logs
import MomBot.Cooperative.Pending
import MomBot.Discord
import MomBot.Python.Int
import MomBot.Python.Raise
import MomBot.Python.Decimal
import MomBot.Python.Json
import MomBot.Python.Datetime
import MomBot.Python.Dict
import MomBot.Python.Timestamp
import MomBot.Python.Months
import MomBot.Python.Isoformat
import MomBot.Roles.World
import MomBot.Roles.Service
import MomBot.Roles.Spec
import MomBot.Roles.Report
import MomBot.Roles.OneDayRole
import MomBot.Settling
import MomBot.History
import MomBot.Health.Progress
import MomBot.Roles.Seed
import MomBot.Sidecar.RoleSync
import MomBot.Sidecar.Handling
import MomBot.Sidecar.Redelivery
import MomBot.Sidecar.Convergence
import MomBot.Sidecar.Truthful
import MomBot.Sidecar.Serialization
import MomBot.Sidecar.Staleness
import MomBot.Sidecar.SelfHealing
import MomBot.Sidecar.Endpoint
import MomBot.Sidecar.Auth
import MomBot.MemberNotifications.Schedule
import MomBot.MemberNotifications.Occurrences
import MomBot.Reminders.Calendar
import MomBot.Reminders.Store
import MomBot.Reminders.Scheduler
import MomBot.Reminders.TickRules
import MomBot.MemberNotifications.Service
import MomBot.MemberNotifications.StoreContract
import MomBot.MemberNotifications.Snowflake
import MomBot.MemberNotifications.Commands
import MomBot.MemberNotifications.Backends
import MomBot.Reminders.AtMostOnce
import MomBot.Reminders.Suppression
import MomBot.Reminders.Reappearance
import MomBot.Reminders.HealthyTick
import MomBot.Reminders.MissedSlot
import MomBot.Reminders.Outcomes
import MomBot.Reminders.StaleDms
import MomBot.Reminders.Seed
import MomBot.Reminders.CalendarSpec
import MomBot.Reminders.SeedPaths
import MomBot.PostConditions.Client
import MomBot.PostConditions.Backoff
import MomBot.PostConditions.GridLayout
import MomBot.PostConditions.Views
import MomBot.PostConditions.Editing
import MomBot.PostConditions.Success
import MomBot.PostConditions.CatalogCalls
import MomBot.PostConditions.SingleFlight
import MomBot.PostConditions.Pagination
import MomBot.PostConditions.Embed
import MomBot.MemberActivity.Service
import MomBot.MemberActivity.Scheduler
import MomBot.MemberActivity.KickSafety
import MomBot.MemberActivity.Cleanup
import MomBot.MemberActivity.Fallible
import MomBot.MemberActivity.Isolation
import MomBot.NewMemberAlerts.Service
import MomBot.NewMemberAlerts.MemberJoin
import MomBot.NewMemberAlerts.JoinIsolation
import MomBot.MemberNotifications.Replies
import MomBot.Cooperative.Embedding
import MomBot.MemberNotifications.Officers
import MomBot.MemberNotifications.OfficerRuns
import MomBot.MemberNotifications.ShownTexts
import MomBot.MemberNotifications.Told
import MomBot.Cooperative.Begun
import MomBot.Health.Loops
import MomBot.Health.Schedulers
import MomBot.MemberActivity.Ledger
import MomBot.Health.Probe
import MomBot.Roles.Hierarchy
import MomBot.Startup.Bot
import MomBot.Startup.Stages
import MomBot.Startup.Lifecycle
import MomBot.Memo
import MomBot.Config.Secrets
import MomBot.NewMemberAlerts.Subscribers
import MomBot.Cooperative.Raising
import MomBot.NewMemberAlerts.Alerts
import MomBot.NewMemberAlerts.Cleared
import MomBot.Sidecar.Proxies
import MomBot.Sidecar.Deliveries
import MomBot.Roles.Sightings
import MomBot.PostConditions.Commands
import MomBot.PostConditions.Sessions
import MomBot.PostConditions.SessionRuns
