import Subdux.Lib.Gregorian
import Subdux.Lib.GoStrings
import Subdux.Lib.Loop
import Subdux.Time
import Subdux.Subscription
import Subdux.Recurrence
import Subdux.Rollover
import Subdux.Lifecycle
import Subdux.Dashboard
import Subdux.Lib.Rows
import Subdux.Lib.Runs
import Subdux.Outbox
import Subdux.OutboxRuns
import Subdux.Lib.Binary64
import Subdux.Scheduler
import Subdux.Deliverable
import Subdux.Dispatch
import Subdux.Billing
import Subdux.Crud
import Subdux.Import
import Subdux.Lib.Results
import Subdux.Lib.Words
import Subdux.Lib.Fuel
import Subdux.WellFormed
import Subdux.Writers
import Subdux.RowRuns
import Subdux.WordTime
import Subdux.WordForecast
import Subdux.Lib.ContentLines
import Subdux.Lib.RecurrenceRules
import Subdux.Calendar
import Subdux.CalendarForecast
import Subdux.Lib.JsonText
import Subdux.McpWrites
import Subdux.McpWriteRuns
import Subdux.Lib.Upserts
import Subdux.ImportSubdux
import Subdux.ImportLoops
import Subdux.ImportPreview
import Subdux.ImportAgain
import Subdux.ImportLinks
import Subdux.ImportStored
import Subdux.ExportImport
import Subdux.ChannelReminders
import Subdux.Attempts
import Subdux.ReminderHistory
import Subdux.Lib.Rotation
import Subdux.Sessions
import Subdux.RefreshChains
import Subdux.Accounts
import Subdux.VerificationCodes
import Subdux.Lib.IPAddresses
import Subdux.Outbound
import Subdux.Lib.Paths
import Subdux.Lib.Disk
import Subdux.IconFiles
import Subdux.AssetRestore
import Subdux.Lib.SqlText
import Subdux.Lib.Histories
import Subdux.PriceHistory
import Subdux.Lib.Leases
import Subdux.TaskLeases
import Subdux.Lib.Base64
import Subdux.ReauthTickets
import Subdux.BackupCodes
import Subdux.Lib.Overwrites
import Subdux.RateCache
import Subdux.ChannelLimit
import Subdux.ImportWallos
import Subdux.WallosSchedules
import Subdux.LegacyEnabled
import Subdux.BillingSchedule
import Subdux.DayDistance
import Subdux.BackupSchedule
import Subdux.ScheduledBackups
import Subdux.BackupRuns
import Subdux.Lib.JsonMaps
import Subdux.ChannelConfig
import Subdux.ChannelSecrets
import Subdux.ChannelMerge
import Subdux.Lib.MailHeaders
import Subdux.SmtpMessages
import Subdux.TotpSetup
import Subdux.Lib.Statements
import Subdux.AuthCalls
import Subdux.Lib.Tally
import Subdux.AnalyticsReport
import Subdux.WordReport
import Subdux.DetailCharges
import Subdux.Lib.Substrings
import Subdux.Templates
import Subdux.Lib.AddressText
import Subdux.Lib.SortedKeys
import Subdux.IPFilterLists
import Subdux.ActionCenter
import Subdux.ActionSnoozes
import Subdux.Lib.FixedWindow
import Subdux.RateLimits
import Subdux.Lib.LittleEndian
import Subdux.IcoFiles
import Subdux.RestoreQuota
import Subdux.Lib.ZipFormat
import Subdux.ZipEncryption
import Subdux.Lib.OpenFiles
import Subdux.BackupDownloads
import Subdux.DownloadFiles
import Subdux.PasswordChanges
import Subdux.Lib.SingleUse
import Subdux.OidcSessions
import Subdux.OidcCallbacks
import Subdux.StepUp
import Subdux.ApiKeys
import Subdux.ApiKeyRequests
import Subdux.DetailCache
import Subdux.Lib.Restarts
import Subdux.SchemaMigrations
import Subdux.MigrationRestarts
import Subdux.Lib.Tenants
import Subdux.Lib.OwnedTables
import Subdux.TenantTables
import Subdux.TenantStatements
import Subdux.TenantRequests
