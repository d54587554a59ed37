import ShishiTodo.Lib.Table
import ShishiTodo.Lib.Except
import ShishiTodo.Lib.Machine
import ShishiTodo.Lib.Span
import ShishiTodo.Lib.Sorted
import ShishiTodo.Lib.Numbering
import ShishiTodo.Lib.ChangeFeed
import ShishiTodo.Lib.Keyset
import ShishiTodo.Lib.Versions
import ShishiTodo.Lib.Journal
import ShishiTodo.Lib.Owned
import ShishiTodo.Lib.Durably
import ShishiTodo.Lib.Loop
import ShishiTodo.Lib.Chars
import ShishiTodo.Json
import ShishiTodo.Domain
import ShishiTodo.Codecs
import ShishiTodo.Server.Mutation
import ShishiTodo.Server.Entities
import ShishiTodo.Server.Sync
import ShishiTodo.Server.Runs
import ShishiTodo.Server.Outcome
import ShishiTodo.Server.ExactlyOnce
import ShishiTodo.Server.ColumnTypes
import ShishiTodo.Server.Fitting
import ShishiTodo.Server.Unpoisoned
import ShishiTodo.Server.Retention
import ShishiTodo.Server.LogTip
import ShishiTodo.Server.EntityOutcome
import ShishiTodo.Server.Columns
import ShishiTodo.Server.ChangeLog
import ShishiTodo.Server.Bootstrap
import ShishiTodo.Server.Snapshot
import ShishiTodo.Server.Tombstones
import ShishiTodo.Server.Tenants
import ShishiTodo.Server.Isolation
import ShishiTodo.Server.Tags
import ShishiTodo.Sync.Transport
import ShishiTodo.Sync.Engine
import ShishiTodo.Sync.Answers
import ShishiTodo.Sync.Passages
import ShishiTodo.Sync.Deliveries
import ShishiTodo.Shared.Server
import ShishiTodo.Shared.Engine
import ShishiTodo.Shared.Session
import ShishiTodo.Shared.Versions
import ShishiTodo.Shared.Revisions
import ShishiTodo.Shared.Copies
import ShishiTodo.Shared.Shadow
import ShishiTodo.Shared.Memberships
import ShishiTodo.Shared.Ownership
import ShishiTodo.Shared.Repeats
import ShishiTodo.Native.Models
import ShishiTodo.Native.Tables
import ShishiTodo.Native.Store
import ShishiTodo.Native.Projection
import ShishiTodo.Native.Upsert
import ShishiTodo.Native.Agreement
import ShishiTodo.Native.Runs
import ShishiTodo.Native.Explained
import ShishiTodo.Native.Reproject
import ShishiTodo.Native.Sync
import ShishiTodo.Native.ServerResult
import ShishiTodo.Native.Members
import ShishiTodo.Native.LiveLists
import ShishiTodo.Native.Snapshots
import ShishiTodo.Native.Rebase
import ShishiTodo.Native.Merge
import ShishiTodo.Web.Merge
import ShishiTodo.Web.Agreement
import ShishiTodo.Web.Outbox
import ShishiTodo.Web.Rounds
import ShishiTodo.Web.Sequences
import ShishiTodo.Web.Swallowed
import ShishiTodo.Native.Ranks
import ShishiTodo.Web.Ranks
import ShishiTodo.Accounts.Files
import ShishiTodo.Accounts.Registry
import ShishiTodo.Accounts.Disk
import ShishiTodo.Accounts.Switch
import ShishiTodo.Accounts.SwitchRuns
import ShishiTodo.Accounts.SwitchSafety
import ShishiTodo.Accounts.SwitchAvailability
import ShishiTodo.Accounts.Migration
import ShishiTodo.Accounts.Loading
import ShishiTodo.Accounts.RegistryRuns
import ShishiTodo.Accounts.FreshInstallation
import ShishiTodo.Accounts.LegacyTarget
import ShishiTodo.Accounts.LegacyMigration
import ShishiTodo.Accounts.MigrationRuns
import ShishiTodo.Accounts.Gate
import ShishiTodo.Notifications.Delivery
import ShishiTodo.Notifications.Sections
import ShishiTodo.Notifications.Slots
import ShishiTodo.Notifications.Accounting
import ShishiTodo.Notifications.Commits
import ShishiTodo.Notifications.Callers
import ShishiTodo.Notifications.Safety
import ShishiTodo.Auth.Tables
import ShishiTodo.Auth.Routes
import ShishiTodo.Auth.Runs
import ShishiTodo.Auth.Sessions
import ShishiTodo.Auth.Rotation
import ShishiTodo.Auth.Codes
import ShishiTodo.Cloud.Controller
import ShishiTodo.Cloud.Fence
import ShishiTodo.Recurring.Dates
import ShishiTodo.Recurring.Rules
import ShishiTodo.Recurring.Calendar
import ShishiTodo.Recurring.DateTexts
import ShishiTodo.Recurring.Searches
import ShishiTodo.Recurring.Advance
import ShishiTodo.Recurring.Skips
import ShishiTodo.Recurring.Service
import ShishiTodo.Recurring.Household
import ShishiTodo.Recurring.Marks
import ShishiTodo.Recurring.Copies
import ShishiTodo.Recurring.Replies
import ShishiTodo.Recurring.Account
import ShishiTodo.Recurring.Identity
import ShishiTodo.Recurring.Occurrences
import ShishiTodo.Recurring.Uniqueness
import ShishiTodo.Zones.Conversions
import ShishiTodo.Zones.RoundTrip
import ShishiTodo.Tasks.NaturalDate
import ShishiTodo.Tasks.DueDates
import ShishiTodo.Navigation.Navigator
import ShishiTodo.Navigation.Transactions
import ShishiTodo.Lib.Window
import ShishiTodo.Notifications.Endings
import ShishiTodo.Notifications.Notices
import ShishiTodo.Lib.Spelling
import ShishiTodo.Sync.Timestamps
import ShishiTodo.Lib.Exchange
import ShishiTodo.Native.Queries
import ShishiTodo.Native.Counts
import ShishiTodo.Native.Reorder
import ShishiTodo.Web.Reorder
import ShishiTodo.Native.Bundles
import ShishiTodo.Native.Operations
import ShishiTodo.Native.Backup
import ShishiTodo.Native.Tidied
import ShishiTodo.Native.BackupRuns
import ShishiTodo.Lib.Refusals
import ShishiTodo.Shared.Rebase
import ShishiTodo.Shared.Settling
import ShishiTodo.Sync.Names
import ShishiTodo.Native.Emissions
import ShishiTodo.Web.Operations
import ShishiTodo.Web.Emissions
import ShishiTodo.Lib.Slots
import ShishiTodo.Native.Rejected
import ShishiTodo.Web.Reproject
import ShishiTodo.Web.Rejected
import ShishiTodo.JsText
import ShishiTodo.Lib.OrderedMap
import ShishiTodo.Lib.Delimited
import ShishiTodo.Reminders.Reconcile
import ShishiTodo.Reminders.Calls
import ShishiTodo.Notifications.ActionIds
import ShishiTodo.Lib.Runs
import ShishiTodo.Lib.Firsts
import ShishiTodo.Tasks.Fields
import ShishiTodo.Accounts.LegacyTokens
import ShishiTodo.Lib.Markers
import ShishiTodo.Export.ICalendar
import ShishiTodo.Export.Escapes
import ShishiTodo.Export.Lines
import ShishiTodo.Export.Events
import ShishiTodo.Export.Values
import ShishiTodo.Export.EventLines
import ShishiTodo.Export.EventBlocks
import ShishiTodo.Export.RoundTrip
import ShishiTodo.Lib.Base64
import ShishiTodo.Auth.Continuation
import ShishiTodo.Tasks.QuickAdd
import ShishiTodo.Web.Service
import ShishiTodo.Web.Series
import ShishiTodo.Push.Steps
import ShishiTodo.Push.Leased
import ShishiTodo.Push.Recipients
import ShishiTodo.Push.Ticks
import ShishiTodo.Push.Endpoints
import ShishiTodo.Native.Edits
import ShishiTodo.Native.Replicas
