import GitEventsRunner.Lib.HashMap
import GitEventsRunner.Lib.SystemTime
import GitEventsRunner.Lib.Rfc3339
import GitEventsRunner.Lib.Numbers
import GitEventsRunner.Lib.Digest
import GitEventsRunner.Lib.Sha256
import GitEventsRunner.Lib.Path
import GitEventsRunner.Lib.NameTree
import GitEventsRunner.Lib.Disk
import GitEventsRunner.Lib.Percent
import GitEventsRunner.Lib.CommandLine
import GitEventsRunner.Lib.Regex
import GitEventsRunner.Lib.Dns
import GitEventsRunner.Lib.Serde
import GitEventsRunner.Lib.Overlay
import GitEventsRunner.Lib.Machine
import GitEventsRunner.Lib.EventLog
import GitEventsRunner.Lib.Program
import GitEventsRunner.Lib.Once
import GitEventsRunner.Lib.Surroundings
import GitEventsRunner.Jobs.Watch
import GitEventsRunner.Jobs.Queue
import GitEventsRunner.Jobs.Conservation
import GitEventsRunner.Jobs.Limit
import GitEventsRunner.Jobs.Wakeup
import GitEventsRunner.Jobs.Replicas
import GitEventsRunner.Triggers.Types
import GitEventsRunner.Triggers.StatusJson
import GitEventsRunner.Triggers.LastRun
import GitEventsRunner.Triggers.Reconcile
import GitEventsRunner.Triggers.LiveTasks
import GitEventsRunner.Triggers.Calls
import GitEventsRunner.Triggers.Finalizer
import GitEventsRunner.Triggers.Cleanup
import GitEventsRunner.Triggers.Attended
import GitEventsRunner.Triggers.Matching
import GitEventsRunner.Triggers.Resume
import GitEventsRunner.Triggers.Task
import GitEventsRunner.Triggers.Confinement
import GitEventsRunner.Triggers.Folders
import GitEventsRunner.Triggers.Running
import GitEventsRunner.Triggers.Records
import GitEventsRunner.Triggers.Once
import GitEventsRunner.Triggers.SoloRun
import GitEventsRunner.Triggers.Finding
import GitEventsRunner.Triggers.HashErrors
import GitEventsRunner.Triggers.FileHash
import GitEventsRunner.Triggers.Walk
import GitEventsRunner.Triggers.FileWatch
import GitEventsRunner.Triggers.StatusMerge
import GitEventsRunner.Repos.Fetch
import GitEventsRunner.Repos.UriSchema
import GitEventsRunner.Repos.Credentials
import GitEventsRunner.Repos.Commit
import GitEventsRunner.Actions.Job
import GitEventsRunner.Actions.Readings
import GitEventsRunner.Actions.Admissible
import GitEventsRunner.Actions.Labels
import GitEventsRunner.Actions.Deadlines
import GitEventsRunner.Actions.Cloner
import GitEventsRunner.Actions.Tenancy
import GitEventsRunner.Actions.Pipeline
import GitEventsRunner.Secrets.Cache
import GitEventsRunner.Secrets.Staleness
import GitEventsRunner.Web.Handlers
import GitEventsRunner.Web.Admission
import GitEventsRunner.Web.Grants
import GitEventsRunner.Web.Provenance
import GitEventsRunner.Web.Tokens
import GitEventsRunner.Web.Routes
import GitEventsRunner.Web.RateLimit
import GitEventsRunner.Web.PathKeys
import GitEventsRunner.Web.RateParams
import GitEventsRunner.Config.Runtime
import GitEventsRunner.Config.Watch
import GitEventsRunner.Leader.Loop
import GitEventsRunner.Leader.Election
