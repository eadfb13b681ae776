import Sumidero.Cache.Contents
import Sumidero.Cache.Lifetimes
import Sumidero.Cache.Lookup
import Sumidero.Cache.Operations
import Sumidero.Cache.RecencyList
import Sumidero.Cache.Refinement
import Sumidero.Cache.Represents
import Sumidero.Cache.Slots
import Sumidero.Cli.Explain
import Sumidero.Cli.Migrate
import Sumidero.Cli.Migrated
import Sumidero.Cli.Names
import Sumidero.Cli.Status
import Sumidero.Config
import Sumidero.Config.Validate
import Sumidero.Daemon.Installed
import Sumidero.Daemon.LatestReload
import Sumidero.Daemon.Refresher
import Sumidero.Daemon.ReloadAck
import Sumidero.Daemon.Report
import Sumidero.Daemon.Samples
import Sumidero.Daemon.Shutdown
import Sumidero.Daemon.Transitions
import Sumidero.Daemon.Visible
import Sumidero.Data.Checks
import Sumidero.Data.Fields
import Sumidero.Data.Frames
import Sumidero.Data.Glob
import Sumidero.Data.Linked
import Sumidero.Data.Programs
import Sumidero.Data.Ranking
import Sumidero.Data.Recency
import Sumidero.Data.Runs
import Sumidero.Data.Search
import Sumidero.Data.Shares
import Sumidero.Data.Shelving
import Sumidero.Db.Audit
import Sumidero.Db.Flushing
import Sumidero.Db.Moves
import Sumidero.Db.Reading
import Sumidero.Db.Retention
import Sumidero.Db.Rows
import Sumidero.Db.Schema
import Sumidero.Db.Upgrade
import Sumidero.Db.Writer
import Sumidero.Dns.Message
import Sumidero.Filter.Building
import Sumidero.Filter.Compiled
import Sumidero.Filter.Engine
import Sumidero.Filter.Forms
import Sumidero.Filter.Grammar
import Sumidero.Filter.Joined
import Sumidero.Filter.KeyIndex
import Sumidero.Filter.Multimap
import Sumidero.Filter.Parse
import Sumidero.Filter.Quoted
import Sumidero.Filter.Reference
import Sumidero.Filter.Searched
import Sumidero.Filter.Searching
import Sumidero.Filter.Spelled
import Sumidero.Filter.Stored
import Sumidero.Filter.Total
import Sumidero.Filter.Wildcard
import Sumidero.Lists.Disk
import Sumidero.Lists.Fetch
import Sumidero.Lists.LastGood
import Sumidero.Lists.Load
import Sumidero.Lists.Markup
import Sumidero.Lists.Offline
import Sumidero.Lists.Response
import Sumidero.Lists.Vouched
import Sumidero.Net.Display
import Sumidero.Net.IpAddr
import Sumidero.Net.SocketAddr
import Sumidero.Server.Addressed
import Sumidero.Server.Admission
import Sumidero.Server.Answers
import Sumidero.Server.Cloaking
import Sumidero.Server.Enforcement
import Sumidero.Server.Failures
import Sumidero.Server.FastPath
import Sumidero.Server.Flight
import Sumidero.Server.FlightMoves
import Sumidero.Server.Forwarding
import Sumidero.Server.HoldDown
import Sumidero.Server.Pipeline
import Sumidero.Server.SafeSearch
import Sumidero.Server.Shadow
import Sumidero.Server.SingleFlight
import Sumidero.Server.Sockets
import Sumidero.Server.Streaks
import Sumidero.Server.Superseded
import Sumidero.Text
import Sumidero.Time
import Sumidero.Upstream.Bootstrap
import Sumidero.Upstream.Builds
import Sumidero.Upstream.Connection
import Sumidero.Upstream.Pacing
import Sumidero.Upstream.Probation
import Sumidero.Upstream.Race
import Sumidero.Upstream.Sending
import Sumidero.Upstream.Startup
import Sumidero.Upstream.Waiting
