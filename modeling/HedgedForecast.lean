import HedgedForecast.Cache.Basic
import HedgedForecast.Cache.Calls
import HedgedForecast.Cache.Flights
import HedgedForecast.Cache.Policy
import HedgedForecast.Cache.Slots
import HedgedForecast.Cache.Workload
import HedgedForecast.Calendar.Date
import HedgedForecast.Calendar.Moment
import HedgedForecast.Cli.Arguments
import HedgedForecast.Cli.Run
import HedgedForecast.Clock.Board
import HedgedForecast.Clock.Deadline
import HedgedForecast.Clock.Guard
import HedgedForecast.Clock.Scope
import HedgedForecast.Clock.Simulation
import HedgedForecast.Condition
import HedgedForecast.Coordinates
import HedgedForecast.Country
import HedgedForecast.Data.Basic
import HedgedForecast.Data.Fields
import HedgedForecast.Day
import HedgedForecast.Decimal.Layout
import HedgedForecast.Decimal.Shortest
import HedgedForecast.Disk
import HedgedForecast.Failure
import HedgedForecast.Hedge.Fetch
import HedgedForecast.Hedge.Hedger
import HedgedForecast.Json.Numeral
import HedgedForecast.Json.Reader
import HedgedForecast.Json.Writer
import HedgedForecast.Main
import HedgedForecast.Proofs.Blanks
import HedgedForecast.Proofs.Cache.Attendance
import HedgedForecast.Proofs.Cache.Begins
import HedgedForecast.Proofs.Cache.Blame
import HedgedForecast.Proofs.Cache.Capacity
import HedgedForecast.Proofs.Cache.Changes
import HedgedForecast.Proofs.Cache.Commits
import HedgedForecast.Proofs.Cache.Counts
import HedgedForecast.Proofs.Cache.DeadCalls
import HedgedForecast.Proofs.Cache.EagerPoints
import HedgedForecast.Proofs.Cache.EagerRefresh
import HedgedForecast.Proofs.Cache.FailSafe
import HedgedForecast.Proofs.Cache.Failures
import HedgedForecast.Proofs.Cache.Footprints
import HedgedForecast.Proofs.Cache.History
import HedgedForecast.Proofs.Cache.Isolation
import HedgedForecast.Proofs.Cache.Keys
import HedgedForecast.Proofs.Cache.Landings
import HedgedForecast.Proofs.Cache.Launches
import HedgedForecast.Proofs.Cache.MirroredEvents
import HedgedForecast.Proofs.Cache.Mirrors
import HedgedForecast.Proofs.Cache.Moves
import HedgedForecast.Proofs.Cache.Pace
import HedgedForecast.Proofs.Cache.Places
import HedgedForecast.Proofs.Cache.Provenance
import HedgedForecast.Proofs.Cache.ReadOrder
import HedgedForecast.Proofs.Cache.Recency
import HedgedForecast.Proofs.Cache.Recovery
import HedgedForecast.Proofs.Cache.Retention
import HedgedForecast.Proofs.Cache.Runs
import HedgedForecast.Proofs.Cache.Scenarios
import HedgedForecast.Proofs.Cache.SingleFlight
import HedgedForecast.Proofs.Cache.SlotUse
import HedgedForecast.Proofs.Cache.StaleValues
import HedgedForecast.Proofs.Cache.Throttle
import HedgedForecast.Proofs.Cache.Timeliness
import HedgedForecast.Proofs.Cache.Totals
import HedgedForecast.Proofs.Cache.Waiters
import HedgedForecast.Proofs.Clock.Forest
import HedgedForecast.Proofs.Clock.Guarding
import HedgedForecast.Proofs.Countries
import HedgedForecast.Proofs.Dates
import HedgedForecast.Proofs.Days
import HedgedForecast.Proofs.Disk
import HedgedForecast.Proofs.Double.Arithmetic
import HedgedForecast.Proofs.Double.Bits
import HedgedForecast.Proofs.Double.Order
import HedgedForecast.Proofs.Double.Rounding
import HedgedForecast.Proofs.Double.Shortest
import HedgedForecast.Proofs.Hedge.Answers
import HedgedForecast.Proofs.Hedge.AtOnce
import HedgedForecast.Proofs.Hedge.Decision
import HedgedForecast.Proofs.Hedge.Exhaustion
import HedgedForecast.Proofs.Hedge.Keeping
import HedgedForecast.Proofs.Hedge.Ledger
import HedgedForecast.Proofs.Hedge.Reaping
import HedgedForecast.Proofs.Hedge.Stories
import HedgedForecast.Proofs.Hedge.TimedStarts
import HedgedForecast.Proofs.Hedge.Timer
import HedgedForecast.Proofs.Hedge.Tracking
import HedgedForecast.Proofs.Hedge.Walk
import HedgedForecast.Proofs.Json.Documents
import HedgedForecast.Proofs.Json.Doubles
import HedgedForecast.Proofs.Json.ForecastDays
import HedgedForecast.Proofs.Json.Numbers
import HedgedForecast.Proofs.Json.Survival
import HedgedForecast.Proofs.Json.Texts
import HedgedForecast.Proofs.Json.Values
import HedgedForecast.Proofs.Provider.Columns
import HedgedForecast.Proofs.Provider.Failures
import HedgedForecast.Proofs.Provider.Usable
import HedgedForecast.Proofs.Publisher.Ledger
import HedgedForecast.Proofs.Publisher.Order
import HedgedForecast.Proofs.Publisher.Runs
import HedgedForecast.Proofs.Requests
import HedgedForecast.Proofs.Selection
import HedgedForecast.Proofs.Service.Blame
import HedgedForecast.Proofs.Service.DeadCallers
import HedgedForecast.Proofs.Service.FirstLookup
import HedgedForecast.Proofs.Service.HedgingWarning
import HedgedForecast.Proofs.Service.Load
import HedgedForecast.Proofs.Service.Runs
import HedgedForecast.Proofs.Service.Scenarios
import HedgedForecast.Proofs.Service.Served
import HedgedForecast.Proofs.Service.SideChannel
import HedgedForecast.Proofs.Service.StaleValues
import HedgedForecast.Proofs.Service.Timers
import HedgedForecast.Proofs.Settings.Bounds
import HedgedForecast.Proofs.Settings.Chain
import HedgedForecast.Proofs.Settings.Endpoints
import HedgedForecast.Proofs.Settings.Listings
import HedgedForecast.Proofs.Settings.Saving
import HedgedForecast.Proofs.Settings.Secrets
import HedgedForecast.Proofs.Settings.Storing
import HedgedForecast.Proofs.Settings.Vetting
import HedgedForecast.Proofs.Settings.Warnings
import HedgedForecast.Proofs.Toml.Doubles
import HedgedForecast.Proofs.Toml.Files
import HedgedForecast.Proofs.Toml.Numbers
import HedgedForecast.Proofs.Toml.Tables
import HedgedForecast.Proofs.Toml.Texts
import HedgedForecast.Proofs.Toml.Values
import HedgedForecast.Provider.Adapter
import HedgedForecast.Provider.Basic
import HedgedForecast.Provider.Chain
import HedgedForecast.Provider.Geocoder
import HedgedForecast.Provider.OpenMeteo
import HedgedForecast.Provider.WeatherApi
import HedgedForecast.Publisher.Basic
import HedgedForecast.Publisher.Event
import HedgedForecast.Publisher.Webhook
import HedgedForecast.Request
import HedgedForecast.Scenario.Caching
import HedgedForecast.Scenario.Hedging
import HedgedForecast.Scenario.Publishing
import HedgedForecast.Scenario.Serving
import HedgedForecast.Scenario.Session
import HedgedForecast.Service
import HedgedForecast.Service.Assembly
import HedgedForecast.Settings.Basic
import HedgedForecast.Settings.Codec
import HedgedForecast.Settings.Environment
import HedgedForecast.Settings.Findings
import HedgedForecast.Settings.Store
import HedgedForecast.Settings.Validation
import HedgedForecast.Text.Blank
import HedgedForecast.Text.Hex
import HedgedForecast.Text.Quoted
import HedgedForecast.Text.Quoted.Table
import HedgedForecast.Text.Upper
import HedgedForecast.Text.Upper.Table
import HedgedForecast.Toml.Reader
import HedgedForecast.Toml.Scalar
import HedgedForecast.Toml.Table
import HedgedForecast.Toml.Writer
import HedgedForecast.Url.Address
import HedgedForecast.Url.Basic
import HedgedForecast.Url.Domain
import HedgedForecast.Url.Parser
import HedgedForecast.Url.Percent
import HedgedForecast.Url.Punycode
import HedgedForecast.Web.Exchange
import HedgedForecast.Web.Status
import HedgedForecast.Work
