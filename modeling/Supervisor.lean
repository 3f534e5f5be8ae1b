import Supervisor.Api
import Supervisor.Boot
import Supervisor.Command.Console
import Supervisor.Command.Table
import Supervisor.Contexts
import Supervisor.Fault.Error
import Supervisor.Fault.Handling
import Supervisor.Fault.Table
import Supervisor.Hart.Csr
import Supervisor.Hart.Platform
import Supervisor.Interrupts
import Supervisor.Listing
import Supervisor.Machine
import Supervisor.Memory
import Supervisor.Nesting
import Supervisor.Pool
import Supervisor.Proofs.Action
import Supervisor.Proofs.Contention
import Supervisor.Proofs.Fault.Dispatch
import Supervisor.Proofs.Fault.History
import Supervisor.Proofs.Fault.Reception
import Supervisor.Proofs.Fault.Site
import Supervisor.Proofs.Ledger
import Supervisor.Proofs.Notice
import Supervisor.Proofs.Order
import Supervisor.Proofs.Registry.Access
import Supervisor.Proofs.Registry.History
import Supervisor.Proofs.Registry.Ownership
import Supervisor.Proofs.Trap.Passage
import Supervisor.Proofs.Trap.Snapshot
import Supervisor.Proofs.Walk
import Supervisor.Registry
import Supervisor.Ring
import Supervisor.Scenario.Bench
import Supervisor.Scenario.Hardware
import Supervisor.Scenario.Operation
import Supervisor.Scenario.Report
import Supervisor.Scenario.Run
import Supervisor.Scenario.Services
import Supervisor.Scenario.Tables
import Supervisor.Scenario.Wording
import Supervisor.Slots
import Supervisor.Spinlock
import Supervisor.System.Access
import Supervisor.System.Start
import Supervisor.Text
import Supervisor.Text.Buffer
import Supervisor.Text.Format
import Supervisor.Text.Number
import Supervisor.Text.Numeral
import Supervisor.Text.Token
import Supervisor.Trace
import Supervisor.Trap.Cause
import Supervisor.Trap.Frame
import Supervisor.Trap.Guard
import Supervisor.Trap.Handler
import Supervisor.Trap.Handling
import Supervisor.Proofs.Nesting.Bounds
import Supervisor.Proofs.Nesting.Depth
import Supervisor.Proofs.Nesting.Harts
import Supervisor.Proofs.Nesting.Scopes
import Supervisor.Proofs.Trap.Balance
import Supervisor.Proofs.Fault.Upkeep
import Supervisor.Proofs.Fault.Journal
import Supervisor.Proofs.Fault.Latch
import Supervisor.Proofs.Fault.Logbook
import Supervisor.Proofs.Contexts
import Supervisor.Proofs.Boot
import Supervisor.Proofs.Trap.Tick
import Supervisor.Proofs.Trap.Reentry
import Supervisor.Proofs.Trap.Defaults
import Supervisor.Proofs.Pool.Handles
import Supervisor.Proofs.Pool.Requests
import Supervisor.Proofs.Api.Calls
import Supervisor.Proofs.Api.Readiness
import Supervisor.Proofs.Registry.Tier
import Supervisor.Proofs.Start.Once
import Supervisor.Proofs.Registry.Bulk
import Supervisor.Proofs.Text.Formatting
import Supervisor.Proofs.Tasks
import Supervisor.Proofs.Trap.Brackets
import Supervisor.Proofs.Text.RoundTrip
import Supervisor.Proofs.Command.Resolution
import Supervisor.Proofs.Command.Interfaces
import Supervisor.Proofs.Text.Tokens
import Supervisor.Proofs.Masking
import Supervisor.Proofs.Registry.Diagnostics
import Supervisor.Proofs.Command.Editor
import Supervisor.Proofs.Memory
import Supervisor.Proofs.Fault.Wording
