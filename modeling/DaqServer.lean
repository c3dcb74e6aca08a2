import DaqServer.Board.Mapped
import DaqServer.Board.Scripted
import DaqServer.Board.Simulated
import DaqServer.Board.SimulatedDma
import DaqServer.Config.Load
import DaqServer.Main
import DaqServer.Proofs.Arbitration
import DaqServer.Proofs.Board.PendingSlots
import DaqServer.Proofs.Claims
import DaqServer.Proofs.Daemon.Alone
import DaqServer.Proofs.Daemon.Closing
import DaqServer.Proofs.Item.Acceptance
import DaqServer.Proofs.Item.Clock
import DaqServer.Proofs.Item.Configuration
import DaqServer.Proofs.Item.Diagnostic
import DaqServer.Proofs.Item.Once
import DaqServer.Proofs.Item.Outputs
import DaqServer.Proofs.Item.Safety
import DaqServer.Proofs.Message.Diagnostics
import DaqServer.Proofs.Message.Draining
import DaqServer.Proofs.Message.Execution
import DaqServer.Proofs.Message.Grammar
import DaqServer.Proofs.Message.Oversized
import DaqServer.Proofs.Message.Replies
import DaqServer.Proofs.Numbering
import DaqServer.Proofs.Scan.Protocol
import DaqServer.Proofs.Scan.Readings
import DaqServer.Proofs.Scan.Simulated
import DaqServer.Proofs.Scan.Steps
import DaqServer.Proofs.Stream.Alone
import DaqServer.Proofs.Stream.Departure
import DaqServer.Proofs.Stream.Limits
import DaqServer.Proofs.Stream.Server
import DaqServer.Proofs.Stream.Refusal
import DaqServer.Proofs.Stream.Session
import DaqServer.Proofs.Stream.Stops
import DaqServer.Proofs.Stream.Transfers
import DaqServer.Proofs.Shutdown
