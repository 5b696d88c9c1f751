import StreamingAcn.Main
import StreamingAcn.Proofs.Arbitration.Winning
import StreamingAcn.Proofs.Arbitration.Freshness
import StreamingAcn.Proofs.Arbitration.Attendance
import StreamingAcn.Proofs.Packet.Layout
import StreamingAcn.Proofs.Packet.RoundTrip
import StreamingAcn.Proofs.Packet.Bounds
import StreamingAcn.Proofs.Packet.Grammar
import StreamingAcn.Proofs.Delivery.Flow
import StreamingAcn.Proofs.Delivery.Settling
import StreamingAcn.Proofs.Delivery.Moves
import StreamingAcn.Proofs.Roster.Visiting
import StreamingAcn.Proofs.Roster.Run
import StreamingAcn.Proofs.Roster.Settling
import StreamingAcn.Proofs.Roster.Chronicle
import StreamingAcn.Proofs.Roster.Isolation
import StreamingAcn.Proofs.Roster.Crew
import StreamingAcn.Proofs.Roster.Backlog
import StreamingAcn.Proofs.Roster.Counting
import StreamingAcn.Proofs.Roster.Tally
import StreamingAcn.Proofs.Receiver.Course
import StreamingAcn.Proofs.Receiver.Refinement
import StreamingAcn.Proofs.Receiver.Accounting
import StreamingAcn.Proofs.Arbitration.Changes
import StreamingAcn.Proofs.Arbitration.Credit
import StreamingAcn.Proofs.Arbitration.Wraparound
import StreamingAcn.Proofs.Arbitration.Indifference
import StreamingAcn.Proofs.Arbitration.Silence
import StreamingAcn.Proofs.Delivery.Feeding
import StreamingAcn.Proofs.Roster.Lifecycle
import StreamingAcn.Proofs.Delivery.Log
import StreamingAcn.Proofs.Roster.Draining
import StreamingAcn.Proofs.Roster.Departing
import StreamingAcn.Proofs.Receiver.Stopping
import StreamingAcn.Proofs.Packet.Canonical
import StreamingAcn.Proofs.Arbitration.Eviction
import StreamingAcn.Proofs.Delivery.Script
import StreamingAcn.Proofs.Cid
import StreamingAcn.Proofs.Packet.Writing
import StreamingAcn.Proofs.Text.JsonLine
import StreamingAcn.Proofs.Monitor.Layers
import StreamingAcn.Proofs.Monitor.Line
import StreamingAcn.Proofs.Monitor.Starting
