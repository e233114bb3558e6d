import ConsoleUart.Memory
import ConsoleUart.Scenario
import ConsoleUart.Proofs.Latch
import ConsoleUart.Proofs.Programming
import ConsoleUart.Proofs.Discipline
import ConsoleUart.Proofs.Sending
import ConsoleUart.Proofs.Pacing
import ConsoleUart.Proofs.Steady
import ConsoleUart.Proofs.Transmission
import ConsoleUart.Proofs.Reception
import ConsoleUart.Proofs.Exact
import ConsoleUart.Proofs.Planning
import ConsoleUart.Proofs.Validation
import ConsoleUart.Proofs.Reconfiguring
import ConsoleUart.Proofs.Granting
import ConsoleUart.Proofs.LastWriter
import ConsoleUart.Proofs.Detection
import ConsoleUart.Proofs.Rounding
import ConsoleUart.Proofs.Inquiry
import ConsoleUart.Proofs.ReadingBack
import ConsoleUart.Proofs.Restoring
import ConsoleUart.Proofs.ModemLines
import ConsoleUart.Proofs.Reporting
import ConsoleUart.Proofs.Forwarding
import ConsoleUart.Proofs.Unpaced
import ConsoleUart.Proofs.Deciding
import ConsoleUart.Proofs.Configuring
import ConsoleUart.Proofs.ExactClock
import ConsoleUart.Proofs.Bracketing
import ConsoleUart.Proofs.Progress
import ConsoleUart.Proofs.Monotone
import ConsoleUart.Proofs.Polling
import ConsoleUart.Proofs.Throughput
