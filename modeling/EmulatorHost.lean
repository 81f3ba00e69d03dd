import EmulatorHost.Bench.Page
import EmulatorHost.Bench.World
import EmulatorHost.Page.Driver
import EmulatorHost.Proofs.Host.Timing
import EmulatorHost.Proofs.Replay.Fault
import EmulatorHost.Proofs.Replay.Fidelity
import EmulatorHost.Proofs.Scheduler.Phases
import EmulatorHost.Proofs.Scheduler.Presentation
import EmulatorHost.Proofs.Session.Delivery
import EmulatorHost.Proofs.Picture.Expansion
import EmulatorHost.Proofs.Replay.Stored
import EmulatorHost.Proofs.Page.Operation
import EmulatorHost.Proofs.Scheduler.Refresh
import EmulatorHost.Proofs.Page.Mirror
import EmulatorHost.Proofs.Host.Input
import EmulatorHost.Proofs.Host.Stats
import EmulatorHost.Proofs.Page.Notified
import EmulatorHost.Proofs.Host.Stopping
import EmulatorHost.Proofs.Replay.Delivered
import EmulatorHost.Proofs.Replay.OnTime
import EmulatorHost.Proofs.Replay.Recording
import EmulatorHost.Proofs.Replay.Admitted
import EmulatorHost.Proofs.Page.Folding
import EmulatorHost.Proofs.Picture.Drawing
import EmulatorHost.Proofs.Scheduler.Sights
import EmulatorHost.Proofs.Scheduler.Delay
import EmulatorHost.Proofs.Scheduler.Display
import EmulatorHost.Proofs.Keys.Matching
import EmulatorHost.Proofs.Replay.Superseded
import EmulatorHost.Proofs.Config.Usable
import EmulatorHost.Proofs.Keys.Configured
import EmulatorHost.Proofs.Config.Written
import EmulatorHost.Proofs.Scheduler.Void
import EmulatorHost.Proofs.Replay.Reckoning
