import BuildLog.Console
import BuildLog.Main
import BuildLog.Fetch.Request
import BuildLog.Pane
import BuildLog.Poll.Overlap
import BuildLog.Poll.Schedule
import BuildLog.Poller.Overlap
import BuildLog.Screen.Frame
import BuildLog.Viewer.Loop
import BuildLog.Proofs.Grouping.Shape
import BuildLog.Proofs.Console.Mirror
import BuildLog.Proofs.Poller.Incremental
import BuildLog.Proofs.Poller.SingleFlight
import BuildLog.Proofs.Grouping.Verdict
import BuildLog.Proofs.Grouping.Lines
import BuildLog.Proofs.Pane.Independence
import BuildLog.Proofs.Text.Splitting
import BuildLog.Proofs.Text.Fitting
import BuildLog.Proofs.Line.Framing
import BuildLog.Proofs.Tree.Growth
import BuildLog.Proofs.View.Growth
import BuildLog.Proofs.View.Replay
import BuildLog.Proofs.Tree.Cursors
import BuildLog.Proofs.Viewer.Delivery
import BuildLog.Proofs.Poll.Messages
import BuildLog.Proofs.Poll.Agreement
import BuildLog.Proofs.Poll.Overlap
import BuildLog.Proofs.Style.Canonical
import BuildLog.Proofs.Line.Labels
import BuildLog.Proofs.Line.Escapes
import BuildLog.Proofs.View.Positions
import BuildLog.Proofs.Viewer.Scrolling
import BuildLog.Proofs.Viewer.Folding
import BuildLog.Proofs.Viewer.Arrival
import BuildLog.Proofs.Viewer.Catchup
import BuildLog.Proofs.Viewer.Selection
import BuildLog.Proofs.Viewer.Loop
import BuildLog.Proofs.Console.Coherence
import BuildLog.Proofs.Console.Markers
import BuildLog.Proofs.Console.Collapse
import BuildLog.Proofs.Json.Grammar
import BuildLog.Proofs.Json.Scanning
import BuildLog.Proofs.Json.Reading
import BuildLog.Proofs.Fetch.JobStatus
import BuildLog.Proofs.Text.Truncation
import BuildLog.Proofs.Text.Values
import BuildLog.Proofs.Style.Parameters
import BuildLog.Proofs.Settings.Reading
import BuildLog.Proofs.Json.Magnitude
import BuildLog.Proofs.Fetch.Offset
