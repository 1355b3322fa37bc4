import InlineCompletion.Main
import InlineCompletion.Workspace.Rehearsal
import InlineCompletion.Proofs.Document.Freshness
import InlineCompletion.Proofs.Document.ClosedDocuments
import InlineCompletion.Proofs.Document.Ledger
import InlineCompletion.Proofs.Workspace.Signals
import InlineCompletion.Proofs.Workspace.Session
import InlineCompletion.Proofs.Workspace.Feed
import InlineCompletion.Proofs.Agent.DeskSteps
import InlineCompletion.Proofs.Workspace.DeskSteps
import InlineCompletion.Proofs.Workspace.ProcessFrame
import InlineCompletion.Proofs.Workspace.Conversation
import InlineCompletion.Proofs.Workspace.Readiness
import InlineCompletion.Proofs.Frame.Reading
import InlineCompletion.Proofs.Workspace.Restart
import InlineCompletion.Proofs.Json.Escape
import InlineCompletion.Proofs.Json.Numeral
import InlineCompletion.Proofs.Text.Utf8
import InlineCompletion.Proofs.Json.RoundTrip
import InlineCompletion.Proofs.Frame.RoundTrip
import InlineCompletion.Proofs.Workspace.Reads
import InlineCompletion.Proofs.Workspace.Routing
import InlineCompletion.Proofs.Workspace.HandshakeOrder
import InlineCompletion.Proofs.Workspace.PendingDue
import InlineCompletion.Proofs.Document.GhostRuns
import InlineCompletion.Proofs.Document.AnswerIndependence
import InlineCompletion.Proofs.Workspace.Registry
import InlineCompletion.Proofs.Text.Floor
import InlineCompletion.Proofs.Frame.Extent
import InlineCompletion.Proofs.Document.IdleTime
import InlineCompletion.Proofs.Workspace.Isolation
import InlineCompletion.Proofs.Workspace.FramePassing
import InlineCompletion.Proofs.Document.Acceptance
import InlineCompletion.Proofs.Editor.Sheet
import InlineCompletion.Proofs.Workspace.Edits
import InlineCompletion.Proofs.Settings.Store
import InlineCompletion.Proofs.Settings.Sharing
import InlineCompletion.Proofs.Settings.Options
import InlineCompletion.Proofs.Path.Language
import InlineCompletion.Proofs.Workspace.Attachment
import InlineCompletion.Proofs.Text.Splice
import InlineCompletion.Proofs.Text.Utf16
import InlineCompletion.Proofs.Workspace.ReadingRounds
import InlineCompletion.Proofs.Timer.Calls
