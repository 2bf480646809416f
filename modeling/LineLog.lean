import LineLog.Pool
import LineLog.Session.Binding
import LineLog.Session.Arguments
import LineLog.Session.Piped
import LineLog.Time.Word
import LineLog.Field.Append
import LineLog.Proofs.Record.Members
import LineLog.Proofs.Logger.Derivation
import LineLog.Proofs.Severity.Registry
import LineLog.Proofs.Severity.Reading
import LineLog.Proofs.Config.Option
import LineLog.Proofs.Session.Lines
import LineLog.Proofs.Session.Isolation
import LineLog.Proofs.Session.Containment
import LineLog.Proofs.Session.Context
import LineLog.Proofs.Session.Action
import LineLog.Proofs.Session.Suppression
import LineLog.Proofs.Session.FailingValues
import LineLog.Proofs.Session.Settings
import LineLog.Proofs.Session.Ending
import LineLog.Proofs.Logger.Keys
import LineLog.Proofs.Text.Escape
import LineLog.Proofs.Text.Bare
import LineLog.Proofs.Time.Calendar
import LineLog.Proofs.Time.Rfc3339
import LineLog.Proofs.Time.Epoch
import LineLog.Proofs.Time.Iso8601
import LineLog.Proofs.Time.Duration
import LineLog.Proofs.Time.Append
import LineLog.Proofs.Field.Pieces
import LineLog.Proofs.Field.Floating
import LineLog.Proofs.Field.Complex
import LineLog.Proofs.Time.Count
import LineLog.Proofs.Caller.Position
import LineLog.Proofs.Caller.Walk
import LineLog.Proofs.Config.Member
import LineLog.Proofs.Session.Pooled
