import RrdCache.Text.Ranges
import RrdCache.Text.Blank
import RrdCache.Text.Digit
import RrdCache.Text.Printable
import RrdCache.Text.Quoted
import RrdCache.Text.Scan
import RrdCache.Number.Numeral
import RrdCache.Number.Binary64
import RrdCache.Number.Decimal
import RrdCache.Number.Shortest
import RrdCache.Scalar
import RrdCache.Error
import RrdCache.Identifier.Basic
import RrdCache.Identifier.Checked
import RrdCache.Request.Fields
import RrdCache.Request.Update
import RrdCache.Request.Series
import RrdCache.Request.Query
import RrdCache.Request.Command
import RrdCache.Request
import RrdCache.Reply.Shape
import RrdCache.Reply.Status
import RrdCache.Reply.Entry
import RrdCache.Reply.Row
import RrdCache.Reply.Table
import RrdCache.Address
import RrdCache.Clock
import RrdCache.Log
import RrdCache.Dialogue
import RrdCache.World
import RrdCache.Client.Exchange
import RrdCache.Client.Updates
import RrdCache.Client.Connection
import RrdCache.Client.Calls
import RrdCache.CommandLine.Grammar
import RrdCache.CommandLine.Invocation
import RrdCache.CommandLine.Output
import RrdCache.CommandLine.Program
import RrdCache.Main
import RrdCache.Proofs.Dialogue.Run
import RrdCache.Proofs.Dialogue.Trace
import RrdCache.Proofs.Client.Course
import RrdCache.Proofs.Dialogue.Alike
import RrdCache.Proofs.Reply.Wire
import RrdCache.Proofs.Dialogue.Frame
import RrdCache.Proofs.Client.Asks
import RrdCache.Proofs.Session.Alignment
import RrdCache.Proofs.Client.Phases
import RrdCache.Proofs.Number.Spelling
import RrdCache.Proofs.Request.Fields
import RrdCache.Proofs.Request.Template
import RrdCache.Proofs.Client.Writes
import RrdCache.Proofs.Session.Lines
import RrdCache.Proofs.Escape.Basic
import RrdCache.Proofs.Number.Reading
import RrdCache.Proofs.Reply.Words
import RrdCache.Proofs.Escape.Reply
import RrdCache.Proofs.Escape.Request
import RrdCache.Proofs.Client.Points
import RrdCache.Proofs.Escape.Call
import RrdCache.Proofs.Number.RoundTrip
import RrdCache.Proofs.Request.RoundTrip
import RrdCache.Proofs.Session.ReadAhead
import RrdCache.Proofs.Dialogue.Traffic
import RrdCache.Proofs.Dialogue.Raises
import RrdCache.Proofs.Session.Atomicity
import RrdCache.Proofs.Reply.Readable
import RrdCache.Proofs.Reply.Grammar
import RrdCache.Proofs.Reply.Framing
import RrdCache.Proofs.Reply.Blocks
import RrdCache.Proofs.Dialogue.Order
import RrdCache.Proofs.Session.Batch
import RrdCache.Proofs.Request.Normal
import RrdCache.Proofs.Request.Canonical
import RrdCache.Proofs.Number.Order
import RrdCache.Proofs.Request.Rules
import RrdCache.Proofs.Request.Unambiguous
import RrdCache.Proofs.Dialogue.Spares
import RrdCache.Proofs.Session.Updates
import RrdCache.Proofs.Text.OneLine
import RrdCache.Proofs.Error.Message
import RrdCache.Proofs.Dialogue.Ensures
import RrdCache.Proofs.Error.Tame
import RrdCache.Proofs.Reply.Errors
import RrdCache.Proofs.Request.Errors
import RrdCache.Proofs.Client.Errors
import RrdCache.Proofs.Address.Spelling
import RrdCache.Proofs.Address.Parts
import RrdCache.Proofs.Program.Surroundings
import RrdCache.Proofs.Program.Task
import RrdCache.Proofs.CommandLine.Grammar
import RrdCache.Proofs.Program.Stages
import RrdCache.Proofs.Program.Ending
import RrdCache.Proofs.Program.Lines
import RrdCache.Proofs.Json.Grammar
import RrdCache.Proofs.Json.Outside
import RrdCache.Proofs.Json.Number
import RrdCache.Proofs.Json.Output
import RrdCache.Proofs.Program.Json
import RrdCache.Proofs.Dialogue.FailStop
import RrdCache.Proofs.Session.FailStop
import RrdCache.Proofs.Address.RoundTrip
import RrdCache.Proofs.Reply.Numbers
import RrdCache.Proofs.Reply.Rows
import RrdCache.Proofs.Reply.Lines
import RrdCache.Proofs.Request.Directory
import RrdCache.Proofs.Reply.Bodies
import RrdCache.Proofs.Session.Bodies
import RrdCache.Proofs.Dialogue.Looks
import RrdCache.Proofs.Session.Readings
