import PlainNotes.Command.Text
import PlainNotes.Console
import PlainNotes.Http
import PlainNotes.Json.Reader
import PlainNotes.Json.Writer
import PlainNotes.Logging.Session
import PlainNotes.Main
import PlainNotes.Phrase.Family
import PlainNotes.ToolProtocol.Session
import PlainNotes.Proofs.Pattern.Capture
import PlainNotes.Proofs.Phrase.Wording
import PlainNotes.Proofs.Phrase.Cascade
import PlainNotes.Proofs.Script.Layout
import PlainNotes.Proofs.Script.Reading
import PlainNotes.Proofs.Script.Meaning
import PlainNotes.Proofs.Script.Effect
import PlainNotes.Proofs.Pattern.Mapped
import PlainNotes.Proofs.Pattern.Occurrence
import PlainNotes.Proofs.Pattern.Preference
import PlainNotes.Proofs.Phrase.Items
import PlainNotes.Proofs.Phrase.PlainRequest
import PlainNotes.Proofs.Phrase.QuotedSpan
import PlainNotes.Proofs.Phrase.Trailer
import PlainNotes.Proofs.Phrase.MixedQuotes
import PlainNotes.Proofs.Phrase.TitledRequest
import PlainNotes.Proofs.Script.Decoding
import PlainNotes.Proofs.Phrase.Origin
import PlainNotes.Proofs.Json.Written
import PlainNotes.Proofs.Request.Endpoint
import PlainNotes.Proofs.Request.Session
import PlainNotes.Proofs.Request.ConsoleSession
import PlainNotes.Proofs.Request.ToolSession
import PlainNotes.Proofs.Command.Form
import PlainNotes.Proofs.Command.Wire
import PlainNotes.Proofs.Host.Course
import PlainNotes.Proofs.Logging.Activation
import PlainNotes.Proofs.Logging.SessionLog
import PlainNotes.Proofs.Logging.Line
import PlainNotes.Proofs.Request.Events
import PlainNotes.Proofs.Text.LetterCase
import PlainNotes.Proofs.Phrase.LetterCase
import PlainNotes.Proofs.Pattern.Language
import PlainNotes.Proofs.Phrase.Grammar
import PlainNotes.Proofs.Phrase.UpdateOrder
import PlainNotes.Proofs.Phrase.LongText
import PlainNotes.Proofs.Phrase.WithClause
import PlainNotes.Proofs.Phrase.NewNote
import PlainNotes.Proofs.Phrase.EmptyItem
import PlainNotes.Proofs.Script.Steps
import PlainNotes.Proofs.Reply.Hits
import PlainNotes.Proofs.Text.Ascii
import PlainNotes.Proofs.Request.Unwrapping
import PlainNotes.Proofs.Phrase.Topic
import PlainNotes.Proofs.Phrase.ItemCuts
import PlainNotes.Proofs.Host.Cleanup
