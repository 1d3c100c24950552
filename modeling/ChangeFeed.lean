import ChangeFeed.Main
import ChangeFeed.Record.Row
import ChangeFeed.Conversion
import ChangeFeed.Proofs.Feed.Escapes
import ChangeFeed.Proofs.Formatter.KeyUpdate
import ChangeFeed.Proofs.Session.Transparency
import ChangeFeed.Proofs.Session.FailedCall
import ChangeFeed.Proofs.Number.Nearest
import ChangeFeed.Proofs.Record.Rows
import ChangeFeed.Proofs.Formatter.Rows
import ChangeFeed.Proofs.Number.Digits
import ChangeFeed.Proofs.Number.Shortest
import ChangeFeed.Proofs.Json.Numerals
import ChangeFeed.Proofs.Json.Strings
import ChangeFeed.Proofs.Json.RoundTrip
import ChangeFeed.Proofs.Json.Grammar
import ChangeFeed.Proofs.Record.Decoding
import ChangeFeed.Proofs.Json.Reading
import ChangeFeed.Proofs.Feed.Output
import ChangeFeed.Proofs.Stamp.Sequence
import ChangeFeed.Proofs.Session.Stamped
import ChangeFeed.Proofs.Schema.History
import ChangeFeed.Proofs.Session.Tables
import ChangeFeed.Proofs.Formatter.Unemitted
import ChangeFeed.Proofs.Record.Keys
import ChangeFeed.Proofs.Session.Keys
import ChangeFeed.Proofs.Session.Containers
import ChangeFeed.Proofs.Session.Repeating
import ChangeFeed.Proofs.Number.Correct
import ChangeFeed.Proofs.Number.Adjacent
import ChangeFeed.Proofs.Number.Spelling
import ChangeFeed.Proofs.Number.Narrowing
import ChangeFeed.Proofs.Column.Single
import ChangeFeed.Proofs.Column.Double
import ChangeFeed.Proofs.Number.Spelled
import ChangeFeed.Proofs.Column.Accepted
import ChangeFeed.Proofs.Number.Order
import ChangeFeed.Proofs.Column.Order
import ChangeFeed.Proofs.Json.Tokens
import ChangeFeed.Proofs.Message.Images
import ChangeFeed.Proofs.Column.NumberImages
import ChangeFeed.Proofs.Column.SingleImages
import ChangeFeed.Proofs.Column.Discrete
import ChangeFeed.Proofs.Formatter.Frame
import ChangeFeed.Proofs.Formatter.Refusal
import ChangeFeed.Proofs.Formatter.Trace
import ChangeFeed.Proofs.Formatter.OperationCodes
import ChangeFeed.Proofs.Settings.Sources
import ChangeFeed.Proofs.Record.Repeated
import ChangeFeed.Proofs.Message.Elements
import ChangeFeed.Proofs.Feed.Pairing
import ChangeFeed.Proofs.Number.Neighbors
import ChangeFeed.Proofs.Column.Neighbors
import ChangeFeed.Proofs.Session.TypeCodes
