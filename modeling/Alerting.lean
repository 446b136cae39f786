import Alerting.Breakdown
import Alerting.Calendar
import Alerting.Calendar.Instant
import Alerting.Calendar.Text
import Alerting.Cron
import Alerting.Delivery
import Alerting.Delivery.Bulk
import Alerting.Delivery.Error
import Alerting.Delivery.Settings
import Alerting.Dialogue
import Alerting.Dict
import Alerting.Email.Address
import Alerting.Email.EncodedWord
import Alerting.Email.Frame
import Alerting.Email.Letter
import Alerting.Email.MediaType
import Alerting.Evaluation
import Alerting.Figure
import Alerting.Http
import Alerting.Json.Document
import Alerting.Json.Fault
import Alerting.Json.Numeral
import Alerting.Json.Printer
import Alerting.Json.Reader
import Alerting.Json.Value
import Alerting.Kpi
import Alerting.Main
import Alerting.Message
import Alerting.Message.Blocks
import Alerting.Message.Tokens
import Alerting.Numeric.Binary
import Alerting.Numeric.Decimal
import Alerting.Numeric.Notation
import Alerting.Numeric.Shortest
import Alerting.Pick
import Alerting.Pick.Resolution
import Alerting.Proofs.Breakdown.Cards
import Alerting.Proofs.Breakdown.Checked
import Alerting.Proofs.Breakdown.Gathering
import Alerting.Proofs.Breakdown.GroupBy
import Alerting.Proofs.Breakdown.Groups
import Alerting.Proofs.Breakdown.Nesting
import Alerting.Proofs.Breakdown.Reading
import Alerting.Proofs.Breakdown.RowOrder
import Alerting.Proofs.Breakdown.Selection
import Alerting.Proofs.Breakdown.Tuples
import Alerting.Proofs.Calendar.Order
import Alerting.Proofs.Calendar.Periods
import Alerting.Proofs.Calendar.Text
import Alerting.Proofs.Delivery.Attempts
import Alerting.Proofs.Delivery.Bulk
import Alerting.Proofs.Delivery.Logo
import Alerting.Proofs.Delivery.LogoCache
import Alerting.Proofs.Delivery.Mail
import Alerting.Proofs.Delivery.Pictures
import Alerting.Proofs.Delivery.Retry
import Alerting.Proofs.Delivery.ShortMessages
import Alerting.Proofs.Dialogue
import Alerting.Proofs.Dialogue.Crew
import Alerting.Proofs.Dict
import Alerting.Proofs.Email.Frame
import Alerting.Proofs.Email.Letter
import Alerting.Proofs.Evaluation.Clock
import Alerting.Proofs.Evaluation.EmptyGroup
import Alerting.Proofs.Evaluation.Ladder
import Alerting.Proofs.Evaluation.Numbers
import Alerting.Proofs.Evaluation.Outage
import Alerting.Proofs.Evaluation.Outcome
import Alerting.Proofs.Evaluation.Requests
import Alerting.Proofs.Evaluation.Triggers
import Alerting.Proofs.Json.DecimalText
import Alerting.Proofs.Json.Fits
import Alerting.Proofs.Json.Numeral
import Alerting.Proofs.Json.Printer
import Alerting.Proofs.Json.Reader
import Alerting.Proofs.Json.Significand
import Alerting.Proofs.Json.Spelling
import Alerting.Proofs.Json.Writing
import Alerting.Proofs.Json.Yield
import Alerting.Proofs.Kpi.Strategies
import Alerting.Proofs.Message.Body
import Alerting.Proofs.Message.Inserts
import Alerting.Proofs.Message.Markup
import Alerting.Proofs.Message.Parts
import Alerting.Proofs.Message.Table
import Alerting.Proofs.Message.Vocabulary
import Alerting.Proofs.Numeric.Arithmetic
import Alerting.Proofs.Numeric.Decimal
import Alerting.Proofs.Numeric.Exact
import Alerting.Proofs.Numeric.FloatOrder
import Alerting.Proofs.Numeric.FloatValue
import Alerting.Proofs.Numeric.Grouped
import Alerting.Proofs.Numeric.Nearest
import Alerting.Proofs.Numeric.NegativeZero
import Alerting.Proofs.Numeric.Rounding
import Alerting.Proofs.Pick.Resolution
import Alerting.Proofs.Pick.Window
import Alerting.Proofs.Query.Cell
import Alerting.Proofs.Query.Columns
import Alerting.Proofs.Query.Constraint
import Alerting.Proofs.Query.Grouping
import Alerting.Proofs.Query.KeyFigure
import Alerting.Proofs.Query.Settled
import Alerting.Proofs.Query.Table
import Alerting.Proofs.Rule.Condition
import Alerting.Proofs.Rule.Config
import Alerting.Proofs.Rule.Firings
import Alerting.Proofs.Runner.Pictures
import Alerting.Proofs.Runner.Preview
import Alerting.Proofs.Runner.Record
import Alerting.Proofs.Runner.Sends
import Alerting.Proofs.Schedule.Books
import Alerting.Proofs.Schedule.Crons
import Alerting.Proofs.Schedule.History
import Alerting.Proofs.Schedule.Pass
import Alerting.Proofs.Schedule.Plan
import Alerting.Proofs.Secret.Gcm
import Alerting.Proofs.Secret.Texts
import Alerting.Proofs.Server.Seed
import Alerting.Proofs.Server.Sending
import Alerting.Proofs.Store.History
import Alerting.Proofs.Store.Rules
import Alerting.Proofs.Store.Runs
import Alerting.Proofs.Store.Settings
import Alerting.Proofs.Template
import Alerting.Proofs.Template.Slots
import Alerting.Proofs.Text.Base64
import Alerting.Proofs.Text.DataUri
import Alerting.Proofs.Text.Encoding
import Alerting.Proofs.Text.Entities
import Alerting.Proofs.Text.Markup
import Alerting.Proofs.Text.Markup.Fragments
import Alerting.Proofs.Text.Markup.Names
import Alerting.Proofs.Text.PlainText
import Alerting.Proofs.Text.Search
import Alerting.Proofs.Text.Truncate
import Alerting.Proofs.Threshold
import Alerting.Query.Cell
import Alerting.Query.Filter
import Alerting.Query.Request
import Alerting.Query.Result
import Alerting.Query.Script
import Alerting.Rule.Condition
import Alerting.Rule.Config
import Alerting.Run
import Alerting.Runner
import Alerting.Schedule
import Alerting.Secret
import Alerting.Secret.Aes
import Alerting.Secret.Gcm
import Alerting.Server.Address
import Alerting.Server.Command
import Alerting.Server.Config
import Alerting.Server.Invocation
import Alerting.Server.Seed
import Alerting.Service
import Alerting.Store
import Alerting.Store.Cells
import Alerting.Store.Document
import Alerting.Store.Rules
import Alerting.Store.Runs
import Alerting.Store.Settings
import Alerting.Template
import Alerting.Text.Base64
import Alerting.Text.Basic
import Alerting.Text.DataUri
import Alerting.Text.PlainText
import Alerting.Text.Truncate
import Alerting.Text.Utf8
import Alerting.Threshold
import Alerting.Toml.Quoted
import Alerting.Toml.Reader
import Alerting.Toml.Scalar
import Alerting.Toml.Table
