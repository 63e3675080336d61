import Template.Calendar.Date
import Template.Calendar.IsoText
import Template.Calendar.Moment
import Template.Calendar.Pattern
import Template.Clock
import Template.CommandLine.Arguments
import Template.CommandLine.Display
import Template.CommandLine.Help
import Template.CommandLine.Markup
import Template.CommandLine.Run
import Template.Context
import Template.ContextSource
import Template.Document
import Template.Engine
import Template.Error
import Template.Generator
import Template.Journal
import Template.Json.Basic
import Template.Json.Literal
import Template.Json.Printer
import Template.Json.Reader
import Template.Lenient
import Template.Main
import Template.Number.Basic
import Template.Number.Binary64
import Template.Number.Notation
import Template.Number.Reader
import Template.Number.Shortest
import Template.Options
import Template.Path
import Template.Plan
import Template.Plugin
import Template.Registry
import Template.Resolve
import Template.Rounds
import Template.Script
import Template.Settings
import Template.Substitution
import Template.Text.Blank
import Template.Text.Digit
import Template.Text.Fold
import Template.Text.Line
import Template.Text.Quoted
import Template.Text.Search
import Template.Token.Placeholder
import Template.Token.Scan
import Template.Transform
import Template.Wording
import Template.Proofs.Passes
import Template.Proofs.Content
import Template.Proofs.CallByValue
import Template.Proofs.Interpolation
import Template.Proofs.Schedule
import Template.Proofs.Agreement
import Template.Proofs.Turns
import Template.Proofs.Concurrency
import Template.Proofs.Numeral
import Template.Proofs.Shortest
import Template.Proofs.JsonText
import Template.Proofs.Filling
import Template.Proofs.Idempotence
import Template.Proofs.Balance
import Template.Proofs.Spans
import Template.Proofs.Questions
import Template.Proofs.Walk
import Template.Proofs.Evaluated
import Template.Proofs.Staging
import Template.Proofs.Limit
import Template.Proofs.FixedPoint
import Template.Proofs.Asked
import Template.Proofs.Cut
import Template.Proofs.Lockstep
import Template.Proofs.MorePasses
import Template.Proofs.Depth
import Template.Proofs.Nesting
import Template.Proofs.Given
import Template.Proofs.RoundTrip
import Template.Proofs.Registration
import Template.Proofs.Failures
import Template.Proofs.Calls
import Template.Proofs.Framing
import Template.Proofs.Innermost
import Template.Proofs.Pieces
import Template.Proofs.Parts
import Template.Proofs.Rendering
import Template.Proofs.Chains
import Template.Proofs.Spacing
import Template.Proofs.Verbatim
import Template.Proofs.Latest
import Template.Proofs.Piping
import Template.Proofs.Rounding
import Template.Proofs.Spelling
import Template.Proofs.PlainNumber
import Template.Proofs.Days
import Template.Proofs.Weeks
import Template.Proofs.Months
import Template.Proofs.LastPlace
import Template.Proofs.UnixTime
import Template.Proofs.FromUnix
import Template.Proofs.ShownTime
import Template.Proofs.IsoReading
import Template.Proofs.TimeText
import Template.Proofs.Anchors
import Template.Proofs.Offsets
import Template.Proofs.Patterns
import Template.Proofs.Identifier
import Template.Proofs.Generated
import Template.Proofs.Places
