import FieldRules.Calendar.Date
import FieldRules.Calendar.DateReader
import FieldRules.Calendar.DateWriter
import FieldRules.Calendar.Names
import FieldRules.Exports
import FieldRules.Fault
import FieldRules.Format.Email
import FieldRules.Format.Url
import FieldRules.Format.Uuid
import FieldRules.Json.Reader
import FieldRules.Json.Writer
import FieldRules.Keyed
import FieldRules.Log.Detail
import FieldRules.Log.Formatter
import FieldRules.Log.Logging
import FieldRules.Log.Record
import FieldRules.Number.Basic
import FieldRules.Number.Binary64
import FieldRules.Number.Literal
import FieldRules.Number.Notation
import FieldRules.Number.Power
import FieldRules.Number.Rounded
import FieldRules.Number.Shortest
import FieldRules.Pattern.Folding
import FieldRules.Pattern.Matcher
import FieldRules.Pattern.Printed
import FieldRules.Pattern.Reader
import FieldRules.Pattern.Replacing
import FieldRules.Pattern.Syntax
import FieldRules.Proofs.Calendar.Formats
import FieldRules.Proofs.Format.Email
import FieldRules.Proofs.Format.Url
import FieldRules.Proofs.Json.Digits
import FieldRules.Proofs.Json.Grammar
import FieldRules.Proofs.Json.Numbers
import FieldRules.Proofs.Json.Recognition
import FieldRules.Proofs.Json.Tokens
import FieldRules.Proofs.Keyed
import FieldRules.Proofs.Log.Live
import FieldRules.Proofs.Log.Offers
import FieldRules.Proofs.Number.Nearest
import FieldRules.Proofs.Number.Overflow
import FieldRules.Proofs.Registry.Bounds
import FieldRules.Proofs.Registry.Building
import FieldRules.Proofs.Registry.Effects
import FieldRules.Proofs.Registry.Extending
import FieldRules.Proofs.Registry.Faults
import FieldRules.Proofs.Registry.Grammar
import FieldRules.Proofs.Registry.History
import FieldRules.Proofs.Registry.Making
import FieldRules.Proofs.Registry.Products
import FieldRules.Proofs.Registry.Renaming
import FieldRules.Proofs.Registry.RoundTrip
import FieldRules.Proofs.Registry.Sharing
import FieldRules.Proofs.Registry.Tables
import FieldRules.Proofs.Registry.Tokens
import FieldRules.Proofs.Rule.Checks
import FieldRules.Proofs.Rule.Json
import FieldRules.Proofs.Rule.Messages
import FieldRules.Proofs.Session.Addresses
import FieldRules.Proofs.Session.Building
import FieldRules.Proofs.Session.Exact
import FieldRules.Proofs.Session.Freshness
import FieldRules.Proofs.Session.Handlers
import FieldRules.Proofs.Session.Levels
import FieldRules.Proofs.Session.Optional
import FieldRules.Proofs.Session.Records
import FieldRules.Proofs.Session.Registries
import FieldRules.Proofs.Session.RuleStrings
import FieldRules.Proofs.Session.Unheeded
import FieldRules.Proofs.Session.Validators
import FieldRules.Proofs.Settings.Encoding
import FieldRules.Proofs.Settings.Heap
import FieldRules.Proofs.Settings.History
import FieldRules.Proofs.Settings.Layers
import FieldRules.Proofs.Settings.Orders
import FieldRules.Proofs.Settings.Placing
import FieldRules.Proofs.Settings.Reading
import FieldRules.Proofs.Settings.Texts
import FieldRules.Proofs.Settings.Trees
import FieldRules.Proofs.Settings.Variables
import FieldRules.Proofs.Settings.WholeNumbers
import FieldRules.Proofs.Template.Escapes
import FieldRules.Proofs.Text.Pieces
import FieldRules.Proofs.Validation.Account
import FieldRules.Proofs.Validation.Agenda
import FieldRules.Proofs.Validation.Encounters
import FieldRules.Proofs.Validation.Full
import FieldRules.Proofs.Validation.Hazards
import FieldRules.Proofs.Validation.Independence
import FieldRules.Proofs.Validation.Isolation
import FieldRules.Proofs.Validation.Meeting
import FieldRules.Proofs.Validation.Overrides
import FieldRules.Proofs.Validation.Passed
import FieldRules.Proofs.Validation.Stopping
import FieldRules.Proofs.Validation.Visited
import FieldRules.Proofs.Workspace
import FieldRules.Registry.Basic
import FieldRules.Registry.Registration
import FieldRules.Registry.RuleString
import FieldRules.Rule.Basic
import FieldRules.Rule.Check
import FieldRules.Rule.Class
import FieldRules.Rule.Message
import FieldRules.Rule.Printed
import FieldRules.Rule.Recipe
import FieldRules.Rule.Sameness
import FieldRules.Rule.Store
import FieldRules.Session.Basic
import FieldRules.Session.Logging
import FieldRules.Session.Rules
import FieldRules.Session.Settings
import FieldRules.Session.Validation
import FieldRules.Settings.Basic
import FieldRules.Settings.Environment
import FieldRules.Settings.Shared
import FieldRules.Settings.Tree
import FieldRules.Shelf
import FieldRules.Template.Fill
import FieldRules.Template.Host
import FieldRules.Template.Layout
import FieldRules.Template.Syntax
import FieldRules.Text.Blank
import FieldRules.Text.Case
import FieldRules.Text.CharacterName
import FieldRules.Text.CodeRange
import FieldRules.Text.Identifier
import FieldRules.Text.Letter
import FieldRules.Text.Numeral
import FieldRules.Text.Pieces
import FieldRules.Text.Printable
import FieldRules.Text.Quoted
import FieldRules.Text.Words
import FieldRules.Validation.Messages
import FieldRules.Validation.Result
import FieldRules.Validation.Run
import FieldRules.Validation.Table
import FieldRules.Value.Basic
import FieldRules.Value.Convert
import FieldRules.Value.Order
import FieldRules.Value.Text
import FieldRules.Proofs.Session.Reports
import FieldRules.Proofs.Registry.Outcomes
import FieldRules.Proofs.Settings.Runtime
import FieldRules.Proofs.Settings.Sharing
import FieldRules.Proofs.Settings.Moves
import FieldRules.Proofs.Registry.Accounting
import FieldRules.Proofs.Validation.Sheets
import FieldRules.Proofs.Session.Replacing
import FieldRules.Proofs.Format.Uuid
import FieldRules.Proofs.Rule.Uuid
import FieldRules.Proofs.Template.Grammar
import FieldRules.Proofs.Rule.Substitution
import FieldRules.Proofs.Rule.Decorations
import FieldRules.Proofs.Validation.Answers
import FieldRules.Proofs.Pattern.Replacing
import FieldRules.Proofs.Text.Words
import FieldRules.Proofs.Number.Literals
import FieldRules.Proofs.Rule.Numbers
import FieldRules.Proofs.Json.Writing
import FieldRules.Proofs.Log.Details
import FieldRules.Proofs.Log.Lines
