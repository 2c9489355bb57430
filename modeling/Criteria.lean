import Criteria.Binary64
import Criteria.Binary64.Reading
import Criteria.Binary64.Shortest
import Criteria.Binary64.Text
import Criteria.Calendar
import Criteria.Command
import Criteria.Condition
import Criteria.Environment
import Criteria.Environment.Assignment
import Criteria.Field
import Criteria.Filter
import Criteria.FilterText
import Criteria.Instant
import Criteria.Instant.Iso
import Criteria.Instant.Layout
import Criteria.Invocation
import Criteria.Json
import Criteria.Json.Fault
import Criteria.Json.Number
import Criteria.Json.Printer
import Criteria.Json.Reader
import Criteria.Json.Record
import Criteria.Json.Skip
import Criteria.Json.StringReader
import Criteria.Main
import Criteria.Operator
import Criteria.Query
import Criteria.Registry
import Criteria.Registry.Builtin
import Criteria.Registry.Sample
import Criteria.Registry.Source
import Criteria.Selection
import Criteria.Settings
import Criteria.Text.Blank
import Criteria.Text.Count
import Criteria.Text.Digits
import Criteria.Text.Hex
import Criteria.Text.Hidden
import Criteria.Text.Quoted
import Criteria.Tree
import Criteria.Tree.Cursor
import Criteria.Validation
import Criteria.Value
import Criteria.Wire.Field
import Criteria.Wire.Tree
import Criteria.Wire.Value
import Criteria.Yaml.Content
import Criteria.Yaml.Cursor
import Criteria.Yaml.Document
import Criteria.Yaml.Scalar
import Criteria.Yaml.Tag
import Criteria.Yaml.Token
import Criteria.Proofs.Trees
import Criteria.Proofs.Parentheses
import Criteria.Proofs.Formula
import Criteria.Proofs.FilterMeaning
import Criteria.Proofs.Places
import Criteria.Proofs.Diagnostics
import Criteria.Proofs.Validity
import Criteria.Proofs.Rendering
import Criteria.Proofs.Occurrences
import Criteria.Proofs.Joins
import Criteria.Proofs.Definitions
import Criteria.Proofs.Registration
import Criteria.Proofs.DateTexts
import Criteria.Proofs.Atomicity
import Criteria.Proofs.JsonNumbers
import Criteria.Proofs.JsonStrings
import Criteria.Proofs.JsonTexts
import Criteria.Proofs.JsonLimits
import Criteria.Proofs.JsonReading
import Criteria.Proofs.WireForm
import Criteria.Proofs.NodeShapes
import Criteria.Proofs.NodeForms
import Criteria.Proofs.GroupReading
import Criteria.Proofs.RoundTrip
import Criteria.Proofs.RootTables
import Criteria.Proofs.StoragePaths
import Criteria.Proofs.DayNumbers
import Criteria.Proofs.IsoTexts
import Criteria.Proofs.ReadInstants
import Criteria.Proofs.Timestamps
import Criteria.Proofs.DeadNodes
import Criteria.Proofs.DefinitionText
import Criteria.Proofs.Reloading
import Criteria.Proofs.Overrides
import Criteria.Proofs.Runs
import Criteria.Proofs.DepthLimits
import Criteria.Proofs.RuleDefects
import Criteria.Proofs.DateTimeForms
import Criteria.Proofs.LocalTimes
import Criteria.Proofs.WrittenInstants
import Criteria.Proofs.WrittenFilters
import Criteria.Proofs.EscapedTexts
import Criteria.Proofs.DateConditions
import Criteria.Proofs.Rounding
import Criteria.Proofs.ShortestDigits
import Criteria.Proofs.DecimalTexts
import Criteria.Proofs.NumberTexts
import Criteria.Proofs.ReadDigits
import Criteria.Proofs.ScaledDigits
import Criteria.Proofs.WholeNumbers
import Criteria.Proofs.SentNumbers
import Criteria.Proofs.UsableFields
import Criteria.Proofs.Counts
import Criteria.Proofs.Traversal
