import QueryClient.Main
import QueryClient.Proofs.Traversal
import QueryClient.Proofs.Script.Lines
import QueryClient.Proofs.Script.TemplateLiteral
import QueryClient.Proofs.Naming.Identifier
import QueryClient.Proofs.Naming.Supply
import QueryClient.Proofs.Naming.Requests
import QueryClient.Proofs.Naming.Occurrences
import QueryClient.Proofs.Naming.FirstLetter
import QueryClient.Proofs.Generation.Grouping
import QueryClient.Proofs.Script.Reading
import QueryClient.Proofs.Driver.Placeholders
import QueryClient.Proofs.Driver.Rows
import QueryClient.Proofs.Generation.Wiring
import QueryClient.Proofs.Generation.Refusal
import QueryClient.Proofs.Driver.ColumnType
import QueryClient.Proofs.Script.Nesting
import QueryClient.Proofs.Script.Containment
import QueryClient.Proofs.Driver.Vocabulary
import QueryClient.Proofs.Driver.Containment
import QueryClient.Proofs.Driver.Lines
import QueryClient.Proofs.Generation.Containment
import QueryClient.Proofs.Generation.FileLayout
import QueryClient.Proofs.Generation.OutputNames
import QueryClient.Proofs.Script.TemplateValue
import QueryClient.Proofs.Text.Utf8
import QueryClient.Proofs.Wire.Record
import QueryClient.Proofs.Wire.Field
import QueryClient.Proofs.Wire.Grammar
import QueryClient.Proofs.Wire.Extent
import QueryClient.Proofs.Wire.UnknownFields
import QueryClient.Proofs.Wire.RoundTrip
import QueryClient.Proofs.Wire.Conversion
import QueryClient.Proofs.Generation.Metadata
import QueryClient.Proofs.Generation.Preview
import QueryClient.Proofs.Generation.TopLevelNames
import QueryClient.Proofs.CommandLine.Run
import QueryClient.Proofs.Json.Reading
import QueryClient.Proofs.Json.Record
import QueryClient.Proofs.Json.RoundTrip
import QueryClient.Proofs.Script.BlankLines
import QueryClient.Proofs.Script.Edits
import QueryClient.Proofs.Script.TypeReading
import QueryClient.Proofs.Driver.TypeSpelling
import QueryClient.Proofs.Generation.Imports
import QueryClient.Proofs.Driver.Siblings
import QueryClient.Proofs.Naming.Bindings
import QueryClient.Proofs.Generation.Exports
import QueryClient.Proofs.Json.Embedding
import QueryClient.Proofs.Script.Indentation
import QueryClient.Proofs.Text.Place
import QueryClient.Proofs.Naming.CamelCase
import QueryClient.Proofs.Driver.ArrayLayers
