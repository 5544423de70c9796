import LiveDoc.Library.Construction
import LiveDoc.Main
import LiveDoc.Proofs.Arity
import LiveDoc.Proofs.CallNodes
import LiveDoc.Proofs.Classification
import LiveDoc.Proofs.Canonical
import LiveDoc.Proofs.Course
import LiveDoc.Proofs.DecodedText
import LiveDoc.Proofs.DriverFed
import LiveDoc.Proofs.Evaluation
import LiveDoc.Proofs.Execution
import LiveDoc.Proofs.Gathering
import LiveDoc.Proofs.Inspection
import LiveDoc.Proofs.Invocations
import LiveDoc.Proofs.JsonDocument
import LiveDoc.Proofs.JsonGrammar
import LiveDoc.Proofs.JsonReading
import LiveDoc.Proofs.JsonText
import LiveDoc.Proofs.Literals
import LiveDoc.Proofs.Malformed
import LiveDoc.Proofs.Modes
import LiveDoc.Proofs.NumberText
import LiveDoc.Proofs.OwnFailures
import LiveDoc.Proofs.RepeatedKeys
import LiveDoc.Proofs.Reporting
import LiveDoc.Proofs.Rounding
import LiveDoc.Proofs.Samples
import LiveDoc.Proofs.Shortest
import LiveDoc.Proofs.Structured
import LiveDoc.Proofs.Tracing
import LiveDoc.Proofs.Transformation
import LiveDoc.Proofs.Visits
import LiveDoc.Proofs.DecodedValues
import LiveDoc.Proofs.JsonRoundTrip
import LiveDoc.Proofs.Quiet
import LiveDoc.Proofs.StandardCalls
import LiveDoc.Proofs.Printing
import LiveDoc.Proofs.StandardEngines
import LiveDoc.Proofs.StandardSession
import LiveDoc.Proofs.Dialogue
import LiveDoc.Proofs.FileMode
import LiveDoc.Proofs.YamlCursor
import LiveDoc.Proofs.YamlQuoted
import LiveDoc.Proofs.YamlHalted
import LiveDoc.Proofs.YamlFlow
import LiveDoc.Proofs.YamlComposing
import LiveDoc.Proofs.YamlSteps
import LiveDoc.Proofs.YamlKeys
import LiveDoc.Proofs.NumberShape
import LiveDoc.Proofs.YamlPlain
import LiveDoc.Proofs.YamlOfJson
import LiveDoc.Proofs.YamlBuild
import LiveDoc.Proofs.YamlReadsJson
import LiveDoc.Proofs.JsonLines
import LiveDoc.Proofs.Hook
import LiveDoc.Proofs.DataContext
import LiveDoc.Proofs.Resolved
import LiveDoc.Proofs.YamlFolded
import LiveDoc.Proofs.YamlQuotedLines
import LiveDoc.Proofs.YamlPlainLines
import LiveDoc.Proofs.YamlBlocks
import LiveDoc.Proofs.YamlScalars
import LiveDoc.Proofs.YamlLines
import LiveDoc.Proofs.YamlBlockEvents
import LiveDoc.Proofs.YamlBlockNodes
import LiveDoc.Proofs.YamlWritten
import LiveDoc.Proofs.YamlWrittenTokens
import LiveDoc.Proofs.YamlLeaves
import LiveDoc.Proofs.YamlRoundTrip
import LiveDoc.Proofs.Display
import LiveDoc.Proofs.Guessing
import LiveDoc.Proofs.Locality
import LiveDoc.Proofs.Extension
import LiveDoc.Proofs.Finding
import LiveDoc.Proofs.DeferredLookup
import LiveDoc.Proofs.ClosingOrder
import LiveDoc.Proofs.ClosingBraces
import LiveDoc.Proofs.HookedReading
import LiveDoc.Proofs.LibraryDates
import LiveDoc.Proofs.CalendarFields
import LiveDoc.Proofs.DateText
import LiveDoc.Proofs.MomentText
import LiveDoc.Proofs.BinaryValue
import LiveDoc.Proofs.Milliseconds
import LiveDoc.Proofs.JsonDomain
import LiveDoc.Proofs.Coercion
import LiveDoc.Proofs.ModeOption
