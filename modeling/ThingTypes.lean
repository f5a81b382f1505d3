import ThingTypes.Catalog.Basic
import ThingTypes.Catalog.Classes
import ThingTypes.Catalog.Enums
import ThingTypes.Catalog.NameTable
import ThingTypes.CommandLine.Arguments
import ThingTypes.CommandLine.Run
import ThingTypes.Decimal.Binary64
import ThingTypes.Decimal.Shortest
import ThingTypes.Digest.Fingerprint
import ThingTypes.Digest.Sha256
import ThingTypes.Entries
import ThingTypes.Error
import ThingTypes.Generation.Assembly
import ThingTypes.Generation.Feature
import ThingTypes.Generation.GeneratedModel
import ThingTypes.Generation.Loading
import ThingTypes.Generation.Options
import ThingTypes.Generation.Run
import ThingTypes.Grouping
import ThingTypes.Identifier.Candidates
import ThingTypes.Identifier.Names
import ThingTypes.Identifier.Words
import ThingTypes.Json.Basic
import ThingTypes.Json.Number
import ThingTypes.Json.Pointer
import ThingTypes.Json.Reader
import ThingTypes.Json.Record
import ThingTypes.Json.Text
import ThingTypes.Kotlin.DocComment
import ThingTypes.Kotlin.Printer
import ThingTypes.Kotlin.Profile
import ThingTypes.Kotlin.SourceFile
import ThingTypes.Location
import ThingTypes.Main
import ThingTypes.Package
import ThingTypes.Proofs.Catalog.Claims
import ThingTypes.Proofs.Catalog.Packages
import ThingTypes.Proofs.Decimal.Rounding
import ThingTypes.Proofs.Decimal.Text
import ThingTypes.Proofs.Digest.Members
import ThingTypes.Proofs.EnumRegistration
import ThingTypes.Proofs.Generation.ActionEnums
import ThingTypes.Proofs.Generation.AsciiNames
import ThingTypes.Proofs.Generation.Assembled
import ThingTypes.Proofs.Generation.BaseChains
import ThingTypes.Proofs.Generation.Changes
import ThingTypes.Proofs.Generation.Closure
import ThingTypes.Proofs.Generation.Composition
import ThingTypes.Proofs.Generation.Declarations
import ThingTypes.Proofs.Generation.DigestedTexts
import ThingTypes.Proofs.Generation.DistinctKeys
import ThingTypes.Proofs.Generation.FeatureFields
import ThingTypes.Proofs.Generation.FeatureSchema
import ThingTypes.Proofs.Generation.Hygiene
import ThingTypes.Proofs.Generation.Inlining
import ThingTypes.Proofs.Generation.Interfaces
import ThingTypes.Proofs.Generation.Locality
import ThingTypes.Proofs.Generation.Members
import ThingTypes.Proofs.Generation.OptionalProperties
import ThingTypes.Proofs.Generation.OutputPaths
import ThingTypes.Proofs.Generation.Results
import ThingTypes.Proofs.Generation.TypeNames
import ThingTypes.Proofs.Grouping
import ThingTypes.Proofs.Identifier.Candidates
import ThingTypes.Proofs.Identifier.Parents
import ThingTypes.Proofs.Identifier.Plain
import ThingTypes.Proofs.Identifier.Recasing
import ThingTypes.Proofs.Identifier.Search
import ThingTypes.Proofs.Identifier.Segments
import ThingTypes.Proofs.Identifier.Spelling
import ThingTypes.Proofs.Identifier.TypeNames
import ThingTypes.Proofs.Identifier.Words
import ThingTypes.Proofs.Json.Agreement
import ThingTypes.Proofs.Json.Parts
import ThingTypes.Proofs.Json.Pointer
import ThingTypes.Proofs.Json.Sorted
import ThingTypes.Proofs.Json.Substitution
import ThingTypes.Proofs.Json.Text
import ThingTypes.Proofs.Json.Texts
import ThingTypes.Proofs.Kotlin.DocComments
import ThingTypes.Proofs.Kotlin.EnumArguments
import ThingTypes.Proofs.Kotlin.FilePaths
import ThingTypes.Proofs.Kotlin.Imports
import ThingTypes.Proofs.Kotlin.Literals
import ThingTypes.Proofs.Kotlin.SourceLines
import ThingTypes.Proofs.Kotlin.StringReading
import ThingTypes.Proofs.Location
import ThingTypes.Proofs.Location.Inverse
import ThingTypes.Proofs.Location.LexicalForm
import ThingTypes.Proofs.OrderedMap
import ThingTypes.Proofs.Reference.Dropping
import ThingTypes.Proofs.Reference.Expansion
import ThingTypes.Proofs.Reference.Markers
import ThingTypes.Proofs.Reference.MemberOrder
import ThingTypes.Proofs.Reference.Moved
import ThingTypes.Proofs.Reference.Passes
import ThingTypes.Proofs.Reference.Provenance
import ThingTypes.Proofs.Reference.Repeated
import ThingTypes.Proofs.Reference.Sites
import ThingTypes.Proofs.Reference.Splicing
import ThingTypes.Proofs.Reference.Texts
import ThingTypes.Proofs.Resolution.AliasTargets
import ThingTypes.Proofs.Resolution.BaseNames
import ThingTypes.Proofs.Resolution.Calls
import ThingTypes.Proofs.Resolution.Closure
import ThingTypes.Proofs.Resolution.ConstantNames
import ThingTypes.Proofs.Resolution.Declaring
import ThingTypes.Proofs.Resolution.Depth
import ThingTypes.Proofs.Resolution.DigestedTexts
import ThingTypes.Proofs.Resolution.EnumNames
import ThingTypes.Proofs.Resolution.EnumValues
import ThingTypes.Proofs.Resolution.Fidelity
import ThingTypes.Proofs.Resolution.Growth
import ThingTypes.Proofs.Resolution.Homes
import ThingTypes.Proofs.Resolution.Isolation
import ThingTypes.Proofs.Resolution.Labels
import ThingTypes.Proofs.Resolution.Matching
import ThingTypes.Proofs.Resolution.NameSearch
import ThingTypes.Proofs.Resolution.Names
import ThingTypes.Proofs.Resolution.Namespace
import ThingTypes.Proofs.Resolution.NestedEnums
import ThingTypes.Proofs.Resolution.Outcome
import ThingTypes.Proofs.Resolution.Parts
import ThingTypes.Proofs.Resolution.RecordOrder
import ThingTypes.Proofs.Resolution.References
import ThingTypes.Proofs.Resolution.Repetition
import ThingTypes.Proofs.Resolution.Running
import ThingTypes.Proofs.Resolution.SealedHierarchy
import ThingTypes.Proofs.Resolution.Soundness
import ThingTypes.Proofs.Resolution.Steps
import ThingTypes.Proofs.Resolution.TypeNames
import ThingTypes.Proofs.Resolution.Unfinished
import ThingTypes.Proofs.Schema.Acceptance
import ThingTypes.Proofs.Schema.Agreement
import ThingTypes.Proofs.Schema.Induction
import ThingTypes.Proofs.Schema.Reading
import ThingTypes.Proofs.Schema.Skeleton
import ThingTypes.Proofs.Schema.Titles
import ThingTypes.Proofs.Text.Split
import ThingTypes.Proofs.ThingModel.Reading
import ThingTypes.Proofs.TypeGraph.Signatures
import ThingTypes.Proofs.Unicode.CaseMapping
import ThingTypes.Proofs.Unicode.FinalSigma
import ThingTypes.Proofs.Unicode.Letters
import ThingTypes.Reference.Inlining
import ThingTypes.Reference.Marker
import ThingTypes.Resolution.Basic
import ThingTypes.Resolution.EnumContent
import ThingTypes.Resolution.Schema
import ThingTypes.Schema.Node
import ThingTypes.Schema.Reader
import ThingTypes.Schema.Scalar
import ThingTypes.Settings.Basic
import ThingTypes.Settings.Format
import ThingTypes.Settings.KeyPath
import ThingTypes.Settings.Layers
import ThingTypes.Settings.Toml
import ThingTypes.Settings.Value
import ThingTypes.Sorted
import ThingTypes.Storage.FileSystem
import ThingTypes.Storage.FileTree
import ThingTypes.Storage.Path
import ThingTypes.Text.Digits
import ThingTypes.Text.Quoted
import ThingTypes.Text.Split
import ThingTypes.ThingModel.Basic
import ThingTypes.ThingModel.Reader
import ThingTypes.TypeGraph.Declaration
import ThingTypes.TypeGraph.NamingContext
import ThingTypes.TypeGraph.TypeName
import ThingTypes.TypeGraph.TypeRef
import ThingTypes.Unicode.Alphanumeric
import ThingTypes.Unicode.Blank
import ThingTypes.Unicode.CaseMapping
import ThingTypes.Unicode.CodeSet
import ThingTypes.Unicode.LetterCase
import ThingTypes.Unicode.Printable
