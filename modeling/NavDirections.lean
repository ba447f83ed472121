import NavDirections.Command.Report
import NavDirections.Command.LogLevel
import NavDirections.Command.Options
import NavDirections.Command.Run
import NavDirections.Declaration.Class
import NavDirections.Declaration.Statement
import NavDirections.Declaration.TypeName
import NavDirections.Directions.ArgumentClass
import NavDirections.Directions.Basic
import NavDirections.Directions.Fault
import NavDirections.FileTree.Basic
import NavDirections.FileTree.Path
import NavDirections.Generation.Basic
import NavDirections.Generation.Output
import NavDirections.Generation.Request
import NavDirections.Graph.ArgumentType
import NavDirections.Graph.Basic
import NavDirections.Graph.Catalog
import NavDirections.Graph.Document
import NavDirections.Graph.Fault
import NavDirections.Graph.Literal
import NavDirections.Graph.Naming
import NavDirections.Json.Basic
import NavDirections.Json.Display
import NavDirections.Json.Reader
import NavDirections.Json.Writer
import NavDirections.Loading.Basic
import NavDirections.Loading.Url
import NavDirections.Main
import NavDirections.Number.Binary
import NavDirections.Number.Decimal
import NavDirections.Number.Shortest
import NavDirections.Settings.Basic
import NavDirections.Settings.File
import NavDirections.Source.Layout
import NavDirections.Source.Imports
import NavDirections.Template.Engine
import NavDirections.Template.Filter
import NavDirections.Template.Places
import NavDirections.Text.Basic
import NavDirections.Text.Blank
import NavDirections.Text.Case
import NavDirections.Text.Lines
import NavDirections.Text.Quoted
import NavDirections.Text.Utf8
import NavDirections.Text.Word
import NavDirections.Proofs.LiteralReading
import NavDirections.Proofs.Segments
import NavDirections.Proofs.HeldArguments
import NavDirections.Proofs.NameResolution
import NavDirections.Proofs.Execution
import NavDirections.Proofs.StoredArguments
import NavDirections.Proofs.Rendering
import NavDirections.Proofs.MemberShapes
import NavDirections.Proofs.DescribedFiles
import NavDirections.Proofs.Traversal
import NavDirections.Proofs.SourcePaths
import NavDirections.Proofs.GeneratedSources
import NavDirections.Proofs.ClassCollisions
import NavDirections.Proofs.NestedNames
import NavDirections.Proofs.OutputConfinement
import NavDirections.Proofs.DocumentFaults
import NavDirections.Proofs.DocumentForms
import NavDirections.Proofs.NumeralForms
import NavDirections.Proofs.Initializers
import NavDirections.Proofs.Breakdowns
import NavDirections.Proofs.ObscuredNames
import NavDirections.Proofs.GenerateEffects
import NavDirections.Proofs.CleanLines
import NavDirections.Proofs.LayoutPrinter
import NavDirections.Proofs.SourceLayout
import NavDirections.Proofs.Rounding
import NavDirections.Proofs.NumeralReading
import NavDirections.Proofs.JsonReading
import NavDirections.Proofs.ReadableValues
import NavDirections.Proofs.ByteReading
import NavDirections.Proofs.WrittenDocuments
import NavDirections.Proofs.NamedValues
import NavDirections.Proofs.SavedSettings
import NavDirections.Proofs.ImportSection
import NavDirections.Proofs.MethodClashes
import NavDirections.Proofs.DerivedPackages
import NavDirections.Proofs.NameWarnings
import NavDirections.Proofs.LayeredSettings
import NavDirections.Proofs.ActionTable
import NavDirections.Proofs.IntegerValues
import NavDirections.Proofs.NearestNumbers
import NavDirections.Proofs.FloatRange
import NavDirections.Proofs.FaultPlaces
import NavDirections.Proofs.FirstFaults
import NavDirections.Proofs.WrittenSources
import NavDirections.Proofs.LoadingFaults
import NavDirections.Proofs.TidyLines
import NavDirections.Proofs.SlotPatterns
import NavDirections.Proofs.GuessedClasses
import NavDirections.Proofs.AddedTemplates
import NavDirections.Proofs.Lookup
import NavDirections.Proofs.IndentedLines
import NavDirections.Proofs.ShownTypes
import NavDirections.Proofs.TypeRegistration
