import AddonAtlas.Catalog.Basic
import AddonAtlas.Catalog.Filter
import AddonAtlas.Catalog.Graphs
import AddonAtlas.Catalog.Migration
import AddonAtlas.Catalog.Saved
import AddonAtlas.Catalog.Summary
import AddonAtlas.Catalog.Usage
import AddonAtlas.CommandLine.Command
import AddonAtlas.CommandLine.Run
import AddonAtlas.CommandLine.Switch
import AddonAtlas.Decimal.Binary
import AddonAtlas.Decimal.Fixed
import AddonAtlas.Decimal.Read
import AddonAtlas.Decimal.Shortest
import AddonAtlas.Digest.FileSet
import AddonAtlas.Digest.Sha256
import AddonAtlas.Discovery.Assemble
import AddonAtlas.Discovery.Assets
import AddonAtlas.Discovery.DataFiles
import AddonAtlas.Discovery.Imports
import AddonAtlas.Discovery.Site
import AddonAtlas.Discovery.Sources
import AddonAtlas.Discovery.Stops
import AddonAtlas.Discovery.Walk
import AddonAtlas.Entity.Json
import AddonAtlas.Entity.Model
import AddonAtlas.Entity.Record
import AddonAtlas.Entity.ScriptModule
import AddonAtlas.Entity.Status
import AddonAtlas.Files.Path
import AddonAtlas.Files.Tree
import AddonAtlas.Glob.Component
import AddonAtlas.Glob.Match
import AddonAtlas.Glob.Pattern
import AddonAtlas.Glob.Search
import AddonAtlas.Glob.Set
import AddonAtlas.Graph.Basic
import AddonAtlas.Graph.Cycle
import AddonAtlas.Graph.Drawing
import AddonAtlas.Graph.Reach
import AddonAtlas.Graph.View
import AddonAtlas.Json.Decode
import AddonAtlas.Json.Read
import AddonAtlas.Json.Write
import AddonAtlas.Keywords
import AddonAtlas.Main
import AddonAtlas.Markup.Document
import AddonAtlas.Markup.Read
import AddonAtlas.Markup.Records
import AddonAtlas.Markup.Reference
import AddonAtlas.Metric
import AddonAtlas.Ordered.Map
import AddonAtlas.Ordered.Set
import AddonAtlas.Package.Basic
import AddonAtlas.Package.Json
import AddonAtlas.Package.Manifest
import AddonAtlas.Proofs.Catalog.AutoInstall
import AddonAtlas.Proofs.Catalog.Declared
import AddonAtlas.Proofs.Catalog.DefiningClasses
import AddonAtlas.Proofs.Catalog.Filters
import AddonAtlas.Proofs.Catalog.FirstFound
import AddonAtlas.Proofs.Catalog.FullDependency
import AddonAtlas.Proofs.Catalog.Keys
import AddonAtlas.Proofs.Catalog.LonelyNodes
import AddonAtlas.Proofs.Catalog.Migration
import AddonAtlas.Proofs.Catalog.Models
import AddonAtlas.Proofs.Catalog.ModuleGraph
import AddonAtlas.Proofs.Catalog.Owners
import AddonAtlas.Proofs.Catalog.Relations
import AddonAtlas.Proofs.Catalog.Reports
import AddonAtlas.Proofs.Catalog.Saturation
import AddonAtlas.Proofs.Catalog.Saved
import AddonAtlas.Proofs.Catalog.ScriptComplexities
import AddonAtlas.Proofs.Catalog.Selection
import AddonAtlas.Proofs.Catalog.Shown
import AddonAtlas.Proofs.Catalog.Structure
import AddonAtlas.Proofs.Catalog.ViewCycles
import AddonAtlas.Proofs.Catalog.ViewLinks
import AddonAtlas.Proofs.Catalog.ViewTotals
import AddonAtlas.Proofs.Decimal.Rounding
import AddonAtlas.Proofs.Decimal.Whole
import AddonAtlas.Proofs.Decimal.WholeText
import AddonAtlas.Proofs.Digest.FileSet
import AddonAtlas.Proofs.Digest.Order
import AddonAtlas.Proofs.Digest.Relocation
import AddonAtlas.Proofs.Discovery.Agreement
import AddonAtlas.Proofs.Discovery.Classes
import AddonAtlas.Proofs.Discovery.Contents
import AddonAtlas.Proofs.Discovery.DataFiles
import AddonAtlas.Proofs.Discovery.Digest
import AddonAtlas.Proofs.Discovery.ImportChains
import AddonAtlas.Proofs.Discovery.MissingFiles
import AddonAtlas.Proofs.Discovery.RelativeImports
import AddonAtlas.Proofs.Discovery.Resolution
import AddonAtlas.Proofs.Discovery.Scripts
import AddonAtlas.Proofs.Discovery.Sources
import AddonAtlas.Proofs.Discovery.Tables
import AddonAtlas.Proofs.Discovery.Walk
import AddonAtlas.Proofs.Files.Components
import AddonAtlas.Proofs.Files.Directories
import AddonAtlas.Proofs.Files.PathSets
import AddonAtlas.Proofs.Files.Places
import AddonAtlas.Proofs.Glob.Search
import AddonAtlas.Proofs.Graph.Cycles
import AddonAtlas.Proofs.Graph.Drawings
import AddonAtlas.Proofs.Graph.Elision
import AddonAtlas.Proofs.Graph.Inner
import AddonAtlas.Proofs.Graph.Notation
import AddonAtlas.Proofs.Graph.Reach
import AddonAtlas.Proofs.Graph.Restarts
import AddonAtlas.Proofs.Graph.Views
import AddonAtlas.Proofs.Json.Decode
import AddonAtlas.Proofs.Json.Numbers
import AddonAtlas.Proofs.Json.RoundTrip
import AddonAtlas.Proofs.Json.WholeFloats
import AddonAtlas.Proofs.Markup.References
import AddonAtlas.Proofs.Ordered.Gathered
import AddonAtlas.Proofs.Ordered.Lookup
import AddonAtlas.Proofs.Package.Filing
import AddonAtlas.Proofs.Package.Merging
import AddonAtlas.Proofs.Package.Pieces
import AddonAtlas.Proofs.Package.Saved
import AddonAtlas.Proofs.Package.Words
import AddonAtlas.Proofs.Script.AddressPattern
import AddonAtlas.Proofs.Script.ModulePaths
import AddonAtlas.Proofs.Script.ModuleTags
import AddonAtlas.Proofs.Script.StaticTrees
import AddonAtlas.Proofs.Source.Decisions
import AddonAtlas.Proofs.Source.Declarations
import AddonAtlas.Proofs.Source.Imports
import AddonAtlas.Proofs.Source.Indentation
import AddonAtlas.Proofs.Source.Integers
import AddonAtlas.Proofs.Source.Literals
import AddonAtlas.Proofs.Source.OwnNames
import AddonAtlas.Proofs.Source.Parameters
import AddonAtlas.Proofs.Source.Reading
import AddonAtlas.Proofs.Source.Recovery
import AddonAtlas.Proofs.Source.Statements
import AddonAtlas.Proofs.Source.StringItems
import AddonAtlas.Proofs.Source.StringPieces
import AddonAtlas.Proofs.Source.StringText
import AddonAtlas.Proofs.Text.Split
import AddonAtlas.Proofs.Tool.ComplexityReports
import AddonAtlas.Proofs.Tool.LineReports
import AddonAtlas.Script.ModulePath
import AddonAtlas.Script.Read
import AddonAtlas.Settings.Basic
import AddonAtlas.Settings.Data
import AddonAtlas.Settings.File
import AddonAtlas.Source.Complexity
import AddonAtlas.Source.Converter
import AddonAtlas.Source.Cursor
import AddonAtlas.Source.Declarations
import AddonAtlas.Source.Grammar.CasePattern
import AddonAtlas.Source.Grammar.Expression
import AddonAtlas.Source.Grammar.Simple
import AddonAtlas.Source.Grammar.Statement
import AddonAtlas.Source.Grammar.Strings
import AddonAtlas.Source.Grammar.Types
import AddonAtlas.Source.Indentation
import AddonAtlas.Source.Layout
import AddonAtlas.Source.Lexeme
import AddonAtlas.Source.Literal
import AddonAtlas.Source.Quoted
import AddonAtlas.Source.Recovery
import AddonAtlas.Source.Tree
import AddonAtlas.Source.Unit
import AddonAtlas.Text.CharSet
import AddonAtlas.Text.Classes
import AddonAtlas.Text.IdentifierChars
import AddonAtlas.Text.Lines
import AddonAtlas.Text.Position
import AddonAtlas.Text.WordChars
import AddonAtlas.Toml.Read
import AddonAtlas.Toml.Scalar
import AddonAtlas.Toml.Table
import AddonAtlas.Tool.ComplexityReport
import AddonAtlas.Tool.Error
import AddonAtlas.Tool.LineReport
import AddonAtlas.Tool.Program
import AddonAtlas.Tool.Substitution
import AddonAtlas.Value
