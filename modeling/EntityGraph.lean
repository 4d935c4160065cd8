import EntityGraph.Check.Dropped
import EntityGraph.Check.References
import EntityGraph.Check.Structure
import EntityGraph.Configuration
import EntityGraph.Documents
import EntityGraph.Files.Search
import EntityGraph.Graph.Change
import EntityGraph.Json.Printer
import EntityGraph.Json.Reader
import EntityGraph.Lint.Run
import EntityGraph.Log.Routing
import EntityGraph.Main
import EntityGraph.Number.Integer
import EntityGraph.Proofs.Check.Dropped
import EntityGraph.Proofs.Check.References
import EntityGraph.Proofs.Model.Entries
import EntityGraph.Proofs.Model.FieldType
import EntityGraph.Proofs.Model.Loading
import EntityGraph.Proofs.Model.RoundTrip
import EntityGraph.Proofs.Query
import EntityGraph.Proofs.Schema.Acceptance
import EntityGraph.Proofs.Schema.ProjectDocuments
import EntityGraph.Schema.Catalog
import EntityGraph.Source.Location
import EntityGraph.Yaml.Document
import EntityGraph.Yaml.Grammar
import EntityGraph.Yaml.Token.Stream
import EntityGraph.Proofs.Graph.Lineage
import EntityGraph.Proofs.Model.Reading
import EntityGraph.Proofs.Check.Missing
import EntityGraph.Proofs.Schema.Location
import EntityGraph.Proofs.Schema.Telling
import EntityGraph.Proofs.Check.Explained
import EntityGraph.Proofs.Model.Lossless
import EntityGraph.Proofs.Graph.Numbering
import EntityGraph.Proofs.Check.ValidReferences
import EntityGraph.Proofs.Lint.ValidDocuments
import EntityGraph.Proofs.Check.Designated
import EntityGraph.Proofs.Source.Positions
import EntityGraph.Proofs.Documents.Texts
import EntityGraph.Proofs.Lint.Positions
import EntityGraph.Proofs.Lint.ExitStatus
import EntityGraph.Proofs.Check.WrittenProjects
import EntityGraph.Proofs.Documents.History
import EntityGraph.Proofs.Graph.OpenGenerics
import EntityGraph.Proofs.Lint.Batches
import EntityGraph.Proofs.Documents.Failures
import EntityGraph.Proofs.Check.Reordering
import EntityGraph.Proofs.Graph.InheritedFields
import EntityGraph.Proofs.Graph.Locality
import EntityGraph.Proofs.Graph.Faults
import EntityGraph.Proofs.Check.DropRecords
import EntityGraph.Proofs.Check.LostReferences
import EntityGraph.Proofs.Model.TypeEquality
import EntityGraph.Proofs.Schema.TypesOfFields
import EntityGraph.Proofs.Model.Isolation
import EntityGraph.Proofs.Graph.Resolution
import EntityGraph.Proofs.Check.Separation
import EntityGraph.Proofs.Source.Parts
import EntityGraph.Proofs.Source.Nearest
import EntityGraph.Proofs.Model.ListLayers
import EntityGraph.Proofs.Model.FirstItem
import EntityGraph.Proofs.Files.Order
import EntityGraph.Proofs.Files.Search
import EntityGraph.Proofs.Value.Lines
import EntityGraph.Proofs.Check.Lines
import EntityGraph.Proofs.Lint.Annotations
import EntityGraph.Proofs.Source.Pointers
