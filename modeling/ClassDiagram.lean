import ClassDiagram.Event
import ClassDiagram.Extraction
import ClassDiagram.Fault
import ClassDiagram.FileSystem
import ClassDiagram.Grammar.Automaton
import ClassDiagram.Grammar.Java
import ClassDiagram.Grammar.Kind
import ClassDiagram.Grammar.Lexicon
import ClassDiagram.Grammar.Parse
import ClassDiagram.Grammar.Production
import ClassDiagram.Grammar.Reading
import ClassDiagram.Grammar.Repair
import ClassDiagram.Grammar.Rule
import ClassDiagram.Grammar.Scanner
import ClassDiagram.Grammar.Tree
import ClassDiagram.Grammar.Word
import ClassDiagram.Imports
import ClassDiagram.Json.Printer
import ClassDiagram.Json.Reader
import ClassDiagram.Json.Record
import ClassDiagram.Json.Value
import ClassDiagram.Language
import ClassDiagram.Path
import ClassDiagram.Policy
import ClassDiagram.Policy.Codec
import ClassDiagram.Proofs.Extraction.Endpoints
import ClassDiagram.Proofs.Extraction.Filtering
import ClassDiagram.Proofs.Extraction.Footprint
import ClassDiagram.Proofs.Extraction.Imports
import ClassDiagram.Proofs.Extraction.Layout
import ClassDiagram.Proofs.Extraction.Locality
import ClassDiagram.Proofs.Extraction.Log
import ClassDiagram.Proofs.Extraction.Names
import ClassDiagram.Proofs.Extraction.Noninterference
import ClassDiagram.Proofs.Extraction.Outline
import ClassDiagram.Proofs.Extraction.Ownership
import ClassDiagram.Proofs.Extraction.Relocation
import ClassDiagram.Proofs.Grammar.Check
import ClassDiagram.Proofs.Grammar.Conformance
import ClassDiagram.Proofs.Grammar.Count
import ClassDiagram.Proofs.Grammar.Parts
import ClassDiagram.Proofs.Grammar.Productions
import ClassDiagram.Proofs.Grammar.Soundness
import ClassDiagram.Proofs.Grammar.Spans
import ClassDiagram.Proofs.Grammar.Weaving
import ClassDiagram.Proofs.Grammar.Wording
import ClassDiagram.Proofs.Imports.Resolution
import ClassDiagram.Proofs.Json.Grammar
import ClassDiagram.Proofs.Json.RoundTrip
import ClassDiagram.Proofs.Policy.Decoding
import ClassDiagram.Proofs.Service.Batch
import ClassDiagram.Proofs.Service.Entries
import ClassDiagram.Proofs.Text.Dotted
import ClassDiagram.Proofs.Unit.Address
import ClassDiagram.Proofs.Unit.Bodies
import ClassDiagram.Proofs.Unit.Brackets
import ClassDiagram.Proofs.Unit.Clauses
import ClassDiagram.Proofs.Unit.Correspondence
import ClassDiagram.Proofs.Unit.Dimensions
import ClassDiagram.Proofs.Unit.Faults
import ClassDiagram.Proofs.Unit.Layout
import ClassDiagram.Proofs.Unit.Lines
import ClassDiagram.Proofs.Unit.Parameters
import ClassDiagram.Proofs.Unit.Reading
import ClassDiagram.Proofs.Unit.Shape
import ClassDiagram.Proofs.Unit.Sites
import ClassDiagram.Proofs.Unit.Stripping
import ClassDiagram.Proofs.Unit.Tidy
import ClassDiagram.Proofs.Unit.TypePath
import ClassDiagram.Proofs.Unit.WellFormed
import ClassDiagram.Proofs.View.RoundTrip
import ClassDiagram.Service
import ClassDiagram.Text.Blank
import ClassDiagram.Text.Dotted
import ClassDiagram.Text.Identifier
import ClassDiagram.Text.IdentifierRanges
import ClassDiagram.Text.Pattern
import ClassDiagram.Text.Span
import ClassDiagram.Unit
import ClassDiagram.Unit.OfTree
import ClassDiagram.View
import ClassDiagram.View.Codec
import ClassDiagram.Visibility
