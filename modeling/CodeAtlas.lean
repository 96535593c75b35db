import CodeAtlas.Address
import CodeAtlas.Address.Authority
import CodeAtlas.Address.Numeric
import CodeAtlas.Annotation
import CodeAtlas.Decimal.Shortest
import CodeAtlas.Declaration
import CodeAtlas.Failure
import CodeAtlas.Glob.Brace
import CodeAtlas.Glob.Exclusion
import CodeAtlas.Glob.Expression
import CodeAtlas.Glob.Pattern
import CodeAtlas.Glob.Piece
import CodeAtlas.Glob.Spec
import CodeAtlas.Index.Basic
import CodeAtlas.Index.Declared
import CodeAtlas.Index.Discovery
import CodeAtlas.Json
import CodeAtlas.Json.Literal
import CodeAtlas.Json.Reader
import CodeAtlas.Language.Basic
import CodeAtlas.Language.Detection
import CodeAtlas.Log.Basic
import CodeAtlas.Log.Logger
import CodeAtlas.Outline.Basic
import CodeAtlas.Outline.Declared
import CodeAtlas.Outline.Java
import CodeAtlas.Outline.OfTree
import CodeAtlas.Outline.Python
import CodeAtlas.Outline.Script
import CodeAtlas.Parser.History
import CodeAtlas.Parser.Parsing
import CodeAtlas.Parser.Registry
import CodeAtlas.Path
import CodeAtlas.Proofs.Annotation
import CodeAtlas.Proofs.Annotation.Expression
import CodeAtlas.Proofs.Annotation.Meaning
import CodeAtlas.Proofs.Annotation.Rendering
import CodeAtlas.Proofs.Dedup
import CodeAtlas.Proofs.Glob.Brace
import CodeAtlas.Proofs.Index.Declared
import CodeAtlas.Proofs.Index.Discovery
import CodeAtlas.Proofs.Index.Form
import CodeAtlas.Proofs.Index.History
import CodeAtlas.Proofs.Index.Limit
import CodeAtlas.Proofs.Index.Scan
import CodeAtlas.Proofs.Json.Atom
import CodeAtlas.Proofs.Json.Document
import CodeAtlas.Proofs.Json.Grammar
import CodeAtlas.Proofs.Json.Nesting
import CodeAtlas.Proofs.Json.Number
import CodeAtlas.Proofs.Json.String
import CodeAtlas.Proofs.Outcome
import CodeAtlas.Proofs.Outline.Assembly
import CodeAtlas.Proofs.Outline.Assignment
import CodeAtlas.Proofs.Outline.Comment
import CodeAtlas.Proofs.Outline.Comment.Java
import CodeAtlas.Proofs.Outline.Comment.Python
import CodeAtlas.Proofs.Outline.Comment.Reader
import CodeAtlas.Proofs.Outline.Comment.Script
import CodeAtlas.Proofs.Outline.Comment.ScriptImport
import CodeAtlas.Proofs.Outline.Fault
import CodeAtlas.Proofs.Outline.Flags
import CodeAtlas.Proofs.Outline.ImportOrder
import CodeAtlas.Proofs.Outline.Initialiser
import CodeAtlas.Proofs.Outline.Mirror
import CodeAtlas.Proofs.Outline.NestedType
import CodeAtlas.Proofs.Outline.Place
import CodeAtlas.Proofs.Outline.TopLevel
import CodeAtlas.Proofs.Parser.Eager
import CodeAtlas.Proofs.Parser.Entry
import CodeAtlas.Proofs.Parser.Furnish
import CodeAtlas.Proofs.Parser.History
import CodeAtlas.Proofs.Parser.Reliable
import CodeAtlas.Proofs.Parser.Standard
import CodeAtlas.Proofs.Path.Cancel
import CodeAtlas.Proofs.Path.Climb
import CodeAtlas.Proofs.Path.Join
import CodeAtlas.Proofs.Path.Normal
import CodeAtlas.Proofs.Path.Place
import CodeAtlas.Proofs.Relation.Extraction
import CodeAtlas.Proofs.Relation.Injection
import CodeAtlas.Proofs.Relation.Partition
import CodeAtlas.Proofs.Renaming.Annotation
import CodeAtlas.Proofs.Renaming.Import
import CodeAtlas.Proofs.Renaming.Lead
import CodeAtlas.Proofs.Renaming.Python
import CodeAtlas.Proofs.Renaming.Reference
import CodeAtlas.Proofs.Renaming.Script
import CodeAtlas.Proofs.Renaming.Text
import CodeAtlas.Proofs.Renaming.Tree
import CodeAtlas.Proofs.Sequence.Analyzer
import CodeAtlas.Proofs.Sequence.Constructors
import CodeAtlas.Proofs.Sequence.Lexical
import CodeAtlas.Proofs.Sequence.Merge
import CodeAtlas.Proofs.Sequence.Nesting
import CodeAtlas.Proofs.Sequence.Origin
import CodeAtlas.Proofs.Sequence.Pairs
import CodeAtlas.Proofs.Sequence.Participants
import CodeAtlas.Proofs.Sequence.Recording
import CodeAtlas.Proofs.Sequence.Scope
import CodeAtlas.Proofs.Sequence.Shadowing
import CodeAtlas.Proofs.Sequence.Targets
import CodeAtlas.Proofs.Settings.File
import CodeAtlas.Proofs.Settings.Normal
import CodeAtlas.Proofs.Sorted
import CodeAtlas.Proofs.Specifier.Module
import CodeAtlas.Proofs.Store.Canonical
import CodeAtlas.Proofs.Store.Directory
import CodeAtlas.Proofs.Store.History
import CodeAtlas.Proofs.Store.Ignore
import CodeAtlas.Proofs.Store.Lawful
import CodeAtlas.Proofs.Syntax.Ancestor
import CodeAtlas.Proofs.Syntax.Capture
import CodeAtlas.Proofs.Syntax.Chain
import CodeAtlas.Proofs.Syntax.Comment
import CodeAtlas.Proofs.Syntax.Span
import CodeAtlas.Proofs.Syntax.Walk
import CodeAtlas.Proofs.Table
import CodeAtlas.Proofs.Text.Balance
import CodeAtlas.Proofs.Text.Bracket
import CodeAtlas.Proofs.Text.Contiguous
import CodeAtlas.Proofs.Text.Name
import CodeAtlas.Proofs.Text.Split
import CodeAtlas.Proofs.Traversal.Addition
import CodeAtlas.Proofs.Traversal.Alias
import CodeAtlas.Proofs.Traversal.Clean
import CodeAtlas.Proofs.Traversal.Contents
import CodeAtlas.Proofs.Traversal.Depth
import CodeAtlas.Proofs.Traversal.Drain
import CodeAtlas.Proofs.Traversal.Duality
import CodeAtlas.Proofs.Traversal.Forward
import CodeAtlas.Proofs.Traversal.Graph
import CodeAtlas.Proofs.Traversal.History
import CodeAtlas.Proofs.Traversal.Level
import CodeAtlas.Proofs.Traversal.Merge
import CodeAtlas.Proofs.Traversal.Neighbours
import CodeAtlas.Proofs.Traversal.NextHop
import CodeAtlas.Proofs.Traversal.Operation
import CodeAtlas.Proofs.Traversal.OwnName
import CodeAtlas.Proofs.Traversal.Package
import CodeAtlas.Proofs.Traversal.Parsed
import CodeAtlas.Proofs.Traversal.Placement
import CodeAtlas.Proofs.Traversal.Queue
import CodeAtlas.Proofs.Traversal.Refinement
import CodeAtlas.Proofs.Traversal.Report
import CodeAtlas.Proofs.Traversal.Reverse
import CodeAtlas.Proofs.Traversal.Run
import CodeAtlas.Proofs.Traversal.Saturation
import CodeAtlas.Proofs.Traversal.Scope
import CodeAtlas.Proofs.Traversal.Search
import CodeAtlas.Proofs.Traversal.Simulation
import CodeAtlas.Proofs.Traversal.Supplied
import CodeAtlas.Proofs.Traversal.Union
import CodeAtlas.Relation.Basic
import CodeAtlas.Relation.Extraction
import CodeAtlas.Sequence.Analyzer
import CodeAtlas.Sequence.Basic
import CodeAtlas.Sequence.Extraction
import CodeAtlas.Sequence.Merge
import CodeAtlas.Sequence.Scope
import CodeAtlas.Sequence.TypeTable
import CodeAtlas.Settings.Basic
import CodeAtlas.Settings.File
import CodeAtlas.Specifier
import CodeAtlas.Store.Directory
import CodeAtlas.Store.Directory.History
import CodeAtlas.Store.Memory
import CodeAtlas.Store.View
import CodeAtlas.Syntax.Call
import CodeAtlas.Syntax.Capture
import CodeAtlas.Syntax.Name
import CodeAtlas.Syntax.Node
import CodeAtlas.Syntax.Walk
import CodeAtlas.Text.Bracket
import CodeAtlas.Text.Hex
import CodeAtlas.Text.Line
import CodeAtlas.Text.Lowercase
import CodeAtlas.Text.Printable
import CodeAtlas.Text.Quoted
import CodeAtlas.Text.Range
import CodeAtlas.Text.Slice
import CodeAtlas.Text.Surrogate
import CodeAtlas.Text.Uppercase
import CodeAtlas.Text.Utf8
import CodeAtlas.Text.Word
import CodeAtlas.Traversal.Analyzer
import CodeAtlas.Traversal.Graph
import CodeAtlas.Traversal.Level
import CodeAtlas.Traversal.Lookup
import CodeAtlas.Traversal.Mode
import CodeAtlas.Traversal.Project
import CodeAtlas.Traversal.Queue
import CodeAtlas.Traversal.Report
import CodeAtlas.Traversal.Search
import CodeAtlas.Traversal.Session
import CodeAtlas.Traversal.Trace
import CodeAtlas.TypeName
