import GoPages.Analysis
import GoPages.CommentGroup
import GoPages.Conventions
import GoPages.Conventions.Codec
import GoPages.Conventions.Names
import GoPages.CrossCheck
import GoPages.Diagnostic
import GoPages.Diagnostic.Codec
import GoPages.Diagnostic.Error
import GoPages.Digest.Sha256
import GoPages.Directory
import GoPages.Event.Payload
import GoPages.Event.Subject
import GoPages.HostType
import GoPages.HostType.Codec
import GoPages.HostType.Render
import GoPages.Inheritance
import GoPages.Json
import GoPages.Json.Limits
import GoPages.Json.Magnitude
import GoPages.Json.Parser
import GoPages.Json.Printer
import GoPages.Json.Record
import GoPages.Literal
import GoPages.Location
import GoPages.Model
import GoPages.Model.Codec
import GoPages.Outline
import GoPages.Outline.Findings
import GoPages.Owner
import GoPages.Owner.Attach
import GoPages.Package
import GoPages.Package.Check
import GoPages.Package.Declarations
import GoPages.Parser.Brackets
import GoPages.Parser.Cursor
import GoPages.Parser.Doc
import GoPages.Parser.SourceFile
import GoPages.Parser.TypeExpr
import GoPages.Plugin
import GoPages.Proofs.Analysis.Clean
import GoPages.Proofs.Analysis.Closed
import GoPages.Proofs.Analysis.Provenance
import GoPages.Proofs.Inheritance.Breadth
import GoPages.Proofs.Inheritance.Merge
import GoPages.Proofs.Inheritance.Offers
import GoPages.Proofs.Inheritance.Precedence
import GoPages.Proofs.Owner.Handlers
import GoPages.Proofs.Package.Checked
import GoPages.Proofs.Package.Lines
import GoPages.Proofs.Package.Tables
import GoPages.Proofs.Signature.Body
import GoPages.Route
import GoPages.Route.Comment
import GoPages.Scope
import GoPages.Setting
import GoPages.Signature.Handler
import GoPages.Signature.Inputs
import GoPages.Signature.Outputs
import GoPages.Signature.Parameter
import GoPages.Signature.Shape
import GoPages.Sorting
import GoPages.SourceFile
import GoPages.StructTag
import GoPages.Text.Alphabetic
import GoPages.Text.Blank
import GoPages.Text.Extend
import GoPages.Text.Lines
import GoPages.Text.Numeric
import GoPages.Text.Pieces
import GoPages.Text.Quoted
import GoPages.Text.Ranges
import GoPages.Text.Unprintable
import GoPages.Text.Uppercase
import GoPages.Token
import GoPages.Token.Lexeme
import GoPages.Token.Lexer
import GoPages.TypeExpr
import GoPages.TypeExpr.Render
import GoPages.TypeRole
import GoPages.Proofs.Token.Places
import GoPages.Proofs.Parser.SourceFile
import GoPages.Proofs.Package.Places
import GoPages.Proofs.Analysis.Nesting
import GoPages.Proofs.Analysis.RouteVars
import GoPages.Proofs.Inheritance.Settled
import GoPages.Proofs.Turns
import GoPages.Proofs.Owner.Turns
import GoPages.Proofs.Analysis.Owners
import GoPages.Proofs.Conventions.Standard
import GoPages.Proofs.Owner.Bare
import GoPages.Proofs.Inheritance.Bare
import GoPages.Proofs.Analysis.Plugins
import GoPages.Proofs.Analysis.Embedding
import GoPages.Proofs.Analysis.Methods
import GoPages.Proofs.Token.Shapes
import GoPages.Proofs.Token.Pieces
import GoPages.Proofs.Token.Positions
import GoPages.Proofs.Package.Digest
import GoPages.Proofs.Files.Token
import GoPages.Proofs.Files.Parser
import GoPages.Proofs.Files.Types
import GoPages.Proofs.Files.SourceFile
import GoPages.Proofs.Files.Scope
import GoPages.Proofs.Files.Package
import GoPages.Proofs.Files.Model
import GoPages.Proofs.Files.Outline
import GoPages.Proofs.Files.Signature
import GoPages.Proofs.Files.Owner
import GoPages.Proofs.Files.Inheritance
import GoPages.Proofs.Files.Analysis
import GoPages.Proofs.Analysis.Directories
import GoPages.Proofs.Token.Rescan
import GoPages.Proofs.Token.Semicolons
import GoPages.Proofs.Token.Spelling
import GoPages.Proofs.Parser.Safety
import GoPages.Proofs.Reread.Declaration
import GoPages.Proofs.Reread.Arrays
import GoPages.Proofs.Diagnostic.Order
import GoPages.Proofs.Diagnostic.Sink
import GoPages.Proofs.Analysis.Outcome
import GoPages.Proofs.Analysis.Reordered
import GoPages.Proofs.Package.Resolved
import GoPages.Proofs.Analysis.Resolved
import GoPages.Proofs.Sorting
import GoPages.Proofs.Analysis.Findings
import GoPages.Proofs.Analysis.Roles
import GoPages.Proofs.Analysis.Events
import GoPages.Proofs.Analysis.Passes
import GoPages.Proofs.Package.Loading
import GoPages.Proofs.Signature.Slots
import GoPages.Proofs.Codec.Applications
import GoPages.Proofs.Parser.Marks
import GoPages.Proofs.Helpers.Package
import GoPages.Proofs.Helpers.Outline
import GoPages.Proofs.Helpers.Signature
import GoPages.Proofs.Helpers.Owner
import GoPages.Proofs.Helpers.Alike
import GoPages.Proofs.Owner.Noted
import GoPages.Proofs.Helpers.Receivers
import GoPages.Proofs.Analysis.Helpers
import GoPages.Proofs.Signature.Earliest
import GoPages.Proofs.Signature.Results
import GoPages.Proofs.Analysis.Dispatched
import GoPages.Proofs.Event.Reached
import GoPages.Proofs.Text.Nested
import GoPages.Proofs.HostType.Written
import GoPages.Proofs.HostType.Texts
import GoPages.Proofs.HostType.Denoted
import GoPages.Proofs.Event.Payloads
import GoPages.Proofs.Analysis.AppFields
import GoPages.Proofs.Token.Comments
import GoPages.Proofs.Parser.Docs
import GoPages.Proofs.Parser.Origins
import GoPages.Proofs.Parser.Documented
import GoPages.Proofs.Parser.Groups
import GoPages.Proofs.Route.Segments
import GoPages.Proofs.CommentGroup.Lines
import GoPages.Proofs.Event.Subjects
import GoPages.Proofs.Route.Comments
import GoPages.Proofs.Analysis.RouteComments
import GoPages.Proofs.Analysis.RouteFindings
import GoPages.Proofs.Route.Variables
import GoPages.Proofs.Literal.Spelling
import GoPages.Proofs.StructTag.Entries
import GoPages.Proofs.Conventions.Names
import GoPages.Proofs.Package.Following
import GoPages.Proofs.Package.Redeclared
import GoPages.Proofs.Event.Visited
import GoPages.Proofs.Parser.Limits
import GoPages.Proofs.StructTag.Search
