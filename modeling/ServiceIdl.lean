import ServiceIdl.Diagnostic.Basic
import ServiceIdl.Document.Query
import ServiceIdl.Parse
import ServiceIdl.Token.Lexer
import ServiceIdl.Proofs.Lexing.Comment
import ServiceIdl.Proofs.Lexing.Lexeme
import ServiceIdl.Proofs.Lexing.Piece
import ServiceIdl.Proofs.Lexing.Tiling
import ServiceIdl.Proofs.Lexing.Rendering
import ServiceIdl.Proofs.Reading.Layout
import ServiceIdl.Proofs.Reading.LayoutInert
import ServiceIdl.Proofs.Grammar.Syntax
import ServiceIdl.Proofs.Grammar.Types
import ServiceIdl.Proofs.Grammar.Fields
import ServiceIdl.Proofs.Grammar.Definitions
import ServiceIdl.Proofs.Grammar.Services
import ServiceIdl.Proofs.Grammar.Documents
import ServiceIdl.Proofs.Grammar.Parsing
import ServiceIdl.Proofs.Lexing.Concatenation
import ServiceIdl.Proofs.Parsing.Layout
import ServiceIdl.Proofs.Parsing.Transitions
import ServiceIdl.Proofs.Parsing.Concatenation
import ServiceIdl.Proofs.Parsing.Writing
import ServiceIdl.Proofs.WellFormed.Document
import ServiceIdl.Proofs.WellFormed.Texts
import ServiceIdl.Proofs.WellFormed.Nodes
import ServiceIdl.Proofs.WellFormed.Parsing
import ServiceIdl.Proofs.Grammar.Completion
import ServiceIdl.Proofs.Lexing.Prefix
import ServiceIdl.Proofs.Parsing.Misplaced
import ServiceIdl.Proofs.Parsing.ViablePrefix
import ServiceIdl.Proofs.DocTexts.Reads
import ServiceIdl.Proofs.DocTexts.Fields
import ServiceIdl.Proofs.DocTexts.Services
import ServiceIdl.Proofs.DocTexts.Documents
import ServiceIdl.Proofs.DocTexts.Functions
import ServiceIdl.Proofs.Lexing.Strictness
import ServiceIdl.Proofs.Parsing.Strictness
import ServiceIdl.Proofs.DocTexts.Headers
import ServiceIdl.Proofs.Numbering.Entries
import ServiceIdl.Proofs.Parsing.Outcomes
import ServiceIdl.Proofs.Numbering.Expectations
import ServiceIdl.Proofs.Numbering.Parsing
import ServiceIdl.Proofs.Lexing.Requests
import ServiceIdl.Proofs.Lexing.Positions
import ServiceIdl.Proofs.Lexing.Faults
import ServiceIdl.Proofs.Parsing.Origins
import ServiceIdl.Proofs.Parsing.Positions
import ServiceIdl.Proofs.Diagnostics.Lines
import ServiceIdl.Proofs.Diagnostics.Snippet
import ServiceIdl.Proofs.Diagnostics.Underline
import ServiceIdl.Proofs.Reading.OpenType
import ServiceIdl.Proofs.Parsing.DepthLimit
import ServiceIdl.Proofs.Numbering.OpenLists
import ServiceIdl.Proofs.Parsing.Complaints
import ServiceIdl.Proofs.Parsing.Spacing
import ServiceIdl.Proofs.Parsing.Signatures
import ServiceIdl.Proofs.DocTexts.HeaderComments
import ServiceIdl.Proofs.DocTexts.FieldLists
import ServiceIdl.Proofs.Document.ServiceChain
import ServiceIdl.Proofs.Document.EnumMembers
import ServiceIdl.Proofs.Lexing.Seams
import ServiceIdl.Proofs.Parsing.Lookahead
import ServiceIdl.Proofs.Reading.Loops
import ServiceIdl.Proofs.Parsing.OnDemand
import ServiceIdl.Proofs.Diagnostics.Colors
import ServiceIdl.Proofs.DocTexts.Trimmed
