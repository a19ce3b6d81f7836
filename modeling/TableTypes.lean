import TableTypes.Api
import TableTypes.Proofs.Scan.Compose
import TableTypes.Proofs.Scan.Mask
import TableTypes.Proofs.Scan.Positions
import TableTypes.Proofs.Gate.Settled
import TableTypes.Proofs.Scan.Piece
import TableTypes.Proofs.Text.Cutting
import TableTypes.Proofs.Text.Search
import TableTypes.Proofs.Text.Word
import TableTypes.Proofs.Text.Reader
import TableTypes.Proofs.Scan.Delimiters
import TableTypes.Proofs.Statement.Layout
import TableTypes.Proofs.Statement.Extraction
import TableTypes.Proofs.Column.Attributes
import TableTypes.Proofs.Column.Decoding
import TableTypes.Proofs.TableConstraints.Cutting
import TableTypes.Proofs.TableConstraints.Decoding
import TableTypes.Proofs.Column.Comments
import TableTypes.Proofs.Statement.Options
import TableTypes.Proofs.Statement.Head
import TableTypes.Proofs.Scan.Enclosed
import TableTypes.Proofs.Statement.Balance
import TableTypes.Proofs.Statement.Masked
import TableTypes.Proofs.Statement.Quoted
import TableTypes.Proofs.Statement.SelfContained
import TableTypes.Proofs.Gate.Closing
import TableTypes.Proofs.Text.Blank
import TableTypes.Proofs.Statement.Margin
import TableTypes.Proofs.Statement.Stripped
import TableTypes.Proofs.Gate.Accept
import TableTypes.Proofs.Lines
import TableTypes.Proofs.Text.LineEnds
import TableTypes.Proofs.Gate.Pattern
import TableTypes.Proofs.Gate.Token.Quoted
import TableTypes.Proofs.Gate.Token.Reader
import TableTypes.Proofs.Gate.Token.Lexer
import TableTypes.Proofs.Gate.Injection
import TableTypes.Proofs.Gate.Recheck
import TableTypes.Proofs.Text.Replace
import TableTypes.Proofs.Declaration.Layout
import TableTypes.Proofs.Declaration.Blocks
import TableTypes.Proofs.Column.Sound
import TableTypes.Proofs.TableConstraints.Sound
import TableTypes.Proofs.Table.Sound
import TableTypes.Proofs.Table.Keys
import TableTypes.Proofs.Gate.Mentions
import TableTypes.Proofs.Table.Counts
import TableTypes.Proofs.OrderedMap
import TableTypes.Proofs.Text.Case
import TableTypes.Proofs.TypeMap.History
import TableTypes.Proofs.TypeMap.Values
import TableTypes.Proofs.TypeMap.Normal
import TableTypes.Proofs.TypeMap.Override
import TableTypes.Proofs.TypeMap.Strict
import TableTypes.Proofs.Naming
import TableTypes.Proofs.Declaration.CommentEnds
import TableTypes.Proofs.Declaration.SolidLines
import TableTypes.Proofs.Declaration.Comments
import TableTypes.Proofs.TableConstraints.Span
import TableTypes.Proofs.Column.Names
import TableTypes.Proofs.Column.Arguments
import TableTypes.Proofs.Scan.Visible
import TableTypes.Proofs.Scan.Segments
import TableTypes.Proofs.TableConstraints.Segment
import TableTypes.Proofs.TableConstraints.Bounded
import TableTypes.Proofs.TableConstraints.Parts
import TableTypes.Proofs.Column.Literals
import TableTypes.Proofs.Column.Searches
import TableTypes.Proofs.Column.Check
import TableTypes.Proofs.Column.Order
import TableTypes.Proofs.Column.CommentPlace
import TableTypes.Proofs.Literal
import TableTypes.Proofs.Comment
import TableTypes.Proofs.Column.DefaultRun
import TableTypes.Proofs.Column.Unquoting
import TableTypes.Proofs.TableConstraints.FirstParen
import TableTypes.Proofs.TableConstraints.KeyParts
import TableTypes.Proofs.Scan.Pairs
import TableTypes.Proofs.Column.Lists
import TableTypes.Proofs.Scan.Rescan
import TableTypes.Proofs.Spelling
import TableTypes.Proofs.Column.SpelledReference
import TableTypes.Proofs.TableConstraints.SpelledReference
import TableTypes.Proofs.Statement.LineStyle
import TableTypes.Proofs.Table.Faults
import TableTypes.Proofs.Table.Duplicates
import TableTypes.Proofs.Text.Lower
import TableTypes.Proofs.Text.Collapse
import TableTypes.Proofs.Table.Options
import TableTypes.Proofs.Table.PrimaryKey
import TableTypes.Proofs.TypeMap.Elements
import TableTypes.Proofs.TypeMap.Arrays
import TableTypes.Proofs.TypeMap.Supported
import TableTypes.Proofs.Naming.Identifier
import TableTypes.Proofs.Naming.Property
import TableTypes.Proofs.Options
import TableTypes.Proofs.Naming.Affixes
import TableTypes.Proofs.TypeMap.NormalForm
import TableTypes.Proofs.Declaration.LaidOut
import TableTypes.Proofs.Statement.Detection
import TableTypes.Proofs.Naming.Canonical
import TableTypes.Proofs.Options.Reading
import TableTypes.Proofs.Config.Environment
import TableTypes.Proofs.Scan.Positions
import TableTypes.Proofs.Gate.Settled
