import Linewise.Parse
import Linewise.Token.Scanner
import Linewise.Tree.Layout
import Linewise.Tree.View
import Linewise.Proofs.Script
import Linewise.Proofs.Passage
import Linewise.Proofs.Bracket
import Linewise.Proofs.Account
import Linewise.Proofs.Combinator
import Linewise.Proofs.Reading.Type
import Linewise.Proofs.Reading.Pattern
import Linewise.Proofs.Reading.Expression
import Linewise.Proofs.Reading.Statement
import Linewise.Proofs.Recovery
import Linewise.Proofs.Lexing
import Linewise.Proofs.Merging
import Linewise.Proofs.Yield
import Linewise.Proofs.Blame
import Linewise.Proofs.Extent
import Linewise.Proofs.Coverage
import Linewise.Proofs.Report
import Linewise.Proofs.Skipping
import Linewise.Proofs.Resumption
import Linewise.Proofs.StatementBrackets
import Linewise.Proofs.Printing.Printer
import Linewise.Proofs.Printing.Induction
import Linewise.Proofs.Printing.Acceptance
import Linewise.Proofs.Printing.Unit
import Linewise.Proofs.Printing.Type
import Linewise.Proofs.Printing.Pattern
import Linewise.Proofs.Printing.Speculation
import Linewise.Proofs.Printing.Expression
import Linewise.Proofs.Printing.Block
import Linewise.Proofs.Printing.RoundTrip
import Linewise.Proofs.Lossless
import Linewise.Proofs.Parallel.Relabelling
import Linewise.Proofs.Parallel.Correspondence
import Linewise.Proofs.Parallel.Combinator
import Linewise.Proofs.Parallel.Type
import Linewise.Proofs.Parallel.Pattern
import Linewise.Proofs.Parallel.Block
import Linewise.Proofs.Parallel.Expression
import Linewise.Proofs.Parallel.Statement
import Linewise.Proofs.Parallel.Aligned
import Linewise.Proofs.Parallel.Placed
import Linewise.Proofs.Joining.Course
import Linewise.Proofs.Joining.Extension
import Linewise.Proofs.Joining.File
import Linewise.Proofs.Joining.Line
import Linewise.Proofs.Joining.Composition
import Linewise.Proofs.Condensing
import Linewise.Proofs.Respacing.Measure
import Linewise.Proofs.Respacing.Tokens
import Linewise.Proofs.Respacing.Places
import Linewise.Proofs.Respacing.Parsed
import Linewise.Proofs.Placement.Node
import Linewise.Proofs.Placement.Combinator
import Linewise.Proofs.Placement.Type
import Linewise.Proofs.Placement.Pattern
import Linewise.Proofs.Placement.Block
import Linewise.Proofs.Placement.Expression
import Linewise.Proofs.Placement.Statement
import Linewise.Proofs.Placement.File
import Linewise.Proofs.Precedence.Grouping
import Linewise.Proofs.Precedence.Climbing
import Linewise.Proofs.Nesting.Visits
import Linewise.Proofs.Nesting.Combinator
import Linewise.Proofs.Nesting.Height
import Linewise.Proofs.Nesting.Pattern
import Linewise.Proofs.Nesting.Expression
import Linewise.Proofs.Nesting.Statement
import Linewise.Proofs.Safety.Scanning
import Linewise.Proofs.Safety.Indexing
import Linewise.Proofs.Display.Quoting
import Linewise.Proofs.Display.Reading
import Linewise.Proofs.Display.Assembly
import Linewise.Proofs.Display.Restoring
import Linewise.Proofs.Display.Spelling
import Linewise.Proofs.Display.Cleanness
import Linewise.Proofs.Display.Faithful
import Linewise.Proofs.Display.Indentation
import Linewise.Proofs.Lookahead
import Linewise.Proofs.Sequence.Shelter
import Linewise.Proofs.Sequence.Layout
import Linewise.Proofs.Sequence.Arrangement
import Linewise.Proofs.Nesting.Confinement
import Linewise.Proofs.Carrying.LineBreak
import Linewise.Proofs.Carrying.Enclosure
import Linewise.Proofs.Carrying.Parentheses
import Linewise.Proofs.Progress.Tracing
import Linewise.Proofs.Progress.Combinator
import Linewise.Proofs.Progress.Type
import Linewise.Proofs.Progress.Pattern
import Linewise.Proofs.Progress.Expression
import Linewise.Proofs.Progress.Statement
import Linewise.Proofs.Progress.Rule
import Linewise.Proofs.Progress.Loop
import Linewise.Proofs.Parallel.Prompt
import Linewise.Proofs.Origin.Shape
import Linewise.Proofs.Origin.Leaf
import Linewise.Proofs.Origin.Header
import Linewise.Proofs.Origin.Comment
import Linewise.Proofs.Origin.Sign
import Linewise.Proofs.Lines
import Linewise.Proofs.Caret
import Linewise.Proofs.Origin.Trivia
import Linewise.Proofs.Safety.Session
import Linewise.Proofs.Braced.ErrorNode
import Linewise.Proofs.Braced.Heading
import Linewise.Proofs.Braced.Body
