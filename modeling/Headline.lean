import Headline.Main
import Headline.Proofs.Grammar
import Headline.Proofs.Recognition
import Headline.Proofs.Lexemes
import Headline.Proofs.Adjacency
import Headline.Proofs.Evaluation
import Headline.Proofs.Composition
import Headline.Proofs.Blame
import Headline.Proofs.OutOfCalendar
import Headline.Proofs.HalfWidth
import Headline.Proofs.Agreement
import Headline.Proofs.LineEnds
import Headline.Proofs.Loading
import Headline.Proofs.Reporting
import Headline.Proofs.ForeignLeaves
import Headline.Proofs.Reparsing
import Headline.Proofs.FaultPlace
import Headline.Proofs.Literals
import Headline.Proofs.Height
import Headline.Proofs.LexicalFaults
import Headline.Proofs.FeedDates
import Headline.Proofs.Timestamps
import Headline.Proofs.Caret
import Headline.Proofs.Entries
import Headline.Proofs.Layout
import Headline.Proofs.AbsoluteLinks
import Headline.Proofs.Refusals
import Headline.Proofs.ResolvedPaths
import Headline.Proofs.ResolvedLinks
import Headline.Proofs.DateLabels
import Headline.Proofs.Descent
import Headline.Proofs.Progress
