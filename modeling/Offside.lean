import Offside.Main
import Offside.Proofs.Expression.RoundTrip
import Offside.Proofs.Grammar.Agreement
import Offside.Proofs.Grammar.Arguments
import Offside.Proofs.Grammar.Conservation
import Offside.Proofs.Grammar.Contexts
import Offside.Proofs.Grammar.Members
import Offside.Proofs.Grammar.Modules
import Offside.Proofs.Grammar.Outline
import Offside.Proofs.Grammar.Starred
import Offside.Proofs.Grammar.WellFormed
import Offside.Proofs.Layout.Discipline
import Offside.Proofs.Layout.Lossless
import Offside.Proofs.Literal.Framing
import Offside.Proofs.Literal.Integer
import Offside.Proofs.Literal.NumeralLexeme
import Offside.Proofs.Literal.RoundTrip
import Offside.Proofs.Tree.Injective
import Offside.Proofs.Tree.Preorder
import Offside.Proofs.Tree.Renaming
import Offside.Tree.Rewrite
import Offside.Tree.Walk
import Offside.Proofs.Grammar.Pairing
import Offside.Proofs.Grammar.Pairs
import Offside.Proofs.Grammar.PairExpressions
import Offside.Proofs.Grammar.PairStatements
import Offside.Proofs.Grammar.Renamed
import Offside.Proofs.Layout.Spots
import Offside.Proofs.Layout.Breakers
import Offside.Proofs.Layout.Fillers
import Offside.Proofs.Layout.Seams
import Offside.Proofs.Layout.Splices
import Offside.Proofs.Layout.Gaps
import Offside.Proofs.Grammar.Respaced
import Offside.Proofs.Grammar.Brackets
import Offside.Proofs.Layout.Enclosed
import Offside.Proofs.Grammar.Parenthesized
import Offside.Proofs.Grammar.Positions
import Offside.Proofs.Grammar.Parameters
import Offside.Proofs.Grammar.Headings
import Offside.Proofs.Grammar.Decorators
import Offside.Proofs.Layout.Blanks
import Offside.Proofs.Grammar.Blanks
import Offside.Proofs.Grammar.Steady
import Offside.Proofs.Grammar.SteadyExpressions
import Offside.Proofs.Grammar.SteadyStatements
import Offside.Proofs.Grammar.Termination
import Offside.Proofs.Grammar.StatementLines
import Offside.Proofs.Grammar.AdjacentLiterals
import Offside.Proofs.Layout.Terminators
import Offside.Proofs.Grammar.Terminators
import Offside.Proofs.Tree.LineBreaks
import Offside.Proofs.Tree.Pretty
import Offside.Proofs.Tree.Targets
