import NoteSheet.Error
import NoteSheet.Uid
import NoteSheet.Path
import NoteSheet.Item
import NoteSheet.ItemStore
import NoteSheet.Box
import NoteSheet.Direction
import NoteSheet.Layout
import NoteSheet.Neighbor
import NoteSheet.Decimal
import NoteSheet.Decimal.Shortest
import NoteSheet.Decimal.Style
import NoteSheet.Decimal.Title
import NoteSheet.Formula.Token
import NoteSheet.Formula.Lexer
import NoteSheet.Formula.Expr
import NoteSheet.Formula.Literal
import NoteSheet.Formula.Parser
import NoteSheet.Formula.Outline
import NoteSheet.Sheet
import NoteSheet.Evaluation
import NoteSheet.Recalculation
import NoteSheet.Json
import NoteSheet.Json.Reader
import NoteSheet.Scene
import NoteSheet.Command
import NoteSheet.Main
import NoteSheet.Proofs.NotANumber
import NoteSheet.Proofs.References
import NoteSheet.Proofs.Cells
import NoteSheet.Proofs.Overrides
import NoteSheet.Proofs.Recalculation
import NoteSheet.Proofs.Circles
import NoteSheet.Proofs.Unguarded
import NoteSheet.Proofs.Broken
import NoteSheet.Proofs.Absorption
import NoteSheet.Proofs.Leftovers
import NoteSheet.Proofs.NumberOrder
import NoteSheet.Proofs.Doubles
import NoteSheet.Proofs.Rounding
import NoteSheet.Proofs.DecimalValues
import NoteSheet.Proofs.DisplayedNumbers
import NoteSheet.Proofs.Hops
import NoteSheet.Proofs.Neighbors
import NoteSheet.Proofs.Histories
import NoteSheet.Proofs.PathTexts
import NoteSheet.Proofs.Stores
import NoteSheet.Proofs.Dependence
import NoteSheet.Proofs.Scenes
import NoteSheet.Proofs.Marking
import NoteSheet.Proofs.Pieces
import NoteSheet.Proofs.Tokenization
import NoteSheet.Proofs.Readings
import NoteSheet.Proofs.Grammar
import NoteSheet.Proofs.Printing
import NoteSheet.Proofs.Failures
import NoteSheet.Proofs.Bytes
import NoteSheet.Proofs.PathGrammar
import NoteSheet.Proofs.Numerals
import NoteSheet.Proofs.TitleNumbers
import NoteSheet.Proofs.OffendingTokens
import NoteSheet.Proofs.Landings
import NoteSheet.Proofs.Nesting
import NoteSheet.Proofs.ReferenceLiterals
import NoteSheet.Proofs.LexerCalls
import NoteSheet.Proofs.Spacing
import NoteSheet.Proofs.ExactSums
import NoteSheet.Proofs.Mirroring
import NoteSheet.Proofs.NumberedIdentifiers
import NoteSheet.Proofs.NumberLiterals
import NoteSheet.Proofs.TreeSize
import NoteSheet.Proofs.ParserCursor
