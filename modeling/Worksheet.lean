import Worksheet.Text.Lines
import Worksheet.Number.Places
import Worksheet.Number.Whole
import Worksheet.Calendar.DateShift
import Worksheet.Expr.Eval
import Worksheet.Expr.Parser
import Worksheet.Formula
import Worksheet.Sheet
import Worksheet.Render
import Worksheet.CommandLine
import Worksheet.Main
import Worksheet.Proofs.Expr.Grammar
import Worksheet.Proofs.Expr.Acceptance
import Worksheet.Proofs.Expr.Exactness
import Worksheet.Proofs.Expr.Height
import Worksheet.Proofs.Number.Bits
import Worksheet.Proofs.Number.DecimalText
import Worksheet.Proofs.Number.Nearest
import Worksheet.Proofs.Number.ReadBack
import Worksheet.Proofs.Expr.Scan
import Worksheet.Proofs.Formula.Runs
import Worksheet.Proofs.Percent
import Worksheet.Proofs.Formula.Simulation
import Worksheet.Proofs.Expr.Neighbours
import Worksheet.Proofs.Formula.Meaning
import Worksheet.Proofs.Formula.WellFormed
import Worksheet.Proofs.Formula.Words
import Worksheet.Proofs.Sheet.Run
import Worksheet.Proofs.CommandLine.Encoding
import Worksheet.Proofs.CommandLine.Typing
import Worksheet.Proofs.Expr.Finite
import Worksheet.Proofs.Sheet.Session
import Worksheet.Proofs.Sheet.WellFormed
import Worksheet.Proofs.Expr.Sound
import Worksheet.Proofs.Formula.Closed
import Worksheet.Proofs.Sheet.Swap
import Worksheet.Proofs.Render.LineStructure
import Worksheet.Proofs.Render.Markup
import Worksheet.Proofs.CommandLine.Answers
import Worksheet.Proofs.Calendar.DayNumber
import Worksheet.Proofs.Calendar.TypedBack
import Worksheet.Proofs.Percent.OfName
import Worksheet.Proofs.Formula.PercentOfName
import Worksheet.Proofs.Formula.Percentage
import Worksheet.Proofs.Number.Rounding
import Worksheet.Proofs.Number.StandsFor
import Worksheet.Proofs.Number.Products
import Worksheet.Proofs.Conversion
import Worksheet.Proofs.Text.WhiteSpace
import Worksheet.Proofs.Expr.MaximalMunch
import Worksheet.Proofs.Expr.TokenText
import Worksheet.Proofs.Expr.Steps
import Worksheet.Proofs.Expr.Lookahead
import Worksheet.Proofs.Expr.FirstFault
import Worksheet.Proofs.Expr.Walk
import Worksheet.Proofs.Expr.WalkReading
import Worksheet.Proofs.Expr.WalkSafety
import Worksheet.Proofs.Expr.Printing
import Worksheet.Proofs.Conversion.Phrase
import Worksheet.Proofs.Conversion.Recognition
import Worksheet.Proofs.Line
import Worksheet.Proofs.Calendar.Distance
import Worksheet.Proofs.Calendar.WrittenShift
import Worksheet.Proofs.Calendar.MonthOrder
import Worksheet.Proofs.Number.Signed
import Worksheet.Proofs.Number.Sums
import Worksheet.Proofs.Number.Whole
import Worksheet.Proofs.Number.Places
import Worksheet.Proofs.Formula.Values
import Worksheet.Proofs.Formula.Surroundings
import Worksheet.Proofs.Text.NamePattern
import Worksheet.Proofs.Formula.NamePlaces
import Worksheet.Proofs.Sheet.Surroundings
