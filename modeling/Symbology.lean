import Symbology.Color.Basic
import Symbology.Color.Hsl
import Symbology.Color.Names
import Symbology.Color.Reader
import Symbology.Context
import Symbology.Declaration
import Symbology.Expr.Basic
import Symbology.Expr.Constancy
import Symbology.Expr.Eval
import Symbology.Expr.Outcome
import Symbology.Interpolation.Basic
import Symbology.Interpolation.UnitBezier
import Symbology.Json.Basic
import Symbology.Json.Document
import Symbology.Json.Printer
import Symbology.Json.Reader
import Symbology.Json.Token
import Symbology.Members
import Symbology.Number.Decimal
import Symbology.Number.Exact
import Symbology.Number.Numeral
import Symbology.Number.Power
import Symbology.Number.Rounding
import Symbology.Number.Shortest
import Symbology.Number.Spelling
import Symbology.Number.Text
import Symbology.Proofs.AcceptedValues
import Symbology.Proofs.BezierParameter
import Symbology.Proofs.BlendedColors
import Symbology.Proofs.BranchOrder
import Symbology.Proofs.CategoricalStops
import Symbology.Proofs.Color.Blending
import Symbology.Proofs.Color.Channels
import Symbology.Proofs.Color.Hsl
import Symbology.Proofs.ColorRange
import Symbology.Proofs.ColorText
import Symbology.Proofs.Composite
import Symbology.Proofs.CompositeStops
import Symbology.Proofs.Constancy
import Symbology.Proofs.CurveValues
import Symbology.Proofs.DefaultType
import Symbology.Proofs.ErrorPlaces
import Symbology.Proofs.Except
import Symbology.Proofs.Expr.Choice
import Symbology.Proofs.Expr.Curves
import Symbology.Proofs.Expr.Dependence
import Symbology.Proofs.Expr.Errors
import Symbology.Proofs.Expr.Nodes
import Symbology.Proofs.Expr.Results
import Symbology.Proofs.Expr.Stops
import Symbology.Proofs.Interpolation.Weight
import Symbology.Proofs.IntervalStops
import Symbology.Proofs.Json.Building
import Symbology.Proofs.Json.Equality
import Symbology.Proofs.Json.Fitting
import Symbology.Proofs.Json.Reading
import Symbology.Proofs.Json.Scanning
import Symbology.Proofs.Logic
import Symbology.Proofs.LowerBound
import Symbology.Proofs.Members
import Symbology.Proofs.Number.Bounds
import Symbology.Proofs.Number.Double
import Symbology.Proofs.Number.Faithful
import Symbology.Proofs.Number.Grammar
import Symbology.Proofs.Number.Nearest
import Symbology.Proofs.Number.Numeral
import Symbology.Proofs.Number.Operations
import Symbology.Proofs.Number.Order
import Symbology.Proofs.Number.Packing
import Symbology.Proofs.Number.Rounding
import Symbology.Proofs.Number.Shortest
import Symbology.Proofs.Number.Single
import Symbology.Proofs.Number.Text
import Symbology.Proofs.Number.Zeros
import Symbology.Proofs.NumericText
import Symbology.Proofs.OrderedOperands
import Symbology.Proofs.PropertyExpression
import Symbology.Proofs.Recovery
import Symbology.Proofs.Refusals
import Symbology.Proofs.Related
import Symbology.Proofs.RepeatedInputs
import Symbology.Proofs.Snapshot
import Symbology.Proofs.StopFunction.Compiling
import Symbology.Proofs.StopFunction.Errors
import Symbology.Proofs.StopFunction.Reading
import Symbology.Proofs.StopFunction.Spelling
import Symbology.Proofs.StopFunction.Trees
import Symbology.Proofs.StopOrder
import Symbology.Proofs.StopPlaces
import Symbology.Proofs.StopValues
import Symbology.Proofs.TableText
import Symbology.Proofs.Text
import Symbology.Proofs.TreeSafety
import Symbology.Proofs.TypeSafety
import Symbology.Proofs.Typing.Branches
import Symbology.Proofs.Typing.Constants
import Symbology.Proofs.Typing.Derivation
import Symbology.Proofs.Typing.Errors
import Symbology.Proofs.Typing.Grammar
import Symbology.Proofs.Typing.Inference
import Symbology.Proofs.Typing.Rules
import Symbology.Proofs.Typing.Soundness
import Symbology.Proofs.Typing.Stops
import Symbology.Proofs.Typing.Wanted
import Symbology.Proofs.Typing.WellFormed
import Symbology.Proofs.Value.Equality
import Symbology.Proofs.Value.Type
import Symbology.Proofs.ValueText
import Symbology.Proofs.WrittenConstants
import Symbology.Proofs.WrittenDependence
import Symbology.Proofs.ZoomRule
import Symbology.PropertyExpression
import Symbology.PropertySpec.Basic
import Symbology.PropertySpec.Printer
import Symbology.PropertySpec.Reader
import Symbology.PropertyTable
import Symbology.PropertyValue
import Symbology.StopFunction.Basic
import Symbology.StopFunction.Expression
import Symbology.StopFunction.Reader
import Symbology.Text.Blank
import Symbology.Text.Printable
import Symbology.Text.Quoted
import Symbology.Typing.Branches
import Symbology.Typing.Error
import Symbology.Typing.Infer
import Symbology.Typing.Operand
import Symbology.Typing.Rules
import Symbology.Typing.Stops
import Symbology.Value.Basic
import Symbology.Value.Text
import Symbology.Value.Type
