import BraceTemplate.Main
import BraceTemplate.Files.Tree
import BraceTemplate.Render.Tree
import BraceTemplate.Proofs.Source.ClosedCalls
import BraceTemplate.Proofs.Render.Compiled
import BraceTemplate.Proofs.Render.Slots
import BraceTemplate.Proofs.Render.Nesting
import BraceTemplate.Proofs.Render.Locals
import BraceTemplate.Proofs.Program.WellFormed
import BraceTemplate.Proofs.Command.Variables
import BraceTemplate.Proofs.Render.Substitution
import BraceTemplate.Proofs.Render.Dependence
import BraceTemplate.Proofs.Render.Insertion
import BraceTemplate.Proofs.Render.Concatenation
import BraceTemplate.Proofs.Expr.Piping
import BraceTemplate.Proofs.Expr.Printing
import BraceTemplate.Proofs.Render.Attribution
import BraceTemplate.Proofs.Values.Paths
import BraceTemplate.Proofs.Assignment.Scope
import BraceTemplate.Proofs.Toml.Extent
import BraceTemplate.Proofs.Toml.Expression
import BraceTemplate.Proofs.Toml.Spelling
import BraceTemplate.Proofs.Assignment.Literal
import BraceTemplate.Proofs.Source.LineParts
import BraceTemplate.Proofs.Render.Verbatim
import BraceTemplate.Proofs.Decimal.Integer
import BraceTemplate.Proofs.Source.Idle
import BraceTemplate.Proofs.Values.Json
import BraceTemplate.Proofs.Render.DigitKeys
