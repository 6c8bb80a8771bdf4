import Formula.Main
import Formula.Parameter.Typed
import Formula.Proofs.Nesting
import Formula.Proofs.ParseTree
import Formula.Proofs.Adjacency
import Formula.Proofs.Planning
import Formula.Proofs.CheckedTokens
import Formula.Proofs.Compilation
import Formula.Proofs.Operations
import Formula.Proofs.Assembly
import Formula.Proofs.Meaning
import Formula.Proofs.Consistency
import Formula.Proofs.Typing
import Formula.Proofs.InOrder
import Formula.Proofs.Lexemes
import Formula.Proofs.Seams
import Formula.Proofs.Composition
import Formula.Proofs.Rendering
import Formula.Proofs.ScanningRules
import Formula.Proofs.Separation
import Formula.Proofs.Tiling
import Formula.Proofs.Interruption
import Formula.Proofs.Reporting
import Formula.Proofs.Spelling
import Formula.Proofs.Quotation
import Formula.Proofs.Slices
import Formula.Proofs.Standalone
import Formula.Proofs.Verdicts
import Formula.Proofs.Labels
import Formula.Proofs.NodeValues
import Formula.Proofs.Wrapping
import Formula.Proofs.Numerals
import Formula.Proofs.Rounding
import Formula.Proofs.Division
import Formula.Proofs.Chains
import Formula.Proofs.Grouping
import Formula.Proofs.Legibility
import Formula.Proofs.Backtracking
import Formula.Proofs.Progress
import Formula.Proofs.NumberLiterals
import Formula.Proofs.TextOrder
import Formula.Proofs.NumberGrammar
import Formula.Proofs.Normalization
import Formula.Proofs.EscapeDigits
import Formula.Proofs.EscapeLabels
import Formula.Proofs.ExitCodes
