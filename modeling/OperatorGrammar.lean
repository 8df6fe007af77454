import OperatorGrammar.Text.CharSet
import OperatorGrammar.Text.Blank
import OperatorGrammar.Text.Capital
import OperatorGrammar.Text.Unprinted
import OperatorGrammar.Text.Numeral
import OperatorGrammar.Text.Quoted
import OperatorGrammar.Binary64.Basic
import OperatorGrammar.Binary64.Nearest
import OperatorGrammar.Binary64.Shortest
import OperatorGrammar.Binary64.Text
import OperatorGrammar.Term.Basic
import OperatorGrammar.Term.Atom
import OperatorGrammar.Term.Text
import OperatorGrammar.Operator.Specifier
import OperatorGrammar.Operator.Role
import OperatorGrammar.Operator.Basic
import OperatorGrammar.Failure
import OperatorGrammar.Table.Entry
import OperatorGrammar.Table.Basic
import OperatorGrammar.Table.Standard
import OperatorGrammar.Table.Source
import OperatorGrammar.Table.Reachable
import OperatorGrammar.Table.Registry
import OperatorGrammar.Stack
import OperatorGrammar.Token
import OperatorGrammar.Adjacency
import OperatorGrammar.Builder.Shunting
import OperatorGrammar.Builder.Assembly
import OperatorGrammar.Builder.Basic
import OperatorGrammar.Builder.Item
import OperatorGrammar.Builder.Call
import OperatorGrammar.Builder.Workspace
import OperatorGrammar.Builder.Indexed
import OperatorGrammar.Tree.Basic
import OperatorGrammar.Layout.Items
import OperatorGrammar.Layout.Text
import OperatorGrammar.Reader.Lexeme
import OperatorGrammar.Reader.Word
import OperatorGrammar.Reader.Basic
import OperatorGrammar.Reader.Grammar
import OperatorGrammar.Reader.Descent
import OperatorGrammar.CommandLine
import OperatorGrammar.Main
import OperatorGrammar.Proofs.Table.Invariant
import OperatorGrammar.Proofs.Operator.Comparison
import OperatorGrammar.Proofs.Tree.Neighbours
import OperatorGrammar.Proofs.Tree.Regrouping
import OperatorGrammar.Proofs.Tree.Spine
import OperatorGrammar.Proofs.Shunting.Stage
import OperatorGrammar.Proofs.Shunting.Sound
import OperatorGrammar.Proofs.Shunting.Exact
import OperatorGrammar.Proofs.Sequence.Reading
import OperatorGrammar.Proofs.Sequence.Standing
import OperatorGrammar.Proofs.Sequence.Judgement
import OperatorGrammar.Proofs.Sequence.Shape
import OperatorGrammar.Proofs.Builder.Receipt
import OperatorGrammar.Proofs.Builder.Invariant
import OperatorGrammar.Proofs.Builder.Conclusion
import OperatorGrammar.Proofs.Parsing
import OperatorGrammar.Proofs.Builder.Calls
import OperatorGrammar.Proofs.Reader.Defects
import OperatorGrammar.Proofs.Builder.Tightness
import OperatorGrammar.Proofs.Builder.Parentheses
import OperatorGrammar.Proofs.Builder.Nodes
import OperatorGrammar.Proofs.Layout.Form
import OperatorGrammar.Proofs.Layout.Tree
import OperatorGrammar.Proofs.Layout.Rebuilding
import OperatorGrammar.Proofs.Layout.Pairs
import OperatorGrammar.Proofs.Reader.Spelling
import OperatorGrammar.Proofs.Reader.Spacing
import OperatorGrammar.Proofs.Builder.Alike
import OperatorGrammar.Proofs.Builder.Verdicts
import OperatorGrammar.Proofs.Builder.Workspace
import OperatorGrammar.Proofs.Builder.Steps
import OperatorGrammar.Proofs.Builder.Chronicle
import OperatorGrammar.Proofs.Reader.Words
import OperatorGrammar.Proofs.Reader.Completeness
import OperatorGrammar.Proofs.Reader.Soundness
import OperatorGrammar.Proofs.Reader.Agreement
import OperatorGrammar.Proofs.Reader.Writing
import OperatorGrammar.Proofs.Reader.Size
import OperatorGrammar.Proofs.Reader.Canonical
import OperatorGrammar.Proofs.Reader.Strings
import OperatorGrammar.Proofs.Layout.Writing
import OperatorGrammar.Proofs.Layout.Notation
import OperatorGrammar.Proofs.Layout.Commas
import OperatorGrammar.Proofs.Text.Codes
import OperatorGrammar.Proofs.Text.Numerals
import OperatorGrammar.Proofs.Term.Unambiguous
import OperatorGrammar.Proofs.Table.Places
import OperatorGrammar.Proofs.Table.Registry
import OperatorGrammar.Proofs.Table.Description
import OperatorGrammar.Proofs.Table.Loading
import OperatorGrammar.Proofs.Builder.Indexed
import OperatorGrammar.Proofs.Builder.Reduction
import OperatorGrammar.Proofs.Builder.References
import OperatorGrammar.Proofs.Builder.Orderly
import OperatorGrammar.Proofs.CommandLine
import OperatorGrammar.Proofs.Reader.Descent
