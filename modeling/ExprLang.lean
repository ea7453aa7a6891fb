import ExprLang.Main
import ExprLang.Tree.Node
import ExprLang.Proofs.Ty.Hole
import ExprLang.Proofs.Bindings.Matching
import ExprLang.Proofs.Check.Rule
import ExprLang.Proofs.Check.Yields
import ExprLang.Proofs.Check.Tree
import ExprLang.Proofs.Check.WellTyped
import ExprLang.Proofs.Check.Scopes
import ExprLang.Proofs.SymbolTable.Context
import ExprLang.Proofs.Typing.Completeness
import ExprLang.Proofs.Number.Literal
import ExprLang.Proofs.Token.Scan
import ExprLang.Proofs.Tree.Drafts
import ExprLang.Proofs.Tree.Printed
import ExprLang.Proofs.Tree.RoundTrip
import ExprLang.Proofs.Check.HoleFree
import ExprLang.Proofs.Check.Resolved
import ExprLang.Proofs.Ty.Denoted
import ExprLang.Proofs.Tree.Leaves
import ExprLang.Proofs.Tree.Lines
import ExprLang.Proofs.Check.Located
import ExprLang.Proofs.Check.Derivation
import ExprLang.Proofs.Check.Sessions
import ExprLang.Proofs.Check.Counts
import ExprLang.Proofs.Check.Idempotent
import ExprLang.Proofs.Tree.Appended
import ExprLang.Proofs.Check.Appended
import ExprLang.Proofs.Token.Slices
import ExprLang.Proofs.Token.Rendered
import ExprLang.Proofs.Token.Lockstep
import ExprLang.Proofs.SymbolTable.Calls
import ExprLang.Proofs.Tree.Unlined
import ExprLang.Proofs.Check.Unlined
import ExprLang.Proofs.Window.Phrase
import ExprLang.Proofs.Tree.Forms
import ExprLang.Proofs.Tree.Composed
import ExprLang.Proofs.Bindings.MostGeneral
import ExprLang.Proofs.Check.SelfReference
import ExprLang.Proofs.Check.Arguments
import ExprLang.Proofs.Check.Literals
import ExprLang.Proofs.Check.Agreement
import ExprLang.Proofs.Token.Comments
import ExprLang.Proofs.Token.Quoted
import ExprLang.Proofs.Ty.Rendered
import ExprLang.Proofs.Ty.Lists
import ExprLang.Proofs.Check.Unmentioned
import ExprLang.Proofs.Check.Culprits
import ExprLang.Proofs.Window.Scanned
import ExprLang.Proofs.Token.Closing
import ExprLang.Proofs.Window.Partners
import ExprLang.Proofs.Bindings.Unbound
import ExprLang.Proofs.Tree.Sources
import ExprLang.Proofs.Tree.Calls
