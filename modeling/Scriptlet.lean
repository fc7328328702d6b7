import Scriptlet.Main
import Scriptlet.Tree.Equality
import Scriptlet.Value.Equality
import Scriptlet.Value.Outline
import Scriptlet.Proofs.Evaluate.Sequence
import Scriptlet.Proofs.Evaluate.CallTree
import Scriptlet.Proofs.Evaluate.PlainData
import Scriptlet.Proofs.Evaluate.FrameLaw
import Scriptlet.Proofs.Token.Layout
import Scriptlet.Proofs.Parse.Spelling
import Scriptlet.Proofs.Parse.Reading
import Scriptlet.Proofs.Parse.Bound
import Scriptlet.Proofs.Parse.Soundness
import Scriptlet.Proofs.Parse.Completeness
import Scriptlet.Proofs.Parse.LeastParentheses
import Scriptlet.Proofs.Evaluate.Interruption
import Scriptlet.Proofs.Parse.IssueOrder
import Scriptlet.Proofs.Parse.CanonicalText
import Scriptlet.Proofs.Evaluate.Renaming
import Scriptlet.Proofs.Evaluate.Allocation
import Scriptlet.Proofs.Evaluate.Purity
import Scriptlet.Proofs.Token.Coverage
import Scriptlet.Proofs.Parse.Concatenation
import Scriptlet.Proofs.Session.Pieces
import Scriptlet.Proofs.Terminal.Dialogue
import Scriptlet.Proofs.Evaluate.Depth
import Scriptlet.Proofs.Session.Enclosing
import Scriptlet.Proofs.Token.Separators
import Scriptlet.Proofs.Value.Contents
import Scriptlet.Proofs.Parse.Literals
import Scriptlet.Proofs.Session.ReadBack
import Scriptlet.Proofs.Evaluate.Moments
import Scriptlet.Proofs.Evaluate.Ledger
import Scriptlet.Proofs.Evaluate.Accounting
import Scriptlet.Proofs.Session.Identity
import Scriptlet.Proofs.Evaluate.Unmentioned
import Scriptlet.Proofs.Session.Unmentioned
import Scriptlet.Proofs.Evaluate.Arithmetic
import Scriptlet.Proofs.Evaluate.DictionaryLiteral
import Scriptlet.Proofs.Value.Equivalence
import Scriptlet.Proofs.Evaluate.Loop
import Scriptlet.Proofs.Session.MapReduce
import Scriptlet.Proofs.Terminal.Batch
import Scriptlet.Proofs.Value.FunctionText
import Scriptlet.Proofs.Store.ScopeChain
