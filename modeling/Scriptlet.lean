import Scriptlet.Main
import Scriptlet.Proofs.Completeness.Expression
import Scriptlet.Proofs.Soundness.Statement
import Scriptlet.Proofs.Completeness.Statement
import Scriptlet.Proofs.Syntax.WellFormed
import Scriptlet.Proofs.Completeness.Rendering
import Scriptlet.Proofs.Token.Coverage
import Scriptlet.Proofs.Eval.Steps
import Scriptlet.Proofs.Host.Bookkeeping
import Scriptlet.Proofs.Session.Bookkeeping
import Scriptlet.Proofs.Host.Frames
import Scriptlet.Proofs.Eval.Hygiene
import Scriptlet.Proofs.Host.Ownership
import Scriptlet.Proofs.Session.History
import Scriptlet.Proofs.Host.Bindings
import Scriptlet.Proofs.Session.Grounding
import Scriptlet.Proofs.Parse.Keywords
import Scriptlet.Proofs.Session.Builtins
import Scriptlet.Proofs.Parse.Resumption
import Scriptlet.Proofs.Session.Propriety
import Scriptlet.Proofs.Session.Places
import Scriptlet.Proofs.Session.Layout
import Scriptlet.Proofs.Session.Objects
import Scriptlet.Proofs.Session.Registrations
import Scriptlet.Proofs.Session.Chains
import Scriptlet.Proofs.Session.Dispatch
import Scriptlet.Proofs.Value.Forests
import Scriptlet.Proofs.Session.Aliases
import Scriptlet.Proofs.Session.Unloading
import Scriptlet.Proofs.Text.Lines
import Scriptlet.Proofs.Command.Stdio
import Scriptlet.Proofs.Cursor.Progress
import Scriptlet.Proofs.Session.Diagnostics
import Scriptlet.Proofs.Cursor.Recovery
import Scriptlet.Proofs.Token.Spacing
import Scriptlet.Proofs.Session.Concatenation
import Scriptlet.Proofs.Session.Readability
import Scriptlet.Proofs.Lambda.Translation
import Scriptlet.Proofs.Host.Integers
import Scriptlet.Proofs.Console.Delivery
