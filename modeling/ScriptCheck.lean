import ScriptCheck.Main
import ScriptCheck.Proofs.Binding.Exposure
import ScriptCheck.Proofs.Contract.FirstViolation
import ScriptCheck.Proofs.Expr.Precedence
import ScriptCheck.Proofs.Lexing.LongestMatch
import ScriptCheck.Proofs.Parsing.Onward
import ScriptCheck.Proofs.Resolving.Decides
import ScriptCheck.Proofs.Session.ClassMembers
import ScriptCheck.Proofs.Session.Layout
import ScriptCheck.Proofs.Session.NormalForm
import ScriptCheck.Proofs.Session.Returns
import ScriptCheck.Proofs.Session.Writes
import ScriptCheck.Proofs.Ty.Nominal
import ScriptCheck.Proofs.Ty.ReadBack
import ScriptCheck.Proofs.Ty.References
import ScriptCheck.Proofs.Ty.Transitive
import ScriptCheck.Proofs.Ty.Widening
import ScriptCheck.Proofs.Lexing.Cursor
import ScriptCheck.Ty.Assignable.Recursion
import ScriptCheck.Proofs.Diagnostic.Caret
import ScriptCheck.Proofs.Session.Blame
import ScriptCheck.Proofs.Ty.Respelled
import ScriptCheck.Proofs.Ty.ArraySpelling
import ScriptCheck.Proofs.Parsing.Placing
import ScriptCheck.Proofs.Parsing.Spans
import ScriptCheck.Proofs.Session.Spans
import ScriptCheck.Proofs.Scope.Addressing
import ScriptCheck.Proofs.Source.LineLookup
