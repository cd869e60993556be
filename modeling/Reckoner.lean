import Reckoner.Main
import Reckoner.Scanner.Table
import Reckoner.Decimal.Binary64
import Reckoner.Proofs.Logarithm.Accuracy
import Reckoner.Proofs.Expression.Exact
import Reckoner.Proofs.Literal.Longest
import Reckoner.Proofs.Lexer.Respacing
import Reckoner.Proofs.Evaluation.Value
import Reckoner.Proofs.Decimal.Rendering
import Reckoner.Proofs.Decimal.Interchange
import Reckoner.Proofs.Postorder.Substitution
import Reckoner.Proofs.Expression.Containment
import Reckoner.Proofs.Expression.Arity
import Reckoner.Proofs.Session.Names
import Reckoner.Proofs.Expression.Rereading
import Reckoner.Proofs.Expression.Variables
import Reckoner.Proofs.Decimal.Order
import Reckoner.Proofs.Literal.Acceptance
import Reckoner.Proofs.Logarithm.Decades
import Reckoner.Proofs.Decimal.Canonical
import Reckoner.Proofs.Scanner.Delegation
import Reckoner.Proofs.Scanner.Locality
import Reckoner.Proofs.Literal.Midway
