import AttributeExpr.Error.Basic
import AttributeExpr.Error.Config
import AttributeExpr.Text.Display
/-!
What can keep a step from a result, and the steps that carry it.
-/
namespace AttributeExpr

/-- Every way to fail. Beside the refusals with a message there are inputs on which a step has no
result at all: a text without numeric value among the elements of a set, an encoded payload of the
wrong shape, or a configuration file that stands for nothing. -/
inductive Failure
  | refused (error : ExpressionError)
  /-- The text of a number in a set denotes no decimal number. -/
  | noDecimal
  /-- A signaling NaN cannot be compared with the other elements of a set. -/
  | signalingNaN
  /-- The text of a list index has more digits than an index may have. -/
  | longIndex
  /-- A key or payload in base64 has characters outside ASCII. -/
  | nonAsciiBase64
  | payloadNotIterable
  | payloadNotText
  | payloadNotObject
  | scalar (fault : ScalarFault)
  | unreadableFile (path reason : String)
deriving DecidableEq, Repr

def Failure.message : Failure → String
  | refused error => error.message
  | noDecimal => "A number in a set is not a decimal number"
  | signalingNaN => "A signaling NaN cannot be in a set"
  | longIndex => "A list index has too many digits"
  | nonAsciiBase64 => "Base64 text should contain only ASCII characters"
  | payloadNotIterable => "The payload of a list or set has no parts"
  | payloadNotText => "The payload of a string or binary is not a text"
  | payloadNotObject => "The payload of a map is not an object"
  | scalar fault => fault.message
  | unreadableFile path reason => reason ++ ": " ++ Display.string path

instance : Coe ExpressionError Failure := ⟨.refused⟩

/-- Regards an outcome that can only be refused as one that may fail in any way. -/
def liftRefusal {α : Type} (outcome : Except ExpressionError α) : Except Failure α :=
  outcome.mapError .refused

/-- The outcome of refusing an input. -/
def refuse {α : Type} (error : ExpressionError) : Except Failure α := .error (.refused error)

end AttributeExpr
