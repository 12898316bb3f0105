/-
The messages of scanning, as a caller asks for them.

A template is the name of one of the messages, and it is filled with the parts that the
message mentions.  The parts can be any values, but their number has to be right.
-/
import Utf8Scan.Error

namespace Utf8Scan

inductive Template where
  | overflow
  | underflow
  | notFound
  | unexpected
  | emptyInput
  | invalidCharacter
  | truncatedSequence
  deriving DecidableEq, Repr

namespace Template

/-- The diagnostic with the given parts, if there are as many as the message needs. -/
def fill : Template → List Datum → Except Error Diagnostic
  | overflow, [position] => .ok (.overflow position)
  | underflow, [position] => .ok (.underflow position)
  | notFound, [expected, position] => .ok (.notFound expected position)
  | unexpected, [expected, found, position] => .ok (.unexpected expected found position)
  | emptyInput, [operation] => .ok (.emptyInput operation)
  | invalidCharacter, [position, reason] => .ok (.invalidCharacter position reason)
  | truncatedSequence, [position, width] => .ok (.truncatedSequence position width)
  | _, _ => .error .wrongParts

end Template

end Utf8Scan
