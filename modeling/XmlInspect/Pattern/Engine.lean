import XmlInspect.Pattern.Parse
import XmlInspect.Pattern.Size

/-!
# Engines for patterns

A rule that looks for patterns does not know how they are written. It leaves that to an engine,
which makes a test of a written pattern or says why it cannot. Nothing about rules depends on which
engine that is. The program runs with the patterns of this library.
-/

namespace XmlInspect

/-- Makes tests of written patterns. -/
class PatternEngine where
  /-- The test whether a pattern is found in a text, or what is wrong with the pattern. -/
  compile : String → Except String (List Char → Bool)

namespace Pattern

/-- Why a text is no pattern to look for. -/
inductive Fault where
  | malformed
  /-- It takes more bytes than there may be. -/
  | tooLarge (limit : Nat)
  deriving DecidableEq, Repr

def Fault.message : Fault → String
  | malformed => "regex parse error:"
  | tooLarge limit => s!"Compiled regex exceeds size limit of {limit} bytes."

/-- Reads a pattern, which must not be too large. -/
def read (text : String) : Except Fault Pattern :=
  match ofText? text.toList with
  | some pattern => if pattern.isTooLarge then .error (.tooLarge greatestSize) else .ok pattern
  | none => .error .malformed

instance engine : PatternEngine where
  compile text := ((read text).map isFoundIn).mapError Fault.message

end Pattern

end XmlInspect
