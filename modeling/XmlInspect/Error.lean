import XmlInspect.Charset.Basic
import XmlInspect.Config.Params
import XmlInspect.Markup.Fault
import XmlInspect.Query.Fault
import XmlInspect.Span.Mismatch
import XmlInspect.Span.Token
import XmlInspect.Text.Position

/-!
# Errors

All that can go wrong while a file is read, parsed and checked, with the words in which it is
reported. Everything that means that two parts of the library disagree counts as internal.
-/

namespace XmlInspect

/-- A computation that was broken off, with what it said, if that is a text. -/
structure Panic where
  text : Option String
  deriving DecidableEq, Repr

namespace Panic

instance : Coe String Panic := ⟨fun text ↦ ⟨some text⟩⟩

def message : Panic → String
  | ⟨some text⟩ => s!"panicked: {text}"
  | ⟨none⟩ => "panicked"

end Panic

/-- What went wrong inside the library. -/
inductive InternalFault where
  | scan (fault : ScanFault)
  | mismatch (fault : Mismatch)
  | panicked (panic : Panic)

namespace InternalFault

def message : InternalFault → String
  | scan fault => fault.message
  | mismatch fault => fault.message
  | panicked panic => panic.message

end InternalFault

/-- What can go wrong. -/
inductive Error where
  /-- The text is no well-formed XML, as seen on a line of the file. -/
  | malformed (line : Nat) (fault : Markup.Fault)
  | charset (fault : CharsetFault)
  | invalidRange (fault : InvalidRange)
  | internal (fault : InternalFault)
  | query (expression : String) (fault : Query.Fault)
  | configuration (rule : String) (fault : RuleFault)
  | check (rule message : String)
  | io (message : String)

namespace Error

def message : Error → String
  | malformed line fault => s!"Malformed XML at line {line}: " ++ fault.message
  | charset fault => fault.message
  | invalidRange fault => fault.message
  | internal fault => "Internal error: " ++ fault.message
  | query expression fault => s!"Invalid query '{expression}': " ++ fault.message
  | configuration rule fault => s!"Invalid configuration for rule {rule}: " ++ fault.message
  | check rule message => s!"Check {rule} failed: {message}"
  | io message => s!"IO error: {message}"

end Error

end XmlInspect
