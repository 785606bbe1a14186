import XmlInspect.Check.Basic
import XmlInspect.Pattern.Engine
import XmlInspect.Tree.Walk

/-!
# Comments of a certain kind

Comments in whose text a pattern is found.
-/

namespace XmlInspect

/-- What comments are looked for, and what is said about them. -/
structure CommentPattern where
  isFoundIn : List Char → Bool
  message : String

namespace CommentPattern

def rule : String := "CommentPatternCheck"

def defaultPattern : String := "TODO|FIXME"

def defaultMessage : String :=
  "Take the required action to fix the issue indicated by this comment."

/-- Leaves the text of a pattern to the engine. -/
def ofText [PatternEngine] (pattern message : String) : Except RuleFault CommentPattern :=
  match PatternEngine.compile pattern with
  | .ok isFoundIn => .ok ⟨isFoundIn, message⟩
  | .error reason => .error (.badPattern reason)

/-- Reads the pattern and the message. -/
def ofParams [PatternEngine] (params : RuleParams) : Except RuleFault CommentPattern :=
  ofText (params.getText "pattern" defaultPattern) (params.getText "message" defaultMessage)

variable (config : CommentPattern)

/-- The issues of a document. -/
def issues (document : Document) : List Issue :=
  document.tree.events.filterMap fun
    | .comment id content =>
      if config.isFoundIn content.toList then
        (document.range? id .whole).map fun range ↦ Issue.located rule range config.message
      else
        none
    | _ => none

def check : Check := .stateless rule fun file _ ↦ .found (config.issues file.document)

end CommentPattern

end XmlInspect
