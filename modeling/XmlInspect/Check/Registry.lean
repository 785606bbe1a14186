import XmlInspect.Check.Comment
import XmlInspect.Check.Indentation
import XmlInspect.Check.Layout
import XmlInspect.Check.Newline
import XmlInspect.Check.Path

/-!
# The rules of this library

The rules that a configuration can name, in the order in which they are applied. One of them, the
reporting of files that cannot be parsed, has no check of its own, because a check only ever sees
files that could be parsed.
-/

namespace XmlInspect

/-- A rule of this library. -/
inductive Rule where
  | parsingError
  | charBeforeProlog
  | indentation
  | newline
  | tabCharacter
  | newlineAtEndOfFile
  | commentPattern
  | path
  deriving DecidableEq, Repr

namespace Rule

/-- The rules in the order in which they are applied. -/
def all : List Rule :=
  [parsingError, charBeforeProlog, indentation, newline, tabCharacter, newlineAtEndOfFile,
    commentPattern, path]

/-- The name by which a configuration calls a rule. -/
def key : Rule → String
  | parsingError => "ParsingError"
  | charBeforeProlog => PrologCheck.rule
  | indentation => Indentation.rule
  | newline => NewlineCheck.rule
  | tabCharacter => TabCheck.rule
  | newlineAtEndOfFile => EndOfFileCheck.rule
  | commentPattern => CommentPattern.rule
  | path => PathRule.rule

/-- Turns the configuration of a rule into its check. -/
def withConfig {ε α : Type} (toError : ε → Error) (toCheck : α → Check) :
    Except ε α → Option (Except Error Check)
  | .ok config => some (.ok (toCheck config))
  | .error fault => some (.error (toError fault))

/-- The check of a rule with its parameters, or why it cannot be set up. -/
def check? [PatternEngine] (rule : Rule) (params : RuleParams) : Option (Except Error Check) :=
  match rule with
  | parsingError => none
  | charBeforeProlog => some (.ok PrologCheck.check)
  | indentation =>
    withConfig (.configuration rule.key) Indentation.check (Indentation.ofParams params)
  | newline => some (.ok NewlineCheck.check)
  | tabCharacter => some (.ok TabCheck.check)
  | newlineAtEndOfFile => some (.ok EndOfFileCheck.check)
  | commentPattern =>
    withConfig (.configuration rule.key) CommentPattern.check (CommentPattern.ofParams params)
  | path => withConfig id PathRule.check (PathRule.ofParams params)

end Rule

namespace Config

/-- Every rule without parameters, except for the one that makes no sense without them. -/
def allRules : Config where
  rules := sortRules ((Rule.all.filter (· != .path)).map fun rule ↦ (rule.key, .empty))
  settings := .default

variable (config : Config)

/-- The names that are no rule of this library. -/
def unknownRules : List String :=
  (config.rules.map Prod.fst).filter fun name ↦ !(Rule.all.map Rule.key).contains name

variable [PatternEngine]

/-- What comes of the rules of this library that are to be applied, in order. -/
def results : List (Except Error Check) :=
  Rule.all.filterMap fun rule ↦ (config.params? rule.key).bind rule.check?

/-- The checks to be run, in order. -/
def checks : List Check :=
  config.results.filterMap fun
    | .ok check => some check
    | .error _ => none

/-- Why some rules are not applied: first those that cannot be set up, then those that do not
exist. -/
def setupErrors : List Error :=
  (config.results.filterMap fun
    | .ok _ => none
    | .error error => some error)
    ++ config.unknownRules.map fun name ↦ .configuration name .unknownRule

end Config

end XmlInspect
