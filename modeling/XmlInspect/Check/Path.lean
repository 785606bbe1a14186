import XmlInspect.Check.Basic
import XmlInspect.Query.Basic

/-!
# Nodes that a query selects

A query that selects nodes gives an issue for each of them. Any other value is read as a truth
value and gives one issue about the file if it is true. A query that cannot be evaluated on a file
gives none.

The rule may be restricted to projects that still have to support a version of the platform below
a given one. Names are taken as they are written, unless the query asks for namespaces.
-/

namespace XmlInspect

/-- What nodes are looked for, and what is said about them. -/
structure PathRule where
  query : Query
  message : String
  /-- The rule applies only if something below this version has to be supported. -/
  untilVersion : Option Nat

namespace PathRule

def rule : String := "XPathCheck"

def defaultMessage : String := "Change this XML to not match the configured expression."

/-- Compiles the query of a rule. -/
def ofExpression (expression message : String) (untilVersion : Option Nat) :
    Except Error PathRule := do
  let query ← (Query.compile expression).mapError (.query expression)
  return ⟨query, message, untilVersion⟩

/-- Reads the expression, which has to be there, and the rest. -/
def ofParams (params : RuleParams) : Except Error PathRule := do
  let expression ← (params.requireText "expression").mapError (.configuration rule)
  let config ← ofExpression expression (params.getText "message" defaultMessage) none
  let untilVersion ← (params.getVersion? "untilPlatformVersion").mapError (.configuration rule)
  return { config with untilVersion }

variable (config : PathRule)

/-- Where a selected node is reported: an element at its opening tag, and the document nowhere in
particular. -/
def place? (document : Document) : Query.QueryNode → Option TextRange
  | .attr id => document.attrRange? id .whole
  | .node id =>
    match document.tree.kind? id with
    | some .document => none
    | some (.element _ _) => document.range? id .opening
    | _ => document.range? id .whole

/-- The issue of a selected node. -/
def issueAt (document : Document) (node : Query.QueryNode) : Issue :=
  match place? document node with
  | some range => Issue.located rule range config.message
  | none => Issue.aboutFile rule config.message

/-- The issues of a document. -/
def issues (document : Document) : List Issue :=
  match config.query.evaluate document.tree Tree.root with
  | .ok (.nodes nodes) => nodes.map (config.issueAt document)
  | .ok value => if value.toBoolean then [Issue.aboutFile rule config.message] else []
  | .error _ => []

/-- Whether the rule applies at all. -/
def applies (settings : Settings) : Bool := config.untilVersion.all settings.supportsBelow

/-- How names are to be understood. -/
def mode : NamespaceMode := if config.query.usesNamespaces then .aware else .oblivious

def check : Check := .stateless rule fun file settings ↦
  if config.applies settings then
    match file.documentIn config.mode with
    | .ok document => .found (config.issues document)
    | .error error => .failed error
  else
    .found []

end PathRule

end XmlInspect
