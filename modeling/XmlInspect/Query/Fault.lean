import XmlInspect.Query.Token

/-!
# Faults of queries

What can be wrong with the text of a query, and what can go wrong when it is evaluated.
-/

namespace XmlInspect.Query

/-- Why a query has no value. -/
inductive Fault where
  /-- A quote is never closed. -/
  | unterminatedLiteral
  | invalidNumber (text : List Char)
  /-- A colon is followed by nothing that could complete a name. -/
  | invalidName (offset : Nat)
  | unexpectedChar (c : Char)
  | unexpectedToken (token : Token)
  | expectedToken (expected : Token) (found : Option Token)
  | unknownAxis (name : String)
  | unsupportedTest (name : String)
  | expectedTest (found : Option Token)
  /-- Predicates or steps follow something that is no node-set. -/
  | filterOfScalar
  | unionOfScalar
  | wrongArity (name : String)
  | fewConcatArguments
  | unknownFunction (name : String)
  | scalarArgument
  /-- Nodes are asked for and the query has another kind of value. -/
  | selectsNothing

namespace Fault

/-- What was found, which may be the end. -/
def showFound : Option Token → String
  | some token => token.display
  | none => "end of expression"

def message : Fault → String
  | unterminatedLiteral => "unterminated string literal"
  | invalidNumber text => s!"invalid number '{String.ofList text}'"
  | invalidName offset => s!"invalid qualified name at offset {offset}"
  | unexpectedChar c => s!"unexpected character '{c}'"
  | unexpectedToken token => s!"unexpected token {token.display}"
  | expectedToken expected found => s!"expected {expected.display}, found {showFound found}"
  | unknownAxis name => s!"unknown axis '{name}'"
  | unsupportedTest name => s!"unsupported node test '{name}()'"
  | expectedTest found => s!"expected a node test, found {showFound found}"
  | filterOfScalar => "predicates and steps apply only to node-sets"
  | unionOfScalar => "union operands must be node-sets"
  | wrongArity name => s!"wrong number of arguments for {name}()"
  | fewConcatArguments => "concat() needs at least two arguments"
  | unknownFunction name => s!"unknown function {name}()"
  | scalarArgument => "argument is not a node-set"
  | selectsNothing => "expression does not select nodes"

end Fault

end XmlInspect.Query
