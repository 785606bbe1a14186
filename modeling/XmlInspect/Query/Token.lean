import XmlInspect.Number.Shortest
import XmlInspect.Text.Quoted

/-!
# Tokens of queries

The words of the query language. A star and the words `and`, `or`, `div` and `mod` are operators
only where an operand has just ended; anywhere else they are names to look for. So what a token is
depends on the token before it, and on nothing else.
-/

namespace XmlInspect.Query

/-- The binary operators. -/
inductive Operator where
  | or
  | and
  | eq
  | notEq
  | lt
  | ltEq
  | gt
  | gtEq
  | plus
  | minus
  | multiply
  | div
  | mod
  | union
  deriving DecidableEq, Repr

/-- A word of a query. -/
inductive Token where
  | slash
  | doubleSlash
  | leftBracket
  | rightBracket
  | leftParen
  | rightParen
  | atSign
  | comma
  | dot
  | doubleDot
  | doubleColon
  /-- A star that stands for any name. -/
  | star
  | operator (op : Operator)
  | literal (text : String)
  | number (value : Float)
  /-- A name, a qualified name, or a qualifier with a star. -/
  | name (text : String)

namespace Operator

def display : Operator → String
  | or => "Or"
  | and => "And"
  | eq => "Eq"
  | notEq => "NotEq"
  | lt => "Lt"
  | ltEq => "LtEq"
  | gt => "Gt"
  | gtEq => "GtEq"
  | plus => "Plus"
  | minus => "Minus"
  | multiply => "Multiply"
  | div => "Div"
  | mod => "Mod"
  | union => "Union"

end Operator

namespace Token

/-- A token in a message. -/
def display : Token → String
  | slash => "Slash"
  | doubleSlash => "DoubleSlash"
  | leftBracket => "LBracket"
  | rightBracket => "RBracket"
  | leftParen => "LParen"
  | rightParen => "RParen"
  | atSign => "At"
  | comma => "Comma"
  | dot => "Dot"
  | doubleDot => "DotDot"
  | doubleColon => "DoubleColon"
  | star => "Star"
  | operator op => s!"Operator({op.display})"
  | literal text => s!"Literal({Text.quote text})"
  | number value => s!"Number({Number.inMessage value})"
  | name text => s!"Name({Text.quote text})"

/-- Whether an operand can end with this token, so that an operator may follow. -/
def endsOperand : Token → Bool
  | atSign | doubleColon | leftParen | leftBracket | comma | slash | doubleSlash => false
  | operator _ => false
  | _ => true

end Token

end XmlInspect.Query
