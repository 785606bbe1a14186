import XmlInspect.Query.Fault
import XmlInspect.Query.Syntax
import XmlInspect.Text.Find

/-!
# Parsing queries

The grammar, from the loosest binding to the tightest:

* the binary operators `or`, `and`, equality, relations, sums and products, all of which group to
  the left;
* negation, which may be repeated;
* unions of paths;
* paths, which are steps, or something in parentheses, a literal, a number or a call that predicates
  and steps may follow.

Every parser returns what it has understood and the tokens after that, together with the fact that
these are fewer than there were. This is what makes the recursion end: each call gets fewer tokens,
or as many for a tighter part of the grammar.
-/

namespace XmlInspect.Query

/-! ## Results -/

/-- What was parsed, and the fewer than `bound` tokens that follow it. -/
structure Parsed (α : Type) (bound : Nat) where
  value : α
  rest : List Token
  lt_bound : rest.length < bound

namespace Parsed

variable {α β : Type} {m n : Nat}

/-- The same result under a weaker bound. -/
def weaken (parsed : Parsed α m) (h : m ≤ n) : Parsed α n :=
  ⟨parsed.value, parsed.rest, Nat.lt_of_lt_of_le parsed.lt_bound h⟩

/-- Changes what was parsed. -/
def map (f : α → β) (parsed : Parsed α n) : Parsed β n :=
  ⟨f parsed.value, parsed.rest, parsed.lt_bound⟩

end Parsed

/-- The outcome of parsing some of `tokens`. -/
abbrev Parse (α : Type) (tokens : List Token) := Except Fault (Parsed α tokens.length)

/-- The outcome of parsing some or none of `tokens`. -/
abbrev ParseMany (α : Type) (tokens : List Token) := Except Fault (Parsed α (tokens.length + 1))

/-! ## Parts without expressions in them -/

/-- Whether a name before a parenthesis is a node test and no function. -/
def isNodeType (name : String) : Bool :=
  name == "node" || name == "text" || name == "comment" || name == "processing-instruction"

/-- The fault of finding something else than a token. -/
def expected {α : Type} (token : Token) (found : List Token) : Except Fault α :=
  .error (.expectedToken token found.head?)

/-- Takes a closing parenthesis. -/
def closeParen : (tokens : List Token) → Parse Unit tokens
  | .rightParen :: rest => .ok ⟨(), rest, Nat.lt_succ_self _⟩
  | tokens => expected .rightParen tokens

/-- Takes a closing bracket. -/
def closeBracket : (tokens : List Token) → Parse Unit tokens
  | .rightBracket :: rest => .ok ⟨(), rest, Nat.lt_succ_self _⟩
  | tokens => expected .rightBracket tokens

/-- The test that a name stands for. -/
def nameTest (name : String) : NodeTest :=
  match Text.cutAt [':'] name.toList with
  | some (qualifier, localName) =>
    if localName = ['*'] then .anyName (some (String.ofList qualifier))
    else .name (some (String.ofList qualifier)) (String.ofList localName)
  | none => .name none name

/-- The test of a node type. -/
def typeTest (name : String) : Except Fault NodeTest :=
  if name = "node" then .ok .anyNode
  else if name = "text" then .ok .text
  else if name = "comment" then .ok .comment
  else .error (.unsupportedTest name)

/-- Parses a node test. -/
def nodeTest : (tokens : List Token) → Parse NodeTest tokens
  | .star :: rest => .ok ⟨.anyName none, rest, Nat.lt_succ_self _⟩
  | .name name :: .leftParen :: rest =>
    if isNodeType name then do
      let closed ← closeParen rest
      return ⟨← typeTest name, closed.rest, by
        have := closed.lt_bound
        simp only [List.length_cons]
        omega⟩
    else
      .ok ⟨nameTest name, .leftParen :: rest, Nat.lt_succ_self _⟩
  | .name name :: rest => .ok ⟨nameTest name, rest, Nat.lt_succ_self _⟩
  | tokens => .error (.expectedTest tokens.head?)

/-- Parses what says the axis of a step, which is the children if nothing does. -/
def axis : (tokens : List Token) → ParseMany Axis tokens
  | .atSign :: rest => .ok ⟨.attr, rest, by simp only [List.length_cons]; omega⟩
  | .name name :: .doubleColon :: rest =>
    match Axis.ofName? name with
    | some axis => .ok ⟨axis, rest, by simp only [List.length_cons]; omega⟩
    | none => .error (.unknownAxis name)
  | tokens => .ok ⟨.child, tokens, Nat.lt_succ_self _⟩

/-- Whether a step can start here, after a slash that may also stand alone. -/
def startsStep : List Token → Bool
  | .name _ :: _ | .star :: _ | .atSign :: _ | .dot :: _ | .doubleDot :: _ => true
  | _ => false

/-! ## Precedence -/

/-- The levels of binary operators, the loosest first. -/
inductive Precedence where
  | or
  | and
  | equality
  | relation
  | sum
  | product
  | union
  deriving DecidableEq, Repr

namespace Precedence

/-- The operators of a level. -/
def operators : Precedence → List Operator
  | or => [.or]
  | and => [.and]
  | equality => [.eq, .notEq]
  | relation => [.lt, .ltEq, .gt, .gtEq]
  | sum => [.plus, .minus]
  | product => [.multiply, .div, .mod]
  | union => [.union]

/-- How far a level is from the tightest part of the grammar. -/
@[simp] def rank : Precedence → Nat
  | or => 20
  | and => 18
  | equality => 16
  | relation => 14
  | sum => 12
  | product => 10
  | union => 7

end Precedence

/-! ## Expressions -/

mutual

/-- Parses operands of a level with operators between them. -/
def binary (level : Precedence) (tokens : List Token) : Parse Expr tokens := do
  let first ← operand level tokens
  have := first.lt_bound
  let whole ← operations level first.value first.rest
  return whole.weaken (by omega)
termination_by (tokens.length, level.rank + 1)

/-- Parses further operators and operands of a level after what is on the left. -/
def operations (level : Precedence) (left : Expr) (tokens : List Token) : ParseMany Expr tokens :=
  match tokens with
  | .operator op :: rest =>
    if op ∈ level.operators then do
      let right ← operand level rest
      have := right.lt_bound
      let whole ← operations level (.binary op left right.value) right.rest
      return whole.weaken (by simp only [List.length_cons]; omega)
    else
      .ok ⟨left, .operator op :: rest, Nat.lt_succ_self _⟩
  | tokens => .ok ⟨left, tokens, Nat.lt_succ_self _⟩
termination_by (tokens.length, 0)

/-- Parses what stands between the operators of a level. -/
def operand (level : Precedence) (tokens : List Token) : Parse Expr tokens :=
  match level with
  | .or => binary .and tokens
  | .and => binary .equality tokens
  | .equality => binary .relation tokens
  | .relation => binary .sum tokens
  | .sum => binary .product tokens
  | .product => unary tokens
  | .union => path tokens
termination_by (tokens.length, level.rank)

/-- Parses a negation or a union of paths. -/
def unary (tokens : List Token) : Parse Expr tokens :=
  match tokens with
  | .operator .minus :: rest => do
    let inner ← unary rest
    return (inner.map .negate).weaken (Nat.le_succ _)
  | tokens => binary .union tokens
termination_by (tokens.length, 9)

/-- Parses a path, or something else with predicates and steps after it. -/
def path (tokens : List Token) : Parse Expr tokens :=
  match primary? tokens with
  | some found => do
    let first ← found
    have := first.lt_bound
    let filters ← predicates first.rest
    have := filters.lt_bound
    let tail ← trailingSteps filters.rest
    have := tail.lt_bound
    let value := if filters.value.isEmpty && tail.value.isEmpty then first.value
      else .filter first.value filters.value tail.value
    return ⟨value, tail.rest, by omega⟩
  | none => locationPath tokens
termination_by (tokens.length, 5)

/-- Parses a literal, a number, something in parentheses or a call, if one of these starts here. -/
def primary? (tokens : List Token) : Option (Parse Expr tokens) :=
  match tokens with
  | .literal text :: rest => some (.ok ⟨.literal text, rest, Nat.lt_succ_self _⟩)
  | .number value :: rest => some (.ok ⟨.number value, rest, Nat.lt_succ_self _⟩)
  | .leftParen :: rest => some do
    let inner ← binary .or rest
    have := inner.lt_bound
    let closed ← closeParen inner.rest
    have := closed.lt_bound
    return ⟨inner.value, closed.rest, by simp only [List.length_cons]; omega⟩
  | .name name :: .leftParen :: rest =>
    if isNodeType name then none
    else some do
      let args ← arguments rest
      have := args.lt_bound
      let closed ← closeParen args.rest
      have := closed.lt_bound
      return ⟨.call name args.value, closed.rest, by simp only [List.length_cons]; omega⟩
  | _ => none
termination_by (tokens.length, 4)

/-- Parses the arguments of a call, up to its closing parenthesis. -/
def arguments (tokens : List Token) : ParseMany (List Expr) tokens :=
  match tokens with
  | .rightParen :: rest => .ok ⟨[], .rightParen :: rest, Nat.lt_succ_self _⟩
  | tokens => do
    let first ← binary .or tokens
    have := first.lt_bound
    let others ← moreArguments first.rest
    have := others.lt_bound
    return ⟨first.value :: others.value, others.rest, by omega⟩
termination_by (tokens.length, 30)

/-- Parses arguments after commas. -/
def moreArguments (tokens : List Token) : ParseMany (List Expr) tokens :=
  match tokens with
  | .comma :: rest => do
    let next ← binary .or rest
    have := next.lt_bound
    let others ← moreArguments next.rest
    have := others.lt_bound
    return ⟨next.value :: others.value, others.rest, by simp only [List.length_cons]; omega⟩
  | tokens => .ok ⟨[], tokens, Nat.lt_succ_self _⟩
termination_by (tokens.length, 0)

/-- Parses a path of steps. A slash alone is the document. -/
def locationPath (tokens : List Token) : Parse Expr tokens :=
  match tokens with
  | .slash :: rest =>
    if startsStep rest then do
      let found ← steps rest
      return (found.map (.path true)).weaken (Nat.le_succ _)
    else
      .ok ⟨.path true [], rest, Nat.lt_succ_self _⟩
  | .doubleSlash :: rest => do
    let found ← steps rest
    return (found.map fun steps ↦ .path true (.anyDescendant :: steps)).weaken (Nat.le_succ _)
  | tokens => do
    let found ← steps tokens
    return found.map (.path false)
termination_by (tokens.length, 4)

/-- Parses one or more steps. -/
def steps (tokens : List Token) : Parse (List Step) tokens := do
  let first ← step tokens
  have := first.lt_bound
  let others ← trailingSteps first.rest
  have := others.lt_bound
  return ⟨first.value :: others.value, others.rest, by omega⟩
termination_by (tokens.length, 3)

/-- Parses steps after slashes, if there are any. -/
def trailingSteps (tokens : List Token) : ParseMany (List Step) tokens :=
  match tokens with
  | .slash :: rest => do
    let found ← steps rest
    return found.weaken (by simp only [List.length_cons]; omega)
  | .doubleSlash :: rest => do
    let found ← steps rest
    return (found.map (.anyDescendant :: ·)).weaken (by simp only [List.length_cons]; omega)
  | tokens => .ok ⟨[], tokens, Nat.lt_succ_self _⟩
termination_by (tokens.length, 0)

/-- Parses a step. -/
def step (tokens : List Token) : Parse Step tokens :=
  match tokens with
  | .dot :: rest => .ok ⟨.step .self .anyNode [], rest, Nat.lt_succ_self _⟩
  | .doubleDot :: rest => .ok ⟨.step .parent .anyNode [], rest, Nat.lt_succ_self _⟩
  | tokens => do
    let direction ← axis tokens
    have := direction.lt_bound
    let test ← nodeTest direction.rest
    have := test.lt_bound
    let filters ← predicates test.rest
    have := filters.lt_bound
    return ⟨.step direction.value test.value filters.value, filters.rest, by omega⟩
termination_by (tokens.length, 2)

/-- Parses predicates in brackets, if there are any. -/
def predicates (tokens : List Token) : ParseMany (List Expr) tokens :=
  match tokens with
  | .leftBracket :: rest => do
    let inner ← binary .or rest
    have := inner.lt_bound
    let closed ← closeBracket inner.rest
    have := closed.lt_bound
    let others ← predicates closed.rest
    have := others.lt_bound
    return ⟨inner.value :: others.value, others.rest, by simp only [List.length_cons]; omega⟩
  | tokens => .ok ⟨[], tokens, Nat.lt_succ_self _⟩
termination_by (tokens.length, 0)

end

/-- Parses all tokens of a query. -/
def parse (tokens : List Token) : Except Fault Expr := do
  let whole ← binary .or tokens
  match whole.rest with
  | [] => return whole.value
  | token :: _ => throw (.unexpectedToken token)

end XmlInspect.Query
