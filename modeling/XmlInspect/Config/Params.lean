import XmlInspect.Text.Blank

/-!
# Parameters of rules

A rule is configured by named values. They are written as integers, booleans or texts, and a rule
that wants a text takes any of them, while a rule that wants a number takes an integer or a text
that spells one.
-/

namespace XmlInspect

/-! ## Values -/

/-- The value of a parameter. -/
inductive ParamValue where
  | integer (value : Int)
  | boolean (value : Bool)
  | text (value : String)
  deriving DecidableEq, Repr

namespace ParamValue

/-- The value as a text. -/
def toText : ParamValue → String
  | integer value => toString value
  | boolean value => if value then "true" else "false"
  | text value => value

end ParamValue

/-! ## Why a rule cannot be set up -/

/-- What is wrong with the configuration of a rule. -/
inductive RuleFault where
  | missing (key : String)
  | notNatural (key : String) (value : ParamValue)
  | outOfRange (key : String) (value : Nat)
  | unknownRule
  /-- A pattern that cannot be looked for, with what its engine says about it. -/
  | badPattern (reason : String)
  deriving DecidableEq, Repr

namespace RuleFault

def message : RuleFault → String
  | missing key => s!"missing required parameter '{key}'"
  | notNatural key value => s!"parameter '{key}' is not a non-negative integer: " ++ value.toText
  | outOfRange key value => s!"parameter '{key}' is out of range: {value}"
  | unknownRule => "unknown rule"
  | badPattern reason => reason

end RuleFault

/-! ## Reading -/

/-- The number that a row of digits spells. -/
def readDigits? : List Char → Option Nat
  | [] => none
  | digits =>
    if digits.all Char.isDigit then
      some (digits.foldl (fun n c ↦ 10 * n + (c.toNat - '0'.toNat)) 0)
    else
      none

/-- The number below `bound` that a text spells: digits, perhaps after a plus sign. -/
def readNatural? (bound : Nat) (text : List Char) : Option Nat :=
  let digits :=
    match text with
    | '+' :: digits => digits
    | digits => digits
  (readDigits? digits).filter (· < bound)

/-- The parameters of a rule. -/
structure RuleParams where
  values : List (String × ParamValue)
  deriving DecidableEq, Repr

namespace RuleParams

def empty : RuleParams := ⟨[]⟩

variable (params : RuleParams)

def get? (key : String) : Option ParamValue := params.values.lookup key

/-- A text, or a default if it is not set. -/
def getText (key default : String) : String := ((params.get? key).map ParamValue.toText).getD default

/-- A text that has to be set and must not be blank. -/
def requireText (key : String) : Except RuleFault String :=
  match params.get? key with
  | some value =>
    if (Text.trim Text.isBlank value.toText.toList).isEmpty then .error (.missing key)
    else .ok value.toText
  | none => .error (.missing key)

/-- A number of at most 64 bits. -/
def getNatural? (key : String) : Except RuleFault (Option Nat) :=
  match params.get? key with
  | none => .ok none
  | some (.integer value) =>
    if value < 0 then .error (.notNatural key (.integer value)) else .ok (some value.toNat)
  | some (.text value) =>
    match readNatural? UInt64.size (Text.trim Text.isBlank value.toList) with
    | some n => .ok (some n)
    | none => .error (.notNatural key (.text value))
  | some (.boolean value) => .error (.notNatural key (.boolean value))

/-- A number, or a default if it is not set. -/
def getNatural (key : String) (default : Nat) : Except RuleFault Nat := do
  return (← params.getNatural? key).getD default

/-- The version of a platform, which has at most 32 bits. -/
def getVersion? (key : String) : Except RuleFault (Option Nat) := do
  match ← params.getNatural? key with
  | none => return none
  | some version =>
    if version < UInt32.size then return some version else throw (.outOfRange key version)

end RuleParams

end XmlInspect
