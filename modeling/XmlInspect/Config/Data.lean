import XmlInspect.Config.Params

/-!
# Configurations and the data they are read from

A configuration comes as plain data: scalars, lists and tables. A record may also be given as the
list of its fields in order, of which the last ones may be left out. Fields that are not given take
their defaults and fields that nobody knows are ignored, but a field that is given has to be of the
right shape.
-/

namespace XmlInspect

/-- Plain data. -/
inductive Data where
  | null
  | boolean (value : Bool)
  | integer (value : Int)
  /-- A number with a point or an exponent, whose value nobody asks for. -/
  | real
  | text (value : String)
  | list (items : List Data)
  /-- A table, in which no key is given twice. -/
  | table (entries : List (String × Data))

/-- Whether an integer has at most 64 bits. -/
def Data.isWord (value : Int) : Bool :=
  Int64.minValue.toInt ≤ value && value ≤ Int64.maxValue.toInt

/-- The settings that all rules share. -/
structure Settings where
  /-- The oldest version of the platform that has to be supported. -/
  minPlatformVersion : Option Nat
  deriving DecidableEq, Repr

namespace Settings

def default : Settings := ⟨none⟩

/-- Whether a version below the given one has to be supported. -/
def supportsBelow (settings : Settings) (version : Nat) : Bool :=
  match settings.minPlatformVersion with
  | some oldest => oldest < version
  | none => true

end Settings

/-- The rules to apply and the settings they share. -/
structure Config where
  /-- The rules in ascending order of their names. -/
  rules : List (String × RuleParams)
  settings : Settings
  deriving DecidableEq, Repr

/-! ## Decoding -/

/-- Decodes every entry of a table. -/
def decodeEntries {α : Type} (decode : Data → Option α) :
    List (String × Data) → Option (List (String × α))
  | [] => some []
  | (key, value) :: entries => do
    return (key, ← decode value) :: (← decodeEntries decode entries)

/-- Decodes the fields of a record by their names, in order. Gives what was found for each. -/
def recordFields (names : List String) : Data → Option (List (Option Data))
  | .table entries => some (names.map fun name ↦ entries.lookup name)
  | .list items =>
    if items.length ≤ names.length then
      some ((items.map some) ++ List.replicate (names.length - items.length) none)
    else
      none
  | _ => none

/-- Decodes a field, which has a default. -/
def decodeField {α : Type} (decode : Data → Option α) (default : α) : Option Data → Option α
  | some data => decode data
  | none => some default

namespace ParamValue

/-- A value of a parameter. Integers have 64 bits. -/
def ofData? : Data → Option ParamValue
  | .integer value => if Data.isWord value then some (integer value) else none
  | .boolean value => some (boolean value)
  | .text value => some (text value)
  | _ => none

end ParamValue

namespace RuleParams

/-- Parameters are a table of values. -/
def ofData? : Data → Option RuleParams
  | .table entries => (decodeEntries ParamValue.ofData? entries).map RuleParams.mk
  | _ => none

end RuleParams

namespace Settings

/-- A version is null or a number of 32 bits. -/
def versionOfData? : Data → Option (Option Nat)
  | .null => some none
  | .integer value => if 0 ≤ value ∧ value < UInt32.size then some (some value.toNat) else none
  | _ => none

/-- Settings are a record of one field. -/
def ofData? (data : Data) : Option Settings := do
  match ← recordFields ["min_platform_version"] data with
  | [version] => return ⟨← decodeField versionOfData? none version⟩
  | _ => none

end Settings

namespace Config

/-- Puts rules in ascending order of their names. -/
def sortRules (rules : List (String × RuleParams)) : List (String × RuleParams) :=
  rules.mergeSort fun a b ↦ a.1 ≤ b.1

/-- The rules of a configuration are a table of parameters. -/
def rulesOfData? : Data → Option (List (String × RuleParams))
  | .table entries => (decodeEntries RuleParams.ofData? entries).map sortRules
  | _ => none

/-- A configuration is a record of two fields. -/
def ofData? (data : Data) : Option Config := do
  match ← recordFields ["rules", "settings"] data with
  | [rules, settings] =>
    return ⟨← decodeField rulesOfData? [] rules,
      ← decodeField Settings.ofData? .default settings⟩
  | _ => none

variable (config : Config)

/-- The parameters of a rule that is to be applied. -/
def params? (rule : String) : Option RuleParams := config.rules.lookup rule

/-- Whether a rule is to be applied. -/
def enables (rule : String) : Bool := (config.params? rule).isSome

end Config

end XmlInspect
