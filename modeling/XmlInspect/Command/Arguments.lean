import XmlInspect.Config.Params

/-!
# Arguments

The arguments of the command line are read from left to right, and the first thing that is wrong, or
that asks for the version, decides. Options have long and short names. A value may follow as the
next argument or be attached, and the short names of options without values may be written together.
Nothing may be given twice, except for paths and extensions. After two hyphens everything is a path.
-/

namespace XmlInspect.Command

/-- How the report is written. -/
inductive Format where
  | text
  | xml
  deriving DecidableEq, Repr

/-- What the arguments say. What was not given is left open. -/
structure Arguments where
  paths : List String
  config : Option String
  extensions : List String
  jobs : Option Nat
  format : Option Format
  maxIssues : Option Nat
  compact : Bool
  failuresOnly : Bool
  followLinks : Bool
  verbose : Bool
  deriving DecidableEq, Repr

/-- What a command line asks for. -/
inductive Invocation where
  | run (arguments : Arguments)
  | version
  | help
  /-- It makes no sense. -/
  | refused
  deriving DecidableEq, Repr

/-- An option with a value. -/
inductive ValueOption where
  | config
  | extension
  | jobs
  | format
  | maxIssues
  deriving DecidableEq, Repr

/-- An option without a value. -/
inductive Flag where
  | compact
  | failuresOnly
  | followLinks
  | verbose
  | version
  | help
  deriving DecidableEq, Repr

/-! ## Names -/

/-- An option of either kind. -/
abbrev AnyOption := Flag ⊕ ValueOption

def longNames : List (String × AnyOption) := [
  ("config", .inr .config),
  ("ext", .inr .extension),
  ("jobs", .inr .jobs),
  ("format", .inr .format),
  ("max-issues", .inr .maxIssues),
  ("compact", .inl .compact),
  ("failures-only", .inl .failuresOnly),
  ("follow-links", .inl .followLinks),
  ("verbose", .inl .verbose),
  ("version", .inl .version),
  ("help", .inl .help)]

def shortNames : List (Char × AnyOption) := [
  ('c', .inr .config),
  ('j', .inr .jobs),
  ('f', .inr .format),
  ('v', .inl .verbose),
  ('V', .inl .version),
  ('h', .inl .help)]

/-! ## Setting -/

namespace Arguments

/-- Nothing was given. -/
def empty : Arguments := ⟨[], none, [], none, none, none, false, false, false, false⟩

variable (arguments : Arguments)

/-- Adds a path, which must not be empty. -/
def addPath? (path : String) : Option Arguments :=
  if path.isEmpty then none else some { arguments with paths := arguments.paths ++ [path] }

/-- Gives an option its value. -/
def set? (option : ValueOption) (value : String) : Option Arguments :=
  match option with
  | .config =>
    if arguments.config.isSome ∨ value.isEmpty then none
    else some { arguments with config := some value }
  | .extension => some { arguments with extensions := arguments.extensions ++ [value] }
  | .jobs => do
    let jobs ← readNatural? UInt64.size value.toList
    if arguments.jobs.isSome then none else some { arguments with jobs := some jobs }
  | .format => do
    let format ← [("text", Format.text), ("xml", Format.xml)].lookup value
    if arguments.format.isSome then none else some { arguments with format := some format }
  | .maxIssues => do
    let limit ← readNatural? UInt64.size value.toList
    if arguments.maxIssues.isSome then none else some { arguments with maxIssues := some limit }

end Arguments

/-! ## Reading -/

/-- What an argument leads to. -/
inductive Step where
  | done (invocation : Invocation)
  | next (arguments : Arguments)
  /-- An option waits for its value. -/
  | awaits (option : ValueOption) (arguments : Arguments)

/-- Goes on if there is something to go on with. -/
def Step.ofOption : Option Arguments → Step
  | some arguments => .next arguments
  | none => .done .refused

/-- Raises a flag that is not raised yet. -/
def Step.raise (arguments : Arguments) (flag : Flag) : Step :=
  match flag with
  | .version => .done .version
  | .help => .done .help
  | .compact =>
    if arguments.compact then .done .refused else .next { arguments with compact := true }
  | .failuresOnly =>
    if arguments.failuresOnly then .done .refused else .next { arguments with failuresOnly := true }
  | .followLinks =>
    if arguments.followLinks then .done .refused else .next { arguments with followLinks := true }
  | .verbose =>
    if arguments.verbose then .done .refused else .next { arguments with verbose := true }

/-- Reads an option with a long name, after its hyphens. -/
def readLong (arguments : Arguments) (text : List Char) : Step :=
  let name := String.ofList (text.takeWhile (· != '='))
  let value :=
    match text.dropWhile (· != '=') with
    | _ :: value => some (String.ofList value)
    | [] => none
  match longNames.lookup name, value with
  | some (.inl flag), none => .raise arguments flag
  | some (.inr option), some value => .ofOption (arguments.set? option value)
  | some (.inr option), none => .awaits option arguments
  | _, _ => .done .refused

/-- The value that is attached to a short name, where an equals sign may stand before it. -/
def attached : List Char → String
  | '=' :: value => String.ofList value
  | value => String.ofList value

/-- Reads options with short names, after the hyphen. -/
def readShort (arguments : Arguments) : List Char → Step
  | [] => .next arguments
  | c :: rest =>
    match shortNames.lookup c with
    | some (.inl flag) =>
      match Step.raise arguments flag with
      | .next arguments => readShort arguments rest
      | step => step
    | some (.inr option) =>
      if rest.isEmpty then .awaits option arguments
      else .ofOption (arguments.set? option (attached rest))
    | none => .done .refused

/-- Whether an argument can be no value. A lone hyphen can. -/
def isOption (argument : String) : Bool :=
  match argument.toList with
  | '-' :: _ :: _ => true
  | _ => false

/-- Reads one argument. -/
def readArgument (arguments : Arguments) (argument : String) : Step :=
  match argument.toList with
  | '-' :: '-' :: name => readLong arguments name
  | '-' :: c :: names => readShort arguments (c :: names)
  | _ => .ofOption (arguments.addPath? argument)

/-- Reads paths. -/
def readPaths (arguments : Arguments) : List String → Invocation
  | [] => .run arguments
  | path :: rest =>
    match arguments.addPath? path with
    | some arguments => readPaths arguments rest
    | none => .refused

/-- Reads the arguments that are left, given an option that waits for its value. -/
def readFrom (arguments : Arguments) (waiting : Option ValueOption) : List String → Invocation
  | [] => if waiting.isSome then .refused else .run arguments
  | argument :: rest =>
    match waiting with
    | some option =>
      if isOption argument then .refused
      else
        match arguments.set? option argument with
        | some arguments => readFrom arguments none rest
        | none => .refused
    | none =>
      if argument = "--" then
        readPaths arguments rest
      else
        match readArgument arguments argument with
        | .done invocation => invocation
        | .next arguments => readFrom arguments none rest
        | .awaits option arguments => readFrom arguments (some option) rest

/-- What the arguments ask for. -/
def Invocation.ofArguments (arguments : List String) : Invocation :=
  readFrom .empty none arguments

end XmlInspect.Command
