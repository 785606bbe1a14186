import XmlInspect.Config.Data
import XmlInspect.Number.Decimal
import XmlInspect.Text.Find

/-!
# Configuration files

Configurations are written in TOML. A file is a row of statements, a line or more each: the header
of a table, or a key with its value. The statements are read first and put together afterwards,
where no key may be given twice and no table opened twice.

No field of a configuration is a date or a time. One that is given nevertheless is a table with a
single entry, whose key is `dateKey`.

Only whether a file can be read matters, so nothing is said about what is wrong with it.
-/

namespace XmlInspect.Toml

/-! ## Blanks and comments -/

/-- Whether a character may stand nowhere, line ends aside. -/
def isControl (c : Char) : Bool := (c.toNat < 0x20 && c != '\t') || c.toNat == 0x7F

def isBlank (c : Char) : Bool := c == ' ' || c == '\t'

def skipBlanks (text : List Char) : List Char := text.dropWhile isBlank

/-- Ends lines by a line feed alone. -/
def unifyLineEnds : List Char → List Char
  | '\r' :: '\n' :: rest => '\n' :: unifyLineEnds rest
  | c :: rest => c :: unifyLineEnds rest
  | [] => []

/-- Passes over blanks and a comment up to the end of the line. -/
def skipComment? (text : List Char) : Option (List Char) :=
  match skipBlanks text with
  | '#' :: rest =>
    if (rest.takeWhile (· != '\n')).any isControl then none else some (rest.dropWhile (· != '\n'))
  | rest => some rest

/-- Passes over the rest of a line in which nothing more is to be found. -/
def endLine? (text : List Char) : Option (List Char) :=
  match skipComment? text with
  | some ('\n' :: rest) => some rest
  | some [] => some []
  | _ => none

/-- Passes over blanks, comments and line ends. -/
def skipLines? : Nat → List Char → Option (List Char)
  | 0, _ => none
  | fuel + 1, text =>
    match skipComment? text with
    | some ('\n' :: rest) => skipLines? fuel rest
    | rest => rest

/-! ## Strings -/

/-- The value of a row of hexadecimal digits, if it is a character. -/
def hexChar? (digits : List Char) : Option Char := do
  let values ← digits.mapM fun c ↦
    if '0' ≤ c ∧ c ≤ '9' then some (c.toNat - '0'.toNat)
    else if 'a' ≤ c ∧ c ≤ 'f' then some (c.toNat - 'a'.toNat + 10)
    else if 'A' ≤ c ∧ c ≤ 'F' then some (c.toNat - 'A'.toNat + 10)
    else none
  let code := values.foldl (fun n digit ↦ 16 * n + digit) 0
  if code.isValidChar then some (Char.ofNat code) else none

/-- The character that a letter after a backslash stands for. -/
def escape? : Char → Option Char
  | 'b' => some '\x08'
  | 't' => some '\t'
  | 'n' => some '\n'
  | 'f' => some '\x0c'
  | 'r' => some '\r'
  | '"' => some '"'
  | '\\' => some '\\'
  | _ => none

/-- Replaces escapes. In a string of several lines a backslash at the end of a line takes away
everything up to the next visible character; `trimming` says that this is going on, and whether the
line has ended yet. -/
def unescape? (trimming : Option Bool) : List Char → Option (List Char)
  | [] => if trimming = some false then none else some []
  | '\\' :: 'u' :: a :: b :: c :: d :: rest =>
    if trimming = some false then none
    else do return (← hexChar? [a, b, c, d]) :: (← unescape? none rest)
  | '\\' :: 'U' :: a :: b :: c :: d :: e :: f :: g :: h :: rest =>
    if trimming = some false then none
    else do return (← hexChar? [a, b, c, d, e, f, g, h]) :: (← unescape? none rest)
  | '\\' :: c :: rest =>
    if trimming = some false then none
    else if c = '\n' then unescape? (some true) rest
    else if isBlank c then unescape? (some false) rest
    else do return (← escape? c) :: (← unescape? none rest)
  | c :: rest =>
    match trimming with
    | some ended =>
      if c = '\n' then unescape? (some true) rest
      else if isBlank c then unescape? (some ended) rest
      else if ended then do return c :: (← unescape? none rest)
      else none
    | none => do return c :: (← unescape? none rest)

/-- Cuts a string at its closing quote. If there are escapes, a backslash protects the character
after it. -/
def cutQuoted? (quote : Char) (escapes : Bool) : List Char → Option (List Char × List Char)
  | [] => none
  | c :: rest =>
    if c = quote then
      some ([], rest)
    else if escapes ∧ c = '\\' then
      match rest with
      | d :: rest => (cutQuoted? quote escapes rest).map fun (body, rest) ↦ (c :: d :: body, rest)
      | [] => none
    else
      (cutQuoted? quote escapes rest).map fun (body, rest) ↦ (c :: body, rest)

/-- Cuts a string of several lines at its three closing quotes, which are the last of a row. -/
def cutTriple? (quote : Char) (escapes : Bool) : List Char → Option (List Char × List Char)
  | [] => none
  | a :: b :: c :: rest =>
    if a = quote ∧ b = quote ∧ c = quote ∧ rest.head? ≠ some quote then
      some ([], rest)
    else if escapes ∧ a = '\\' then
      (cutTriple? quote escapes (c :: rest)).map fun (body, rest) ↦ (a :: b :: body, rest)
    else
      (cutTriple? quote escapes (b :: c :: rest)).map fun (body, rest) ↦ (a :: body, rest)
  | _ => none

/-- Reads a string on one line after its opening quote. -/
def quoted? (quote : Char) (text : List Char) : Option (String × List Char) := do
  let escapes := quote == '"'
  let (body, rest) ← cutQuoted? quote escapes text
  if body.any isControl then none
  let content ← if escapes then unescape? none body else some body
  return (String.ofList content, rest)

/-- Reads a string of several lines after its opening quotes. A line end that follows directly is
dropped. -/
def tripleQuoted? (quote : Char) (text : List Char) : Option (String × List Char) := do
  let escapes := quote == '"'
  let text := if text.head? = some '\n' then text.drop 1 else text
  let (body, rest) ← cutTriple? quote escapes text
  if body.any fun c ↦ c != '\n' && isControl c then none
  let content ← if escapes then unescape? none body else some body
  return (String.ofList content, rest)

/-! ## Keys -/

/-- Whether a character may stand in a key without quotes. -/
def isKeyChar (c : Char) : Bool := c.isAlphanum || c == '_' || c == '-'

/-- Reads one part of a key. -/
def keyPart? (text : List Char) : Option (String × List Char) :=
  match text with
  | '"' :: rest => quoted? '"' rest
  | '\'' :: rest => quoted? '\'' rest
  | text =>
    let name := text.takeWhile isKeyChar
    if name.isEmpty then none else some (String.ofList name, text.dropWhile isKeyChar)

/-- Reads a key, whose parts are divided by points with blanks around them. -/
def key? : Nat → List Char → Option (List String × List Char)
  | 0, _ => none
  | fuel + 1, text => do
    let (part, rest) ← keyPart? (skipBlanks text)
    match skipBlanks rest with
    | '.' :: rest =>
      let (parts, rest) ← key? fuel rest
      return (part :: parts, rest)
    | rest => return ([part], rest)

/-! ## Numbers -/

/-- Whether characters are digits with single underscores between them. -/
def isDigits (isDigit : Char → Bool) : List Char → Bool
  | [] => false
  | [c] => isDigit c
  | c :: '_' :: d :: rest => isDigit c && isDigits isDigit (d :: rest)
  | c :: d :: rest => isDigit c && isDigits isDigit (d :: rest)

/-- The value of digits in some base. -/
def digitsValue (base : Nat) (digits : List Char) : Nat :=
  (digits.filter (· != '_')).foldl (fun n c ↦
    let digit := if c.isDigit then c.toNat - '0'.toNat else c.toLower.toNat - 'a'.toNat + 10
    base * n + digit) 0

/-- Whether characters are a decimal number without a superfluous zero. -/
def isDecimal (digits : List Char) : Bool :=
  isDigits Char.isDigit digits && (digits.length == 1 || digits.head? != some '0')

/-- An integer of 64 bits. -/
def bounded? (value : Int) : Option Data :=
  if Data.isWord value then some (.integer value) else none

/-- Whether a character is a digit below a base. -/
def isDigitBelow (base : Nat) (c : Char) : Bool :=
  if c.isDigit then c.toNat - '0'.toNat < base
  else base == 16 && 'a' ≤ c.toLower && c.toLower ≤ 'f'

/-- Reads an integer in another base. -/
def based? (base : Nat) (digits : List Char) : Option Data :=
  if isDigits (isDigitBelow base) digits then bounded? (digitsValue base digits) else none

/-- The characters without their sign, and whether that is a minus. -/
def splitSign : List Char → Bool × List Char
  | '+' :: rest => (false, rest)
  | '-' :: rest => (true, rest)
  | text => (false, text)

/-- The value of an exponent after its mark. -/
def exponent? (text : List Char) : Option Int :=
  let (negative, digits) := splitSign text
  let value : Int := digitsValue 10 digits
  if isDigits Char.isDigit digits then some (if negative then -value else value) else none

/-- The decimal with some digits before and after the point. -/
def decimalOf (whole fraction : List Char) (exponent : Int) : Number.Decimal :=
  let places := (fraction.filter (· != '_')).length
  ⟨digitsValue 10 (whole ++ fraction), exponent - places⟩

/-- Reads a number with a point or an exponent, without its sign. -/
def real? (text : List Char) : Option Number.Decimal :=
  let isMark (c : Char) : Bool := c == 'e' || c == 'E'
  let whole := text.takeWhile fun c ↦ !isMark c && c != '.'
  if isDecimal whole then
    match text.dropWhile fun c ↦ !isMark c && c != '.' with
    | '.' :: rest =>
      let fraction := rest.takeWhile (!isMark ·)
      if isDigits Char.isDigit fraction then
        match rest.dropWhile (!isMark ·) with
        | _ :: exponent => (exponent? exponent).map (decimalOf whole fraction)
        | [] => some (decimalOf whole fraction 0)
      else
        none
    | _ :: exponent => (exponent? exponent).map (decimalOf whole [])
    | [] => none
  else
    none

/-- Whether characters are a number with a point or an exponent, or one that has no digits, after a
sign. A decimal too great for any number is refused, but not one that is too small. -/
def isReal (negative : Bool) (text : List Char) : Bool :=
  text == "inf".toList || text == "nan".toList ||
    (real? text).any fun decimal ↦ negative || !decimal.isInfinite

/-- The number or truth value that a word stands for. -/
def word? (word : List Char) : Option Data :=
  match word with
  | '0' :: 'x' :: digits => based? 16 digits
  | '0' :: 'o' :: digits => based? 8 digits
  | '0' :: 'b' :: digits => based? 2 digits
  | word =>
    if word = "true".toList then some (.boolean true)
    else if word = "false".toList then some (.boolean false)
    else
      let (negative, digits) := splitSign word
      if isDecimal digits then
        let value : Int := digitsValue 10 digits
        bounded? (if negative then -value else value)
      else if isReal negative digits then some .real
      else none

/-- Whether a character may stand in a word. -/
def isWordChar (c : Char) : Bool := c.isAlphanum || c == '_' || c == '+' || c == '-' || c == '.'

/-! ## Dates and times -/

/-- The key of the text of a date. -/
def dateKey : String := "$__toml_private_datetime"

/-- Cuts off a character. -/
def char? (c : Char) : List Char → Option (List Char)
  | d :: rest => if d = c then some rest else none
  | [] => none

/-- Cuts off a number of so many digits. -/
def digits? (count : Nat) (text : List Char) : Option (List Char × List Char) :=
  let digits := (text.take count).takeWhile Char.isDigit
  if digits.length = count then some (digits, text.drop count) else none

/-- Cuts off a number of two digits between bounds. -/
def twoDigits? (least greatest : Nat) (text : List Char) : Option (List Char × List Char) :=
  (digits? 2 text).filter fun (digits, _) ↦
    least ≤ digitsValue 10 digits && digitsValue 10 digits ≤ greatest

/-- The number of days in a month. -/
def daysIn (year month : Nat) : Nat :=
  if month = 2 then
    if year % 4 = 0 ∧ (year % 100 ≠ 0 ∨ year % 400 = 0) then 29 else 28
  else if month ∈ [4, 6, 9, 11] then
    30
  else
    31

/-- Cuts off the day of a year. -/
def day? (text : List Char) : Option (List Char × List Char) := do
  let (year, rest) ← digits? 4 text
  let (month, rest) ← twoDigits? 1 12 (← char? '-' rest)
  let (day, rest) ←
    twoDigits? 1 (daysIn (digitsValue 10 year) (digitsValue 10 month)) (← char? '-' rest)
  return (year ++ '-' :: month ++ '-' :: day, rest)

/-- Cuts off a fraction of a second, of which nine digits count. -/
def fraction (text : List Char) : List Char × List Char :=
  match text with
  | '.' :: rest =>
    let digits := rest.takeWhile Char.isDigit
    let kept := ((digits.take 9).reverse.dropWhile (· == '0')).reverse
    if digits.isEmpty then ([], text)
    else (if kept.isEmpty then [] else '.' :: kept, rest.dropWhile Char.isDigit)
  | text => ([], text)

/-- Cuts off hours and minutes. -/
def clock? (text : List Char) : Option (List Char × List Char) := do
  let (hour, rest) ← twoDigits? 0 23 text
  let (minute, rest) ← twoDigits? 0 59 (← char? ':' rest)
  return (hour ++ ':' :: minute, rest)

/-- Cuts off a time of the day. There may be a leap second. -/
def time? (text : List Char) : Option (List Char × List Char) := do
  let (clock, rest) ← clock? text
  let (second, rest) ← twoDigits? 0 60 (← char? ':' rest)
  let (fraction, rest) := fraction rest
  return (clock ++ ':' :: second ++ fraction, rest)

/-- Cuts off the distance from universal time, if there is one. -/
def offset (text : List Char) : List Char × List Char :=
  match text with
  | 'Z' :: rest | 'z' :: rest => (['Z'], rest)
  | sign :: after =>
    match if sign = '+' ∨ sign = '-' then clock? after else none with
    | some (clock, rest) => ((if clock = "00:00".toList then '+' else sign) :: clock, rest)
    | none => ([], text)
  | [] => ([], [])

/-- Cuts off a day, a time or both, and gives it in its normal form. -/
def date? (text : List Char) : Option (List Char × List Char) :=
  match day? text with
  | none => time? text
  | some (day, rest) =>
    let divided := rest.head?.any fun c ↦ c == 'T' || c == 't' || c == ' '
    match if divided then time? (rest.drop 1) else none with
    | some (time, rest) =>
      let (offset, rest) := offset rest
      some (day ++ 'T' :: time ++ offset, rest)
    | none => some (day, rest)

/-! ## Tables -/

/-- What a key stands for while tables are put together. -/
inductive Node where
  | value (data : Data)
  /-- A table. It is implicit if it was only named on the way to another, and dotted if that was in
  the key of a value. -/
  | table (implicit dotted : Bool) (entries : List (String × Node))
  /-- A row of tables, the last of which may still grow. -/
  | tables (earlier : List (List (String × Node))) (last : List (String × Node))

/-- The entries of a table. -/
abbrev Entries := List (String × Node)

/-- Sets an entry. -/
def put (key : String) (node : Node) : Entries → Entries
  | [] => [(key, node)]
  | (other, found) :: rest =>
    if other = key then (key, node) :: rest else (other, found) :: put key node rest

/-- Changes the table that a header names, whose outer tables are there or come to be. -/
def changeAt (change : String → Entries → Option Entries) : List String → Entries → Option Entries
  | [], _ => none
  | [key], entries => change key entries
  | key :: path, entries =>
    match entries.lookup key with
    | none => (changeAt change path []).map fun inner ↦ put key (.table true false inner) entries
    | some (.table implicit dotted inner) =>
      (changeAt change path inner).map fun inner ↦ put key (.table implicit dotted inner) entries
    | some (.tables earlier last) =>
      (changeAt change path last).map fun last ↦ put key (.tables earlier last) entries
    | some (.value _) => none

/-- Opens a table, which may have been named before but not opened. -/
def openTable (key : String) (entries : Entries) : Option Entries :=
  match entries.lookup key with
  | none => some (put key (.table false false []) entries)
  | some (.table true false inner) => some (put key (.table false false inner) entries)
  | _ => none

/-- Opens a further table of a row. -/
def openNext (key : String) (entries : Entries) : Option Entries :=
  match entries.lookup key with
  | none => some (put key (.tables [] []) entries)
  | some (.tables earlier last) => some (put key (.tables (earlier ++ [last]) []) entries)
  | _ => none

/-- Sets a value in a table. The tables that its key names must not have been opened by a header. -/
def assign (data : Data) : List String → Entries → Option Entries
  | [], _ => none
  | [key], entries =>
    match entries.lookup key with
    | none => some (put key (.value data) entries)
    | some _ => none
  | key :: path, entries =>
    match entries.lookup key with
    | none => (assign data path []).map fun inner ↦ put key (.table true true inner) entries
    | some (.table true dotted inner) =>
      if dotted || path.length > 1 then
        (assign data path inner).map fun inner ↦ put key (.table true dotted inner) entries
      else
        none
    | _ => none

/-- Changes the entries of the table that a header opened. -/
def within (change : Entries → Option Entries) (path : List String) (entries : Entries) :
    Option Entries :=
  if path.isEmpty then change entries
  else
    changeAt (fun key entries ↦
      match entries.lookup key with
      | some (.table implicit dotted inner) =>
        (change inner).map fun inner ↦ put key (.table implicit dotted inner) entries
      | some (.tables earlier last) =>
        (change last).map fun last ↦ put key (.tables earlier last) entries
      | _ => none) path entries

mutual

/-- What a key stands for, as plain data. -/
def Node.toData : Node → Data
  | .value data => data
  | .table _ _ entries => .table (entriesData entries)
  | .tables earlier last => .list (rowData earlier ++ [.table (entriesData last)])

/-- The entries of a table, as plain data. -/
def entriesData : List (String × Node) → List (String × Data)
  | [] => []
  | (key, node) :: rest => (key, node.toData) :: entriesData rest

/-- A row of tables, as plain data. -/
def rowData : List (List (String × Node)) → List Data
  | [] => []
  | entries :: rest => .table (entriesData entries) :: rowData rest

end

/-! ## Values -/

mutual

/-- Reads a value of at most `fuel` levels and parts. -/
def value? : Nat → List Char → Option (Data × List Char)
  | 0, _ => none
  | fuel + 1, text =>
    match text with
    | '"' :: '"' :: '"' :: rest => (tripleQuoted? '"' rest).map fun (s, rest) ↦ (.text s, rest)
    | '"' :: rest => (quoted? '"' rest).map fun (s, rest) ↦ (.text s, rest)
    | '\'' :: '\'' :: '\'' :: rest =>
      (tripleQuoted? '\'' rest).map fun (s, rest) ↦ (.text s, rest)
    | '\'' :: rest => (quoted? '\'' rest).map fun (s, rest) ↦ (.text s, rest)
    | '[' :: rest => (items? fuel rest).map fun (items, rest) ↦ (.list items, rest)
    | '\x7b' :: rest =>
      match skipBlanks rest with
      | '\x7d' :: rest => some (.table [], rest)
      | rest => (pairs? fuel [] rest).map fun (entries, rest) ↦ (.table (entriesData entries), rest)
    | text =>
      match date? text with
      | some (date, rest) => some (.table [(dateKey, .text (String.ofList date))], rest)
      | none => (word? (text.takeWhile isWordChar)).map fun data ↦ (data, text.dropWhile isWordChar)

/-- Reads the items of a list up to its closing bracket. -/
def items? : Nat → List Char → Option (List Data × List Char)
  | 0, _ => none
  | fuel + 1, text => do
    match ← skipLines? (text.length + 1) text with
    | ']' :: rest => return ([], rest)
    | text =>
      let (item, rest) ← value? fuel text
      match ← skipLines? (rest.length + 1) rest with
      | ']' :: rest => return ([item], rest)
      | ',' :: rest =>
        let (items, rest) ← items? fuel rest
        return (item :: items, rest)
      | _ => none

/-- Reads the entries of a table up to its closing brace. -/
def pairs? : Nat → Entries → List Char → Option (Entries × List Char)
  | 0, _, _ => none
  | fuel + 1, entries, text => do
    let (key, rest) ← key? (text.length + 1) text
    match rest with
    | '=' :: rest =>
      let (data, rest) ← value? fuel (skipBlanks rest)
      let entries ← assign data key entries
      match skipBlanks rest with
      | '\x7d' :: rest => return (entries, rest)
      | ',' :: rest => pairs? fuel entries rest
      | _ => none
    | _ => none

end

/-! ## Statements -/

/-- A statement of a file. -/
inductive Statement where
  | table (path : List String)
  | nextTable (path : List String)
  | assignment (key : List String) (data : Data)

/-- Reads one statement. -/
def statement? (text : List Char) : Option (Statement × List Char) := do
  let fuel := text.length + 1
  match text with
  | '[' :: '[' :: rest =>
    match ← key? fuel rest with
    | (path, ']' :: ']' :: rest) => return (.nextTable path, ← endLine? rest)
    | _ => none
  | '[' :: rest =>
    match ← key? fuel rest with
    | (path, ']' :: rest) => return (.table path, ← endLine? rest)
    | _ => none
  | text =>
    match ← key? fuel text with
    | (key, '=' :: rest) =>
      let (data, rest) ← value? fuel (skipBlanks rest)
      return (.assignment key data, ← endLine? rest)
    | _ => none

/-- Reads the statements of a file. -/
def statements? : Nat → List Char → Option (List Statement)
  | 0, _ => none
  | fuel + 1, text => do
    match ← skipLines? (text.length + 1) text with
    | [] => return []
    | text =>
      let (statement, rest) ← statement? text
      return statement :: (← statements? fuel rest)

/-- Puts statements together, given the table that was opened last. -/
def assemble? (path : List String) (entries : Entries) : List Statement → Option Entries
  | [] => some entries
  | .table path :: rest => do assemble? path (← changeAt openTable path entries) rest
  | .nextTable path :: rest => do assemble? path (← changeAt openNext path entries) rest
  | .assignment key data :: rest => do
    assemble? path (← within (assign data key) path entries) rest

/-- The data of a configuration file. -/
def read? (text : List Char) : Option Data := do
  let text := unifyLineEnds (if text.head? = some Text.byteOrderMark then text.drop 1 else text)
  let statements ← statements? (text.length + 1) text
  return .table (entriesData (← assemble? [] [] statements))

end XmlInspect.Toml
