/-!
# Files and directories

The part of a file system that a run of the program looks at. Entries of a directory are kept in
ascending order of their names, which is the order in which files are found.
-/

namespace XmlInspect.Command

/-- What is found under a name. -/
inductive Entry where
  | file (bytes : List UInt8)
  /-- A directory with its entries in ascending order of their names. -/
  | directory (entries : List (String × Entry))

/-- Why a path leads to nothing that can be used. -/
inductive FileFault where
  | notFound
  | notDirectory
  | isDirectory
  deriving DecidableEq, Repr

namespace FileFault

def message : FileFault → String
  | notFound => "No such file or directory (os error 2)"
  | notDirectory => "Not a directory (os error 20)"
  | isDirectory => "Is a directory (os error 21)"

end FileFault

/-- How to find what a path leads to. -/
abbrev Lookup := String → Except FileFault Entry

/-- The bytes of the file that a path leads to. -/
def Lookup.bytes (lookup : Lookup) (path : String) : Except FileFault (List UInt8) :=
  match lookup path with
  | .ok (.file bytes) => .ok bytes
  | .ok (.directory _) => .error .isDirectory
  | .error fault => .error fault

/-! ## Directories of given files -/

/-- Sets an entry among entries in ascending order. -/
def setEntry (name : String) (entry : Entry) : List (String × Entry) → List (String × Entry)
  | [] => [(name, entry)]
  | (other, found) :: rest =>
    if name = other then (name, entry) :: rest
    else if name < other then (name, entry) :: (other, found) :: rest
    else (other, found) :: setEntry name entry rest

/-- Adds a file, and the directories on the way to it. -/
def addFile (bytes : List UInt8) : List String → List (String × Entry) → List (String × Entry)
  | [], entries => entries
  | [name], entries => setEntry name (.file bytes) entries
  | name :: path, entries =>
    let inside :=
      match entries.lookup name with
      | some (.directory inside) => inside
      | _ => []
    setEntry name (.directory (addFile bytes path inside)) entries

/-- The directory that holds just the given files. -/
def Entry.ofFiles (files : List (String × List UInt8)) : Entry :=
  .directory (files.foldl (fun entries (path, bytes) ↦ addFile bytes (path.splitOn "/") entries) [])

/-! ## Paths -/

/-- Goes on by one part of a path. The first entry of the trail is where the path has led so far,
and the others are the directories around it. -/
def follow (trail : List Entry) (part : String) : Except FileFault (List Entry) :=
  match trail with
  | .directory entries :: outer =>
    if part = "" ∨ part = "." then .ok trail
    else if part = ".." then (if outer.isEmpty then .error .notFound else .ok outer)
    else
      match entries.lookup part with
      | some entry => .ok (entry :: trail)
      | none => .error .notFound
  | _ => .error .notDirectory

/-- Finds what a path leads to from a directory. What is outside of the directory is not known. -/
def Entry.lookup (root : Entry) : Lookup := fun path ↦
  if path.isEmpty ∨ path.startsWith "/" then
    .error .notFound
  else
    match (path.splitOn "/").foldlM follow [root] with
    | .ok (entry :: _) => .ok entry
    | .ok [] => .error .notFound
    | .error fault => .error fault

/-! ## Looking for files -/

/-- The path of an entry of a directory. -/
def join (path name : String) : String := if path.endsWith "/" then path ++ name else s!"{path}/{name}"

/-- What stands after the last point of a name, unless the point comes first. -/
def extension? (name : String) : Option String :=
  let chars := name.toList.reverse
  match chars.dropWhile (· != '.') with
  | _ :: _ :: _ => some (String.ofList (chars.takeWhile (· != '.')).reverse)
  | _ => none

/-- Whether a name has one of the given extensions, case aside. -/
def hasExtension (extensions : List String) (name : String) : Bool :=
  match extension? name with
  | some extension => extensions.any fun wanted ↦ wanted.toLower == extension.toLower
  | none => false

mutual

/-- The files below an entry whose names are accepted. -/
def Entry.filesBelow (accepts : String → Bool) (path : String) : Entry →
    List (String × List UInt8)
  | .file _ => []
  | .directory entries => filesIn accepts path entries

/-- The files in and below some entries whose names are accepted. -/
def filesIn (accepts : String → Bool) (path : String) :
    List (String × Entry) → List (String × List UInt8)
  | [] => []
  | (name, .file bytes) :: rest =>
    (if accepts name then [(join path name, bytes)] else []) ++ filesIn accepts path rest
  | (name, entry) :: rest =>
    entry.filesBelow accepts (join path name) ++ filesIn accepts path rest

end

/-- The files that a path stands for: itself, whatever its name, or those below it. -/
def filesAt (lookup : Lookup) (accepts : String → Bool) (path : String) :
    List (String × List UInt8) :=
  match lookup path with
  | .ok (.file bytes) => [(path, bytes)]
  | .ok entry => entry.filesBelow accepts path
  | .error _ => []

end XmlInspect.Command
