import XmlInspect.Command.Run

/-!
# The program

Looks at the files that the arguments name, and leaves the rest to `Command.run`. A path that cannot
be looked at is taken for one that leads nowhere.
-/

open XmlInspect

/-- What a path leads to in the file system. -/
partial def loadEntry (path : String) : IO Command.Entry := do
  let place ← IO.FS.realPath path
  if ← place.isDir then
    let names := (← place.readDir).toList.map (·.fileName)
    let entries ← names.mergeSort.mapM fun name ↦ do
      return (name, ← loadEntry (Command.join path name))
    return .directory entries
  else
    return .file (← IO.FS.readBinFile path).toList

/-- What a path leads to, if it leads somewhere. -/
def loadPath (path : String) : IO (String × Except Command.FileFault Command.Entry) := do
  try
    return (path, .ok (← loadEntry path))
  catch _ =>
    return (path, .error .notFound)

/-- The paths that a run looks at. -/
def pathsToLoad (arguments : List String) : List String :=
  match Command.Invocation.ofArguments arguments with
  | .run arguments => arguments.config.toList ++ Command.pathsOf arguments
  | _ => []

def main (arguments : List String) : IO UInt32 := do
  let loaded ← (pathsToLoad arguments).mapM loadPath
  let output := Command.run arguments fun path ↦ (loaded.lookup path).getD (.error .notFound)
  IO.print output.stdout
  return output.exitCode.toUInt32
