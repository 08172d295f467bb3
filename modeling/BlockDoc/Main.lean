import BlockDoc.CommandLine

/-!
The program: it looks at the files that its arguments name, and writes what the command line gives
for them.
-/

namespace BlockDoc

/-- The paths that a command looks at. -/
def Command.paths : Command → List String
  | .compile file _ config _ => file :: config.toList
  | .check file config => file :: config.toList
  | .test path _ _ => [path]

/-- A path as the file system takes it. -/
def fileEntry (path : String) : IO.FS.DirEntry := { root := ".", fileName := path }

/-- The text of a file, or why it cannot be read. -/
def readEntry (path : String) : IO (Except FileError String) := do
  try
    let bytes ← IO.FS.readBinFile (fileEntry path).path
    match String.fromUTF8? bytes with
    | some text => return .ok text
    | none => return .error (.unreadable "stream did not contain valid UTF-8")
  catch e => return .error (.unreadable (toString e))

/-- The files at a path and below it. -/
partial def loadPath (path : String) : IO FileTree := do
  let place := (fileEntry path).path
  unless ← place.pathExists do return []
  if ← place.isDir then
    let entries ← place.readDir
    let trees ← entries.toList.mapM fun e => loadPath (FilePath.join path e.fileName)
    return trees.flatten
  else return [⟨FileTree.resolve path, ← readEntry path⟩]

end BlockDoc

/-- Runs the program. -/
def main (arguments : List String) : IO UInt32 := do
  let tree ← match BlockDoc.Command.parse arguments with
    | .ok (command, _) => do
      let trees ← command.paths.mapM BlockDoc.loadPath
      pure trees.flatten
    | .error _ => pure []
  let outcome := BlockDoc.runProgram tree arguments
  (← IO.getStdout).putStr outcome.stdout
  (← IO.getStderr).putStr outcome.errorText
  return outcome.code.toUInt32
