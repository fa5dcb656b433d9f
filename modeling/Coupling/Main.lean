import Coupling.Command.Execute

/-!
# The command line

Reads the files that a command may look at into a tree, carries out the command on it, and writes down what came of it.
-/

namespace Coupling.CommandLine

/-- A text as it is printed. Half of a surrogate pair is printed as a question mark. -/
def shown (t : Text) : String := String.ofList (t.map fun c => c.toChar?.getD '?')

/-! ### Reading -/

/-- Reads everything below a place. -/
partial def readEntry (place : String) : IO Entry := do
  let file ← IO.FS.realPath place
  if ← file.isDir then
    let names := (← file.readDir).toList.map fun e => e.fileName
    let entries ← names.mapM fun name => do
      let e ← readEntry (place ++ "/" ++ name)
      pure (Text.ofString name, e)
    pure (.directory entries)
  else
    let bytes ← IO.FS.readBinFile file
    pure (.file bytes.toList)

/-- Adds everything below a place to a tree, if there is anything. -/
def addPlace (t : FileTree) (p : Path) : IO FileTree := do
  let place := Path.resolve t.working p
  try
    let e ← readEntry (shown place.toText)
    pure (t.putAt e place.parts)
  catch _ => pure t

/-- Adds what stands on the way to a place and at the place itself, without what is below it. -/
def addWay (t : FileTree) (p : Path) : IO FileTree := do
  let parts := (Path.resolve t.working p).parts
  (List.range (parts.length + 1)).foldlM (fun t n => do
    let names := parts.take n
    if (t.entries.find? names).isSome then pure t
    else
      try
        let file ← IO.FS.realPath (shown ("/" ++ Text.join "/" names))
        if ← file.isDir then pure (t.putAt (.directory []) names)
        else
          let bytes ← IO.FS.readBinFile file
          pure (t.putAt (.file bytes.toList) names)
      catch _ => pure t) t

/-- The files that a command may look at: those of the project and its modules, the classes that are given, and the file that
the report goes to. -/
def readTree (i : Command.Invocation) : IO FileTree := do
  let working := Path.ofText (← IO.currentDir).toString
  let t ← addWay { working } working
  let t ← addPlace t i.project
  let modules := match (Project.moduleDirectories .standard t i.project).run.run [] with
    | (.ok modules, _) => modules
    | (.error _, _) => []
  let t ← (modules ++ i.classesDirectory.toList).foldlM addPlace t
  (Command.destination? i).toList.foldlM addWay t

/-! ### Writing -/

/-- Writes down the file that the report goes to, if a command changes it. Only a page has the directories above it made. -/
def save (i : Command.Invocation) (before after : FileTree) : IO Unit := do
  for file in Command.destination? i do
    match after.read file with
    | .error _ => pure ()
    | .ok bytes =>
      if (before.read file).toOption ≠ some bytes then
        if i.format = .html then IO.FS.createDirAll (shown file.parent.toText)
        IO.FS.writeBinFile (shown file.toText) bytes.toByteArray

/-- Carries out a command, and gives the status to end with. A failure that is not reported ends the program. -/
def carryOut (i : Command.Invocation) : IO UInt32 := do
  let t ← readTree i
  let (outcome, log) := (Command.execute .standard t i).run []
  let errors ← IO.getStderr
  for line in Command.shownLines i log do errors.putStrLn (shown line)
  IO.print (shown outcome.printed)
  let isSaved ← try save i t outcome.files; pure true catch e =>
    errors.putStrLn s!"Cannot write output: {e}"
    pure false
  match outcome.ending with
  | .ok status => pure (if isSaved then UInt32.ofNat status else 1)
  | .error _ => throw (IO.userError "the command failed and cannot say why")

end Coupling.CommandLine

/-- Analyzes a project, as the arguments say. -/
def main (arguments : List String) : IO UInt32 := do
  match Coupling.Command.parse (arguments.map Coupling.Text.ofString) with
  | .ok i => Coupling.CommandLine.carryOut i
  | .error .help =>
    IO.println (Coupling.CommandLine.shown Coupling.Command.usage)
    pure 0
  | .error (.fault f) =>
    (← IO.getStderr).putStrLn (Coupling.CommandLine.shown (Coupling.Command.usageLine f))
    pure 2
