import DtoForge.Console.Terminal

/-! # Main — the program

The program looks up the files its command line names, runs the command on them as values, and then
writes and prints what the run left. -/

namespace DtoForge.Main

/-- What stands at a path whose directory is there. -/
def nodeAt? (path : Files.Path) : IO (Option Files.Node) := do
  try
    let bytes ← IO.FS.readBinFile path.text
    return some (.file bytes.toList)
  catch
    | .inappropriateType .. => return some .directory
    | _ => return none

/-- A file tree with what stands at a path and on the way to it. -/
def lookUp (files : Files.Tree) (path : Files.Path) : IO Files.Tree :=
  (List.range path.names.length).foldlM (fun files n => do
    let here := { path with names := path.names.take (n + 1) }
    match files.resolve here with
    | .error _ => return files
    | .ok place =>
      if (files.node? place).isSome then return files
      else return ((← nodeAt? here).map (files.put place)).getD files) files

/-- Writes what a run left. -/
def store (w : Console.Written) : IO Unit :=
  match w.content with
  | .directory => IO.FS.createDirAll w.path.text
  | .text s => IO.FS.writeFile w.path.text s
  | .archive a => IO.FS.writeBinFile w.path.text ⟨(Packaging.Zip.bytes a).toArray⟩

/-- Runs a command line. What stands at the places it would write to is looked up before it is run
for good. -/
def runWords (words : List String) : IO Console.Run := do
  let level ← IO.getEnv "MOCKAPI_LOG_LEVEL"
  let paths := match Console.Invocation.ofWords words with
    | .ok invocation => invocation.command.paths
    | .error _ => []
  let files ← paths.foldlM lookUp {}
  let tried := Console.run files Http.offline words level
  let files ← tried.session.written.foldlM (fun files w => lookUp files w.path) files
  return Console.run files Http.offline words level

end DtoForge.Main

/-- Runs the words of the command line and ends with the exit code of the run. -/
def main (words : List String) : IO UInt32 := do
  let run ← DtoForge.Main.runWords words
  run.session.written.forM DtoForge.Main.store
  run.outputLines.forM IO.println
  run.errorLines.forM IO.eprintln
  return UInt32.ofNat run.ending.exitCode
