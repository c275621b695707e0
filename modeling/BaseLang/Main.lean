import BaseLang.CommandLine.Run
import BaseLang.Program.Shell

/-!
# The program

Reads the files that a command is about, runs the command on them, and writes what it has changed.

* `Snapshot.load`, `Snapshot.store` : files read from the disk, and changes written to it;
* `usage` : what is shown to those who ask for no command;
* `main` : one command.
-/

namespace BaseLang

namespace Snapshot

def location (dir : Location) (p : Path) : Location :=
  p.segments.foldl (fun loc name =>
    if name = "" || name = "." then loc
    else if name = ".." then loc.tail
    else name :: loc) (if p.isAbsolute then [] else dir)

def diskName (loc : Location) : String := "/" ++ "/".intercalate loc.reverse

def timeOf (t : IO.FS.SystemTime) : Time := t.sec * 1000000000 + t.nsec.toNat

/-- The file system with what the disk has at a location, and for a directory also what is in it if this
is asked for. What cannot be read is left out. -/
partial def add (deep : Bool) (fs : FileSystem) (loc : Location) : IO FileSystem := do
  try
    let place ← IO.FS.realPath (diskName loc)
    let found ← place.metadata
    let time := timeOf found.modified
    match found.type with
    | .dir =>
      let mut files := fs.put loc (.dir time)
      if deep then
        for entry in ← place.readDir do
          files ← add deep files (entry.fileName :: loc)
      return files
    | .file => return fs.put loc (.file (← IO.FS.readBinFile place) time false)
    | _ => return fs
  catch _ => return fs

/-- The file system with the directories on the way to a location, and the location itself. -/
def addWay (fs : FileSystem) : Location → IO FileSystem
  | [] => add false fs []
  | name :: loc => do add false (← addWay fs loc) (name :: loc)

def load (fs : FileSystem) (loc : Location) : IO FileSystem := do add true (← addWay fs loc) loc

/-- Writes what has changed between two states of the files. -/
def store (before after : FileSystem) : IO Unit := do
  for loc in before.nodes.keys do
    if (after.node? loc).isNone then
      match before.node? loc with
      | some (.file ..) => IO.FS.removeFile (diskName loc)
      | _ => pure ()
  for (loc, node) in after.nodes.entries do
    if before.node? loc != some node then
      match node with
      | .dir _ => IO.FS.createDirAll (diskName loc)
      | .file contents .. => IO.FS.writeBinFile (diskName loc) contents

def now : IO Time := do
  let (_, place) ← IO.FS.createTempFile
  let time := timeOf (← place.metadata).modified
  IO.FS.removeFile place
  return time

end Snapshot

def Command.places (env : Environment) : Command → List Path
  | process definition plugin conf _ =>
    definition :: conf.getD env.userConfiguration :: directories (plugin.map Plugin.mk) definition
  | status definition plugin _ => definition :: directories (plugin.map Plugin.mk) definition
  | profile transformation _ => [transformation]
where
  /-- The directories of the plugin of a definition. -/
  directories (given : Option Plugin) (definition : Path) : List Path :=
    match given <|> Plugin.ofDefinition? definition with
    | some p => [p.src, p.bin]
    | none => []

/-- What is shown to those who ask for no command. -/
def usage : String :=
  "Usage: basil <COMMAND>\n\nCommands:\n"
    ++ "  process <DEFINITION> [--plugin DIR] [--conf FILE] [--verbose]\n"
    ++ "  status <DEFINITION> [--plugin DIR] [--verbose]\n"
    ++ "  profile <TRANSFORMATION> [--verbose]\n"

def configurationHome : IO Path := do
  match ← IO.getEnv "XDG_CONFIG_HOME" with
  | some dir => return ⟨dir⟩
  | none => return (Path.mk ((← IO.getEnv "HOME").getD "/")).file ".config"

def environment : IO (List (String × String)) := do
  let found ← ["PATH", "HOME", "XDG_CONFIG_HOME"].mapM fun name => do
    return (← IO.getEnv name).map (name, ·)
  return found.filterMap id

def Command.runOnDisk (c : Command) : IO UInt32 := do
  let env : Environment := {
    userConfiguration := Configuration.userFile (← configurationHome)
    programs := Shell.programs (← environment)
    cache := ⟨"/basil-cache"⟩ }
  let dir := Snapshot.location [] ⟨(← IO.currentDir).toString⟩
  let mut files ← Snapshot.addWay { (FileSystem.empty (← Snapshot.now)).installed with workingDir := dir } dir
  for p in c.places env do
    files ← Snapshot.load files (Snapshot.location dir p)
  let (outcome, after) := (c.run env).run files
  Snapshot.store files after
  match outcome with
  | .ok text =>
    (← IO.getStdout).putStr text
    return 0
  | .error e =>
    (← IO.getStderr).putStrLn ("error: " ++ e.message)
    return 1

end BaseLang

def main (args : List String) : IO UInt32 := do
  match BaseLang.Command.parse args with
  | .ok c => c.runOnDisk
  | .error .help =>
    (← IO.getStdout).putStr BaseLang.usage
    return 0
  | .error .version =>
    (← IO.getStdout).putStrLn "basil 0.1.0"
    return 0
  | .error _ =>
    (← IO.getStderr).putStr BaseLang.usage
    return 2
