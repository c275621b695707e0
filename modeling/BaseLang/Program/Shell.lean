import BaseLang.Program.Shell.Run

/-!
# Programs of a file system with a shell

* `FileSystem.installed` : a file system with the directories of programs;
* `Shell.programs` : the programs that are found in such a file system.
-/

namespace BaseLang

namespace FileSystem

/-- A file system with a directory at a location, if there is nothing yet. -/
def withDir (fs : FileSystem) (loc : Location) : FileSystem :=
  if (fs.node? loc).isSome then fs else fs.put loc (.dir fs.clock)

def programNames : List String := "sh" :: "dash" :: "env" :: Tool.table.map Prod.fst

/-- A file system with the directories of programs, and the programs in them. -/
def installed (fs : FileSystem) : FileSystem :=
  let dirs : List Location := [["bin"], ["usr"], ["bin", "usr"], ["dev"], ["etc"], ["tmp"]]
  let fs := dirs.foldl withDir fs
  let places : List Location := [["bin"], ["bin", "usr"]]
  places.foldl (fun fs dir =>
    programNames.foldl (fun fs name =>
      fs.put (name :: dir) (.file (Text.toBytes (programMark ++ name)) fs.clock true)) fs) fs

end FileSystem

namespace Shell

def maxNameBytes : Nat := 255

/-- How many commands may be nested, and how often a loop may go round. -/
def depth : Nat := 10000000

def find (fs : FileSystem) (path program : String) : Except OsError String :=
  if !program.toList.contains '/' && maxNameBytes < program.length then .error .nameTooLong
  else fs.search path program

/-- Runs a program with an empty input. -/
def runAlone (environment : List (String × String)) (program : String) (args : List String) (fs : FileSystem) :
    Except OsError Outcome × FileSystem :=
  match find fs ((List.lookup "PATH" environment).getD FileSystem.standardPath) program with
  | .error e => (.error e, fs)
  | .ok path =>
    let outside := Session.start fs environment #[.text .empty 0, .stream .output, .stream .errors]
      (Table.ofList [(0, 0), (1, 1), (2, 2)]) 1000 1
    let run := Runner.ofFuel depth
    match Act.launch (main run) run depth path program args environment outside with
    | (.ok (.ok e), s) => (.ok ⟨e, s.writes.reverse, false⟩, s.files)
    | (.ok (.error e), _) => (.error e, fs)
    | (.error _, s) => (.ok ⟨.signal 11, s.writes.reverse, false⟩, s.files)

/-- The programs of the file system, which are given some variables. A program is named in UTF-8. -/
def programs (environment : List (String × String)) : Programs := fun program args fs =>
  if (program :: args).any fun text => text.toList.contains '\x00' then (.error .nulInArgument, fs)
  else
    let environment := environment.map fun (name, value) => (Text.octets name, Text.octets value)
    let (outcome, after) := runAlone environment (Text.octets program) (args.map Text.octets) fs
    (outcome, { after with workingDir := fs.workingDir })

end Shell

end BaseLang
