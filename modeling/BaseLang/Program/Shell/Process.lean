import BaseLang.Program.Shell.Expansion
import BaseLang.Program.Tool

/-!
# Processes

* `Executable` : what a file is when it is run as a program;
* `FileSystem.executable` : the program at a path; `FileSystem.search` finds it by its name;
* `Act.launch` : runs a program in a process of its own.
-/

namespace BaseLang

/-- What a file is when it is run: a program that is known, a shell, a program that runs another one with
other variables, or a text for an interpreter. -/
inductive Executable where
  | tool (t : Tool)
  | shell
  | environment
  | interpreted (interpreter : String) (argument : Option String)

/-- What the file of a known program starts with; its name follows. -/
def programMark : String := "\x7fELF"

def Executable.ofContents? (contents : ByteArray) : Option Executable :=
  let cs := (Text.ofBytes contents).toList
  if programMark.toList.isPrefixOf cs then
    match String.ofList (cs.drop programMark.length) with
    | "sh" | "dash" => some .shell
    | "env" => some .environment
    | name => (Tool.ofName? name).map .tool
  else if "#!".toList.isPrefixOf cs then
    let isBlank (c : Char) := c = ' ' || c = '\t'
    let line := ((cs.drop 2).takeWhile (· ≠ '\n')).dropWhile isBlank
    let line := (line.reverse.dropWhile isBlank).reverse
    let interpreter := line.takeWhile (!isBlank ·)
    let argument := (line.drop interpreter.length).dropWhile isBlank
    if interpreter = [] then none
    else some (.interpreted (String.ofList interpreter)
      (if argument = [] then none else some (String.ofList argument)))
  else none

namespace FileSystem

def program (fs : FileSystem) (path : String) : Except OsError ByteArray :=
  match fs.stat (.ofOctets path) with
  | .error e => .error e
  | .ok (.dir _) => .error .permissionDenied
  | .ok (.file contents _ executable) => if executable then .ok contents else .error .permissionDenied

def executable (fs : FileSystem) (path : String) : Except OsError Executable :=
  match fs.program path with
  | .error e => .error e
  | .ok contents =>
    match Executable.ofContents? contents with
    | some x => .ok x
    | none => .error .badFormat

/-- The path of a program in the first of some directories that has it. That it may not be run in one of
them counts if no other one has it. -/
def searchIn (fs : FileSystem) (name : String) (denied : Bool) : List String → Except OsError String
  | [] => .error (if denied then .permissionDenied else .notFound)
  | dir :: dirs =>
    let path := if dir = "" then name else dir ++ "/" ++ name
    match fs.program path with
    | .ok _ => .ok path
    | .error .permissionDenied => fs.searchIn name true dirs
    | .error .notFound | .error .notDirectory => fs.searchIn name denied dirs
    | .error e => .error e

/-- Where programs are looked for by their names if no variable says so. -/
def standardPath : String := "/usr/local/sbin:/usr/local/bin:/usr/sbin:/usr/bin:/sbin:/bin"

/-- The path of a program. Only a name without a slash is looked for. -/
def search (fs : FileSystem) (path : String) (name : String) : Except OsError String :=
  if name.toList.contains '/' then (fs.program name).map fun _ => name
  else if name = "" then .error .notFound
  else fs.searchIn name false ((Text.fields ':' path.toList).map String.ofList)

end FileSystem

namespace Shell

/-- Why a program has not been run, in the words of a shell. -/
def launchMessage : OsError → String
  | .notFound | .notDirectory => "not found"
  | e => e.description

def launchStatus : OsError → Nat
  | .notFound | .notDirectory | .nameTooLong => 127
  | _ => 126

/-- What a program is asked to do with its variables before it runs another one. -/
structure EnvironmentCall where
  environment : List (String × String)
  words : List String

def setVariable (name value : String) (environment : List (String × String)) : List (String × String) :=
  ((Table.ofList environment).insert name value).entries

def EnvironmentCall.read (environment : List (String × String)) : (fuel : Nat) → List String → EnvironmentCall
  | 0, args => ⟨environment, args⟩
  | fuel + 1, args =>
    match args with
    | "-i" :: args | "-" :: args | "--ignore-environment" :: args => read [] fuel args
    | "-u" :: name :: args => read (environment.filter (·.1 ≠ name)) fuel args
    | "--" :: args => assignments environment args
    | args => assignments environment args
where
  /-- The assignments in front of a program. -/
  assignments (environment : List (String × String)) : List String → EnvironmentCall
    | [] => ⟨environment, []⟩
    | arg :: args =>
      let name := arg.toList.takeWhile (· ≠ '=')
      if name ≠ [] && name.length < arg.length then
        assignments (setVariable (String.ofList name) (String.ofList (arg.toList.drop (name.length + 1)))
          environment) args
      else ⟨environment, arg :: args⟩

namespace Act

/-- Runs a known program with what the descriptors of the shell give it. -/
def runTool (t : Tool) (name : String) (args : List String) (environment : List (String × String)) :
    Act Exit := fun s =>
  let (input, fromFile) := s.available 0
  let (o, files) := t ⟨name, args, input, fromFile, environment⟩ s.files
  let s := if o.drained then { s with files }.consume 0 input.size else { s with files }
  (.ok o.exit, o.writes.foldl (fun s (stream, bytes) =>
    s.emit (match stream with
      | .output => 1
      | .errors => 2) bytes) s)

/-- Runs a program at a path in a process of its own. `shell` is what a shell does with its arguments. -/
def launch (shell : List String → Act Unit) (run : Runner) : (fuel : Nat) → (path name : String) →
    (args : List String) → (environment : List (String × String)) → Act (Except OsError Exit)
  | 0, _, _, _, _ => throw .stuck
  | fuel + 1, path, name, args, environment => do
    let s ← session
    match s.files.executable path with
    | .error e => return .error e
    | .ok (.tool t) => return .ok (← runTool t name args environment)
    | .ok (.interpreted interpreter argument) =>
      match ← launch shell run fuel interpreter interpreter (argument.toList ++ path :: args) environment with
      | .error _ => return .error .notFound
      | .ok e => return .ok e
    | .ok .shell =>
      let fresh := { Session.start s.files environment s.openFiles s.descriptors (s.nextPid + 1) s.pid with
        name, writes := s.writes }
      fun s =>
        let (e, child) := untilEnd run (some fresh.pid) (shell args) fresh
        (e.map .ok, { afterProcess s child with documents := s.documents, nextDocument := s.nextDocument })
    | .ok .environment =>
      let call := EnvironmentCall.read environment (args.length + 1) args
      match call.words with
      | [] =>
        print (String.join (call.environment.map fun (name, value) => s!"{name}={value}\n"))
        return .ok (.code 0)
      | word :: args =>
        let refuse (e : OsError) : Act (Except OsError Exit) := do
          Action.modify (·.print 2 s!"{name}: '{word}': {e.description}\n")
          return .ok (.code (launchStatus e))
        match s.files.search ((List.lookup "PATH" call.environment).getD FileSystem.standardPath) word with
        | .error e => refuse e
        | .ok path =>
          match ← launch shell run fuel path word args call.environment with
          | .error e => refuse e
          | .ok e => return .ok e

end Act

end Shell

end BaseLang
