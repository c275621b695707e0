import BaseLang.Program.Shell.Script

/-!
# Sessions of shells

* `OpenFile` : what a descriptor of a shell reads from or writes to;
* `Session` : all that a shell knows while it runs commands;
* `Interrupt` : why a shell leaves what it is doing;
* `Act` : what a shell does;
* `Session.available`, `Session.emit` : what can be read from a descriptor, and what is written to it.
-/

namespace BaseLang.Shell

/-- What is behind a descriptor: a stream of the program, nothing, a text that is being read, and a file of
which so much has been read or written. -/
inductive OpenFile where
  | stream (s : Stream)
  | nothing
  | text (contents : ByteArray) (position : Nat)
  | file (loc : Location) (position : Nat) (opening : Opening)

/-- A variable. One without a value is only marked. -/
structure Variable where
  value : Option String
  exported : Bool
  readOnly : Bool

/-- All that a shell knows while it runs commands.

* `openFiles`, `descriptors` : open files, which are never forgotten, and those that have a number;
* `name`, `params` : the name of the script, and its arguments;
* `functions`, `documents` : what has been read before it is used;
* `frames` : what the local variables of the functions that are running had been;
* `loops` : how many loops are running;
* `status`, `lastOutput` : of the last command, and of the last substitution since it has started;
* `options` : their letters;
* `traps` : what is done on a signal, where zero is the end of the shell;
* `line`, `builtin` : where the command that is running stands, and the builtin that runs it;
* `readLine` : how far the script has been read;
* `pid`, `nextPid`, `lastJob` : numbers of processes;
* `writes` : what has been written to the streams, the last one first. -/
structure Session where
  files : FileSystem
  openFiles : Array OpenFile
  descriptors : Table Nat Nat
  writes : List (Stream × ByteArray)
  bindings : Table String Variable
  functions : Table String Command
  documents : List (Nat × Word)
  nextDocument : Nat
  name : String
  params : List String
  frames : List (List (String × Option Variable))
  loops : Nat
  status : Nat
  lastOutput : Option Nat
  options : List Char
  traps : Table Nat String
  line : Nat
  readLine : Nat
  builtin : Option String
  pid : Nat
  parent : Nat
  nextPid : Nat
  lastJob : Option Nat
  optionPlace : Nat

/-- Why a shell leaves what it is doing: it ends, also after an error, a program has taken its place, a
process is killed, loops end or go on with the next round, or a function ends. -/
inductive Interrupt where
  | exit (status : Nat)
  | error
  | replaced (e : Exit)
  | kill (pid signal : Nat)
  | leave (loops : Nat)
  | next (loops : Nat)
  | return (status : Nat)
  | stuck

abbrev Act := Action Session Interrupt

/-- How a command is run: whether its failure is looked at, and whether it is the last one of a subshell. -/
structure Mode where
  tested : Bool
  last : Bool

/-- What runs commands, and the commands in a text of octets. -/
structure Runner where
  command : Mode → Command → Act Unit
  text : String → Act Unit

/-- A command among others, whose failure is not looked at. -/
def Mode.inner : Mode := ⟨false, false⟩

def Mode.condition : Mode := ⟨true, false⟩

namespace Session

/-! ## Descriptors -/

/-- What is behind a descriptor, with its place among the open files. -/
def openFile? (s : Session) (descriptor : Nat) : Option (Nat × OpenFile) :=
  match s.descriptors.get? descriptor with
  | some i => s.openFiles[i]?.map (i, ·)
  | none => none

def attach (s : Session) (descriptor : Nat) (f : OpenFile) : Session :=
  { s with
    openFiles := s.openFiles.push f
    descriptors := s.descriptors.insert descriptor s.openFiles.size }

def rest (bytes : ByteArray) (position : Nat) : ByteArray := bytes.extract position bytes.size

def available (s : Session) (descriptor : Nat) : ByteArray × Bool :=
  match s.openFile? descriptor with
  | some (_, .text contents position) => (rest contents position, false)
  | some (_, .file loc position _) =>
    match s.files.node? loc with
    | some (.file contents ..) => (rest contents position, true)
    | _ => (.empty, true)
  | _ => (.empty, false)

/-- Goes on behind bytes that have been read from a descriptor. -/
def consume (s : Session) (descriptor count : Nat) : Session :=
  match s.openFile? descriptor with
  | some (i, .text contents position) =>
    { s with openFiles := s.openFiles.setIfInBounds i (.text contents (position + count)) }
  | some (i, .file loc position opening) =>
    { s with openFiles := s.openFiles.setIfInBounds i (.file loc (position + count) opening) }
  | _ => s

/-- Bytes with others written over them from a position on. -/
def overwrite (contents : ByteArray) (position : Nat) (bytes : ByteArray) : ByteArray :=
  contents.extract 0 position ++ ⟨Array.replicate (position - contents.size) 0⟩ ++ bytes
    ++ rest contents (position + bytes.size)

def emit (s : Session) (descriptor : Nat) (bytes : ByteArray) : Session :=
  if bytes.isEmpty then s
  else match s.openFile? descriptor with
    | some (_, .stream stream) => { s with writes := (stream, bytes) :: s.writes }
    | some (i, .text contents position) =>
      { s with openFiles := s.openFiles.setIfInBounds i (.text (contents ++ bytes) position) }
    | some (i, .file loc position opening) =>
      match s.files.node? loc with
      | some (.file contents _ executable) =>
        let position := if opening = .append then contents.size else position
        let contents := overwrite contents position bytes
        { s with
          files := s.files.put loc (.file contents s.files.clock executable)
          openFiles := s.openFiles.setIfInBounds i (.file loc (position + bytes.size) opening) }
      | _ => s
    | _ => s

def print (s : Session) (descriptor : Nat) (text : String) : Session :=
  s.emit descriptor (Text.toBytes text)

/-! ## Variables -/

/-- The working directory, as octets. -/
def workingPath (s : Session) : String := Text.octets ("/" ++ "/".intercalate s.files.workingDir.reverse)

def value? (s : Session) (name : String) : Option String := (s.bindings.get? name).bind Variable.value

/-- Gives a variable a value, unless it can only be read. -/
def assign (s : Session) (name value : String) : Except Unit Session :=
  let known := (s.bindings.get? name).getD ⟨none, false, false⟩
  if known.readOnly then .error ()
  else
    let exported := known.exported || s.options.contains 'a'
    .ok { s with bindings := s.bindings.insert name { known with value := some value, exported } }

def unset (s : Session) (name : String) : Session :=
  { s with bindings := s.bindings.filterKeys (· ≠ name) }

def exported (s : Session) : List (String × String) :=
  s.bindings.entries.filterMap fun (name, v) =>
    if v.exported then v.value.map (name, ·) else none

def hasOption (s : Session) (letter : Char) : Bool := s.options.contains letter

def start (files : FileSystem) (environment : List (String × String)) (openFiles : Array OpenFile)
    (descriptors : Table Nat Nat) (pid parent : Nat) : Session :=
  let given := Table.ofList (environment.map fun (name, value) => (name, Variable.mk (some value) true false))
  let s : Session := {
    files, openFiles, descriptors, writes := [], bindings := given, functions := .empty, documents := [],
    nextDocument := 0, name := "", params := [], frames := [], loops := 0, status := 0, lastOutput := none,
    options := [], traps := .empty, line := 1, readLine := 1, builtin := none, pid, parent,
    nextPid := pid + 1, lastJob := none, optionPlace := 0 }
  let own := [("IFS", " \t\n"), ("OPTIND", "1"), ("PPID", toString parent), ("PS1", "$ "), ("PS2", "> "),
    ("PS4", "+ "), ("PWD", s.workingPath)]
  { s with
    bindings := own.foldl (fun t (name, value) =>
      t.insert name ⟨some value, name = "PWD" && (t.get? name).any (·.exported), false⟩) given }

end Session

namespace Act

def session : Act Session := .query .ok

def print (text : String) : Act Unit := .modify (·.print 1 text)

/-- Writes a line to the error output, behind the name of the script, the line of the command and the name
of the builtin that runs it. -/
def complain (message : String) : Act Unit := .modify fun s =>
  let label := match s.builtin with
    | some name => name ++ ": "
    | none => ""
  s.print 2 s!"{s.name}: {s.line}: {label}{message}\n"

def setStatus (status : Nat) : Act Unit := .modify fun s => { s with status }

def abort {α : Type} (message : String) : Act α := do
  complain message
  throw .error

def assign (name value : String) : Act Unit := do
  match (← session).assign name value with
  | .ok s => .modify fun _ => s
  | .error _ => abort s!"{name}: is read only"

end Act

end BaseLang.Shell
