import BaseLang.Path
import BaseLang.Table

/-!
# File systems

A tree of directories and files with their contents and modification times, as a value.

* `OsError` : why an operation is refused, with its error number and wording;
* `Location` : a place in the tree, as the names on the way from it to the root;
* `FileSystem.locate` : the location that a path means, seen from the working directory;
* `FileSystem.stat`, `read`, `write`, `makeDir`, `copy`, `rename`, `remove`, `setTime` : the operations.
  What they write carries the time of the file system's clock;
* `FileSystem.listing` : everything below a directory, depth first.
-/

namespace BaseLang

inductive OsError where
  | notFound
  | badFormat
  | permissionDenied
  | busy
  | alreadyExists
  | notDirectory
  | isDirectory
  | invalid
  | nameTooLong
  | notEmpty
  | notRegularFile
  | noTree
  | nulInPath
  | nulInArgument
  deriving DecidableEq

namespace OsError

/-- The error number; conditions that no system call reports have none. -/
def code? : OsError → Option Nat
  | notFound => some 2
  | badFormat => some 8
  | permissionDenied => some 13
  | busy => some 16
  | alreadyExists => some 17
  | notDirectory => some 20
  | isDirectory => some 21
  | invalid => some 22
  | nameTooLong => some 36
  | notEmpty => some 39
  | notRegularFile | noTree | nulInPath | nulInArgument => none

/-- The wording without the number. -/
def description : OsError → String
  | notFound => "No such file or directory"
  | badFormat => "Exec format error"
  | permissionDenied => "Permission denied"
  | busy => "Device or resource busy"
  | alreadyExists => "File exists"
  | notDirectory => "Not a directory"
  | isDirectory => "Is a directory"
  | invalid => "Invalid argument"
  | nameTooLong => "File name too long"
  | notEmpty => "Directory not empty"
  | notRegularFile => "the source path is neither a regular file nor a symlink to a regular file"
  | noTree => "failed to create whole tree"
  | nulInPath => "file name contained an unexpected NUL byte"
  | nulInArgument => "nul byte found in provided data"

/-- The wording, with the number where there is one. -/
def message (e : OsError) : String :=
  match e.code? with
  | some n => s!"{e.description} (os error {n})"
  | none => e.description

end OsError

/-- A time in nanoseconds since the start of 1970. -/
abbrev Time := Int

/-- A place in the tree: its name, the name of the directory that holds it, and so on to the root. -/
abbrev Location := List String

/-- A directory or a file, with the time of its last change. A file may be a program that can be run. -/
inductive Node where
  | dir (modified : Time)
  | file (contents : ByteArray) (modified : Time) (executable : Bool)
  deriving BEq

namespace Node

def modified : Node → Time
  | dir t | file _ t _ => t

def withTime (t : Time) : Node → Node
  | dir _ => dir t
  | file contents _ executable => file contents t executable

def isDir : Node → Bool
  | dir _ => true
  | file .. => false

end Node

/-- A tree of files, the directory that relative paths start from, and a clock. -/
structure FileSystem where
  nodes : Table Location Node
  workingDir : Location
  clock : Time

namespace FileSystem

/-- The file system with nothing but its root. -/
def empty (clock : Time) : FileSystem where
  nodes := Table.empty.insert [] (.dir clock)
  workingDir := []
  clock := clock

def node? (fs : FileSystem) (loc : Location) : Option Node := fs.nodes.get? loc

/-! ## Paths -/

/-- The location reached by following names from a directory. Every step needs a directory to step
from, so a slash or dot at the end does too. -/
def walk (fs : FileSystem) : Location → List String → Except OsError Location
  | loc, [] => .ok loc
  | loc, name :: names =>
    match fs.node? loc with
    | none => .error .notFound
    | some (.file ..) => .error .notDirectory
    | some (.dir _) =>
      if name = "" || name = "." then fs.walk loc names
      else if name = ".." then fs.walk loc.tail names
      else if 255 < name.utf8ByteSize then .error .nameTooLong
      else fs.walk (name :: loc) names

def maxPathBytes : Nat := 4096

/-- Refuses a path that cannot mean anything: one with a NUL character, an empty one, and one that is
too long. -/
def accept (p : Path) : Except OsError Unit :=
  if '\x00' ∈ p.chars then .error .nulInPath
  else if p.text = "" then .error .notFound
  else if maxPathBytes ≤ p.text.utf8ByteSize then .error .nameTooLong
  else .ok ()

/-- The location reached from the start of a path by some names. -/
def follow (fs : FileSystem) (p : Path) (names : List String) : Except OsError Location :=
  match accept p with
  | .error e => .error e
  | .ok () => fs.walk (if p.isAbsolute then [] else fs.workingDir) names

/-- The location that a path means. All of it but the last name has to be there. -/
def locate (fs : FileSystem) (p : Path) : Except OsError Location := fs.follow p p.segments

def stat (fs : FileSystem) (p : Path) : Except OsError Node :=
  match fs.locate p with
  | .error e => .error e
  | .ok loc =>
    match fs.node? loc with
    | some node => .ok node
    | none => .error .notFound

def isDir (fs : FileSystem) (p : Path) : Bool :=
  match fs.stat p with
  | .ok (.dir _) => true
  | _ => false

def isFile (fs : FileSystem) (p : Path) : Bool :=
  match fs.stat p with
  | .ok (.file ..) => true
  | _ => false

def holds (fs : FileSystem) (p : Path) : Bool := (fs.stat p).toOption.isSome

/-- A path without the slashes at its end, and whether it had any. -/
def bare (p : Path) : Path × Bool :=
  let cs := p.chars.reverse.dropWhile (· = '/')
  (if cs = [] then p else Path.ofChars cs.reverse, p.chars.getLast? = some '/')

/-- The location that a path means without the slashes at its end. -/
def locateBare (fs : FileSystem) (p : Path) : Except OsError Location :=
  fs.follow p (bare p).1.segments

/-! ## Changes -/

def put (fs : FileSystem) (loc : Location) (node : Node) : FileSystem :=
  { fs with nodes := fs.nodes.insert loc node }

/-- Gives the directory that holds a location the time of the clock. -/
def touchParent (fs : FileSystem) (loc : Location) : FileSystem :=
  match fs.node? loc.tail with
  | some node => fs.put loc.tail (node.withTime fs.clock)
  | none => fs

/-- Puts a node where there was none. -/
def add (fs : FileSystem) (loc : Location) (node : Node) : FileSystem :=
  (fs.touchParent loc).put loc node

/-- Removes a location with everything below it. -/
def prune (fs : FileSystem) (loc : Location) : FileSystem :=
  { fs with nodes := fs.nodes.filterKeys fun l => !loc.isSuffixOf l }

def tick (fs : FileSystem) (duration : Time) : FileSystem :=
  { fs with clock := fs.clock + duration }

/-! ## Operations -/

def read (fs : FileSystem) (p : Path) : Except OsError ByteArray :=
  match fs.stat p with
  | .ok (.file contents ..) => .ok contents
  | .ok (.dir _) => .error .isDirectory
  | .error e => .error e

/-- Where a path can be opened for writing: not at a directory, nor behind a slash. -/
def target (fs : FileSystem) (p : Path) : Except OsError Location :=
  match fs.locateBare p with
  | .error e => .error e
  | .ok loc =>
    if (bare p).2 then .error .isDirectory
    else match fs.node? loc with
      | some (.dir _) => .error .isDirectory
      | _ => .ok loc

/-- Puts a file at a location. One that is there already stays a program if it is one, and a new one is
as `executable` says. -/
def store (fs : FileSystem) (loc : Location) (contents : ByteArray) (executable : Bool) : FileSystem :=
  match fs.node? loc with
  | some (.file _ _ executable) => fs.put loc (.file contents fs.clock executable)
  | some (.dir _) => fs.put loc (.file contents fs.clock executable)
  | none => fs.add loc (.file contents fs.clock executable)

def write (fs : FileSystem) (p : Path) (contents : ByteArray) : Except OsError FileSystem :=
  (fs.target p).map fun loc => fs.store loc contents false

def makeDir (fs : FileSystem) (p : Path) : Except OsError FileSystem :=
  match fs.locateBare p with
  | .error e => .error e
  | .ok loc =>
    match fs.node? loc with
    | some _ => .error .alreadyExists
    | none => .ok (fs.add loc (.dir fs.clock))

/-- Copies a file, as a program if it is one. The destination is emptied before the source is read, so a
file copied onto itself is empty afterwards. -/
def copy (fs : FileSystem) (source destination : Path) : Except OsError FileSystem :=
  match fs.locate source with
  | .error e => .error e
  | .ok loc =>
    match fs.node? loc with
    | none => .error .notFound
    | some (.dir _) => .error .notRegularFile
    | some (.file contents _ executable) =>
      match fs.target destination with
      | .error e => .error e
      | .ok loc' =>
        let node := .file (if loc' = loc then .empty else contents) fs.clock executable
        .ok (if (fs.node? loc').isSome then fs.put loc' node else fs.add loc' node)

/-- Removes a file, or a directory with everything in it. -/
def remove (fs : FileSystem) (p : Path) : Except OsError FileSystem :=
  match fs.locate p with
  | .error e => .error e
  | .ok [] => .error .busy
  | .ok loc =>
    match fs.node? loc with
    | none => .error .notFound
    | some _ => .ok ((fs.prune loc).touchParent loc)

/-- A location moved along with one that it is at or below. -/
def relocate (source destination : Location) (loc : Location) : Location :=
  if source.isSuffixOf loc then loc.take (loc.length - source.length) ++ destination else loc

def hasChildren (fs : FileSystem) (loc : Location) : Bool :=
  fs.nodes.keys.any fun l => l != loc && loc.isSuffixOf l

/-- Moves a location, with everything below it, to one where nothing is or can be replaced. -/
def move (fs : FileSystem) (source destination : Location) : FileSystem :=
  let pruned := fs.prune destination
  let moved := { pruned with
    nodes := Table.ofList (pruned.nodes.entries.map fun (l, node) => (relocate source destination l, node)) }
  (moved.touchParent source).touchParent destination

/-- Whether the last name of a path, as it is written, is one that cannot be renamed. -/
def isFixed (p : Path) : Bool :=
  match (bare p).1.segments.getLast? with
  | some name => name = "" || name = "." || name = ".."
  | none => true

def renameAt (fs : FileSystem) (loc loc' : Location) : Except OsError FileSystem :=
  match fs.node? loc, fs.node? loc' with
  | none, _ => .error .notFound
  | some node, node' =>
    if loc = loc' then .ok fs
    else if loc.isSuffixOf loc' then .error .invalid
    else match node, node' with
      | .file .., some (.dir _) => .error .isDirectory
      | .dir _, some (.file ..) => .error .notDirectory
      | .dir _, some (.dir _) =>
        if fs.hasChildren loc' then .error .notEmpty else .ok (fs.move loc loc')
      | _, _ => .ok (fs.move loc loc')

def rename (fs : FileSystem) (source destination : Path) : Except OsError FileSystem :=
  match accept source, accept destination with
  | .error e, _ => .error e
  | .ok (), .error e => .error e
  | .ok (), .ok () =>
    if isFixed source || isFixed destination then .error .busy
    else match fs.locate source, fs.locateBare destination with
      | .error e, _ => .error e
      | .ok _, .error e => .error e
      | .ok loc, .ok loc' => fs.renameAt loc loc'

def setTime (fs : FileSystem) (p : Path) (t : Time) : Except OsError FileSystem :=
  match fs.locate p with
  | .error e => .error e
  | .ok loc =>
    match fs.node? loc with
    | none => .error .notFound
    | some node => .ok (fs.put loc (node.withTime t))

/-! ## Listing -/

/-- The order of a depth-first listing: by the names from the top, a directory before its contents. -/
def listedBefore : List String → List String → Bool
  | [], _ => true
  | _ :: _, [] => false
  | a :: as, b :: bs => if a = b then listedBefore as bs else decide (a ≤ b)

/-- Everything below a directory, with the names from there on. -/
def listing (fs : FileSystem) (dir : Location) : List (List String × Node) :=
  let below := fs.nodes.entries.filterMap fun e =>
    if dir.isSuffixOf e.1 && e.1 != dir then some ((e.1.take (e.1.length - dir.length)).reverse, e.2)
    else none
  below.mergeSort fun a b => listedBefore a.1 b.1

end FileSystem

end BaseLang
